import ProtoSchema.Proofs.Document.Sound

/-!
Which declarations stand in which. A document is not read if a oneof or a service in it lists a
declaration of a kind that does not belong there. In a message every kind is read.
-/
namespace ProtoSchema
open Document.Grammar

/-- The kinds of the declarations that belong in one of this kind. -/
def DeclKind.holds : DeclKind → List DeclKind
  | message => [field, oneof, enum, message]
  | oneof => [field]
  | service => [method]
  | _ => []

/-- All that stands in the declaration belongs there. -/
def Decl.Proper (decl : Declaration) : Prop := ∀ m ∈ decl.members, m.kind ∈ decl.kind.holds

namespace Document

/-- The value or a declaration in it, at any depth, is of kind `outer` and lists one that does not
belong in it. -/
inductive Misplaces (outer : DeclKind) : Json → Prop where
  | here {fields : List (String × Json)} {list : String} {place : Place} {item : Json}
    {inner : DeclKind} (hasKind : HasKind outer.name (.obj fields))
    (listing : outer.listing? = some (list, place)) (mem : item ∈ listed list fields)
    (innerKind : HasKind inner.name item) (misplaced : inner ∉ outer.holds) :
    Misplaces outer (.obj fields)
  | inside {fields : List (String × Json)} {kind : DeclKind} {list : String} {place : Place}
    {item : Json} (hasKind : HasKind kind.name (.obj fields))
    (listing : kind.listing? = some (list, place)) (mem : item ∈ listed list fields)
    (misplaces : Misplaces outer item) :
    Misplaces outer (.obj fields)

/-- Some declaration of kind `outer` in the file lists one that does not belong in it. -/
def SchemaMisplaces (outer : DeclKind) (document : Json) : Prop :=
  ∃ fields, document = .obj fields ∧ ∃ item ∈ listed "declarations" fields, Misplaces outer item

section
variable {fields : List (String × Json)} {decl : Declaration} {list : String} {place : Place}
  {outer : DeclKind}

/-- A declaration that lists others misplaces something itself, or one of the others does. -/
theorem misplaces_iff (h : readDeclaration (.obj fields) = .ok decl)
    (hListing : decl.kind.listing? = some (list, place)) :
    Misplaces outer (.obj fields) ↔
      (decl.kind = outer ∧ ∃ item ∈ listed list fields, ∃ inner : DeclKind,
        HasKind inner.name item ∧ inner ∉ outer.holds) ∨
      ∃ item ∈ listed list fields, Misplaces outer item := by
  have hKind := hasKind_of_readDeclaration h
  constructor
  · intro hMisplaces
    cases hMisplaces with
    | here hasKind listing mem innerKind misplaced =>
      obtain rfl := (hKind _).mp hasKind
      rw [hListing] at listing
      cases listing
      exact .inl ⟨rfl, _, mem, _, innerKind, misplaced⟩
    | inside hasKind listing mem misplaces =>
      obtain rfl := (hKind _).mp hasKind
      rw [hListing] at listing
      cases listing
      exact .inr ⟨_, mem, misplaces⟩
  · rintro (⟨rfl, item, hMem, inner, hInner, hMisplaced⟩ | ⟨item, hMem, hMisplaces⟩)
    · exact .here ((hKind _).mpr rfl) hListing hMem hInner hMisplaced
    · exact .inside ((hKind _).mpr rfl) hListing hMem hMisplaces

theorem not_misplaces (h : readDeclaration (.obj fields) = .ok decl)
    (hListing : decl.kind.listing? = none) : ¬ Misplaces outer (.obj fields) := by
  have hKind := hasKind_of_readDeclaration h
  intro hMisplaces
  cases hMisplaces with
  | here hasKind listing =>
    rw [← (hKind _).mp hasKind, hListing] at listing
    cases listing
  | inside hasKind listing =>
    rw [← (hKind _).mp hasKind, hListing] at listing
    cases listing

theorem proper_iff (h : readDeclaration (.obj fields) = .ok decl)
    (hListing : decl.kind.listing? = some (list, place)) :
    decl.Proper ↔ ¬ ∃ item ∈ listed list fields, ∃ inner : DeclKind,
      HasKind inner.name item ∧ inner ∉ decl.kind.holds := by
  have hMembers := forall₂_members_of_readDeclaration h hListing
  have hItem : ∀ item ∈ listed list fields, ∀ m : Declaration,
      readDeclaration item = .ok m ∧ place.Admits m.kind →
      ((¬ ∃ inner : DeclKind, HasKind inner.name item ∧ inner ∉ decl.kind.holds) ↔
        m.kind ∈ decl.kind.holds) := by
    intro item _ m hm
    simp [hasKind_of_readDeclaration hm.1]
  rw [Decl.Proper, ← forall_mem_iff_of_forall₂ hMembers hItem]
  simp

end

/-- The declarations of kind `outer` in one that was read hold what belongs in them exactly if
nothing was misplaced. -/
theorem forall_proper_iff_of_readDeclaration {outer : DeclKind} {value : Json} :
    ∀ decl, readDeclaration value = .ok decl →
      ((∀ node ∈ decl.nodes, node.kind = outer → node.Proper) ↔ ¬ Misplaces outer value) := by
  induction value using induct with
  | other value hKind =>
    intro decl h
    obtain ⟨fields, name, rfl, -⟩ := readDeclaration_eq_ok_iff.mp h
    exact absurd rfl hKind
  | obj fields ih =>
    intro decl h
    rw [Decl.forall_mem_nodes (fun node => node.kind = outer → node.Proper)]
    cases hListing : decl.kind.listing? with
    | none =>
      have hNone := members_eq_nil_of_listing? hListing
      refine iff_of_true ⟨fun _ m hm => ?_, fun m hm => ?_⟩ (not_misplaces h hListing)
      all_goals
        rw [hNone] at hm
        cases hm
    | some listing =>
      obtain ⟨list, place⟩ := listing
      have hMembers := forall_mem_iff_of_forall₂ (forall₂_members_of_readDeclaration h hListing)
        fun item hItem m hm => (ih list item hItem m hm.1).symm
      rw [misplaces_iff h hListing, not_or, ← hMembers]
      refine and_congr ?_ (by simp)
      rw [not_and]
      refine forall_congr' fun hOuter => ?_
      rw [proper_iff h hListing, hOuter]

/-- Members of oneofs and operations of services belong where they are. -/
theorem proper_of_sound {fields : List (String × Json)} {decl : Declaration}
    (h : Sound fields decl) (hKind : decl.kind ≠ .message) : decl.Proper := by
  intro m hm
  cases decl with
  | message => exact absurd rfl hKind
  | oneof name members =>
    obtain ⟨field, rfl⟩ := (h.choices name members rfl).2 m hm
    exact List.mem_singleton.mpr rfl
  | service name operations =>
    obtain ⟨method, -, rfl⟩ := List.mem_map.mp hm
    exact List.mem_singleton.mpr rfl
  | foreign value => exact value.elim
  | _ => cases hm

theorem forall_proper_iff_of_readSchema {outer : DeclKind} {document : Json} {schema : Schema}
    (h : readSchema document = .ok schema) :
    (∀ node ∈ schema.nodes, node.kind = outer → node.Proper) ↔
      ¬ SchemaMisplaces outer document := by
  obtain ⟨fields, rfl⟩ := exists_fields_of_readSchema h
  obtain ⟨-, -, -, hDecls⟩ := readSchema_obj_eq_ok_iff.mp h
  have hItems := (readMembers_eq_ok hDecls).1
  have hNodes : (∀ item ∈ listed "declarations" fields, ¬ Misplaces outer item) ↔
      ∀ decl ∈ schema.declarations, ∀ node ∈ decl.nodes, node.kind = outer → node.Proper :=
    forall_mem_iff_of_forall₂ hItems fun item _ decl hDecl =>
      (forall_proper_iff_of_readDeclaration decl hDecl.1).symm
  rw [SchemaFile.nodes, List.forall_mem_flatMap, ← hNodes]
  simp [SchemaMisplaces]

/-- A document is not read if a oneof in it lists anything but fields or a service anything but
methods. The messages of a tree that was read hold fields, oneofs, enums and messages exactly if no
message in the document lists anything else, which does not keep it from being read: whatever can be
read by itself can be read in a message. -/
theorem proper_iff_of_readSchema (document : Json) :
    (∀ outer : DeclKind, outer ≠ .message → SchemaMisplaces outer document →
      ¬ Succeeds (readSchema document)) ∧
    (∀ schema, readSchema document = .ok schema →
      ((∀ node ∈ schema.nodes, node.kind = .message → node.Proper) ↔
        ¬ SchemaMisplaces .message document)) ∧
    ∀ fields, HasKind "message" (.obj fields) → Required IsString "name" fields →
      Optional IsList "declarations" fields →
      Optional (IsListOf IsReservation) "reservations" fields →
      (Succeeds (readDeclaration (.obj fields)) ↔
        ∀ item ∈ listed "declarations" fields, Succeeds (readDeclaration item)) := by
  refine ⟨?_, fun schema => forall_proper_iff_of_readSchema, ?_⟩
  · rintro outer hOuter hMisplaces ⟨schema, h⟩
    refine (forall_proper_iff_of_readSchema h).mp (fun node hNode hKind => ?_) hMisplaces
    obtain ⟨fields, hSound⟩ := (sound_of_readSchema h).1 node hNode
    exact proper_of_sound hSound (by rwa [hKind])
  · intro fields hKind hName hList hReservations
    obtain ⟨name, hRead⟩ := exists_readDeclarationOf DeclKind.message hKind hName
    rw [hRead, succeeds_message_iff, and_iff_left hReservations, and_iff_right hList]

/-- A document with a method in a message. -/
def misplacedDocument : Json :=
  .obj [("declarations", .arr [
    .obj [("kind", .str "message"), ("name", .str "M"), ("declarations", .arr [
      .obj [("kind", .str "method"), ("name", .str "Get"), ("input", .str "A"),
        ("returns", .str "B")]])]])]

def misplacedMessage : Declaration :=
  .message "M" [.method ⟨"Get", .ref "A", .ref "B", ⟨false, false⟩⟩] []

theorem not_proper_misplacedDocument : ∃ schema, readSchema misplacedDocument = .ok schema ∧
    ∃ node ∈ schema.nodes, node.kind = .message ∧ ¬ node.Proper := by
  have hRead : readSchema misplacedDocument = .ok { declarations := [misplacedMessage] } := by
    decide +kernel
  have hNotHeld : DeclKind.method ∉ DeclKind.message.holds := by decide
  exact ⟨_, hRead, misplacedMessage, List.mem_cons_self, rfl,
    fun hProper => hNotHeld (hProper _ List.mem_cons_self)⟩

end Document
end ProtoSchema
