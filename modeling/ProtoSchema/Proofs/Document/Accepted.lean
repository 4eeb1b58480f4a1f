import ProtoSchema.Proofs.Document.Items
import ProtoSchema.Proofs.Document.RoundTrip

/-! Schemas that have been read: they are readable, their types have the tags that their names ask
for and their ranges are pairs, so that their documents read as the same schemas. -/
namespace ProtoSchema
variable {φ : Type}

namespace Decl

/-- At every depth, types have the tags that their names ask for, and ranges are held as pairs. -/
def AllSettled (decl : Decl φ) : Prop := ∀ node ∈ decl.nodes, node.Settled

theorem allSettled_iff (decl : Decl φ) :
    decl.AllSettled ↔ decl.Settled ∧ ∀ m ∈ decl.members, m.AllSettled :=
  forall_mem_nodes _ decl

theorem allSettled_field (f : Field) : (field f : Decl φ).AllSettled ↔ f.type.Tagged := by
  rw [allSettled_iff]
  simp [Settled, types, reservations, members]

theorem allSettled_method (m : Method) :
    (method m : Decl φ).AllSettled ↔ m.input.Tagged ∧ m.returns.Tagged := by
  rw [allSettled_iff]
  simp [Settled, types, reservations, members]

theorem allSettled_enum (e : Enum) : (enum e : Decl φ).AllSettled := by
  rw [allSettled_iff]
  simp [Settled, types, reservations, members]

theorem allSettled_message (name : String) (ms : List (Decl φ)) (rs : List Reservation) :
    (message name ms rs).AllSettled ↔ (∀ r ∈ rs, r.Paired) ∧ ∀ m ∈ ms, m.AllSettled := by
  rw [allSettled_iff]
  simp [Settled, types, reservations, members]

theorem allSettled_oneof (name : String) (ms : List (Decl φ)) :
    (oneof name ms).AllSettled ↔ ∀ m ∈ ms, m.AllSettled := by
  rw [allSettled_iff]
  simp [Settled, types, reservations, members]

theorem allSettled_service (name : String) (operations : List Method) :
    (service name operations : Decl φ).AllSettled ↔
      ∀ m ∈ operations, (method m : Decl φ).AllSettled := by
  rw [allSettled_iff]
  simp [Settled, types, reservations, members]

end Decl

theorem SchemaFile.settled_iff (file : SchemaFile φ) :
    file.Settled ↔ ∀ decl ∈ file.declarations, decl.AllSettled :=
  List.forall_mem_flatMap

namespace Document

theorem tagged_named (name : String) : (TypeExpr.named name).Tagged := by
  by_cases h : name ∈ scalarNames <;> simp [TypeExpr.named, TypeExpr.Tagged, h]

theorem keysFlat_named (name : String) : (TypeExpr.named name).KeysFlat := by
  by_cases h : name ∈ scalarNames <;> simp [TypeExpr.named, TypeExpr.KeysFlat, h]

theorem keysFlat_and_tagged_of_readType {value : Json} {type : TypeExpr}
    (h : readType value = .ok type) : type.KeysFlat ∧ type.Tagged := by
  induction type generalizing value with
  | map key valueType hKey hValue =>
    obtain ⟨name, rfl, hType⟩ | ⟨k, v, _, _, rfl, hk, hMap, hv, hType⟩ := readType_eq_ok_iff.mp h
    · rw [hType]
      exact ⟨keysFlat_named name, tagged_named name⟩
    · cases hType
      obtain ⟨hFlat, hTagged⟩ := hKey hk
      obtain ⟨hFlat', hTagged'⟩ := hValue hv
      exact ⟨⟨hMap, hFlat, hFlat'⟩, hTagged, hTagged'⟩
  | _ =>
    obtain ⟨name, rfl, hType⟩ | ⟨_, _, _, _, -, -, -, -, hType⟩ := readType_eq_ok_iff.mp h
    · rw [hType]
      exact ⟨keysFlat_named name, tagged_named name⟩
    · cases hType

section
variable {fields : List (String × Json)} {name : String}

theorem keysFlat_and_tagged_of_readAttribute {type : TypeExpr} {absent : Json}
    (h : readAttribute fields name absent readType = .ok type) : type.KeysFlat ∧ type.Tagged :=
  keysFlat_and_tagged_of_readType (under_eq_ok_iff.mp h)

theorem paired_of_readReservation {value : Json} {reservation : Reservation}
    (h : readReservation value = .ok reservation) : reservation.Paired := by
  unfold readReservation at h
  split at h
  · cases h; exact trivial
  · cases h; exact trivial
  · obtain ⟨first, -, h⟩ := bind_eq_ok_iff.mp h
    obtain ⟨last, -, h⟩ := bind_eq_ok_iff.mp h
    cases h
    rfl
  · cases h

theorem paired_of_readAttribute {reservations : List Reservation} {absent : Json}
    (h : readAttribute fields name absent (readList readReservation) = .ok reservations) :
    ∀ r ∈ reservations, r.Paired := by
  obtain ⟨items, -, hItems⟩ := readList_eq_ok_iff.mp (under_eq_ok_iff.mp h)
  exact forall_mem_of_forall₂ hItems fun _ _ _ hr => paired_of_readReservation hr

/-- Declarations that have been read, each as good as the one value that it was read from. -/
theorem forall_mem_of_readMembers {place : Place} {decls : List Declaration}
    {P : Declaration → Prop}
    (ih : ∀ item ∈ listed name fields, ∀ decl, readDeclaration item = .ok decl → P decl)
    (h : readAttribute fields name (.arr []) (readMembers place) = .ok decls) :
    ∀ decl ∈ decls, P decl ∧ place.Admits decl.kind :=
  forall_mem_of_forall₂ (readMembers_eq_ok h).1 fun item hItem decl hDecl =>
    ⟨ih item hItem decl hDecl.1, hDecl.2⟩

end

theorem isField_of_kind {decl : Declaration} (h : decl.kind = .field) : decl.isField = true := by
  cases decl with
  | field f => rfl
  | foreign value => exact value.elim
  | _ => cases h

theorem method_mem_of_mem_filterMap {decls : List Declaration} {m : Method}
    (h : m ∈ decls.filterMap methodOf?) : .method m ∈ decls := by
  obtain ⟨decl, hMem, hMethod⟩ := List.mem_filterMap.mp h
  cases decl with
  | method n =>
    cases hMethod
    exact hMem
  | foreign value => exact value.elim
  | _ => cases hMethod

theorem readable_and_settled_of_readDeclaration {value : Json} :
    ∀ decl, readDeclaration value = .ok decl → decl.Readable ∧ decl.AllSettled := by
  induction value using induct with
  | other value hKind =>
    intro decl h
    obtain ⟨fields, name, rfl, -⟩ := readDeclaration_eq_ok_iff.mp h
    exact absurd rfl hKind
  | obj fields ih =>
    intro decl h
    obtain ⟨_, name, hFields, -, -, hRead⟩ := readDeclaration_eq_ok_iff.mp h
    obtain rfl := Json.obj.inj hFields
    cases hKind : decl.kind <;> rw [hKind, readDeclarationOf] at hRead
    case message =>
      obtain ⟨members, hMembers, hRead⟩ := bind_eq_ok_iff.mp hRead
      obtain ⟨reservations, hReservations, hDecl⟩ := bind_eq_ok_iff.mp hRead
      cases hDecl
      have hAll := forall_mem_of_readMembers (ih _) hMembers
      rw [Decl.readable_message, Decl.allSettled_message]
      exact ⟨fun m hm => (hAll m hm).1.1, paired_of_readAttribute hReservations,
        fun m hm => (hAll m hm).1.2⟩
    case field =>
      obtain ⟨f, hField, hDecl⟩ := bind_eq_ok_iff.mp hRead
      cases hDecl
      obtain ⟨type, hType, hField⟩ := bind_eq_ok_iff.mp hField
      obtain ⟨index, -, hField⟩ := bind_eq_ok_iff.mp hField
      obtain ⟨repeated, -, hField⟩ := bind_eq_ok_iff.mp hField
      cases hField
      rw [Decl.readable_field, Decl.allSettled_field]
      exact keysFlat_and_tagged_of_readAttribute hType
    case oneof =>
      obtain ⟨members, hMembers, hDecl⟩ := bind_eq_ok_iff.mp hRead
      cases hDecl
      have hAll := forall_mem_of_readMembers (ih _) hMembers
      rw [Decl.readable_oneof, Decl.allSettled_oneof]
      refine ⟨⟨(readMembers_eq_ok hMembers).2 rfl, fun m hm => ?_⟩, fun m hm => (hAll m hm).1.2⟩
      exact ⟨(hAll m hm).1.1, isField_of_kind (hAll m hm).2⟩
    case enum =>
      obtain ⟨e, -, hDecl⟩ := bind_eq_ok_iff.mp hRead
      cases hDecl
      exact ⟨Decl.readable_enum e, Decl.allSettled_enum e⟩
    case method =>
      obtain ⟨m, hMethod, hDecl⟩ := bind_eq_ok_iff.mp hRead
      cases hDecl
      obtain ⟨streaming, -, hMethod⟩ := bind_eq_ok_iff.mp hMethod
      obtain ⟨input, hInput, hMethod⟩ := bind_eq_ok_iff.mp hMethod
      obtain ⟨returns, hReturns, hMethod⟩ := bind_eq_ok_iff.mp hMethod
      cases hMethod
      have hIn := keysFlat_and_tagged_of_readAttribute hInput
      have hOut := keysFlat_and_tagged_of_readAttribute hReturns
      rw [Decl.readable_method, Decl.allSettled_method]
      exact ⟨⟨hIn.1, hOut.1⟩, hIn.2, hOut.2⟩
    case service =>
      obtain ⟨operations, hOperations, hDecl⟩ := bind_eq_ok_iff.mp hRead
      cases hDecl
      have hAll := forall_mem_of_readMembers (ih _) hOperations
      rw [Decl.readable_service, Decl.allSettled_service]
      exact ⟨fun m hm => (hAll _ (method_mem_of_mem_filterMap hm)).1.1,
        fun m hm => (hAll _ (method_mem_of_mem_filterMap hm)).1.2⟩

/-- A schema is read from an object, part by part. -/
theorem readSchema_obj_eq_ok_iff {fields : List (String × Json)} {schema : Schema} :
    readSchema (.obj fields) = .ok schema ↔
      readAttribute fields "package" .null readPackage = .ok schema.package ∧
        readAttribute fields "imports" (.arr []) (readList expectString) = .ok schema.imports ∧
        readAttribute fields "options" (.obj []) readOptions = .ok schema.options ∧
        readAttribute fields "declarations" (.arr []) (readMembers .member) =
          .ok schema.declarations := by
  rw [readSchema_obj]
  simp only [bind_eq_ok_iff]
  constructor
  · intro h
    obtain ⟨package, hPackage, imports, hImports, options, hOptions, decls, hDecls, h⟩ := h
    cases h
    exact ⟨hPackage, hImports, hOptions, hDecls⟩
  · intro h
    obtain ⟨hPackage, hImports, hOptions, hDecls⟩ := h
    exact ⟨_, hPackage, _, hImports, _, hOptions, _, hDecls, rfl⟩

theorem exists_fields_of_readSchema {document : Json} {schema : Schema}
    (h : readSchema document = .ok schema) : ∃ fields, document = .obj fields := by
  cases document with
  | obj fields => exact ⟨fields, rfl⟩
  | _ => cases h

theorem readable_and_settled_of_readSchema {document : Json} {schema : Schema}
    (h : readSchema document = .ok schema) : schema.Readable ∧ schema.Settled := by
  obtain ⟨fields, rfl⟩ := exists_fields_of_readSchema h
  obtain ⟨-, -, -, hDecls⟩ := readSchema_obj_eq_ok_iff.mp h
  have hAll :=
    forall_mem_of_readMembers (fun _ _ => readable_and_settled_of_readDeclaration) hDecls
  rw [SchemaFile.readable_iff, SchemaFile.settled_iff]
  exact ⟨fun decl hDecl => (hAll decl hDecl).1.1, fun decl hDecl => (hAll decl hDecl).1.2⟩

/-- The document of a schema that has been read reads as this schema. -/
theorem readSchema_ofSchema_of_readSchema {document : Json} {schema : Schema}
    (h : readSchema document = .ok schema) : readSchema (ofSchema schema) = .ok schema := by
  obtain ⟨hReadable, hSettled⟩ := readable_and_settled_of_readSchema h
  have hSame := (SchemaFile.settled_eq_self_iff schema).mpr hSettled
  rw [(readSchema_ofSchema schema).ok hReadable, hSame]

end Document
end ProtoSchema
