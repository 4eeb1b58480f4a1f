import ProtoSchema.Proofs.Document.Breakdowns
import ProtoSchema.Proofs.Document.Canonical
import ProtoSchema.Proofs.Json.Values

/-! What every declaration of a tree that was read satisfies, at every depth, and how it stands to
the object that it was read from. -/
namespace ProtoSchema.Document

section
variable {fields : List (String × Json)} {decl : Declaration}

theorem exists_field_of_isField {decl : Declaration} (h : decl.isField = true) :
    ∃ field, decl = .field field := by
  cases decl with
  | field f => exact ⟨f, rfl⟩
  | _ => cases h

/-- What a program may rely on in a declaration that was read from these attributes. -/
structure Sound (fields : List (String × Json)) (decl : Declaration) : Prop where
  read : readDeclaration (.obj fields) = .ok decl
  choices : ∀ name members, decl = .oneof name members →
    members ≠ [] ∧ ∀ m ∈ members, ∃ field, m = .field field
  /-- Whatever is listed as an operation was read, and as a method. -/
  operations : ∀ name operations, decl = .service name operations →
    (listed "operations" fields).map readDeclaration = operations.map fun m => .ok (.method m)
  keys : ∀ type ∈ decl.types, type.KeysFlat
  leaves : ∀ type ∈ decl.types, type.Tagged
  pairs : ∀ r ∈ decl.reservations, r.Paired
  streaming : ∀ method, decl = .method method → method.streaming.toNat ≤ 3 ∧
    valueOf "stream" (.str "none") fields ∈
      [.str method.streaming.name, .int method.streaming.toNat]
  /-- Whatever is listed as a reservation is an integer, a pair of integers or a string. -/
  reservations : ∀ name members reservations, decl = .message name members reservations →
    listed "reservations" fields = reservations.map ofReservation

theorem members_eq_nil_of_listing? (h : decl.kind.listing? = none) : decl.members = [] := by
  cases decl with
  | foreign value => exact value.elim
  | message | oneof | service => cases h
  | _ => rfl

/-- What stands in a declaration was read from what its object lists. -/
theorem forall₂_members_of_readDeclaration {list : String} {place : Place}
    (h : readDeclaration (.obj fields) = .ok decl)
    (hListing : decl.kind.listing? = some (list, place)) :
    List.Forall₂ (fun item m => readDeclaration item = .ok m ∧ place.Admits m.kind)
      (listed list fields) decl.members := by
  obtain ⟨_, _, hFields, -, -, hRead⟩ := readDeclaration_eq_ok_iff.mp h
  obtain rfl := Json.obj.inj hFields
  cases hKind : decl.kind <;> rw [hKind] at hRead hListing <;> rw [readDeclarationOf] at hRead
  case message =>
    obtain ⟨decls, hDecls, hRead⟩ := bind_eq_ok_iff.mp hRead
    obtain ⟨reservations, -, hDecl⟩ := bind_eq_ok_iff.mp hRead
    cases hDecl
    cases hListing
    exact (readMembers_eq_ok hDecls).1
  case oneof =>
    obtain ⟨decls, hDecls, hDecl⟩ := bind_eq_ok_iff.mp hRead
    cases hDecl
    cases hListing
    exact (readMembers_eq_ok hDecls).1
  case service =>
    obtain ⟨decls, hDecls, hDecl⟩ := bind_eq_ok_iff.mp hRead
    cases hDecl
    cases hListing
    have hItems := (readMembers_eq_ok hDecls).1
    have hMethods : ∀ d ∈ decls, d.kind = .method :=
      forall_mem_of_forall₂ hItems fun _ _ d hd => hd.2
    rwa [Decl.members, map_method_filterMap hMethods]
  all_goals cases hListing

theorem operations_of_readDeclaration {name : String} {operations : List Method}
    (h : readDeclaration (.obj fields) = .ok (.service name operations)) :
    (listed "operations" fields).map readDeclaration = operations.map fun m => .ok (.method m) := by
  have hMembers := forall₂_members_of_readDeclaration h rfl
  have hRead : List.Forall₂ (· = ·) ((listed "operations" fields).map readDeclaration)
      ((operations.map Decl.method).map .ok) := by
    rw [List.forall₂_map_left_iff, List.forall₂_map_right_iff]
    exact hMembers.imp fun _ _ hm => hm.1
  rw [List.forall₂_eq_eq_eq] at hRead
  rw [hRead, List.map_map]
  rfl

theorem reservations_of_readDeclaration {name : String} {members : List Declaration}
    {reservations : List Reservation}
    (h : readDeclaration (.obj fields) = .ok (.message name members reservations)) :
    listed "reservations" fields = reservations.map ofReservation := by
  obtain ⟨_, _, hFields, -, -, hRead⟩ := readDeclaration_eq_ok_iff.mp h
  obtain rfl := Json.obj.inj hFields
  obtain ⟨decls, -, hRead⟩ := bind_eq_ok_iff.mp hRead
  obtain ⟨found, hFound, hMessage⟩ := bind_eq_ok_iff.mp hRead
  cases hMessage
  have hWritten := write_of_readList ofReservation_of_readReservation (under_eq_ok_iff.mp hFound)
  exact listed_eq_of_lookup hWritten.symm

theorem streaming_of_readStreaming {value : Json} {streaming : Streaming}
    (h : readStreaming value = .ok streaming) :
    value ∈ [.str streaming.name, .int streaming.toNat] := by
  obtain ⟨name, hName, rfl⟩ | ⟨n, rfl, hMin, hMax⟩ :=
    (succeeds_readStreaming_iff value).mp ⟨streaming, h⟩
  · simp only [List.mem_cons, List.not_mem_nil, or_false] at hName
    rcases hName with rfl | rfl | rfl | rfl <;> cases h <;> simp [Streaming.name]
  · obtain rfl | rfl | rfl | rfl : n = 0 ∨ n = 1 ∨ n = 2 ∨ n = 3 := by omega
    all_goals cases h; simp [Streaming.toNat]

theorem toNat_streaming_le (streaming : Streaming) : streaming.toNat ≤ 3 := by
  have hRequest := Bool.toNat_le streaming.request
  have hResponse := Bool.toNat_le streaming.response
  unfold Streaming.toNat
  omega

theorem streaming_of_readDeclaration {method : Method}
    (h : readDeclaration (.obj fields) = .ok (.method method)) :
    valueOf "stream" (.str "none") fields ∈
      [.str method.streaming.name, .int method.streaming.toNat] := by
  obtain ⟨_, _, hFields, -, -, hRead⟩ := readDeclaration_eq_ok_iff.mp h
  obtain rfl := Json.obj.inj hFields
  obtain ⟨m, hMethod, hDecl⟩ := bind_eq_ok_iff.mp hRead
  cases hDecl
  obtain ⟨streaming, hStreaming, hMethod⟩ := bind_eq_ok_iff.mp hMethod
  obtain ⟨input, -, hMethod⟩ := bind_eq_ok_iff.mp hMethod
  obtain ⟨returns, -, hMethod⟩ := bind_eq_ok_iff.mp hMethod
  cases hMethod
  exact streaming_of_readStreaming (under_eq_ok_iff.mp hStreaming)

theorem sound_of_readDeclaration (h : readDeclaration (.obj fields) = .ok decl) :
    Sound fields decl := by
  obtain ⟨hReadable, hSettled⟩ := readable_and_settled_of_readDeclaration decl h
  obtain ⟨⟨hFits, hFlat⟩, -⟩ := decl.readable_iff.mp hReadable
  constructor
  case read => exact h
  case choices =>
    intro name members hOneof
    rw [hOneof] at hFits
    exact ⟨hFits.1, fun m hm => exists_field_of_isField (hFits.2 m hm)⟩
  case operations =>
    intro name operations hService
    rw [hService] at h
    exact operations_of_readDeclaration h
  case keys => exact hFlat
  case leaves => exact (decl.allSettled_iff.mp hSettled).1.1
  case pairs => exact (decl.allSettled_iff.mp hSettled).1.2
  case streaming =>
    intro method hMethod
    rw [hMethod] at h
    exact ⟨toNat_streaming_le method.streaming, streaming_of_readDeclaration h⟩
  case reservations =>
    intro name members reservations hMessage
    rw [hMessage] at h
    exact reservations_of_readDeclaration h

/-- The declarations in a declaration were read from values listed in its object. -/
theorem exists_item_of_mem_members (h : readDeclaration (.obj fields) = .ok decl) :
    ∀ m ∈ decl.members, ∃ name, ∃ item ∈ listed name fields, readDeclaration item = .ok m := by
  cases hListing : decl.kind.listing? with
  | none =>
    rw [members_eq_nil_of_listing? hListing]
    exact List.forall_mem_nil _
  | some listing =>
    obtain ⟨list, place⟩ := listing
    have hMembers := forall₂_members_of_readDeclaration h hListing
    exact forall_mem_of_forall₂ hMembers fun item hItem m hm => ⟨list, item, hItem, hm.1⟩

theorem sound_nodes_of_readDeclaration {value : Json} : ∀ decl, readDeclaration value = .ok decl →
    ∀ node ∈ decl.nodes, ∃ fields, Sound fields node := by
  induction value using induct with
  | other value hKind =>
    intro decl h
    obtain ⟨fields, name, rfl, -⟩ := readDeclaration_eq_ok_iff.mp h
    exact absurd rfl hKind
  | obj fields ih =>
    intro decl h
    rw [Decl.forall_mem_nodes]
    refine ⟨⟨fields, sound_of_readDeclaration h⟩, fun m hm => ?_⟩
    obtain ⟨name, item, hItem, hRead⟩ := exists_item_of_mem_members h m hm
    exact ih name item hItem m hRead

end

theorem nodup_options_of_readSchema {document : Json} {schema : Schema}
    (h : readSchema document = .ok schema) (hKeys : document.KeysDistinct) :
    (schema.options.map Prod.fst).Nodup := by
  obtain ⟨fields, rfl⟩ := exists_fields_of_readSchema h
  obtain ⟨-, -, hOptions, -⟩ := readSchema_obj_eq_ok_iff.mp h
  have hWritten := ofOption_of_readOptions _ _ (under_eq_ok_iff.mp hOptions)
  cases hLookup : fields.lookup "options" with
  | none =>
    rw [hLookup] at hWritten
    have hNone := Json.obj.inj hWritten
    rw [List.map_eq_nil_iff.mp hNone]
    exact List.nodup_nil
  | some value =>
    rw [hLookup, Option.getD_some] at hWritten
    have hValue := hKeys.of_lookup hLookup
    rw [← hWritten] at hValue
    have hNodup := hValue.nodup
    rwa [List.map_map] at hNodup

/-- A tree that was read is sound at every depth. The names of its options are distinct where
objects name each field once, as all do that come from a text. Its document reads as the same
tree. -/
theorem sound_of_readSchema {document : Json} {schema : Schema}
    (h : readSchema document = .ok schema) :
    (∀ node ∈ schema.nodes, ∃ fields, Sound fields node) ∧
      (document.KeysDistinct → (schema.options.map Prod.fst).Nodup) ∧
      (∀ file text, Source.readJson file text = .ok document → document.KeysDistinct) ∧
      readSchema (ofSchema schema) = .ok schema := by
  have hNodes : ∀ node ∈ schema.nodes, ∃ fields, Sound fields node := by
    obtain ⟨fields, rfl⟩ := exists_fields_of_readSchema h
    obtain ⟨-, -, -, hDecls⟩ := readSchema_obj_eq_ok_iff.mp h
    have hAll :=
      forall_mem_of_readMembers (fun _ _ => sound_nodes_of_readDeclaration) hDecls
    rw [SchemaFile.nodes, List.forall_mem_flatMap]
    exact fun decl hDecl => (hAll decl hDecl).1
  exact ⟨hNodes, nodup_options_of_readSchema h,
    fun _ _ hJson => (Source.scanned_of_readJson hJson).keys, readSchema_ofSchema_of_readSchema h⟩

/-- Each kind of declaration that has something to check, one in another. -/
def crowdedDocument : Json :=
  .obj [("options", .obj [("a", .int 1), ("b", .float 0.5)]), ("declarations", .arr [
      .obj [("kind", .str "message"), ("name", .str "M"),
        ("reservations", .arr [.str "old", .arr [.int 4, .int 6], .int 9]),
        ("declarations", .arr [
          .obj [("kind", .str "oneof"), ("name", .str "choice"), ("declarations", .arr [
            .obj [("kind", .str "field"), ("name", .str "x"), ("index", .int 1),
              ("type", .obj [("map", .arr [.str "string", .str "M"])])]])]])],
      .obj [("kind", .str "service"), ("name", .str "S"), ("operations", .arr [
          .obj [("kind", .str "method"), ("name", .str "Run"), ("input", .str "M"),
            ("returns", .str "M"), ("stream", .int 3)]])]])]

def crowdedSchema : Schema where
  options := [("a", .integer 1), ("b", .float 0.5)]
  declarations := [
    .message "M" [.oneof "choice" [.field ⟨"x", .map (.scalar "string") (.ref "M"), 1, false⟩]]
      [.name "old", .range 4 6, .number 9],
    .service "S" [⟨"Run", .ref "M", .ref "M", ⟨true, true⟩⟩]]

theorem sound_crowdedDocument : readSchema crowdedDocument = .ok crowdedSchema ∧
    (∀ node ∈ crowdedSchema.nodes, ∃ fields, Sound fields node) ∧
      (crowdedDocument.KeysDistinct → (crowdedSchema.options.map Prod.fst).Nodup) ∧
      (∀ file text, Source.readJson file text = .ok crowdedDocument →
        crowdedDocument.KeysDistinct) ∧
      readSchema (ofSchema crowdedSchema) = .ok crowdedSchema := by
  have hRead : readSchema crowdedDocument = .ok crowdedSchema := by decide +kernel
  exact ⟨hRead, sound_of_readSchema hRead⟩

end ProtoSchema.Document
