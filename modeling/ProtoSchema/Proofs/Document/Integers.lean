import ProtoSchema.Proofs.Document.Sound

/-! The integers of a schema that was read stand in its document, so that those of a schema from a
text can be written. -/
namespace ProtoSchema
open Decimal (Short)

namespace Document

theorem holdsLong_ofReservation {reservation : Reservation} {n : Int}
    (h : n ∈ reservation.integers) (hLong : ¬ Short n) : (ofReservation reservation).HoldsLong := by
  have hItem : Json.HoldsLong (.int n) := .here hLong
  cases reservation with
  | number k =>
    rw [List.mem_singleton.mp h] at hItem
    exact hItem
  | range first last ends =>
    rcases List.mem_pair.mp h with rfl | rfl
    · exact .item List.mem_cons_self hItem
    · exact .item (List.mem_cons_of_mem _ List.mem_cons_self) hItem
  | name => cases h

theorem holdsLong_ofVariant {variant : Variant} (hLong : ¬ Short variant.number) :
    (ofVariant variant).HoldsLong :=
  .item (List.mem_cons_of_mem _ List.mem_cons_self) (.here hLong)

theorem holdsLong_ofOption {value : OptionValue} {n : Int} (h : n ∈ value.integers)
    (hLong : ¬ Short n) : (ofOption value).HoldsLong := by
  cases value with
  | integer k =>
    rw [List.mem_singleton.mp h] at hLong
    exact .here hLong
  | _ => cases h

section
variable {fields : List (String × Json)}

theorem holdsLong_of_valueOf {name : String} {absent : Json}
    (h : (valueOf name absent fields).HoldsLong) (hAbsent : ¬ absent.HoldsLong) :
    Json.HoldsLong (.obj fields) := by
  unfold valueOf at h
  cases hLookup : fields.lookup name with
  | none =>
    rw [hLookup] at h
    exact absurd h hAbsent
  | some value =>
    rw [hLookup] at h
    exact Json.HoldsLong.of_lookup h hLookup

theorem index_of_readDeclaration {field : Field}
    (h : readDeclaration (.obj fields) = .ok (.field field)) :
    .int field.index = valueOf "index" .null fields := by
  obtain ⟨_, _, hFields, -, -, hRead⟩ := readDeclaration_eq_ok_iff.mp h
  obtain rfl := Json.obj.inj hFields
  obtain ⟨f, hField, hDecl⟩ := bind_eq_ok_iff.mp hRead
  cases hDecl
  obtain ⟨type, -, hField⟩ := bind_eq_ok_iff.mp hField
  obtain ⟨index, hIndex, hField⟩ := bind_eq_ok_iff.mp hField
  obtain ⟨repeated, -, hField⟩ := bind_eq_ok_iff.mp hField
  cases hField
  exact write_of_readAttribute int_of_expectInt hIndex

theorem variants_of_readDeclaration {enum : Enum}
    (h : readDeclaration (.obj fields) = .ok (.enum enum)) :
    .arr (enum.variants.map ofVariant) = valueOf "variants" (.arr []) fields := by
  obtain ⟨_, _, hFields, -, -, hRead⟩ := readDeclaration_eq_ok_iff.mp h
  obtain rfl := Json.obj.inj hFields
  obtain ⟨e, hEnum, hDecl⟩ := bind_eq_ok_iff.mp hRead
  cases hDecl
  obtain ⟨variants, hVariants, hEnum⟩ := bind_eq_ok_iff.mp hEnum
  obtain ⟨allowAlias, -, hEnum⟩ := bind_eq_ok_iff.mp hEnum
  cases hEnum
  exact write_of_readList ofVariant_of_readVariant (under_eq_ok_iff.mp hVariants)

theorem holdsLong_of_mem_integers {decl : Declaration} {n : Int}
    (h : readDeclaration (.obj fields) = .ok decl) (hMem : n ∈ decl.integers) (hLong : ¬ Short n) :
    Json.HoldsLong (.obj fields) := by
  cases decl with
  | message name members reservations =>
    obtain ⟨r, hReservation, hInteger⟩ := List.mem_flatMap.mp hMem
    have hListed : ofReservation r ∈ listed "reservations" fields := by
      rw [reservations_of_readDeclaration h]
      exact List.mem_map_of_mem hReservation
    exact holdsLong_of_mem_listed hListed (holdsLong_ofReservation hInteger hLong)
  | field f =>
    rw [List.mem_singleton.mp hMem] at hLong
    have hIndex := Json.HoldsLong.here hLong
    rw [index_of_readDeclaration h] at hIndex
    exact holdsLong_of_valueOf hIndex (Json.not_holdsLong_of_kind nofun nofun nofun)
  | enum e =>
    obtain ⟨variant, hVariant, rfl⟩ := List.mem_map.mp hMem
    have hVariants := Json.HoldsLong.item (List.mem_map_of_mem hVariant)
      (holdsLong_ofVariant hLong)
    rw [variants_of_readDeclaration h] at hVariants
    exact holdsLong_of_valueOf hVariants (by simp [Json.holdsLong_arr_iff])
  | foreign value => exact value.elim
  | _ => cases hMem

end

theorem portable_of_readDeclaration {value : Json} : ∀ decl, readDeclaration value = .ok decl →
    ¬ value.HoldsLong → decl.Portable := by
  induction value using induct with
  | other value hKind =>
    intro decl h
    obtain ⟨fields, name, rfl, -⟩ := readDeclaration_eq_ok_iff.mp h
    exact absurd rfl hKind
  | obj fields ih =>
    intro decl h hShort
    rw [Decl.portable_iff]
    refine ⟨fun n hMem => ?_, fun m hm => ?_⟩
    · exact not_not.mp (mt (holdsLong_of_mem_integers h hMem) hShort)
    · obtain ⟨name, item, hItem, hRead⟩ := exists_item_of_mem_members h m hm
      exact ih name item hItem m hRead (mt (holdsLong_of_mem_listed hItem) hShort)

/-- Without long integers in a document there are none in its schema. -/
theorem short_integers_of_readSchema {document : Json} {schema : Schema}
    (h : readSchema document = .ok schema) (hShort : ¬ document.HoldsLong) :
    ∀ n ∈ schema.integers, Short n := by
  obtain ⟨fields, rfl⟩ := exists_fields_of_readSchema h
  obtain ⟨-, -, hOptions, hDecls⟩ := readSchema_obj_eq_ok_iff.mp h
  rw [SchemaFile.forall_mem_integers]
  constructor
  · intro option hOption n hMem
    refine not_not.mp (mt (fun hLong => ?_) hShort)
    have hValue : (ofOption option.2).HoldsLong := holdsLong_ofOption hMem hLong
    have hInOptions : (valueOf "options" (.obj []) fields).HoldsLong := by
      rw [← write_of_readAttribute ofOption_of_readOptions hOptions]
      exact .field (List.mem_map_of_mem hOption) hValue
    exact holdsLong_of_valueOf hInOptions (by simp [Json.holdsLong_obj_iff])
  · have hAll := forall_mem_of_readMembers (fun item hItem decl hDecl =>
      portable_of_readDeclaration decl hDecl (mt (holdsLong_of_mem_listed hItem) hShort)) hDecls
    exact fun decl hDecl => (hAll decl hDecl).1

end Document

namespace Source
variable {file text : String} {schema : Schema}

theorem exists_document_of_load (h : load file text = .ok schema) :
    ∃ document, readJson file text = .ok document ∧
      Document.readSchema document = .ok schema := by
  cases hJson : readJson file text with
  | error error =>
    rw [load_of_readJson_error hJson] at h
    cases h
  | ok document =>
    rw [load_of_readJson hJson] at h
    refine ⟨document, rfl, ?_⟩
    cases hRead : Document.readSchema document with
    | error error =>
      rw [hRead] at h
      cases h
    | ok found =>
      rw [hRead] at h
      cases h
      rfl

/-- The integers of a schema from a text can be written. -/
theorem short_integers_of_load (h : load file text = .ok schema) :
    ∀ n ∈ schema.integers, Short n := by
  obtain ⟨document, hJson, hRead⟩ := exists_document_of_load h
  exact Document.short_integers_of_readSchema hRead (scanned_of_readJson hJson).short

end Source
end ProtoSchema
