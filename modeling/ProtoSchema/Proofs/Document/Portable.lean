import ProtoSchema.Proofs.Document.RoundTrip
import ProtoSchema.Proofs.Json.RoundTrip

/-! Schemas whose documents survive being written as text. -/
namespace ProtoSchema
open Decimal (Short)

/-- A schema with distinct options and without floats whose integers may be read. -/
structure SchemaFile.Portable {φ : Type} (schema : SchemaFile φ) : Prop where
  optionNames : (schema.options.map Prod.fst).Nodup
  optionFloats : ∀ option ∈ schema.options, ∀ x, option.2 ≠ .float x
  optionIntegers : ∀ option ∈ schema.options, ∀ n ∈ option.2.integers, Short n
  declarations : ∀ decl ∈ schema.declarations, decl.Portable

namespace Document
open Json (Portable)

theorem portable_strings (texts : List String) : Portable (.arr (texts.map .str)) :=
  .arr (List.forall_mem_map.mpr fun text _ => .str text)

theorem portable_ofType (type : TypeExpr) : Portable (ofType type) := by
  induction type with
  | scalar name => exact .str name
  | ref name => exact .str name
  | map key value hKey hValue =>
    have hPair : Portable (.arr [ofType key, ofType value]) :=
      .arr (List.forall_mem_cons.mpr ⟨hKey, List.forall_mem_singleton.mpr hValue⟩)
    exact .obj (by simp) (List.forall_mem_singleton.mpr hPair)

theorem portable_ofReservation {reservation : Reservation}
    (h : ∀ n ∈ reservation.integers, Short n) : Portable (ofReservation reservation) := by
  cases reservation with
  | number n => exact .int (h n (by simp [Reservation.integers]))
  | range first last ends =>
    have hFirst : Portable (.int first) := .int (h first (by simp [Reservation.integers]))
    have hLast : Portable (.int last) := .int (h last (by simp [Reservation.integers]))
    exact .arr (List.forall_mem_cons.mpr ⟨hFirst, List.forall_mem_singleton.mpr hLast⟩)
  | name name => exact .str name

theorem portable_ofVariant {variant : Variant} (h : Short variant.number) :
    Portable (ofVariant variant) :=
  .arr (List.forall_mem_cons.mpr ⟨.str _, List.forall_mem_singleton.mpr (.int h)⟩)

theorem portable_ofOption {value : OptionValue} (hFloat : ∀ x, value ≠ .float x)
    (hInteger : ∀ n ∈ value.integers, Short n) : Portable (ofOption value) := by
  cases value with
  | text s => exact .str s
  | integer n => exact .int (hInteger n (by simp [OptionValue.integers]))
  | float x => exact absurd rfl (hFloat x)
  | boolean flag => exact .bool flag

theorem portable_tagged {kind : DeclKind} {name : String} {attributes : List (String × Json)}
    (hNames : ("kind" :: "name" :: attributes.map Prod.fst).Nodup)
    (h : ∀ entry ∈ attributes, Portable entry.2) :
    Portable (tagged kind name attributes) :=
  .obj hNames (List.forall_mem_cons.mpr ⟨.str _, List.forall_mem_cons.mpr ⟨.str _, h⟩⟩)

theorem portable_ofMethod (method : Method) : Portable (ofMethod method) := by
  refine portable_tagged (by simp) ?_
  simp only [List.forall_mem_cons, List.not_mem_nil, false_implies, implies_true, and_true]
  exact ⟨portable_ofType _, portable_ofType _, .str _⟩

theorem portable_ofDeclaration {decl : Declaration} (h : decl.Portable) :
    Portable (ofDeclaration decl) := by
  have hMembers : ∀ {decls : List Declaration}, (∀ d ∈ decls, d.Portable) →
      (∀ d ∈ decls, d.Portable → Portable (ofDeclaration d)) →
      Portable (.arr (ofDeclarations decls)) := by
    intro decls hPortable ih
    rw [ofDeclarations_eq_map]
    exact .arr (List.forall_mem_map.mpr fun d hd => ih d hd (hPortable d hd))
  induction decl using Decl.induct with
  | message name ms rs ih =>
    obtain ⟨hIntegers, hPortable⟩ := (Decl.portable_iff _).mp h
    rw [Decl.integers, List.forall_mem_flatMap] at hIntegers
    have hReservations : Portable (.arr (rs.map ofReservation)) :=
      .arr (List.forall_mem_map.mpr fun r hr => portable_ofReservation (hIntegers r hr))
    rw [ofDeclaration]
    exact portable_tagged (by simp) (List.forall_mem_cons.mpr
      ⟨hMembers hPortable ih, List.forall_mem_singleton.mpr hReservations⟩)
  | field f =>
    have hIndex : Short f.index := ((Decl.portable_iff _).mp h).1 f.index (by simp [Decl.integers])
    rw [ofDeclaration]
    refine portable_tagged (by simp) ?_
    simp only [List.forall_mem_cons, List.not_mem_nil, false_implies, implies_true, and_true]
    exact ⟨portable_ofType _, .int hIndex, .bool _⟩
  | oneof name ms ih =>
    have hPortable := ((Decl.portable_iff _).mp h).2
    rw [ofDeclaration]
    exact portable_tagged (by simp) (List.forall_mem_singleton.mpr (hMembers hPortable ih))
  | enum e =>
    have hNumbers := ((Decl.portable_iff _).mp h).1
    rw [Decl.integers, List.forall_mem_map] at hNumbers
    have hVariants : Portable (.arr (e.variants.map ofVariant)) :=
      .arr (List.forall_mem_map.mpr fun v hv => portable_ofVariant (hNumbers v hv))
    rw [ofDeclaration]
    exact portable_tagged (by simp)
      (List.forall_mem_cons.mpr ⟨hVariants, List.forall_mem_singleton.mpr (.bool _)⟩)
  | method m => exact portable_ofMethod m
  | service name ops =>
    rw [ofDeclaration]
    refine portable_tagged (by simp) (List.forall_mem_singleton.mpr (.arr ?_))
    exact List.forall_mem_map.mpr fun m _ => portable_ofMethod m
  | foreign value => exact value.elim

theorem portable_ofSchema {schema : Schema} (h : schema.Portable) : Portable (ofSchema schema) := by
  have hOptions :
      Portable (.obj (schema.options.map fun option => (option.1, ofOption option.2))) := by
    refine .obj ?_ (List.forall_mem_map.mpr fun option hOption =>
      portable_ofOption (h.optionFloats option hOption) (h.optionIntegers option hOption))
    rw [List.map_map]
    exact h.optionNames
  have hDeclarations : Portable (.arr (ofDeclarations schema.declarations)) := by
    rw [ofDeclarations_eq_map]
    exact .arr (List.forall_mem_map.mpr fun decl hDecl =>
      portable_ofDeclaration (h.declarations decl hDecl))
  have hParts : ∀ field ∈ [("imports", Json.arr (schema.imports.map .str)),
      ("options", .obj (schema.options.map fun option => (option.1, ofOption option.2))),
      ("declarations", .arr (ofDeclarations schema.declarations))], Portable field.2 := by
    simp only [List.forall_mem_cons, List.not_mem_nil, false_implies, implies_true, and_true]
    exact ⟨portable_strings _, hOptions, hDeclarations⟩
  rw [ofSchema]
  cases schema.package with
  | none => exact .obj (by simp) hParts
  | some name => exact .obj (by simp) (List.forall_mem_cons.mpr ⟨.str name, hParts⟩)

end Document
end ProtoSchema
