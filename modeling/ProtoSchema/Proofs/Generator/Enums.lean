import ProtoSchema.Proofs.Generator.Fields

/-! Generated enums. -/
namespace ProtoSchema.Generator
open Sampling (Gen)

/-- Variants in a row, which start at a number and ascend. -/
structure Ascending (scope : String) (i number : Nat) (variants : List Variant) : Prop where
  names : variants.map Variant.name =
    (List.range' i variants.length).map fun k => scope ++ "_V" ++ toString k
  first : ∀ variant ∈ variants.head?, variant.number = Int.ofNat number
  le : ∀ variant ∈ variants, Int.ofNat number ≤ variant.number
  ascending : (variants.map Variant.number).Pairwise (· < ·)

theorem ensures_variants (scope : String) (i number n : Nat) :
    Gen.Ensures (variants scope i number n) fun variants =>
      Ascending scope i number variants ∧ variants.length = n := by
  induction n generalizing i number with
  | zero => exact .pure ⟨⟨rfl, nofun, nofun, .nil⟩, rfl⟩
  | succ n ih =>
    refine (Gen.ensures_between (by decide)).bind fun gap hGap => ?_
    refine (ih (i + 1) (number + gap)).bind fun variants hVariants => .pure ?_
    obtain ⟨hRest, hLength⟩ := hVariants
    have hLater : ∀ variant ∈ variants, Int.ofNat number < variant.number := by
      intro variant hVariant
      have hLe := hRest.le variant hVariant
      simp only [Int.ofNat_eq_natCast] at hLe ⊢
      omega
    refine ⟨⟨?_, ?_, ?_, ?_⟩, congrArg Nat.succ hLength⟩
    · rw [List.map_cons, List.length_cons, List.range'_succ, List.map_cons, hRest.names]
    · rintro _ ⟨⟩
      rfl
    · exact List.forall_mem_cons.mpr ⟨Int.le_refl _, fun v hv => Int.le_of_lt (hLater v hv)⟩
    · rw [List.map_cons, List.pairwise_cons]
      exact ⟨List.forall_mem_map.mpr hLater, hRest.ascending⟩

namespace Ascending
variable {scope : String} {i number : Nat} {plain : List Variant}

theorem nodup_names (h : Ascending scope i number plain) : (plain.map Variant.name).Nodup := by
  rw [h.names]
  exact List.Nodup.map (append_toString_injective (scope ++ "_V")) List.nodup_range'

theorem nodup_numbers (h : Ascending scope i number plain) :
    (plain.map Variant.number).Nodup := h.ascending.imp Int.ne_of_lt

/-- The alias has a name of its own. -/
theorem alias_not_mem (h : Ascending scope i number plain) :
    scope ++ "_ALIAS" ∉ plain.map Variant.name := by
  rw [h.names]
  intro hMem
  obtain ⟨k, -, hk⟩ := List.mem_map.mp hMem
  rw [String.append_assoc] at hk
  have hList := congrArg String.toList hk
  simp only [String.toList_append] at hList
  have hSuffix := List.append_cancel_left hList
  exact absurd (List.cons.inj (List.cons.inj hSuffix).2).1 (by decide)

theorem names_numbered {n : Nat} (h : Ascending scope i number plain) (hScope : HasNumber n scope) :
    ∀ name ∈ plain.map Variant.name, HasNumber n name := by
  rw [h.names]
  intro name hName
  obtain ⟨k, -, rfl⟩ := List.mem_map.mp hName
  rw [String.append_assoc]
  refine hScope.append ?_
  rw [String.toList_append]
  rintro _ ⟨⟩
  decide

end Ascending

/-- An enum whose name and variants have the next number. -/
structure FreshEnum (n : Nat) (e : Enum) : Prop where
  valid : ValidEnum e
  name : HasNumber (n + 1) e.name
  variants : Fresh n (n + 1) (e.variants.map Variant.name)

/-- With its alias or without it, an enum is valid. -/
theorem freshEnum_of_ascending {n : Nat} {name : String} {plain : List Variant}
    (hName : HasNumber (n + 1) name) (hPlain : Ascending name.toUpper 0 0 plain)
    (hNil : plain ≠ []) (allowAlias : Bool) : FreshEnum n {
      name, allowAlias
      variants := plain ++ if allowAlias then aliasVariant name.toUpper plain else [] } := by
  have hScope := hName.toUpper
  obtain ⟨first, rest, rfl⟩ := List.exists_cons_of_ne_nil hNil
  have hFirst : first.number = 0 := hPlain.first first rfl
  have hNumbered := hPlain.names_numbered hScope
  cases allowAlias with
  | false =>
    rw [if_neg Bool.false_ne_true, List.append_nil]
    have hDistinct := not_not.mpr hPlain.nodup_numbers
    exact {
      valid := ⟨congrArg some hFirst, iff_of_false Bool.false_ne_true hDistinct⟩
      name := hName
      variants := .of_forall hNumbered hPlain.nodup_names }
  | true =>
    rw [if_pos rfl, aliasVariant, List.getLast?_eq_some_getLast hNil]
    refine ⟨⟨congrArg some hFirst, iff_of_true rfl fun hNodup => ?_⟩, hName, .of_forall ?_ ?_⟩
    · rw [List.map_append, List.nodup_append] at hNodup
      have hLast := List.mem_map_of_mem (f := Variant.number) (List.getLast_mem hNil)
      exact hNodup.2.2 _ hLast _ (List.mem_singleton.mpr rfl) rfl
    · rw [List.map_append]
      refine List.forall_mem_append.mpr ⟨hNumbered, fun name hAlias => ?_⟩
      rw [List.mem_singleton.mp hAlias]
      refine hScope.append ?_
      rintro _ ⟨⟩
      decide
    · rw [List.map_append]
      refine List.nodup_append.mpr ⟨hPlain.nodup_names, List.nodup_singleton _, ?_⟩
      intro name hMem other hOther hEq
      rw [List.mem_singleton.mp hOther] at hEq
      rw [hEq] at hMem
      exact hPlain.alias_not_mem hMem

theorem ensures_enum (n : Nat) :
    Naming.Ensures n enum fun e n' => n' = n + 1 ∧ FreshEnum n e := by
  refine (ensures_freshName rfl n).bind ?_
  rintro name _ ⟨rfl, hName⟩
  refine (Naming.Ensures.lift (Gen.ensures_between (by decide))).bind ?_
  rintro count _ ⟨hCount, rfl⟩
  refine (Naming.Ensures.lift (ensures_variants name.toUpper 0 0 count)).bind ?_
  rintro plain _ ⟨⟨hPlain, hLength⟩, rfl⟩
  refine (Naming.Ensures.lift (Gen.ensures_chance _)).bind ?_
  rintro allowAlias _ ⟨-, rfl⟩
  have hNil : plain ≠ [] := List.ne_nil_of_length_pos (by omega)
  exact .pure ⟨rfl, freshEnum_of_ascending hName hPlain hNil allowAlias⟩

end ProtoSchema.Generator
