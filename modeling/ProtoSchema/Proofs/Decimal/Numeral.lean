import ProtoSchema.Decimal.Numeral
import ProtoSchema.Proofs.Decimal.Integer
import ProtoSchema.Proofs.Json.Numbers

/-! An integer that is written in decimal is read as itself. -/
namespace ProtoSchema.Decimal.Numeral

theorem digitValue?_of_isDigit {c : Char} (h : c.isDigit) :
    Text.digitValue? c = some (c.toNat - '0'.toNat) := by
  have hRange := toNat_of_isDigit h
  have hFirst : (decide (0x30 ≤ c.toNat) && decide (c.toNat < 0x30 + 10)) = true := by
    simp only [Bool.and_eq_true, decide_eq_true_eq]
    omega
  rw [Text.digitValue?, Text.scriptZeros, List.find?_cons, hFirst]
  rfl

theorem isWhiteSpace_of_isDigit {c : Char} (h : c.isDigit) : Text.isWhiteSpace c = false := by
  have hRange := toNat_of_isDigit h
  simp only [Text.isWhiteSpace, Bool.or_eq_false_iff, Bool.and_eq_false_iff,
    decide_eq_false_iff_not]
  omega

theorem digitRow?_of_isDigit {digits : List Char} (hNil : digits ≠ [])
    (h : ∀ c ∈ digits, c.isDigit) :
    digitRow? digits = some (digits.map fun c => c.toNat - '0'.toNat) := by
  induction digits with
  | nil => exact absurd rfl hNil
  | cons c rest ih =>
    obtain ⟨hFirst, hRest⟩ := List.forall_mem_cons.mp h
    have hValue := digitValue?_of_isDigit hFirst
    cases rest with
    | nil =>
      rw [digitRow?, hValue]
      rfl
    | cons d rest =>
      have hDigit : d ≠ '_' := by
        rintro rfl
        exact absurd (hRest '_' List.mem_cons_self) (by decide)
      rw [digitRow?, hValue, ih (List.cons_ne_nil d rest) hRest]
      · rfl
      · exact List.cons_ne_nil d rest
      · intro _ hEq
        exact hDigit (List.cons.inj hEq).1

theorem isWhiteSpace_of_mem_toString {n : Int} {c : Char} (h : c ∈ (toString n).toList) :
    Text.isWhiteSpace c = false := by
  rcases mem_toString h with rfl | hDigit
  · decide
  · exact isWhiteSpace_of_isDigit hDigit

theorem trim_of_isWhiteSpace {text : List Char} (h : ∀ c ∈ text, Text.isWhiteSpace c = false) :
    trim text = text := by
  have hDrop : ∀ text : List Char, (∀ c ∈ text, Text.isWhiteSpace c = false) →
      text.dropWhile Text.isWhiteSpace = text := by
    intro text h
    cases text with
    | nil => rfl
    | cons c rest =>
      exact List.dropWhile_cons_of_neg (by simp [h c List.mem_cons_self])
  rw [trim, hDrop text h, hDrop text.reverse fun c hc => h c (List.mem_reverse.mp hc),
    List.reverse_reverse]

/-- An integer of few enough digits is what its decimal text is read as. -/
theorem read?_toString {n : Int} (h : Short n) : read? (toString n) = some n := by
  have hTrim := trim_of_isWhiteSpace fun c (hc : c ∈ (toString n).toList) =>
    isWhiteSpace_of_mem_toString hc
  have hRow : digitRow? (Nat.toDigits 10 n.natAbs) = some
      ((Nat.toDigits 10 n.natAbs).map fun c => c.toNat - '0'.toNat) :=
    digitRow?_of_isDigit Nat.toDigits_ne_nil fun _ => isDigit_of_mem_toDigits
  have hLength : ¬ maxDigits <
      ((Nat.toDigits 10 n.natAbs).map fun c => c.toNat - '0'.toNat).length := by
    rw [List.length_map]
    exact Nat.not_lt.mpr h
  have hValue : ((Nat.toDigits 10 n.natAbs).map fun c => c.toNat - '0'.toNat).foldl
      (fun n d => 10 * n + d) 0 = n.natAbs := by
    rw [List.foldl_map]
    exact ofDigits_toDigits n.natAbs
  have hSigned := signed_natAbs n
  rw [read?, hTrim, toList_toString]
  by_cases hSign : n < 0
  · rw [decide_eq_true hSign] at hSigned
    rw [if_pos hSign, List.singleton_append]
    simp only [hRow, Option.bind_eq_bind, Option.bind_some, if_neg hLength, hValue, hSigned]
  · have hHead : ∀ c ∈ (Nat.toDigits 10 n.natAbs).head?, c.isDigit := fun c hc =>
      isDigit_of_mem_toDigits (List.mem_of_mem_head? hc)
    rw [decide_eq_false hSign] at hSigned
    rw [if_neg hSign, List.nil_append]
    generalize Nat.toDigits 10 n.natAbs = digits at hRow hLength hValue hHead ⊢
    split
    rename_i hMatch
    split at hMatch
    · exact absurd (hHead '-' rfl) (by decide)
    · exact absurd (hHead '+' rfl) (by decide)
    · obtain ⟨rfl, rfl⟩ := Prod.mk.inj hMatch
      simp only [hRow, Option.bind_eq_bind, Option.bind_some, if_neg hLength, hValue, hSigned]

end ProtoSchema.Decimal.Numeral
