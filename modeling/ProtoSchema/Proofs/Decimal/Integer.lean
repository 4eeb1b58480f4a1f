import Mathlib.Data.Nat.Digits.Defs
import ProtoSchema.Decimal.Literal

/-! The digits of integers. -/
namespace ProtoSchema.Decimal

theorem ofDigits_toDigits (n : Nat) : ofDigits (Nat.toDigits 10 n) = n :=
  Nat.ofDigitChars_ten_toDigits

theorem isDigit_of_mem_toDigits {n : Nat} {c : Char} (h : c ∈ Nat.toDigits 10 n) : c.isDigit :=
  Nat.isDigit_of_mem_toDigits (by omega) (by omega) h

theorem toNat_of_isDigit {c : Char} (h : c.isDigit) : 48 ≤ c.toNat ∧ c.toNat ≤ 57 := by
  simp only [Char.isDigit, ge_iff_le, UInt32.le_iff_toNat_le, Bool.and_eq_true,
    decide_eq_true_eq] at h
  have hZero : '0'.val.toNat = 48 := rfl
  have hNine : '9'.val.toNat = 57 := rfl
  have hValue : c.toNat = c.val.toNat := rfl
  omega

/-- A row of digits after a number adds as many places to it. -/
theorem foldl_digits_lt {digits : List Char} (h : ∀ c ∈ digits, c.isDigit) (n : Nat) :
    digits.foldl (fun n c => 10 * n + (c.toNat - '0'.toNat)) n < (n + 1) * 10 ^ digits.length := by
  induction digits generalizing n with
  | nil => simp
  | cons c digits ih =>
    obtain ⟨hDigit, hDigits⟩ := List.forall_mem_cons.mp h
    have hRange := toNat_of_isDigit hDigit
    have hZero : '0'.toNat = 48 := rfl
    have hPlace : 10 * n + (c.toNat - '0'.toNat) + 1 ≤ (n + 1) * 10 := by omega
    calc digits.foldl (fun n c => 10 * n + (c.toNat - '0'.toNat)) (10 * n + (c.toNat - '0'.toNat))
      _ < (10 * n + (c.toNat - '0'.toNat) + 1) * 10 ^ digits.length := ih hDigits _
      _ ≤ (n + 1) * 10 * 10 ^ digits.length := Nat.mul_le_mul_right _ hPlace
      _ = (n + 1) * 10 ^ (c :: digits).length := by
        rw [Nat.mul_assoc, ← Nat.pow_succ', List.length_cons]

theorem ofDigits_lt {digits : List Char} (h : ∀ c ∈ digits, c.isDigit) :
    ofDigits digits < 10 ^ digits.length := by
  have hLess := foldl_digits_lt h 0
  rwa [Nat.zero_add, Nat.one_mul] at hLess

theorem short_iff (n : Int) : Short n ↔ n.natAbs < 10 ^ maxDigits := by
  constructor
  · intro hShort
    have hDigits := ofDigits_lt fun c => isDigit_of_mem_toDigits (n := n.natAbs)
    rw [ofDigits_toDigits] at hDigits
    exact hDigits.trans_le (Nat.pow_le_pow_right (by decide) hShort)
  · exact Nat.toDigits_length 10 n.natAbs maxDigits (by decide)

/-- What a short row of digits writes is a short integer. -/
theorem short_signed {digits : List Char} (h : ∀ c ∈ digits, c.isDigit)
    (hLength : digits.length ≤ maxDigits) (negative : Bool) :
    Short (signed negative (ofDigits digits)) := by
  have hAbs : (signed negative (ofDigits digits)).natAbs = ofDigits digits := by
    cases negative <;> simp [signed]
  rw [short_iff, hAbs]
  exact (ofDigits_lt h).trans_le (Nat.pow_le_pow_right (by decide) hLength)

theorem signed_natAbs (n : Int) : signed (decide (n < 0)) n.natAbs = n := by
  rw [signed]
  split
  · rename_i hSign
    have hNegative : n < 0 := of_decide_eq_true hSign
    omega
  · rename_i hSign
    have hNonneg : ¬ n < 0 := fun hLt => hSign (decide_eq_true hLt)
    omega

/-- An integer is written with a sign if it is negative, and its digits. -/
theorem toList_toString (n : Int) :
    (toString n).toList = (if n < 0 then ['-'] else []) ++ Nat.toDigits 10 n.natAbs := by
  cases n with
  | ofNat n =>
    have h : ¬ Int.ofNat n < 0 := Int.not_lt.mpr (Int.natCast_nonneg n)
    rw [if_neg h]
    exact Nat.toList_repr
  | negSucc n =>
    rw [if_pos (Int.negSucc_lt_zero n)]
    change ("-" ++ Nat.repr (n + 1)).toList = _
    rw [String.toList_append, Nat.toList_repr]
    rfl

theorem mem_toString {n : Int} {c : Char} (h : c ∈ (toString n).toList) :
    c = '-' ∨ c.isDigit := by
  rw [toList_toString, List.mem_append] at h
  rcases h with hSign | hDigit
  · split at hSign
    · exact .inl (List.mem_singleton.mp hSign)
    · cases hSign
  · exact .inr (isDigit_of_mem_toDigits hDigit)

theorem not_mem_toString {n : Int} {c : Char} (hMinus : c ≠ '-') (hDigit : c.isDigit = false) :
    c ∉ (toString n).toList := by
  intro h
  rcases mem_toString h with hSign | hIs
  · exact hMinus hSign
  · rw [hDigit] at hIs
    cases hIs

theorem toString_ne_empty (n : Int) : toString n ≠ "" := by
  intro h
  have hList := toList_toString n
  rw [h] at hList
  exact Nat.toDigits_ne_nil (List.append_eq_nil_iff.mp hList.symm).2

theorem toString_injective {a b : Int} (h : toString a = toString b) : a = b := by
  have hList : (toString a).toList = (toString b).toList := congrArg String.toList h
  have hMinus : ∀ n : Nat, '-' ∉ Nat.toDigits 10 n := fun n hMem =>
    absurd (isDigit_of_mem_toDigits hMem) (by decide)
  have hAbs : ∀ {m n : Nat}, Nat.toDigits 10 m = Nat.toDigits 10 n → m = n := by
    intro m n hDigits
    rw [← ofDigits_toDigits m, hDigits, ofDigits_toDigits]
  rw [toList_toString, toList_toString] at hList
  by_cases ha : a < 0 <;> by_cases hb : b < 0 <;> simp only [ha, hb, if_true, if_false,
    List.nil_append, List.singleton_append] at hList
  · have hNat := hAbs (List.cons.inj hList).2
    omega
  · exact absurd (hList ▸ List.mem_cons_self) (hMinus b.natAbs)
  · exact absurd (hList.symm ▸ List.mem_cons_self) (hMinus a.natAbs)
  · have hNat := hAbs hList
    omega

end ProtoSchema.Decimal
