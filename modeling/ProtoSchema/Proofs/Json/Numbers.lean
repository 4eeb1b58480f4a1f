import Mathlib.Data.List.Basic
import Mathlib.Data.List.TakeDrop
import ProtoSchema.Json.Reader
import ProtoSchema.Proofs.Decimal.Integer

/-! Integers that were written are read back, unless they have too many digits. -/
namespace ProtoSchema

namespace Decimal

/-- Small numbers have few digits. -/
theorem short_of_le {k : Nat} (h : k ≤ 100) : Short (Int.ofNat k) := by
  have hAll : ∀ k < 101, (Nat.toDigits 10 k).length ≤ maxDigits := by decide
  exact hAll k (by omega)

/-- A text before which a row of digits ends and makes an integer. -/
def Stops (rest : List Char) : Prop :=
  ∀ c ∈ rest.head?, c.isDigit = false ∧ c ≠ '.' ∧ c ≠ 'e' ∧ c ≠ 'E'

/-- Only zero starts with a zero. -/
theorem head?_toDigits_ne {n : Nat} (h : n ≠ 0) : (Nat.toDigits 10 n).head? ≠ some '0' := by
  induction n using Nat.strongRecOn with
  | ind n ih =>
    rw [Nat.toDigits_eq_if (by decide)]
    split
    · simpa using h
    · have hQuotient := ih (n / 10) (by omega) (by omega)
      rw [List.head?_append_of_ne_nil _ Nat.toDigits_ne_nil]
      exact hQuotient

namespace Literal
variable {rest : List Char} (hRest : Stops rest)
include hRest

theorem takeFraction_of_stops : takeFraction rest = ([], rest) := by
  unfold takeFraction
  split
  · exact absurd rfl (hRest '.' rfl).2.1
  · rfl

theorem takeExponent_of_stops : takeExponent rest = (none, rest) := by
  unfold takeExponent
  split
  · rename_i mark tail
    have hMark := hRest mark rfl
    rw [if_neg (by simp [hMark])]
  · rfl

theorem takeWhole_toDigits (n : Nat) :
    takeWhole (Nat.toDigits 10 n ++ rest) = some (Nat.toDigits 10 n, rest) := by
  by_cases hZero : n = 0
  · subst hZero
    rfl
  · have hDigits : ∀ c ∈ Nat.toDigits 10 n, c.isDigit = true :=
      fun c hc => isDigit_of_mem_toDigits hc
    have hEnd : rest.takeWhile Char.isDigit = [] ∧ rest.dropWhile Char.isDigit = rest := by
      cases rest with
      | nil => exact ⟨rfl, rfl⟩
      | cons c rest =>
        have hDigit := (hRest c rfl).1
        simp [hDigit]
    have hSpan : (Nat.toDigits 10 n ++ rest).span Char.isDigit = (Nat.toDigits 10 n, rest) := by
      rw [List.span_eq_takeWhile_dropWhile, List.takeWhile_append_of_pos hDigits,
        List.dropWhile_append_of_pos hDigits, hEnd.1, hEnd.2, List.append_nil]
    have hHead := head?_toDigits_ne hZero
    cases hList : Nat.toDigits 10 n with
    | nil => exact absurd hList Nat.toDigits_ne_nil
    | cons d ds =>
      rw [hList] at hSpan hHead
      have hNotZero : d ≠ '0' := fun hEq => hHead (by rw [hEq]; rfl)
      rw [List.cons_append] at hSpan ⊢
      rw [takeWhole, hSpan]
      intro tail hEq
      exact hNotZero (List.cons.inj hEq).1

theorem take?_toString (n : Int) : take? ((toString n).toList ++ rest) =
    some ({ negative := n < 0, whole := Nat.toDigits 10 n.natAbs }, rest) := by
  rw [toList_toString, List.append_assoc]
  by_cases hSign : n < 0
  · rw [if_pos hSign, decide_eq_true hSign, List.singleton_append]
    simp only [take?, takeWhole_toDigits hRest, Option.bind_eq_bind, Option.bind_some,
      takeFraction_of_stops hRest, takeExponent_of_stops hRest]
  · have hMinus : (Nat.toDigits 10 n.natAbs ++ rest).head? ≠ some '-' := by
      rw [List.head?_append_of_ne_nil _ Nat.toDigits_ne_nil]
      intro hHead
      exact absurd (isDigit_of_mem_toDigits (List.mem_of_mem_head? hHead)) (by decide)
    have hWhole := takeWhole_toDigits hRest n.natAbs
    rw [if_neg hSign, decide_eq_false hSign, List.nil_append]
    generalize Nat.toDigits 10 n.natAbs ++ rest = text at hMinus hWhole ⊢
    unfold take?
    split
    rename_i hMatch
    split at hMatch
    · exact absurd rfl hMinus
    · obtain ⟨rfl, rfl⟩ := Prod.mk.inj hMatch
      simp only [hWhole, Option.bind_eq_bind, Option.bind_some, takeFraction_of_stops hRest,
        takeExponent_of_stops hRest]

end Literal
end Decimal

namespace Json
open Decimal

theorem scanNumber_toString {n : Int} (hShort : Short n) {rest : List Char} (hRest : Stops rest) :
    scanNumber ((toString n).toList ++ rest) = .ok (.int n, rest) := by
  have hLength : ¬ maxDigits < (Nat.toDigits 10 n.natAbs).length := Nat.not_lt.mpr hShort
  have hInt : signed (decide (n < 0)) (ofDigits (Nat.toDigits 10 n.natAbs)) = n := by
    rw [ofDigits_toDigits, signed_natAbs]
  rw [scanNumber, Literal.take?_toString hRest]
  simp only [Literal.isInteger, List.isEmpty_nil, Option.isNone_none, Bool.and_self, if_true,
    if_neg hLength, Literal.toInt, hInt]

/-- No word starts like an integer. -/
theorem find?_words_toString (n : Int) (rest : List Char) :
    words.find? (fun word => word.1.isPrefixOf ((toString n).toList ++ rest)) = none := by
  rw [toList_toString]
  cases hList : Nat.toDigits 10 n.natAbs with
  | nil => exact absurd hList Nat.toDigits_ne_nil
  | cons d ds =>
    have hDigit : d.isDigit = true := isDigit_of_mem_toDigits (hList ▸ List.mem_cons_self)
    have hLetter : ∀ c : Char, c.isDigit = false → (c == d) = false := by
      intro c hc
      rw [beq_eq_false_iff_ne]
      intro hEq
      rw [hEq, hDigit] at hc
      cases hc
    split
    · simp [words, List.isPrefixOf, hLetter 'I' rfl]
    · simp [words, List.isPrefixOf, hLetter]

theorem scanAtom_toString {n : Int} (hShort : Short n) {rest : List Char} (hRest : Stops rest) :
    scanAtom ((toString n).toList ++ rest) = .ok (.int n, rest) := by
  rw [scanAtom, find?_words_toString]
  exact scanNumber_toString hShort hRest

/-- An integer that is too long is refused. -/
theorem scanAtom_toString_of_not_short {n : Int} (hLong : ¬ Short n) {rest : List Char}
    (hRest : Stops rest) : scanAtom ((toString n).toList ++ rest) =
      .error (.longInteger (Nat.toDigits 10 n.natAbs).length) := by
  have hLength : maxDigits < (Nat.toDigits 10 n.natAbs).length := Nat.not_le.mp hLong
  rw [scanAtom, find?_words_toString]
  dsimp only
  rw [scanNumber, Literal.take?_toString hRest]
  simp only [Literal.isInteger, List.isEmpty_nil, Option.isNone_none, Bool.and_self, if_true,
    if_pos hLength]

end Json
end ProtoSchema
