import ProtoSchema.Decimal.Layout
import ProtoSchema.Proofs.Decimal.Integer

/-! Which characters the text of a float is made of. -/
namespace ProtoSchema.Decimal

theorem isDigit_of_mem_scaled {decimal : Scaled} {c : Char} (h : c ∈ decimal.toDigits.digits) :
    c.isDigit := by
  have hTrimmed := (List.dropWhile_sublist _).mem (List.mem_reverse.mp h)
  exact isDigit_of_mem_toDigits (List.mem_reverse.mp hTrimmed)

theorem isDigit_of_ofFloat {x : Float} {negative : Bool} {digits : Digits}
    (h : Reading.ofFloat x = .finite negative digits) : ∀ c ∈ digits.digits, c.isDigit := by
  unfold Reading.ofFloat at h
  split at h
  · cases h
  · cases h
  · cases h
    exact List.forall_mem_singleton.mpr (by decide)
  · cases h
    exact fun c hc => isDigit_of_mem_scaled hc

namespace Layout

/-- A digit, or a mark in a number. -/
def IsNumeric (c : Char) : Prop := c.isDigit ∨ c ∈ ['.', 'e', '+', '-']

theorem isNumeric_of_mem_zeros {n : Nat} {c : Char} (h : c ∈ List.replicate n '0') :
    IsNumeric c := by
  rw [List.eq_of_mem_replicate h]
  exact .inl (by decide)

section
variable {digits : List Char} (hDigits : ∀ c ∈ digits, c.isDigit)
include hDigits

theorem isNumeric_of_mem_positional {exponent : Int} :
    ∀ c ∈ positional digits exponent, IsNumeric c := by
  have hTake : ∀ n, ∀ c ∈ digits.take n, IsNumeric c :=
    fun n c hc => .inl (hDigits c (List.mem_of_mem_take hc))
  have hDrop : ∀ n, ∀ c ∈ digits.drop n, IsNumeric c :=
    fun n c hc => .inl (hDigits c (List.mem_of_mem_drop hc))
  have hZero : IsNumeric '0' := .inl (by decide)
  have hPoint : IsNumeric '.' := .inr (by decide)
  unfold positional
  split
  · simp only [List.forall_mem_cons, List.forall_mem_append]
    exact ⟨hZero, hPoint, fun c hc => isNumeric_of_mem_zeros hc, fun c hc => .inl (hDigits c hc)⟩
  · simp only [List.forall_mem_cons, List.forall_mem_append]
    refine ⟨⟨hTake _, fun c hc => isNumeric_of_mem_zeros hc⟩, hPoint, ?_⟩
    split
    · exact List.forall_mem_singleton.mpr hZero
    · exact hDrop _

theorem isNumeric_of_mem_scientific (layout : Layout) {exponent : Int} :
    ∀ c ∈ layout.scientific digits exponent, IsNumeric c := by
  have hTake : ∀ n, ∀ c ∈ digits.take n, IsNumeric c :=
    fun n c hc => .inl (hDigits c (List.mem_of_mem_take hc))
  have hDrop : ∀ n, ∀ c ∈ digits.drop n, IsNumeric c :=
    fun n c hc => .inl (hDigits c (List.mem_of_mem_drop hc))
  have hMarks : ∀ c ∈ ['.', 'e', '+', '-'], IsNumeric c := fun c hc => .inr hc
  unfold scientific padLeft
  simp only [List.forall_mem_cons, List.forall_mem_append]
  refine ⟨⟨hTake 1, ?_⟩, hMarks 'e' (by decide), ?_, fun c hc => isNumeric_of_mem_zeros hc,
    fun c hc => .inl (isDigit_of_mem_toDigits hc)⟩
  · split
    · exact List.forall_mem_nil _
    · exact List.forall_mem_cons.mpr ⟨hMarks '.' (by decide), hDrop 1⟩
  · split
    · exact hMarks '-' (by decide)
    · exact hMarks '+' (by decide)

end

theorem mem_write {layout : Layout} {x : Float} {c : Char} (h : c ∈ (layout.write x).toList) :
    IsNumeric c ∨ c ∈ layout.nan.toList ∨ c ∈ layout.infinity.toList := by
  have hSign : ∀ negative : Bool, ∀ d ∈ (if negative then ['-'] else []), IsNumeric d := by
    intro negative
    cases negative with
    | false => exact List.forall_mem_nil _
    | true => exact List.forall_mem_singleton.mpr (.inr (by decide))
  rw [write, String.toList_ofList] at h
  cases hReading : Reading.ofFloat x with
  | nan =>
    rw [hReading] at h
    exact .inr (.inl h)
  | infinity negative =>
    rw [hReading, writeReading, List.mem_append] at h
    rcases h with hMinus | hWord
    · exact .inl (hSign negative c hMinus)
    · exact .inr (.inr hWord)
  | finite negative digits =>
    have hDigits := isDigit_of_ofFloat hReading
    rw [hReading, writeReading, List.mem_append] at h
    left
    rcases h with hMinus | hNumber
    · exact hSign negative c hMinus
    · split at hNumber
      · exact isNumeric_of_mem_positional hDigits c hNumber
      · exact isNumeric_of_mem_scientific hDigits layout c hNumber

end Layout
end ProtoSchema.Decimal
