import Mathlib.Data.List.TakeWhile
import ProtoSchema.Proofs.Json.RoundTrip

/-!
Texts that are refused for the length of an integer. The integer is there, as a row of digits, since
what reading leaves of a text is always its end.
-/
namespace ProtoSchema

namespace Decimal.Literal

theorem takeWhole_eq_some {text whole rest : List Char} (h : takeWhole text = some (whole, rest)) :
    text = whole ++ rest ∧ ∀ c ∈ whole, c.isDigit := by
  unfold takeWhole at h
  split at h
  · cases h
    exact ⟨rfl, by simp⟩
  · rw [List.span_eq_takeWhile_dropWhile] at h
    split at h
    · cases h
    · rename_i hSpan
      cases h
      obtain ⟨rfl, rfl⟩ := Prod.mk.inj hSpan
      exact ⟨(List.takeWhile_append_dropWhile).symm, fun c hc => List.mem_takeWhile_imp hc⟩

theorem takeFraction_suffix (text : List Char) : (takeFraction text).2 <:+ text := by
  unfold takeFraction
  split
  · rw [List.span_eq_takeWhile_dropWhile]
    split
    · exact List.suffix_rfl
    · rename_i hSpan
      obtain ⟨-, rfl⟩ := Prod.mk.inj hSpan
      exact (List.dropWhile_suffix _).trans (List.suffix_cons _ _)
  · exact List.suffix_rfl

theorem takeExponent_suffix (text : List Char) : (takeExponent text).2 <:+ text := by
  unfold takeExponent
  split
  · rename_i mark rest
    split
    · split
      rename_i negative tail hSign
      have hTail : tail <:+ rest := by
        split at hSign
        · obtain ⟨-, rfl⟩ := Prod.mk.inj hSign
          exact List.suffix_cons _ _
        · obtain ⟨-, rfl⟩ := Prod.mk.inj hSign
          exact List.suffix_cons _ _
        · obtain ⟨-, rfl⟩ := Prod.mk.inj hSign
          exact List.suffix_rfl
      rw [List.span_eq_takeWhile_dropWhile]
      split
      · exact List.suffix_rfl
      · rename_i hSpan
        obtain ⟨-, rfl⟩ := Prod.mk.inj hSpan
        exact ((List.dropWhile_suffix _).trans hTail).trans (List.suffix_cons _ _)
    · exact List.suffix_rfl
  · exact List.suffix_rfl

/-- A literal is read from its digits on, and what it leaves is the end of the text. -/
theorem take?_eq_some {text rest : List Char} {literal : Literal}
    (h : take? text = some (literal, rest)) :
    rest <:+ text ∧ literal.whole <:+: text ∧ ∀ c ∈ literal.whole, c.isDigit := by
  unfold take? at h
  split at h
  rename_i negative unsigned hSign
  have hUnsigned : unsigned <:+ text := by
    split at hSign
    · obtain ⟨-, rfl⟩ := Prod.mk.inj hSign
      exact List.suffix_cons _ _
    · obtain ⟨-, rfl⟩ := Prod.mk.inj hSign
      exact List.suffix_rfl
  obtain ⟨⟨whole, afterWhole⟩, hWhole, h⟩ := Option.bind_eq_some_iff.mp h
  cases h
  obtain ⟨rfl, hDigits⟩ := takeWhole_eq_some hWhole
  have hRest := (takeExponent_suffix _).trans (takeFraction_suffix afterWhole)
  exact ⟨(hRest.trans (List.suffix_append _ _)).trans hUnsigned,
    (List.prefix_append _ _).isInfix.trans hUnsigned.isInfix, hDigits⟩

end Decimal.Literal

namespace Json

/-- A row of this many digits, more than an integer may have, is in the text. -/
def HasLongInteger (n : Nat) (text : List Char) : Prop :=
  Decimal.maxDigits < n ∧
    ∃ digits, digits <:+: text ∧ digits.length = n ∧ ∀ c ∈ digits, c.isDigit

/-- What the result leaves of a text is its end, and where an integer is too long it is there. -/
def Within {α : Type} (text : List Char) : Except Failure (α × List Char) → Prop
  | .ok (_, rest) => rest <:+ text
  | .error (.longInteger n) => HasLongInteger n text
  | .error _ => True

theorem HasLongInteger.mono {n : Nat} {text whole : List Char} (h : HasLongInteger n text)
    (hText : text <:+ whole) : HasLongInteger n whole := by
  obtain ⟨hLong, digits, hInfix, hDigits⟩ := h
  exact ⟨hLong, digits, hInfix.trans hText.isInfix, hDigits⟩

section
variable {α β : Type} {text whole : List Char}

theorem Within.mono {result : Except Failure (α × List Char)} (h : Within text result)
    (hText : text <:+ whole) : Within whole result := by
  cases result with
  | ok pair => exact List.IsSuffix.trans h hText
  | error failure =>
    cases failure with
    | longInteger n => exact HasLongInteger.mono h hText
    | _ => trivial

/-- A failure is about the text, whatever was to be read. -/
theorem Within.error {failure : Failure}
    (h : Within text (.error failure : Except Failure (α × List Char))) :
    Within text (.error failure : Except Failure (β × List Char)) := by
  cases failure <;> exact h

theorem Within.bind {result : Except Failure (α × List Char)}
    {f : α × List Char → Except Failure (β × List Char)} (h : Within text result)
    (hNext : ∀ a rest, result = .ok (a, rest) → Within rest (f (a, rest))) :
    Within text (result >>= f) := by
  cases hResult : result with
  | ok pair =>
    rw [hResult] at h
    exact (hNext pair.1 pair.2 hResult).mono h
  | error failure =>
    rw [hResult] at h
    cases failure with
    | longInteger n => exact h
    | _ => trivial

theorem skipBlanks_suffix (text : List Char) : skipBlanks text <:+ text :=
  List.dropWhile_suffix _

theorem within_scanUnits (opening : List Char) (units : List Nat) (text : List Char) :
    Within text (scanUnits opening units text) := by
  induction units, text using scanUnits.induct with
  | case1 units =>
    rw [scanUnits]
    trivial
  | case2 units rest =>
    rw [scanUnits]
    exact List.suffix_cons _ _
  | case3 units =>
    rw [scanUnits]
    trivial
  | case4 units a b c d next rest unit hUnit ih =>
    rw [scanUnits, hUnit]
    exact ih.mono ⟨['\\', 'u', a, b, c, d], rfl⟩
  | case5 units a b c d next rest hUnit =>
    rw [scanUnits, hUnit]
    trivial
  | case6 units rest hRest =>
    rw [scanUnits]
    · trivial
    · exact hRest
  | case7 units c rest hUnit hNotUnit e hEscaped ih =>
    rw [scanUnits, hEscaped]
    · exact ih.mono ⟨['\\', c], rfl⟩
    · exact hUnit
    · exact hNotUnit
  | case8 units c rest hUnit hNotUnit hEscaped =>
    rw [scanUnits, hEscaped]
    · trivial
    · exact hUnit
    · exact hNotUnit
  | case9 units c rest hQuote hEnd hUnit hNotUnit hEscape hControl =>
    rw [scanUnits, if_pos hControl]
    · trivial
    all_goals assumption
  | case10 units c rest hQuote hEnd hUnit hNotUnit hEscape hControl ih =>
    rw [scanUnits, if_neg hControl]
    · exact ih.mono (List.suffix_cons _ _)
    all_goals assumption

theorem within_scanString (text : List Char) : Within text (scanString text) := by
  refine (within_scanUnits ('"' :: text) [] text).bind fun units rest _ => ?_
  dsimp only
  split
  · exact List.suffix_rfl
  · trivial

theorem within_scanNumber (text : List Char) : Within text (scanNumber text) := by
  unfold scanNumber
  split
  · trivial
  · rename_i literal rest hLiteral
    obtain ⟨hRest, hWhole, hDigits⟩ := Decimal.Literal.take?_eq_some hLiteral
    split
    · split
      · exact ⟨‹_›, literal.whole, hWhole, rfl, hDigits⟩
      · exact hRest
    · exact hRest

theorem within_scanAtom (text : List Char) : Within text (scanAtom text) := by
  unfold scanAtom
  split
  · exact List.drop_suffix _ _
  · exact within_scanNumber text

theorem within_scanName (text : List Char) : Within text (scanName text) := by
  unfold scanName
  split
  · rename_i text
    refine Within.mono ((within_scanString text).bind fun name rest _ => ?_) (List.suffix_cons _ _)
    dsimp only
    split
    · rename_i after hColon
      have hAfter : after <:+ skipBlanks rest := by
        rw [hColon]
        exact List.suffix_cons _ _
      exact ((skipBlanks_suffix after).trans hAfter).trans (skipBlanks_suffix rest)
    · trivial
  · trivial

/-- After an item there is the end of the list, the start of another item, or something wrong. -/
theorem suffix_of_skipBlanks {c : Char} {after rest : List Char}
    (h : skipBlanks rest = c :: after) : after <:+ rest := by
  have hAfter : after <:+ skipBlanks rest := by
    rw [h]
    exact List.suffix_cons _ _
  exact hAfter.trans (skipBlanks_suffix rest)

theorem within_scan (fuel : Nat) : (∀ text, Within text (scanValue fuel text)) ∧
    (∀ items text, Within text (scanItems fuel items text)) ∧
    ∀ fields text, Within text (scanFields fuel fields text) := by
  induction fuel with
  | zero => exact ⟨fun _ => trivial, fun _ _ => trivial, fun _ _ => trivial⟩
  | succ fuel ih =>
    obtain ⟨hValue, hItems, hFields⟩ := ih
    refine ⟨fun text => ?_, fun items text => ?_, fun fields text => ?_⟩
    · unfold scanValue
      split
      · trivial
      · rename_i rest _
        exact Within.mono ((within_scanString rest).bind fun _ _ _ => List.suffix_rfl)
          (List.suffix_cons _ _)
      · rename_i rest hFuel
        cases hFuel
        split
        · exact (suffix_of_skipBlanks ‹_›).trans (List.suffix_cons _ _)
        · exact (hItems _ _).mono ((skipBlanks_suffix rest).trans (List.suffix_cons _ _))
      · rename_i rest hFuel
        cases hFuel
        split
        · exact (suffix_of_skipBlanks ‹_›).trans (List.suffix_cons _ _)
        · exact (hFields _ _).mono ((skipBlanks_suffix rest).trans (List.suffix_cons _ _))
      · exact within_scanAtom _
    · unfold scanItems
      have hItem := hValue text
      split
      · rename_i failure hFails
        rw [hFails] at hItem
        exact hItem
      · rename_i item rest hRest
        rw [hRest] at hItem
        split
        · exact (suffix_of_skipBlanks ‹_›).trans hItem
        · rename_i after hComma
          exact ((hItems _ _).mono (skipBlanks_suffix after)).mono
            ((suffix_of_skipBlanks hComma).trans hItem)
        · trivial
    · unfold scanFields
      have hName := within_scanName text
      split
      · rename_i failure hFails
        rw [hFails] at hName
        exact hName.error
      · rename_i name start hStart
        rw [hStart] at hName
        have hItem := (hValue start).mono hName
        split
        · rename_i failure hFails
          rw [hFails] at hItem
          exact hItem
        · rename_i value rest hRest
          rw [hRest] at hItem
          split
          · exact (suffix_of_skipBlanks ‹_›).trans hItem
          · rename_i after hComma
            exact ((hFields _ _).mono (skipBlanks_suffix after)).mono
              ((suffix_of_skipBlanks hComma).trans hItem)
          · trivial

/-- A text is refused for the length of an integer only if it has a row of so many digits. -/
theorem hasLongInteger_of_read {n : Nat} (h : read text = .error (.longInteger n)) :
    HasLongInteger n text := by
  unfold read at h
  split at h
  · cases h
  · have hValue := (within_scan (2 * text.length + 1)).1 (skipBlanks text)
    cases hScan : scanValue (2 * text.length + 1) (skipBlanks text) with
    | error failure =>
      rw [hScan] at h hValue
      cases h
      exact hValue.mono (skipBlanks_suffix text)
    | ok pair =>
      rw [hScan] at h
      simp only [bind, Except.bind] at h
      split at h <;> cases h

end

theorem scanValue_toString_of_not_short {n : Int} (hLong : ¬ Decimal.Short n) (fuel : Nat) :
    scanValue (fuel + 1) (toString n).toList =
      .error (.longInteger (Nat.toDigits 10 n.natAbs).length) := by
  have hStops : Decimal.Stops [] := nofun
  have hAtom := scanAtom_toString_of_not_short hLong hStops
  obtain ⟨c, text, hText, hNe⟩ := toString_eq_cons n
  rw [List.append_nil, hText] at hAtom
  rw [hText, scanValue_succ (hNe _ (by decide) (by decide)) (hNe _ (by decide) (by decide))
    (hNe _ (by decide) (by decide)), hAtom]

/-- The text of an integer is refused for its length exactly if the integer is too long. -/
theorem read_toString_eq_longInteger_iff (n : Int) :
    (∃ digits, read (toString n).toList = .error (.longInteger digits)) ↔ ¬ Decimal.Short n := by
  constructor
  · rintro ⟨digits, h⟩ hShort
    have hTrailing : ∀ c ∈ [], isBlank c = true := nofun
    have hRead := read_write (.int hShort) .oneLine hTrailing
    rw [write, writeAt, String.toList_ofList, List.append_nil, h] at hRead
    cases hRead
  · intro hLong
    have hStart := startsValue_toString n
    refine ⟨(Nat.toDigits 10 n.natAbs).length, ?_⟩
    unfold read
    split
    · rename_i hMark
      obtain ⟨c, text, hText, -, -, hOrder⟩ := hStart
      rw [hText, List.cons.injEq] at hMark
      exact absurd hMark.1 hOrder
    · simp only [hStart.skipBlanks_eq, scanValue_toString_of_not_short hLong, bind, Except.bind]

end Json
end ProtoSchema
