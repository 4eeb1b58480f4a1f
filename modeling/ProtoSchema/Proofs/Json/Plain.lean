import ProtoSchema.Proofs.Json.RoundTrip
import ProtoSchema.Text.Utf8

/-! Written JSON is plain text: line feeds and printable characters of ASCII. -/
namespace ProtoSchema

/-- A line feed or a printable character of ASCII. -/
def Text.Plain (c : Char) : Prop := c = '\n' ∨ 0x20 ≤ c.toNat ∧ c.toNat ≤ 0x7e

instance : DecidablePred Text.Plain := fun _ => inferInstanceAs (Decidable (_ ∨ _))

theorem Text.plain_of_all {text : List Char} (h : text.all fun c => decide (Plain c)) :
    ∀ c ∈ text, Plain c :=
  fun c hc => of_decide_eq_true (List.all_eq_true.mp h c hc)

/-- The ends of lines of a plain text are line feeds already. -/
theorem Text.unifyLineEnds_of_plain {text : List Char} (h : ∀ c ∈ text, Plain c) :
    unifyLineEnds text = text := by
  induction text with
  | nil => rw [unifyLineEnds]
  | cons c text ih =>
    obtain ⟨hHead, hTail⟩ := List.forall_mem_cons.mp h
    have hReturn : c ≠ '\r' := by
      rintro rfl
      exact absurd hHead (by decide)
    rw [unifyLineEnds, ih hTail]
    · intro _ hEq
      exact absurd hEq hReturn
    · exact hReturn

namespace Json
open Text (Plain)

theorem plain_of_isDigit {c : Char} (h : c.isDigit) : Plain c := by
  have hRange := Decimal.toNat_of_isDigit h
  exact .inr (by omega)

theorem plain_toString (n : Int) : ∀ c ∈ (toString n).toList, Plain c := by
  intro c hc
  rcases Decimal.mem_toString hc with rfl | hDigit
  · decide
  · exact plain_of_isDigit hDigit

theorem plain_hexDigits (n width : Nat) : ∀ c ∈ Text.hexDigits n width, Plain c := by
  have hDigit : ∀ d < 16, Plain (Nat.digitChar d) := by decide
  induction width generalizing n with
  | zero => exact nofun
  | succ width ih =>
    refine List.forall_mem_append.mpr ⟨ih (n / 16), List.forall_mem_singleton.mpr ?_⟩
    exact hDigit (n % 16) (Nat.mod_lt n (by decide))

theorem plain_unitEscape (unit : Nat) : ∀ c ∈ unitEscape unit, Plain c := by
  have hMarks : Plain '\\' ∧ Plain 'u' := by decide
  exact List.forall_mem_cons.mpr ⟨hMarks.1, List.forall_mem_cons.mpr
    ⟨hMarks.2, plain_hexDigits unit 4⟩⟩

theorem plain_escapedChar (c : Char) : ∀ d ∈ escapedChar c, Plain d := by
  unfold escapedChar
  split
  · exact Text.plain_of_all (by decide)
  · exact Text.plain_of_all (by decide)
  · exact Text.plain_of_all (by decide)
  · exact Text.plain_of_all (by decide)
  · exact Text.plain_of_all (by decide)
  · exact Text.plain_of_all (by decide)
  · exact Text.plain_of_all (by decide)
  · split
    · exact List.forall_mem_singleton.mpr (.inr ‹_›)
    · exact List.forall_mem_flatMap.mpr fun unit _ => plain_unitEscape unit

theorem plain_writeString (s : String) : ∀ c ∈ writeString s, Plain c := by
  have hQuote : Plain '"' := by decide
  refine List.forall_mem_append.mpr ⟨?_, List.forall_mem_singleton.mpr hQuote⟩
  refine List.forall_mem_cons.mpr ⟨hQuote, ?_⟩
  exact List.forall_mem_flatMap.mpr fun c _ => plain_escapedChar c

section
variable (spacing : Spacing) (depth : Nat)

theorem plain_newLine : ∀ c ∈ spacing.newLine depth, Plain c := by
  cases spacing with
  | oneLine => exact nofun
  | indented =>
    refine List.forall_mem_cons.mpr ⟨.inl rfl, fun c hc => ?_⟩
    rw [List.eq_of_mem_replicate hc]
    decide

theorem plain_separator : ∀ c ∈ spacing.separator depth, Plain c := by
  have hComma : Plain ',' := by decide
  have hBlank : Plain ' ' := by decide
  cases spacing with
  | oneLine => exact List.forall_mem_cons.mpr ⟨hComma, List.forall_mem_singleton.mpr hBlank⟩
  | indented => exact List.forall_mem_cons.mpr ⟨hComma, plain_newLine .indented depth⟩

theorem plain_writeItems {items : List Json}
    (h : ∀ item ∈ items, ∀ depth, ∀ c ∈ writeAt spacing depth item, Plain c) :
    ∀ c ∈ writeItems spacing depth items, Plain c := by
  induction items with
  | nil => exact nofun
  | cons item items ih =>
    obtain ⟨hItem, hItems⟩ := List.forall_mem_cons.mp h
    rw [writeItems]
    exact List.forall_mem_append.mpr ⟨List.forall_mem_append.mpr
      ⟨plain_separator spacing depth, hItem depth⟩, ih hItems⟩

/-- A name and its value. -/
theorem plain_field {value : Json} (h : ∀ c ∈ writeAt spacing depth value, Plain c)
    (name : String) : ∀ c ∈ writeString name ++ ':' :: ' ' :: writeAt spacing depth value,
      Plain c := by
  have hMarks : Plain ':' ∧ Plain ' ' := by decide
  exact List.forall_mem_append.mpr ⟨plain_writeString name, List.forall_mem_cons.mpr
    ⟨hMarks.1, List.forall_mem_cons.mpr ⟨hMarks.2, h⟩⟩⟩

theorem plain_writeFields {fields : List (String × Json)}
    (h : ∀ field ∈ fields, ∀ depth, ∀ c ∈ writeAt spacing depth field.2, Plain c) :
    ∀ c ∈ writeFields spacing depth fields, Plain c := by
  induction fields with
  | nil => exact nofun
  | cons field fields ih =>
    obtain ⟨hField, hFields⟩ := List.forall_mem_cons.mp h
    have hFirst := plain_field spacing depth (hField depth) field.1
    have hEq : writeFields spacing depth (field :: fields) = spacing.separator depth ++
        (writeString field.1 ++ ':' :: ' ' :: writeAt spacing depth field.2) ++
        writeFields spacing depth fields := by
      rw [writeFields]
      simp only [List.append_assoc, List.cons_append]
    rw [hEq]
    exact List.forall_mem_append.mpr ⟨List.forall_mem_append.mpr
      ⟨plain_separator spacing depth, hFirst⟩, ih hFields⟩

theorem plain_writeAt {value : Json} (h : Portable value) :
    ∀ depth, ∀ c ∈ writeAt spacing depth value, Plain c := by
  have hBrackets : Plain '[' ∧ Plain ']' ∧ Plain '{' ∧ Plain '}' := by decide
  obtain ⟨hOpen, hClose, hOpenBrace, hCloseBrace⟩ := hBrackets
  induction h with
  | null =>
    intro depth
    rw [writeAt]
    exact Text.plain_of_all (by decide)
  | bool flag =>
    intro depth
    cases flag <;> rw [writeAt] <;> exact Text.plain_of_all (by decide)
  | @int n _ =>
    intro depth
    rw [writeAt]
    exact plain_toString n
  | str s =>
    intro depth
    rw [writeAt]
    exact plain_writeString s
  | @arr items _ ih =>
    intro depth
    cases items with
    | nil =>
      rw [writeAt]
      exact Text.plain_of_all (by decide)
    | cons item items =>
      obtain ⟨hItem, hItems⟩ := List.forall_mem_cons.mp ih
      rw [writeAt]
      refine List.forall_mem_append.mpr ⟨?_, List.forall_mem_singleton.mpr hClose⟩
      refine List.forall_mem_append.mpr ⟨?_, plain_newLine spacing depth⟩
      refine List.forall_mem_append.mpr ⟨?_, plain_writeItems spacing (depth + 1) hItems⟩
      refine List.forall_mem_append.mpr ⟨?_, hItem (depth + 1)⟩
      exact List.forall_mem_cons.mpr ⟨hOpen, plain_newLine spacing (depth + 1)⟩
  | @obj fields _ _ ih =>
    intro depth
    cases fields with
    | nil =>
      rw [writeAt]
      exact Text.plain_of_all (by decide)
    | cons field fields =>
      obtain ⟨hField, hFields⟩ := List.forall_mem_cons.mp ih
      have hFirst := plain_field spacing (depth + 1) (hField (depth + 1)) field.1
      have hEq : writeAt spacing depth (.obj (field :: fields)) =
          '{' :: (spacing.newLine (depth + 1) ++
            (writeString field.1 ++ ':' :: ' ' :: writeAt spacing (depth + 1) field.2) ++
            writeFields spacing (depth + 1) fields ++ spacing.newLine depth ++ ['}']) := by
        rw [writeAt]
        simp only [List.append_assoc, List.cons_append]
      rw [hEq]
      refine List.forall_mem_cons.mpr ⟨hOpenBrace, ?_⟩
      refine List.forall_mem_append.mpr ⟨?_, List.forall_mem_singleton.mpr hCloseBrace⟩
      refine List.forall_mem_append.mpr ⟨?_, plain_newLine spacing depth⟩
      refine List.forall_mem_append.mpr ⟨?_, plain_writeFields spacing (depth + 1) hFields⟩
      exact List.forall_mem_append.mpr ⟨plain_newLine spacing (depth + 1), hFirst⟩

end

/-- The text of a value that reads back is plain. -/
theorem plain_write {value : Json} (h : Portable value) (spacing : Spacing) :
    ∀ c ∈ (write spacing value).toList, Plain c := by
  rw [write, String.toList_ofList]
  exact plain_writeAt spacing h 0

end Json
end ProtoSchema
