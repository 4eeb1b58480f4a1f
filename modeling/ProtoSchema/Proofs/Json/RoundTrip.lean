import ProtoSchema.Proofs.Json.Numbers
import ProtoSchema.Proofs.Json.Strings

/-! Values that were written are read back, on one line and on several. -/
namespace ProtoSchema.Json
open Decimal (Short Stops)

/-- A value without floats whose integers may be read and whose objects name each field once. -/
inductive Portable : Json → Prop where
  | null : Portable .null
  | bool (value : Bool) : Portable (.bool value)
  | int {n : Int} (h : Short n) : Portable (.int n)
  | str (s : String) : Portable (.str s)
  | arr {items : List Json} (h : ∀ item ∈ items, Portable item) : Portable (.arr items)
  | obj {fields : List (String × Json)} (hNames : (fields.map Prod.fst).Nodup)
    (h : ∀ field ∈ fields, Portable field.2) : Portable (.obj fields)

theorem skipBlanks_append {blanks : List Char} (h : ∀ c ∈ blanks, isBlank c = true)
    (text : List Char) : skipBlanks (blanks ++ text) = skipBlanks text :=
  List.dropWhile_append_of_pos h

theorem skipBlanks_cons {c : Char} (h : isBlank c = false) (text : List Char) :
    skipBlanks (c :: text) = c :: text :=
  List.dropWhile_cons_of_neg (by simp [h])

/-- A text that starts a value, and neither ends a list nor marks a byte order. -/
def StartsValue (text : List Char) : Prop :=
  ∃ c rest, text = c :: rest ∧ isBlank c = false ∧ c ≠ ']' ∧ c ≠ '\ufeff'

theorem StartsValue.append {text : List Char} (h : StartsValue text) (rest : List Char) :
    StartsValue (text ++ rest) := by
  obtain ⟨c, tail, rfl, hc⟩ := h
  exact ⟨c, tail ++ rest, rfl, hc⟩

theorem StartsValue.skipBlanks_eq {text : List Char} (h : StartsValue text) :
    skipBlanks text = text := by
  obtain ⟨c, tail, rfl, hBlank, -⟩ := h
  exact skipBlanks_cons hBlank tail

theorem stops_cons {c : Char} (h : c ∈ [',', ']', '}', '\n']) (rest : List Char) :
    Stops (c :: rest) := by
  have hMarks : [',', ']', '}', '\n'].all fun c =>
      c.isDigit = false ∧ c ≠ '.' ∧ c ≠ 'e' ∧ c ≠ 'E' := by decide
  intro d hd
  rw [← Option.some.inj hd]
  exact of_decide_eq_true (List.all_eq_true.mp hMarks c h)

namespace Spacing
variable (spacing : Spacing) (depth : Nat)

theorem isBlank_newLine : ∀ c ∈ spacing.newLine depth, isBlank c = true := by
  cases spacing with
  | oneLine => simp [newLine]
  | indented =>
    intro c hc
    rcases List.mem_cons.mp hc with rfl | hc
    · rfl
    · rw [List.eq_of_mem_replicate hc]
      rfl

theorem separator_eq_cons :
    ∃ blanks, spacing.separator depth = ',' :: blanks ∧ ∀ c ∈ blanks, isBlank c = true := by
  cases spacing with
  | oneLine => exact ⟨[' '], rfl, by simp [isBlank]⟩
  | indented => exact ⟨_, rfl, isBlank_newLine .indented depth⟩

theorem stops_newLine_append {c : Char} (h : c ∈ [']', '}']) (rest : List Char) :
    Stops (spacing.newLine depth ++ c :: rest) := by
  cases spacing with
  | oneLine =>
    refine stops_cons ?_ rest
    exact List.mem_cons_of_mem _ (List.mem_append_left ['\n'] h)
  | indented => exact stops_cons (by simp) _

theorem stops_separator_append (rest : List Char) : Stops (spacing.separator depth ++ rest) := by
  obtain ⟨blanks, hEq, -⟩ := separator_eq_cons spacing depth
  rw [hEq]
  exact stops_cons (by simp) _

end Spacing

/-- An integer starts with a sign or a digit. -/
theorem toString_eq_cons (n : Int) : ∃ c text, (toString n).toList = c :: text ∧
    ∀ d : Char, d ≠ '-' → d.isDigit = false → c ≠ d := by
  cases hList : (toString n).toList with
  | nil => exact absurd (String.toList_eq_nil_iff.mp hList) (Decimal.toString_ne_empty n)
  | cons c text =>
    refine ⟨c, text, rfl, ?_⟩
    intro d hMinus hDigit hEq
    have hMem : d ∈ (toString n).toList := by
      rw [hList, hEq]
      exact List.mem_cons_self
    exact Decimal.not_mem_toString hMinus hDigit hMem

theorem startsValue_toString (n : Int) : StartsValue (toString n).toList := by
  obtain ⟨c, text, hText, hNe⟩ := toString_eq_cons n
  refine ⟨c, text, hText, ?_, hNe _ (by decide) (by decide), hNe _ (by decide) (by decide)⟩
  simp [isBlank, hNe]

theorem startsValue_writeAt (spacing : Spacing) (depth : Nat) {value : Json}
    (h : Portable value) : StartsValue (writeAt spacing depth value) := by
  cases h with
  | null => exact ⟨'n', _, rfl, by decide⟩
  | bool flag =>
    cases flag with
    | false => exact ⟨'f', _, rfl, by decide⟩
    | true => exact ⟨'t', _, rfl, by decide⟩
  | int => exact startsValue_toString _
  | str s => exact ⟨'"', _, rfl, by decide⟩
  | @arr items =>
    cases items with
    | nil => exact ⟨'[', _, rfl, by decide⟩
    | cons item items => exact ⟨'[', _, rfl, by decide⟩
  | @obj fields =>
    cases fields with
    | nil => exact ⟨'{', _, rfl, by decide⟩
    | cons field fields => exact ⟨'{', _, rfl, by decide⟩

theorem fuel_eq_succ {spacing : Spacing} {value : Json} {depth fuel : Nat} (h : Portable value)
    (hFuel : (writeAt spacing depth value).length ≤ fuel) : ∃ m, fuel = m + 1 := by
  obtain ⟨c, text, hText, -⟩ := startsValue_writeAt spacing depth h
  rw [hText, List.length_cons] at hFuel
  exact ⟨fuel - 1, by omega⟩

/-- A value written at any depth is read back, up to where it ends. -/
def ReadsBack (spacing : Spacing) (value : Json) : Prop :=
  ∀ depth fuel rest, (writeAt spacing depth value).length ≤ fuel → Stops rest →
    scanValue fuel (writeAt spacing depth value ++ rest) = .ok (value, rest)

section
variable {spacing : Spacing} (depth : Nat)

theorem scanItems_writeItems (fuel : Nat) (read : List Json) {item : Json} {items : List Json}
    (rest : List Char)
    (hPortable : ∀ value ∈ item :: items, Portable value)
    (hItems : ∀ value ∈ item :: items, ReadsBack spacing value)
    (hFuel : (writeAt spacing (depth + 1) item).length +
      (writeItems spacing (depth + 1) items).length < fuel) :
    scanItems fuel read (writeAt spacing (depth + 1) item ++
      (writeItems spacing (depth + 1) items ++ (spacing.newLine depth ++ ']' :: rest))) =
        .ok (.arr (read.reverse ++ item :: items), rest) := by
  induction items generalizing item read fuel with
  | nil =>
    obtain ⟨fuel, rfl⟩ : ∃ m, fuel = m + 1 := ⟨fuel - 1, by omega⟩
    have hStops := spacing.stops_newLine_append depth (c := ']') (by simp) rest
    have hItem := (List.forall_mem_cons.mp hItems).1 (depth + 1) fuel _ (by omega) hStops
    rw [writeItems, List.nil_append, scanItems, hItem]
    simp only [skipBlanks_append (spacing.isBlank_newLine depth),
      skipBlanks_cons (show isBlank ']' = false by decide), List.reverse_cons]
  | cons next items ih =>
    obtain ⟨fuel, rfl⟩ : ∃ m, fuel = m + 1 := ⟨fuel - 1, by omega⟩
    rw [List.forall_mem_cons] at hPortable hItems
    obtain ⟨blanks, hSeparator, hBlanks⟩ := spacing.separator_eq_cons (depth + 1)
    have hNext := startsValue_writeAt spacing (depth + 1)
      (List.forall_mem_cons.mp hPortable.2).1
    have hLength : (writeItems spacing (depth + 1) (next :: items)).length =
        (spacing.separator (depth + 1)).length + (writeAt spacing (depth + 1) next).length +
          (writeItems spacing (depth + 1) items).length := by
      rw [writeItems, List.length_append, List.length_append]
    have hPositive : 0 < (spacing.separator (depth + 1)).length := by
      rw [hSeparator]
      exact Nat.succ_pos _
    have hRest := ih fuel (item :: read) hPortable.2 hItems.2 (by omega)
    have hStops := spacing.stops_separator_append (depth + 1) (writeAt spacing (depth + 1) next ++
      (writeItems spacing (depth + 1) items ++ (spacing.newLine depth ++ ']' :: rest)))
    have hItem := hItems.1 (depth + 1) fuel _ (by omega) hStops
    rw [writeItems, List.append_assoc, List.append_assoc, scanItems, hItem, hSeparator]
    simp only [List.cons_append, skipBlanks_cons (show isBlank ',' = false by decide),
      skipBlanks_append hBlanks, (hNext.append _).skipBlanks_eq]
    rw [hRest, List.reverse_cons, List.append_assoc, List.singleton_append]

theorem scanName_writeString (name : String) {text : List Char} (h : StartsValue text) :
    scanName (writeString name ++ (':' :: ' ' :: text)) = .ok (name, text) := by
  have hColon : isBlank ':' = false := by decide
  have hBlank : ∀ c ∈ [' '], isBlank c = true := by simp [isBlank]
  have hSpace : skipBlanks (' ' :: text) = text := by
    have hAppend := skipBlanks_append hBlank text
    rw [h.skipBlanks_eq] at hAppend
    exact hAppend
  simp only [writeString, List.cons_append, List.append_assoc, List.nil_append, scanName,
    scanString_writeString, bind, Except.bind, skipBlanks_cons hColon, hSpace, pure, Except.pure]

theorem startsValue_writeString (name : String) : StartsValue (writeString name) :=
  ⟨'"', _, rfl, by decide⟩

theorem scanFields_writeFields (fuel : Nat) (read : List (String × Json)) {name : String}
    {value : Json} {fields : List (String × Json)} (rest : List Char)
    (hPortable : ∀ field ∈ (name, value) :: fields, Portable field.2)
    (hFields : ∀ field ∈ (name, value) :: fields, ReadsBack spacing field.2)
    (hFuel : (writeAt spacing (depth + 1) value).length +
      (writeFields spacing (depth + 1) fields).length < fuel) :
    scanFields fuel read (writeString name ++ (':' :: ' ' :: (writeAt spacing (depth + 1) value ++
      (writeFields spacing (depth + 1) fields ++ (spacing.newLine depth ++ '}' :: rest))))) =
        .ok (.obj (Assoc.ofList (read.reverse ++ (name, value) :: fields)), rest) := by
  induction fields generalizing name value read fuel with
  | nil =>
    obtain ⟨fuel, rfl⟩ : ∃ m, fuel = m + 1 := ⟨fuel - 1, by omega⟩
    rw [List.forall_mem_cons] at hPortable hFields
    have hStart := startsValue_writeAt spacing (depth + 1) hPortable.1
    have hStops := spacing.stops_newLine_append depth (c := '}') (by simp) rest
    have hFirst : ReadsBack spacing value := hFields.1
    have hValue := hFirst (depth + 1) fuel _ (by omega) hStops
    rw [writeFields, List.nil_append, scanFields, scanName_writeString name (hStart.append _)]
    simp only [hValue, skipBlanks_append (spacing.isBlank_newLine depth),
      skipBlanks_cons (show isBlank '}' = false by decide), List.reverse_cons]
  | cons next fields ih =>
    obtain ⟨fuel, rfl⟩ : ∃ m, fuel = m + 1 := ⟨fuel - 1, by omega⟩
    obtain ⟨nextName, nextValue⟩ := next
    rw [List.forall_mem_cons] at hPortable hFields
    obtain ⟨blanks, hSeparator, hBlanks⟩ := spacing.separator_eq_cons (depth + 1)
    have hStart := startsValue_writeAt spacing (depth + 1) hPortable.1
    have hLength : (writeFields spacing (depth + 1) ((nextName, nextValue) :: fields)).length =
        (spacing.separator (depth + 1)).length + (writeString nextName).length +
          (2 + (writeAt spacing (depth + 1) nextValue).length) +
          (writeFields spacing (depth + 1) fields).length := by
      simp only [writeFields, List.length_append, List.length_cons]
      omega
    have hPositive : 0 < (spacing.separator (depth + 1)).length := by
      rw [hSeparator]
      exact Nat.succ_pos _
    have hRest := ih fuel ((name, value) :: read) hPortable.2 hFields.2 (by omega)
    have hStops := spacing.stops_separator_append (depth + 1) (writeString nextName ++
      (':' :: ' ' :: (writeAt spacing (depth + 1) nextValue ++
        (writeFields spacing (depth + 1) fields ++ (spacing.newLine depth ++ '}' :: rest)))))
    have hFirst : ReadsBack spacing value := hFields.1
    have hValue := hFirst (depth + 1) fuel _ (by omega) hStops
    simp only [writeFields, List.append_assoc, List.cons_append]
    rw [scanFields, scanName_writeString name (hStart.append _)]
    simp only [hValue]
    rw [hSeparator, List.cons_append, skipBlanks_cons (show isBlank ',' = false by decide)]
    simp only [skipBlanks_append hBlanks,
      ((startsValue_writeString nextName).append _).skipBlanks_eq]
    rw [hRest, List.reverse_cons, List.append_assoc, List.singleton_append]

theorem scanValue_succ {c : Char} {text : List Char} (hQuote : c ≠ '"') (hBracket : c ≠ '[')
    (hBrace : c ≠ '{') (fuel : Nat) : scanValue (fuel + 1) (c :: text) = scanAtom (c :: text) := by
  rw [scanValue]
  · intro rest hEq
    exact hQuote (List.cons.inj hEq).1
  · intro rest hEq
    exact hBracket (List.cons.inj hEq).1
  · intro rest hEq
    exact hBrace (List.cons.inj hEq).1

theorem scanAtom_null (rest : List Char) :
    scanAtom ("null".toList ++ rest) = .ok (.null, rest) := by
  simp [scanAtom, words, List.isPrefixOf]

theorem scanAtom_false (rest : List Char) :
    scanAtom ("false".toList ++ rest) = .ok (.bool false, rest) := by
  simp [scanAtom, words, List.isPrefixOf]

theorem scanAtom_true (rest : List Char) :
    scanAtom ("true".toList ++ rest) = .ok (.bool true, rest) := by
  simp [scanAtom, words, List.isPrefixOf]

theorem scanValue_toString {n : Int} (hShort : Short n) (fuel : Nat) {rest : List Char}
    (hRest : Stops rest) :
    scanValue (fuel + 1) ((toString n).toList ++ rest) = .ok (.int n, rest) := by
  obtain ⟨c, text, hText, hNe⟩ := toString_eq_cons n
  have hAtom := scanAtom_toString hShort hRest
  rw [hText, List.cons_append] at hAtom ⊢
  rw [scanValue_succ (hNe _ (by decide) (by decide)) (hNe _ (by decide) (by decide))
    (hNe _ (by decide) (by decide)), hAtom]

theorem readsBack_arr {items : List Json} (hPortable : ∀ item ∈ items, Portable item)
    (hItems : ∀ item ∈ items, ReadsBack spacing item) : ReadsBack spacing (.arr items) := by
  intro depth fuel rest hFuel _
  obtain ⟨fuel, rfl⟩ := fuel_eq_succ (.arr hPortable) hFuel
  cases items with
  | nil =>
    have hBracket : isBlank ']' = false := by decide
    simp only [writeAt, List.cons_append, List.nil_append, scanValue, skipBlanks_cons hBracket]
  | cons item items =>
    have hStart := (startsValue_writeAt spacing (depth + 1)
      (List.forall_mem_cons.mp hPortable).1).append
        (writeItems spacing (depth + 1) items ++ (spacing.newLine depth ++ ']' :: rest))
    have hScan := scanItems_writeItems depth fuel [] rest hPortable hItems (by
      simp only [writeAt, List.length_append, List.length_cons] at hFuel
      omega)
    simp only [writeAt, List.cons_append, List.append_assoc, List.nil_append, scanValue,
      skipBlanks_append (spacing.isBlank_newLine _), hStart.skipBlanks_eq]
    split
    · rename_i after hText
      obtain ⟨c, text, hCons, -, hBracket, -⟩ := hStart
      rw [hCons, List.cons.injEq] at hText
      exact absurd hText.1 hBracket
    · exact hScan

theorem readsBack_obj {fields : List (String × Json)} (hNames : (fields.map Prod.fst).Nodup)
    (hPortable : ∀ field ∈ fields, Portable field.2)
    (hFields : ∀ field ∈ fields, ReadsBack spacing field.2) :
    ReadsBack spacing (.obj fields) := by
  intro depth fuel rest hFuel _
  obtain ⟨fuel, rfl⟩ := fuel_eq_succ (.obj hNames hPortable) hFuel
  cases fields with
  | nil =>
    have hBrace : isBlank '}' = false := by decide
    simp only [writeAt, List.cons_append, List.nil_append, scanValue, skipBlanks_cons hBrace]
  | cons field fields =>
    obtain ⟨name, value⟩ := field
    have hScan := scanFields_writeFields depth fuel [] rest hPortable hFields (by
      simp only [writeAt, List.length_append, List.length_cons] at hFuel
      omega)
    rw [List.reverse_nil, List.nil_append, Assoc.ofList_of_nodup hNames] at hScan
    rw [← hScan]
    have hQuote : isBlank '"' = false := by decide
    simp only [writeAt, List.cons_append, List.append_assoc, List.nil_append, scanValue,
      skipBlanks_append (spacing.isBlank_newLine _), writeString, skipBlanks_cons hQuote]
    rfl

/-- What was written is read back. -/
theorem readsBack (spacing : Spacing) {value : Json} (h : Portable value) :
    ReadsBack spacing value := by
  induction h with
  | null =>
    intro depth fuel rest hFuel _
    obtain ⟨fuel, rfl⟩ := fuel_eq_succ .null hFuel
    exact scanAtom_null rest
  | bool flag =>
    intro depth fuel rest hFuel _
    obtain ⟨fuel, rfl⟩ := fuel_eq_succ (.bool flag) hFuel
    cases flag with
    | false => exact scanAtom_false rest
    | true => exact scanAtom_true rest
  | int hShort =>
    intro depth fuel rest hFuel hRest
    obtain ⟨fuel, rfl⟩ := fuel_eq_succ (.int hShort) hFuel
    rw [writeAt, scanValue_toString hShort fuel hRest]
  | str s =>
    intro depth fuel rest hFuel _
    obtain ⟨fuel, rfl⟩ := fuel_eq_succ (.str s) hFuel
    simp only [writeAt, writeString, List.cons_append, List.append_assoc, List.nil_append,
      scanValue, scanString_writeString, bind, Except.bind, pure, Except.pure]
  | arr hPortable ih => exact readsBack_arr hPortable ih
  | obj hNames hPortable ih => exact readsBack_obj hNames hPortable ih

end

private theorem stops_of_isBlank {trailing : List Char} (h : ∀ c ∈ trailing, isBlank c = true) :
    Stops trailing := by
  intro c hc
  have hBlank := h c (List.mem_of_mem_head? hc)
  simp only [isBlank, Bool.or_eq_true, decide_eq_true_eq] at hBlank
  rcases hBlank with ((rfl | rfl) | rfl) | rfl <;> decide

/-- A text of one value is read as this value, and blanks may follow it. -/
theorem read_write {value : Json} (h : Portable value) (spacing : Spacing) {trailing : List Char}
    (hTrailing : ∀ c ∈ trailing, isBlank c = true) :
    read ((write spacing value).toList ++ trailing) = .ok value := by
  have hStart := (startsValue_writeAt spacing 0 h).append trailing
  have hEnd : skipBlanks trailing = [] := by
    have hAppend := skipBlanks_append hTrailing []
    rwa [List.append_nil] at hAppend
  have hValue := readsBack spacing h 0
    (2 * (writeAt spacing 0 value ++ trailing).length + 1) trailing
    (by rw [List.length_append]; omega) (stops_of_isBlank hTrailing)
  rw [write, String.toList_ofList]
  unfold read
  split
  · rename_i hMark
    obtain ⟨c, text, hText, -, -, hOrder⟩ := hStart
    rw [hText, List.cons.injEq] at hMark
    exact absurd hMark.1 hOrder
  · simp only [hStart.skipBlanks_eq, hValue, bind, Except.bind, hEnd, pure, Except.pure]

end ProtoSchema.Json
