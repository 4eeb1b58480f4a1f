import ProtoSchema.Proofs.Proto.FirstLine

/-! Reservations: numbers and ranges in one statement, names in another. -/
namespace ProtoSchema

namespace Reservation

def isName : Reservation → Bool
  | .name _ => true
  | _ => false

/-- Numbers and ranges before names, each in their order. -/
def sorted (reservations : List Reservation) : List Reservation :=
  reservations.filter (! ·.isName) ++ reservations.filter isName

theorem filter_numbers_sorted (reservations : List Reservation) :
    (sorted reservations).filter (! ·.isName) = reservations.filter (! ·.isName) := by
  have hNames : (reservations.filter isName).filter (! ·.isName) = [] := by
    rw [List.filter_eq_nil_iff]
    intro r hr
    simp [(List.mem_filter.mp hr).2]
  rw [sorted, List.filter_append, hNames, List.append_nil, List.filter_filter]
  simp only [Bool.and_self]

theorem filter_names_sorted (reservations : List Reservation) :
    (sorted reservations).filter isName = reservations.filter isName := by
  have hNumbers : (reservations.filter (! ·.isName)).filter isName = [] := by
    rw [List.filter_eq_nil_iff]
    intro r hr
    have hNot := (List.mem_filter.mp hr).2
    simpa using hNot
  rw [sorted, List.filter_append, hNumbers, List.nil_append, List.filter_filter]
  simp only [Bool.and_self]

/-- Sorted reservations are the same exactly if the numbers and ranges are and the names are. -/
theorem sorted_eq_iff (as bs : List Reservation) : sorted as = sorted bs ↔
    as.filter (! ·.isName) = bs.filter (! ·.isName) ∧ as.filter isName = bs.filter isName := by
  constructor
  · intro h
    constructor
    · rw [← filter_numbers_sorted as, h, filter_numbers_sorted]
    · rw [← filter_names_sorted as, h, filter_names_sorted]
  · intro h
    rw [sorted, sorted, h.1, h.2]

theorem isEmpty_sorted (reservations : List Reservation) :
    (sorted reservations).isEmpty = reservations.isEmpty := by
  rw [Bool.eq_iff_iff, List.isEmpty_iff, List.isEmpty_iff]
  constructor
  · intro h
    have hNil : sorted reservations = sorted [] := h
    rw [sorted_eq_iff] at hNil
    cases reservations with
    | nil => rfl
    | cons r rs => cases hName : r.isName <;> simp [hName] at hNil
  · intro h
    rw [h]
    rfl

theorem isName_paired (r : Reservation) : r.paired.isName = r.isName := by cases r <;> rfl

theorem sorted_map_paired (reservations : List Reservation) : sorted (reservations.map paired) =
    (reservations.filter (! ·.isName)).map paired ++ (reservations.filter isName).map paired := by
  simp only [sorted, List.filter_map, Function.comp_def, isName_paired]

end Reservation

namespace Proto
open Reservation (isName paired sorted)

/-- A reservation as an entry of its statement. -/
def entry : Reservation → String
  | .number n => toString n
  | .range first last _ => toString first ++ " to " ++ toString last
  | .name name => literal name

theorem filterMap_reservedNumber? (reservations : List Reservation) :
    reservations.filterMap reservedNumber? = (reservations.filter (! ·.isName)).map entry := by
  rw [← List.filterMap_eq_map, ← List.filterMap_eq_filter, List.filterMap_filterMap]
  congr 1
  funext r
  cases r <;> rfl

theorem filterMap_reservedName? (reservations : List Reservation) :
    reservations.filterMap reservedName? = (reservations.filter isName).map entry := by
  rw [← List.filterMap_eq_map, ← List.filterMap_eq_filter, List.filterMap_filterMap]
  congr 1
  funext r
  cases r <;> rfl

/-- The empty line is there exactly if there is anything before it. -/
theorem reservationLines_eq (reservations : List Reservation) : reservationLines reservations =
    reservedLine ((reservations.filter (! ·.isName)).map entry) ++
      reservedLine ((reservations.filter isName).map entry) ++
      if reservations.isEmpty then [] else [""] := by
  have hEmpty : (((reservations.filter (! ·.isName)).map entry).isEmpty &&
      ((reservations.filter isName).map entry).isEmpty) = reservations.isEmpty := by
    rw [List.isEmpty_map, List.isEmpty_map, ← Reservation.isEmpty_sorted reservations, sorted,
      Bool.eq_iff_iff, Bool.and_eq_true, List.isEmpty_iff, List.isEmpty_iff, List.isEmpty_iff,
      List.append_eq_nil_iff]
  rw [reservationLines, filterMap_reservedNumber?, filterMap_reservedName?, hEmpty]

theorem reservationLines_eq_nil_iff (reservations : List Reservation) :
    reservationLines reservations = [] ↔ reservations = [] := by
  constructor
  · intro h
    cases reservations with
    | nil => rfl
    | cons r rs => cases r <;> simp [reservationLines, reservedNumber?, reservedName?] at h
  · intro h
    rw [h]
    rfl

theorem reservationLines_sorted (reservations : List Reservation) :
    reservationLines (sorted reservations) = reservationLines reservations := by
  unfold reservationLines
  rw [filterMap_reservedNumber?, filterMap_reservedNumber?, filterMap_reservedName?,
    filterMap_reservedName?, Reservation.filter_numbers_sorted, Reservation.filter_names_sorted]

private theorem quote_mem_entry {r : Reservation} (h : r.isName = true) :
    '"' ∈ (entry r).toList := by
  cases r with
  | name name => simp [entry, literal]
  | _ => cases h

/-- Numbers and ranges hold blanks at most. -/
private theorem marksIn_entry {r : Reservation} (h : r.isName = false) :
    MarksIn [' '] (entry r) := by
  cases r with
  | number n => exact .of_isWord (isWord_toString n)
  | range first last ends =>
    exact ((MarksIn.of_isWord (isWord_toString first)).append (by decide)).append
      (.of_isWord (isWord_toString last))
  | name name => cases h

private theorem marksIn_entry_name {r : Reservation} (hName : r.isName = true)
    (h : ∀ word ∈ r.words, IsWord word) : MarksIn ['"'] (entry r) := by
  cases r with
  | name name =>
    have hWord : IsWord name := h name (by simp [Reservation.words])
    exact ((by decide : MarksIn ['"'] "\"").append (.of_isWord hWord)).append (by decide)
  | _ => cases hName

/-- Only how a range is held does not show. -/
theorem entry_inj {a b : Reservation} (h : entry a = entry b) : a.paired = b.paired := by
  have hList : (entry a).toList = (entry b).toList := congrArg String.toList h
  -- names stand in quotes, and ranges hold blanks
  have hQuote : ∀ {r q : Reservation}, r.isName = true → q.isName = false → entry r ≠ entry q := by
    intro r q hr hq hEq
    have hNot : '"' ∉ (entry q).toList := (marksIn_entry hq).not_mem (by decide) (by decide)
    exact hNot (hEq ▸ quote_mem_entry hr)
  have hBlank : ∀ n first last ends, entry (.number n) ≠ entry (.range first last ends) := by
    intro n first last ends hEq
    have hMem : ' ' ∈ (entry (.range first last ends)).toList := by simp [entry]
    rw [← hEq] at hMem
    have hNot : ' ' ∉ (toString n).toList :=
      not_mem_of_isWord (isWord_toString n) (by decide)
    exact hNot hMem
  cases a with
  | number m =>
    cases b with
    | number n => rw [Decimal.toString_injective h]
    | range first last ends => exact absurd h (hBlank m first last ends)
    | name name => exact absurd h.symm (hQuote rfl rfl)
  | range first last ends =>
    cases b with
    | number n => exact absurd h.symm (hBlank n first last ends)
    | range first' last' ends' =>
      simp only [entry, String.toList_append, List.append_assoc] at hList
      obtain ⟨hFirst, -, hRest⟩ := number_append_inj (x := ' ') (y := ' ') hList
        (by decide) (by decide)
      have hLast := (List.cons.inj (List.cons.inj (List.cons.inj hRest).2).2).2
      rw [paired, paired, hFirst, Decimal.toString_injective (String.toList_inj.mp hLast)]
    | name name => exact absurd h.symm (hQuote rfl rfl)
  | name name =>
    cases b with
    | name name' =>
      simp only [entry, literal, String.append_left_inj, String.append_right_inj] at h
      rw [h]
    | _ => exact absurd h (hQuote rfl rfl)

private theorem reservedLine_inj {as bs : List String} (ha : ∀ a ∈ as, ',' ∉ a.toList)
    (hb : ∀ b ∈ bs, ',' ∉ b.toList) (h : reservedLine as = reservedLine bs) : as = bs := by
  cases as with
  | nil =>
    cases bs with
    | nil => rfl
    | cons b bs => cases h
  | cons a as =>
    cases bs with
    | nil => cases h
    | cons b bs =>
      have hEntries : "reserved " ++ ", ".intercalate (a :: as) ++ ";" =
          "reserved " ++ ", ".intercalate (b :: bs) ++ ";" := (List.cons.inj h).1
      rw [String.append_left_inj, String.append_right_inj] at hEntries
      exact Text.intercalate_inj ha hb (by simp) hEntries

theorem mem_reservedLine_iff (entries : List String) (line : String) :
    line ∈ reservedLine entries ↔
      entries ≠ [] ∧ line = "reserved " ++ ", ".intercalate entries ++ ";" := by
  unfold reservedLine
  cases entries with
  | nil => simp
  | cons entry entries => simp

private theorem reservedLine_ne_empty {entries : List String} {line : String}
    (hLine : line ∈ reservedLine entries) : line ≠ "" := by
  rw [((mem_reservedLine_iff entries line).mp hLine).2]
  simp [String.append_eq_empty_iff]

section
variable {reservations as bs : List Reservation}

private theorem marksIn_reservedLine {allowed : List Char} {p : Reservation → Bool} {line : String}
    (hAllowed : [' ', ',', ';'] ⊆ allowed)
    (h : ∀ r ∈ reservations, p r = true → MarksIn allowed (entry r))
    (hLine : line ∈ reservedLine ((reservations.filter p).map entry)) : MarksIn allowed line := by
  have hFixed : MarksIn [' ', ',', ';'] "reserved , ;" := by decide
  refine MadeOf.reservedLine (hFixed.mono hAllowed) ?_ line hLine
  intro text hText
  obtain ⟨r, hMem, hEntry⟩ := List.mem_map.mp hText
  rw [List.mem_filter] at hMem
  rw [← hEntry]
  exact h r hMem.1 hMem.2

/-- The statement of the numbers has no quotes. -/
private theorem marksIn_numbers {line : String}
    (hLine : line ∈ reservedLine ((reservations.filter (! ·.isName)).map entry)) :
    MarksIn [' ', ',', ';'] line := by
  refine marksIn_reservedLine (by decide) ?_ hLine
  intro r hr hNumber
  exact (marksIn_entry (by simpa using hNumber)).mono (by decide)

private theorem marksIn_names {line : String}
    (h : ∀ r ∈ reservations, ∀ word ∈ r.words, IsWord word)
    (hLine : line ∈ reservedLine ((reservations.filter isName).map entry)) :
    MarksIn [' ', ',', ';', '"'] line := by
  refine marksIn_reservedLine (by decide) ?_ hLine
  intro r hr hName
  exact (marksIn_entry_name hName (h r hr)).mono (by decide)

private theorem quote_mem_names {line : String}
    (hLine : line ∈ reservedLine ((reservations.filter isName).map entry)) : '"' ∈ line.toList := by
  obtain ⟨hNil, hText⟩ := (mem_reservedLine_iff _ line).mp hLine
  cases hNames : reservations.filter isName with
  | nil => exact absurd (by rw [hNames, List.map_nil]) hNil
  | cons r rs =>
    have hName : r ∈ reservations.filter isName := by
      rw [hNames]
      exact List.mem_cons_self
    have hQuote : '"' ∈ (entry r).toList := quote_mem_entry (List.mem_filter.mp hName).2
    rw [hText, hNames, List.map_cons, String.toList_append, String.toList_append]
    exact List.mem_append_left _ (List.mem_append_right _ (Text.mem_intercalate_of_mem_head hQuote))

/-- A line of reservations is one of the two statements or empty. -/
private theorem mem_reservationLines {line : String} (h : line ∈ reservationLines reservations) :
    line ∈ reservedLine ((reservations.filter (! ·.isName)).map entry) ∨
      line ∈ reservedLine ((reservations.filter isName).map entry) ∨ line = "" := by
  simp only [reservationLines, List.mem_append] at h
  rw [filterMap_reservedNumber?, filterMap_reservedName?] at h
  rcases h with (hNumbers | hNames) | hBlank
  · exact .inl hNumbers
  · exact .inr (.inl hNames)
  · split at hBlank
    · cases hBlank
    · exact .inr (.inr (List.mem_singleton.mp hBlank))

theorem marksIn_reservationLines (h : ∀ r ∈ reservations, ∀ word ∈ r.words, IsWord word)
    {line : String} (hLine : line ∈ reservationLines reservations) :
    MarksIn [' ', ',', ';', '"'] line := by
  rcases mem_reservationLines hLine with hNumbers | hNames | rfl
  · exact (marksIn_numbers hNumbers).mono (by decide)
  · exact marksIn_names h hNames
  · decide

/-- No declaration starts like a line of reservations. -/
theorem lineKind?_reservationLines (h : ∀ r ∈ reservations, ∀ word ∈ r.words, IsWord word)
    {line : String} (hLine : line ∈ reservationLines reservations) : lineKind? line = none := by
  have hMarks := marksIn_reservationLines h hLine
  have hReserved : ∀ entries, line ∈ reservedLine entries → lineKind? line = none := by
    intro entries hMem
    have hLast : line.toList.getLast? = some ';' := by
      rw [((mem_reservedLine_iff entries line).mp hMem).2]
      exact getLast?_toList_append (by decide)
    rw [lineKind?, if_pos hLast, if_neg (hMarks.not_mem (by decide) (by decide)),
      if_neg (hMarks.not_mem (by decide) (by decide))]
  rcases mem_reservationLines hLine with hNumbers | hNames | rfl
  · exact hReserved _ hNumbers
  · exact hReserved _ hNames
  · decide

private theorem comma_not_mem_numbers (reservations : List Reservation) :
    ∀ text ∈ (reservations.filter (! ·.isName)).map entry, ',' ∉ text.toList := by
  rw [List.forall_mem_map]
  intro r hr
  have hNumber : r.isName = false := by simpa using (List.mem_filter.mp hr).2
  exact (marksIn_entry hNumber).not_mem (by decide) (by decide)

private theorem comma_not_mem_names (h : ∀ r ∈ reservations, ∀ word ∈ r.words, IsWord word) :
    ∀ text ∈ (reservations.filter isName).map entry, ',' ∉ text.toList := by
  rw [List.forall_mem_map]
  intro r hr
  rw [List.mem_filter] at hr
  exact (marksIn_entry_name hr.2 (h r hr.1)).not_mem (by decide) (by decide)

/-- What precedes the empty line is told apart by the quotes. -/
private theorem statements_inj {ns ns' ms ms' ends ends' : List String}
    (hNumbers : ∀ line ∈ ns ++ ns', line ≠ "" ∧ '"' ∉ line.toList)
    (hNames : ∀ line ∈ ms ++ ms', line ≠ "" ∧ '"' ∈ line.toList)
    (hEnds : ∀ line ∈ ends ++ ends', line = "") (h : ns ++ (ms ++ ends) = ns' ++ (ms' ++ ends')) :
    ns = ns' ∧ ms = ms' := by
  rw [List.forall_mem_append] at hNumbers hNames hEnds
  have hRest : ∀ {as bs : List String}, (∀ line ∈ as, line ≠ "" ∧ '"' ∈ line.toList) →
      (∀ line ∈ bs, line = "") → ∀ line ∈ (as ++ bs).head?, ¬ (line ≠ "" ∧ '"' ∉ line.toList) := by
    intro as bs has hbs line hHead hBoth
    rcases List.mem_append.mp (List.mem_of_mem_head? hHead) with hMem | hMem
    · exact hBoth.2 (has line hMem).2
    · exact hBoth.1 (hbs line hMem)
  have hBlank : ∀ {bs : List String}, (∀ line ∈ bs, line = "") → ∀ line ∈ bs.head?, ¬ line ≠ "" :=
    fun hbs line hHead hLine => hLine (hbs line (List.mem_of_mem_head? hHead))
  obtain ⟨hLeft, hRight⟩ := Text.append_inj_of_head hNumbers.1 hNumbers.2
    (hRest hNames.1 hEnds.1) (hRest hNames.2 hEnds.2) h
  obtain ⟨hMiddle, -⟩ := Text.append_inj_of_head (fun line hLine => (hNames.1 line hLine).1)
    (fun line hLine => (hNames.2 line hLine).1) (hBlank hEnds.1) (hBlank hEnds.2) hRight
  exact ⟨hLeft, hMiddle⟩

theorem reservationLines_inj (ha : ∀ r ∈ as, ∀ word ∈ r.words, IsWord word)
    (hb : ∀ r ∈ bs, ∀ word ∈ r.words, IsWord word)
    (h : reservationLines as = reservationLines bs) :
    sorted (as.map paired) = sorted (bs.map paired) := by
  have hNumbers : ∀ {rs : List Reservation}, ∀ line ∈
      reservedLine ((rs.filter (! ·.isName)).map entry), line ≠ "" ∧ '"' ∉ line.toList :=
    fun line hLine => ⟨reservedLine_ne_empty hLine,
      (marksIn_numbers hLine).not_mem (by decide) (by decide)⟩
  have hNames : ∀ {rs : List Reservation}, ∀ line ∈
      reservedLine ((rs.filter isName).map entry), line ≠ "" ∧ '"' ∈ line.toList :=
    fun line hLine => ⟨reservedLine_ne_empty hLine, quote_mem_names hLine⟩
  have hBlank : ∀ (empty : Bool), ∀ line ∈ (if empty then [] else [""]), line = "" := by
    intro empty
    cases empty <;> simp
  simp only [reservationLines, filterMap_reservedNumber?, filterMap_reservedName?,
    List.append_assoc] at h
  obtain ⟨hLeft, hRight⟩ := statements_inj (List.forall_mem_append.mpr ⟨hNumbers, hNumbers⟩)
    (List.forall_mem_append.mpr ⟨hNames, hNames⟩)
    (List.forall_mem_append.mpr ⟨hBlank _, hBlank _⟩) h
  have hInj : ∀ {rs qs : List Reservation}, rs.map entry = qs.map entry →
      rs.map paired = qs.map paired :=
    Text.map_eq_map fun _ _ _ _ => entry_inj
  rw [Reservation.sorted_map_paired, Reservation.sorted_map_paired,
    hInj (reservedLine_inj (comma_not_mem_numbers as) (comma_not_mem_numbers bs) hLeft),
    hInj (reservedLine_inj (comma_not_mem_names ha) (comma_not_mem_names hb) hRight)]

end

end Proto
end ProtoSchema
