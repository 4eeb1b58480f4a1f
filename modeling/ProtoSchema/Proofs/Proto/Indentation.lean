import Mathlib.Data.List.Chain
import Mathlib.Data.List.TakeWhile
import ProtoSchema.Proofs.Proto.OneLine

/-! Braces and indentation: a line stands as deep as the braces before it say, and blank lines stand
between others only. -/
namespace ProtoSchema.Proto

/-- A text without the white space at its ends. -/
def trimmed (line : String) : List Char :=
  ((line.toList.dropWhile Char.isWhitespace).reverse.dropWhile Char.isWhitespace).reverse

def Opens (line : String) : Prop := line.toList.getLast? = some '{'

instance : DecidablePred Opens := fun _ => inferInstanceAs (Decidable (_ = _))

/-- A closing brace on a line of its own. -/
def Closes (line : String) : Prop := trimmed line = ['}']

instance : DecidablePred Closes := fun _ => inferInstanceAs (Decidable (_ = _))

/-- The depth after a line. It can be negative. -/
def depthAfter (depth : Int) (line : String) : Int :=
  if Closes line then depth - 1 else if Opens line then depth + 1 else depth

def leadingBlanks (line : String) : Nat := (line.toList.takeWhile (· = ' ')).length

/-- A line after lines that lead to this depth. A closing line stands as deep as what follows. -/
structure Fits (depth : Int) (line : String) : Prop where
  nonneg : 0 ≤ depthAfter depth line
  blanks : line ≠ "" →
    (leadingBlanks line : Int) = 2 * if Closes line then depthAfter depth line else depth
  ending : line ≠ "" → ∃ c ∈ [';', '{', '}'], line.toList.getLast? = some c

/-- Lines that lead from one depth to another, each of which fits. -/
def Laid : Int → List String → Int → Prop
  | depth, [], final => depth = final
  | depth, line :: lines, final => Fits depth line ∧ Laid (depthAfter depth line) lines final

/-- Blank lines are neither first nor last nor next to each other. -/
structure Spaced (lines : List String) : Prop where
  first : ∀ line ∈ lines.head?, line ≠ ""
  last : ∀ line ∈ lines.getLast?, line ≠ ""
  apart : lines.IsChain fun a b => a ≠ "" ∨ b ≠ ""

section
variable {line : String}

theorem mem_dropWhile_of_not {α : Type} {p : α → Bool} {a : α} {as : List α} (h : a ∈ as)
    (ha : p a = false) : a ∈ as.dropWhile p := by
  rw [← List.takeWhile_append_dropWhile (p := p) (l := as), List.mem_append] at h
  rcases h with hTake | hDrop
  · exact absurd (List.mem_takeWhile_imp hTake) (by simp [ha])
  · exact hDrop

theorem eq_of_closes (h : Closes line) {c : Char} (hMem : c ∈ line.toList)
    (hc : c.isWhitespace = false) : c = '}' := by
  have hTrimmed : c ∈ trimmed line := by
    rw [trimmed, List.mem_reverse]
    exact mem_dropWhile_of_not (List.mem_reverse.mpr (mem_dropWhile_of_not hMem hc)) hc
  rw [h] at hTrimmed
  exact List.mem_singleton.mp hTrimmed

theorem ne_empty_of_semicolon (h : line.toList.getLast? = some ';') : line ≠ "" := by
  rintro rfl
  cases h

theorem getLast?_fieldLine (field : Field) : (fieldLine field).toList.getLast? = some ';' :=
  getLast?_toList_append (by decide)

theorem getLast?_methodLine (method : Method) : (methodLine method).toList.getLast? = some ';' :=
  getLast?_toList_append (by decide)

theorem getLast?_variantLine (variant : Variant) :
    (variantLine variant).toList.getLast? = some ';' :=
  getLast?_toList_append (by decide)

theorem getLast?_of_mem_reservedLine {entries : List String} (h : line ∈ reservedLine entries) :
    line.toList.getLast? = some ';' := by
  obtain ⟨-, rfl⟩ := (mem_reservedLine_iff entries line).mp h
  exact getLast?_toList_append (by decide)

/-- Lines that end in a semicolon change nothing. -/
theorem depthAfter_of_semicolon (h : line.toList.getLast? = some ';') (depth : Int) :
    ¬ Closes line ∧ depthAfter depth line = depth := by
  have hCloses : ¬ Closes line := by
    intro hCloses
    have hBrace := eq_of_closes hCloses (List.mem_of_getLast? h) (by decide)
    exact absurd hBrace (by decide)
  have hOpens : ¬ Opens line := by
    rw [Opens, h]
    decide
  exact ⟨hCloses, by rw [depthAfter, if_neg hCloses, if_neg hOpens]⟩

/-- A text that starts with something other than a blank. -/
def Unpadded (text : String) : Prop := ∃ c, text.toList.head? = some c ∧ c ≠ ' '

namespace Unpadded
variable {s : String}

theorem append (h : Unpadded s) (t : String) : Unpadded (s ++ t) := by
  obtain ⟨c, hHead, hc⟩ := h
  exact ⟨c, by rw [String.toList_append, List.head?_append, hHead, Option.some_or], hc⟩

theorem of_isWord (h : IsWord s) : Unpadded s := by
  cases hList : s.toList with
  | nil => exact absurd (String.toList_eq_nil_iff.mp hList) h.1
  | cons c cs =>
    refine ⟨c, by rw [hList, List.head?_cons], ?_⟩
    rintro rfl
    exact not_mem_of_isWord h (by decide) (hList ▸ List.mem_cons_self)

theorem typeText {type : TypeExpr} (h : ∀ name ∈ type.leaves, IsWord name) :
    Unpadded (typeText type) := by
  rcases type.leaf_or_map with ⟨hLeaf, -⟩ | ⟨key, value, rfl⟩
  · exact of_isWord (h _ hLeaf)
  · exact ⟨'m', by rw [toList_typeText_map]; rfl, by decide⟩

theorem leadingBlanks_eq (h : Unpadded s) : leadingBlanks s = 0 := by
  obtain ⟨c, hHead, hc⟩ := h
  obtain ⟨cs, hList⟩ := List.head?_eq_some_iff.mp hHead
  rw [leadingBlanks, hList, List.takeWhile_cons_of_neg (by simpa using hc), List.length_nil]

theorem opening {keyword : String} (hKeyword : IsWord keyword) (name : String) :
    Unpadded (opening keyword name) :=
  (((of_isWord hKeyword).append " ").append name).append _

end Unpadded

/-- A line that ends in a semicolon, before it is indented. -/
structure IsStatement (line : String) : Prop where
  start : Unpadded line
  ending : line.toList.getLast? = some ';'

namespace IsStatement

theorem fieldLine {field : Field} (h : ∀ word ∈ field.words, IsWord word) :
    IsStatement (fieldLine field) := by
  rw [Field.words, List.forall_mem_cons] at h
  have hStart : Unpadded ((if field.repeated then "repeated " else "") ++ typeText field.type) := by
    split
    · exact Unpadded.append ⟨'r', by decide, by decide⟩ _
    · rw [String.empty_append]
      exact .typeText h.2
  exact ⟨((((hStart.append _).append _).append _).append _).append _, getLast?_fieldLine field⟩

theorem methodLine (method : Method) : IsStatement (methodLine method) := by
  refine ⟨⟨'r', ?_, by decide⟩, getLast?_methodLine method⟩
  rw [toList_methodLine]
  rfl

theorem variantLine {variant : Variant} (h : IsWord variant.name) :
    IsStatement (variantLine variant) :=
  ⟨(((Unpadded.of_isWord h).append _).append _).append _, getLast?_variantLine variant⟩

theorem of_mem_reservedLine {entries : List String} (h : line ∈ reservedLine entries) :
    IsStatement line := by
  have hEnding := getLast?_of_mem_reservedLine h
  obtain ⟨-, rfl⟩ := (mem_reservedLine_iff entries line).mp h
  have hStart : Unpadded "reserved " := ⟨'r', by decide, by decide⟩
  exact ⟨(hStart.append _).append _, hEnding⟩

end IsStatement

end

section
variable {line : String}

theorem trimmed_indentLine (line : String) : trimmed (Lines.indentLine 2 line) = trimmed line := by
  unfold Lines.indentLine
  split
  · rfl
  · rw [trimmed, String.toList_append, Lines.toList_blanks]
    rfl

theorem getLast?_indentLine (line : String) :
    (Lines.indentLine 2 line).toList.getLast? = line.toList.getLast? := by
  unfold Lines.indentLine
  split
  · rfl
  · rename_i hLine
    rw [String.toList_append, List.getLast?_append]
    cases hLast : line.toList.getLast? with
    | none => exact absurd (String.toList_eq_nil_iff.mp (List.getLast?_eq_none_iff.mp hLast)) hLine
    | some c => rw [Option.some_or]

theorem leadingBlanks_indentLine (h : line ≠ "") :
    leadingBlanks (Lines.indentLine 2 line) = leadingBlanks line + 2 := by
  rw [Lines.indentLine, if_neg h, leadingBlanks, String.toList_append, Lines.toList_blanks]
  rfl

theorem closes_indentLine : Closes (Lines.indentLine 2 line) ↔ Closes line := by
  rw [Closes, Closes, trimmed_indentLine]

theorem depthAfter_indentLine (depth : Int) (line : String) :
    depthAfter (depth + 1) (Lines.indentLine 2 line) = depthAfter depth line + 1 := by
  have hOpens : Opens (Lines.indentLine 2 line) ↔ Opens line := by
    rw [Opens, Opens, getLast?_indentLine]
  simp only [depthAfter, closes_indentLine, hOpens]
  split_ifs <;> omega

theorem Fits.indent {depth : Int} (h : Fits depth line) :
    Fits (depth + 1) (Lines.indentLine 2 line) := by
  refine ⟨?_, fun hLine => ?_, fun hLine => ?_⟩
  · have hDepth := h.nonneg
    rw [depthAfter_indentLine]
    omega
  · rw [ne_eq, Lines.indentLine_eq_empty_iff] at hLine
    have hBlanks := h.blanks hLine
    simp only [leadingBlanks_indentLine hLine, closes_indentLine, depthAfter_indentLine]
    split_ifs at hBlanks ⊢ <;> omega
  · rw [ne_eq, Lines.indentLine_eq_empty_iff] at hLine
    rw [getLast?_indentLine]
    exact h.ending hLine

end

namespace Laid
variable {depth middle final : Int} {as bs : List String}

theorem append (ha : Laid depth as middle) (hb : Laid middle bs final) :
    Laid depth (as ++ bs) final := by
  induction as generalizing depth with
  | nil =>
    obtain rfl : depth = middle := ha
    exact hb
  | cons line as ih => exact ⟨ha.1, ih ha.2⟩

theorem indent (h : Laid depth as final) : Laid (depth + 1) (Lines.indent 2 as) (final + 1) := by
  induction as generalizing depth with
  | nil =>
    obtain rfl : depth = final := h
    rfl
  | cons line as ih =>
    have hTail := ih h.2
    rw [← depthAfter_indentLine] at hTail
    exact ⟨h.1.indent, hTail⟩

theorem flatten {lists : List (List String)} (h : ∀ lines ∈ lists, Laid 0 lines 0) :
    Laid 0 lists.flatten 0 := by
  induction lists with
  | nil => rfl
  | cons lines lists ih =>
    rw [List.forall_mem_cons] at h
    exact h.1.append (ih h.2)

/-- Statements on lines of their own, and blank lines. -/
theorem statements (h : ∀ line ∈ as, line = "" ∨ IsStatement line) : Laid 0 as 0 := by
  induction as with
  | nil => rfl
  | cons line as ih =>
    rw [List.forall_mem_cons] at h
    have hTail := ih h.2
    rcases h.1 with rfl | hLine
    · exact ⟨⟨by decide, by simp, by simp⟩, hTail⟩
    · obtain ⟨hCloses, hDepth⟩ := depthAfter_of_semicolon hLine.ending 0
      refine ⟨⟨Int.le_of_eq hDepth.symm, fun _ => ?_, fun _ => ⟨';', by decide, hLine.ending⟩⟩, ?_⟩
      · rw [hLine.start.leadingBlanks_eq, if_neg hCloses]
        rfl
      · rw [hDepth]
        exact hTail

end Laid

section
variable {keyword name : String} {body : List String}

theorem brace_mem_opening (tail : String) : '{' ∈ (opening keyword name ++ tail).toList := by
  simp [opening]

theorem opening_append_ne_empty (keyword name tail : String) :
    opening keyword name ++ tail ≠ "" := by
  intro h
  have hBrace : '{' ∈ (opening keyword name ++ tail).toList := brace_mem_opening tail
  rw [h] at hBrace
  cases hBrace

theorem not_closes_opening (keyword name tail : String) :
    ¬ Closes (opening keyword name ++ tail) := by
  intro h
  have hBrace := eq_of_closes h (brace_mem_opening tail) (by decide)
  exact absurd hBrace (by decide)

theorem Laid.block (hKeyword : IsWord keyword) (h : Laid 0 body 0) :
    Laid 0 (Proto.block keyword name (Lines.indent 2 body)) 0 := by
  have hCloses : ¬ Closes (opening keyword name) := by
    have hTail := not_closes_opening keyword name ""
    rwa [String.append_empty] at hTail
  have hLast : (opening keyword name).toList.getLast? = some '{' :=
    getLast?_toList_append (by decide)
  have hStart : Unpadded (opening keyword name) := .opening hKeyword name
  have hOpens : Opens (opening keyword name) := hLast
  have hDepth : depthAfter 0 (opening keyword name) = 0 + 1 := by
    rw [depthAfter, if_neg hCloses, if_pos hOpens]
  have hOpening : Fits 0 (opening keyword name) := by
    refine ⟨by rw [hDepth]; decide, fun _ => ?_, fun _ => ⟨'{', by decide, hLast⟩⟩
    rw [hStart.leadingBlanks_eq, if_neg hCloses]
    rfl
  have hClosing : Laid (0 + 1) [closing] 0 :=
    ⟨⟨by decide, fun _ => by decide, fun _ => ⟨'}', by decide, by decide⟩⟩, rfl⟩
  refine ⟨hOpening, ?_⟩
  rw [hDepth]
  exact h.indent.append hClosing

theorem Laid.braced (hKeyword : IsWord keyword) (h : Laid 0 body 0) :
    Laid 0 (Proto.braced keyword name body) 0 := by
  unfold Proto.braced
  split
  · have hCloses := not_closes_opening keyword name closing
    have hLast : (opening keyword name ++ closing).toList.getLast? = some '}' :=
      getLast?_toList_append (by decide)
    have hStart : Unpadded (opening keyword name ++ closing) :=
      (Unpadded.opening hKeyword name).append closing
    have hDepth : depthAfter 0 (opening keyword name ++ closing) = 0 := by
      have hOpens : ¬ Opens (opening keyword name ++ closing) := by
        rw [Opens, hLast]
        decide
      rw [depthAfter, if_neg hCloses, if_neg hOpens]
    refine ⟨⟨Int.le_of_eq hDepth.symm, fun _ => ?_, fun _ => ⟨'}', by decide, hLast⟩⟩, hDepth⟩
    rw [hStart.leadingBlanks_eq, if_neg hCloses]
    rfl
  · exact Laid.block hKeyword h

end

namespace Spaced
variable {as bs : List String}

theorem singleton {line : String} (h : line ≠ "") : Spaced [line] :=
  ⟨by simpa using h, by simpa using h, .singleton line⟩

theorem append (ha : Spaced as) (hb : Spaced bs) : Spaced (as ++ bs) := by
  refine ⟨fun line hLine => ?_, fun line hLine => ?_, ha.apart.append hb.apart ?_⟩
  · rw [List.head?_append, Option.mem_def, Option.or_eq_some_iff] at hLine
    rcases hLine with hHead | ⟨-, hHead⟩
    · exact ha.first line hHead
    · exact hb.first line hHead
  · rw [List.getLast?_append, Option.mem_def, Option.or_eq_some_iff] at hLine
    rcases hLine with hLast | ⟨-, hLast⟩
    · exact hb.last line hLast
    · exact ha.last line hLast
  · exact fun a hLast b _ => .inl (ha.last a hLast)

theorem of_forall_ne (h : ∀ line ∈ as, line ≠ "") : Spaced as := by
  induction as with
  | nil => exact ⟨by simp, by simp, .nil⟩
  | cons line as ih =>
    rw [List.forall_mem_cons] at h
    exact (singleton h.1).append (ih h.2)

theorem flatten {lists : List (List String)} (h : ∀ lines ∈ lists, Spaced lines) :
    Spaced lists.flatten := by
  induction lists with
  | nil => exact of_forall_ne (by simp)
  | cons lines lists ih =>
    rw [List.forall_mem_cons] at h
    exact h.1.append (ih h.2)

variable {keyword name : String} {body : List String}

/-- Braces stand around a body, so that it may also start or end with a blank line. -/
theorem block (hApart : body.IsChain fun a b => a ≠ "" ∨ b ≠ "") :
    Spaced (Proto.block keyword name (Lines.indent 2 body)) := by
  have hOpening : opening keyword name ≠ "" := by
    have hTail := opening_append_ne_empty keyword name ""
    rwa [String.append_empty] at hTail
  have hClosing : closing ≠ "" := by decide
  have hBody : (Lines.indent 2 body).IsChain fun a b => a ≠ "" ∨ b ≠ "" := by
    rw [Lines.indent, List.isChain_map]
    simpa only [ne_eq, Lines.indentLine_eq_empty_iff] using hApart
  refine ⟨?_, ?_, ?_⟩
  · simpa [Proto.block] using hOpening
  · rw [Proto.block, List.getLast?_concat]
    simpa using hClosing
  · rw [Proto.block, List.cons_append]
    refine (hBody.append (.singleton closing) ?_).cons fun line _ => .inl hOpening
    intro _ _ line hLine
    rw [List.head?_cons, Option.mem_some_iff] at hLine
    exact .inr (hLine ▸ hClosing)

theorem braced (hApart : body.IsChain fun a b => a ≠ "" ∨ b ≠ "") :
    Spaced (Proto.braced keyword name body) := by
  unfold Proto.braced
  split
  · exact singleton (opening_append_ne_empty keyword name closing)
  · exact block hApart

end Spaced

/-- A blank line, or none, between lines that are not blank where they meet it. -/
theorem apart_blank {as bs : List String} (ha : Spaced as) (hb : Spaced bs) (empty : Bool) :
    (as ++ (if empty then [] else [""]) ++ bs).IsChain fun a b => a ≠ "" ∨ b ≠ "" := by
  cases empty with
  | true =>
    rw [if_pos rfl, List.append_nil]
    exact (ha.append hb).apart
  | false =>
    rw [if_neg Bool.false_ne_true, List.append_assoc, List.singleton_append]
    refine ha.apart.append (hb.apart.cons ?_) ?_
    · exact fun line hLine => .inr (hb.first line hLine)
    · exact fun line hLine _ _ => .inl (ha.last line hLine)

theorem spaced_statements {lines : List String}
    (h : ∀ line ∈ lines, line.toList.getLast? = some ';') : Spaced lines :=
  .of_forall_ne fun line hLine => ne_empty_of_semicolon (h line hLine)

section
variable {reservations : List Reservation} {members : List String}

theorem laid_reservationLines_append (h : Laid 0 members 0) :
    Laid 0 (reservationLines reservations ++ members) 0 := by
  refine Laid.append (.statements fun line hLine => ?_) h
  rw [reservationLines, List.mem_append, List.mem_append] at hLine
  rcases hLine with (hNumbers | hNames) | hBlank
  · exact .inr (.of_mem_reservedLine hNumbers)
  · exact .inr (.of_mem_reservedLine hNames)
  · split at hBlank
    · cases hBlank
    · exact .inl (List.mem_singleton.mp hBlank)

theorem apart_reservationLines_append (h : Spaced members) :
    (reservationLines reservations ++ members).IsChain fun a b => a ≠ "" ∨ b ≠ "" := by
  have hReserved : ∀ entries, Spaced (reservedLine entries) :=
    fun entries => spaced_statements fun _ hLine => getLast?_of_mem_reservedLine hLine
  exact apart_blank ((hReserved _).append (hReserved _)) h _

end

theorem laid_enumBody {enum : Enum} (h : ∀ v ∈ enum.variants, IsWord v.name) :
    Laid 0 (enumBody enum) 0 := by
  apply Laid.statements
  intro line hLine
  rcases mem_enumBody hLine with rfl | rfl | ⟨v, hv, rfl⟩
  · exact .inl rfl
  · exact .inr ⟨⟨'o', by decide, by decide⟩, by decide⟩
  · exact .inr (.variantLine (h v hv))

theorem apart_enumBody (enum : Enum) : (enumBody enum).IsChain fun a b => a ≠ "" ∨ b ≠ "" := by
  have hVariants : Spaced (enum.variants.map variantLine) := by
    refine spaced_statements ?_
    rw [List.forall_mem_map]
    exact fun v _ => getLast?_variantLine v
  rw [enumBody]
  split
  · exact apart_blank (.singleton (by decide)) hVariants _
  · exact hVariants.apart

/-- Blank lines stand alone between others, whatever the names are. -/
theorem spaced_lines (decl : Declaration) : Spaced (lines decl) := by
  have hMembers : ∀ {decls : List Declaration}, (∀ d ∈ decls, Spaced (lines d)) →
      Spaced (memberLines decls) := by
    intro decls ih
    rw [memberLines_eq_flatMap, List.flatMap]
    refine .flatten ?_
    rw [List.forall_mem_map]
    exact ih
  induction decl using Decl.induct with
  | message name ms rs ih =>
    rw [lines_message]
    exact .braced (apart_reservationLines_append (hMembers ih))
  | field f =>
    rw [lines]
    exact .singleton (ne_empty_of_semicolon (getLast?_fieldLine f))
  | oneof name ms ih =>
    rw [lines]
    exact .block (hMembers ih).apart
  | enum e =>
    rw [lines, enumLines_eq]
    exact .block (apart_enumBody e)
  | method m =>
    rw [lines]
    exact .singleton (ne_empty_of_semicolon (getLast?_methodLine m))
  | service name ops =>
    have hOperations : ∀ line ∈ ops.map methodLine, line.toList.getLast? = some ';' := by
      rw [List.forall_mem_map]
      exact fun m _ => getLast?_methodLine m
    rw [lines, serviceLines_eq]
    exact .braced (spaced_statements hOperations).apart
  | foreign value => exact value.elim

theorem laid_of_worded {decl : Declaration} (h : decl.Worded) : Laid 0 (lines decl) 0 := by
  have hMembers : ∀ {decls : List Declaration}, (∀ d ∈ decls, d.Worded) →
      (∀ d ∈ decls, d.Worded → Laid 0 (lines d) 0) → Laid 0 (memberLines decls) 0 := by
    intro decls hWorded ih
    rw [memberLines_eq_flatMap, List.flatMap]
    refine .flatten ?_
    rw [List.forall_mem_map]
    exact fun d hd => ih d hd (hWorded d hd)
  induction decl using Decl.induct with
  | message name ms rs ih =>
    rw [Decl.worded_message] at h
    rw [lines_message]
    exact .braced (by decide) (laid_reservationLines_append (hMembers h.2.2 ih))
  | field f =>
    have hLine := IsStatement.fieldLine ((Decl.worded_field f).mp h)
    rw [lines]
    exact .statements (by simpa using .inr hLine)
  | oneof name ms ih =>
    rw [Decl.worded_oneof] at h
    rw [lines]
    exact .block (by decide) (hMembers h.2 ih)
  | enum e =>
    rw [Decl.worded_enum] at h
    rw [lines, enumLines_eq]
    exact .block (by decide) (laid_enumBody h.2)
  | method m =>
    rw [lines]
    exact .statements (by simpa using .inr (.methodLine m))
  | service name ops =>
    have hOperations : ∀ line ∈ ops.map methodLine, line = "" ∨ IsStatement line := by
      rw [List.forall_mem_map]
      exact fun m _ => .inr (.methodLine m)
    rw [lines, serviceLines_eq]
    exact .braced (by decide) (.statements hOperations)
  | foreign value => exact value.elim

/-- The lines of a declaration whose names are words start and end at depth zero, each of them as
deep as the braces before it say; each is blank or ends in a semicolon or a brace, and blank lines
stand alone between others. -/
theorem laid_lines {decl : Declaration} (h : decl.Worded) :
    Laid 0 (lines decl) 0 ∧ (∀ line ∈ lines decl, OneLine line) ∧ Spaced (lines decl) := by
  have hLaid := laid_of_worded h
  exact ⟨hLaid, oneLine_lines h, spaced_lines decl⟩

/-- Bodies in bodies, one of reservations only and one of nothing. -/
def deepMessage : Declaration :=
  .message "Outer" [
    .message "Inner" [.enum ⟨"E", [⟨"ZERO", 0⟩, ⟨"NONE", 0⟩], true⟩,
      .oneof "choice" [.field ⟨"x", .map (.scalar "string") (.ref "pkg.M"), 1, false⟩]] [.number 3],
    .message "Held" [] [.name "old"], .message "Empty" [] []] [.range 5 9, .name "a"]

theorem laid_deepMessage : deepMessage.Worded ∧ Laid 0 (lines deepMessage) 0 ∧
    (∀ line ∈ lines deepMessage, OneLine line) ∧ Spaced (lines deepMessage) :=
  ⟨by decide, laid_lines (by decide)⟩

end ProtoSchema.Proto
