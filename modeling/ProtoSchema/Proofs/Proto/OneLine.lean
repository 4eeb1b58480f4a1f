import ProtoSchema.Proofs.Decimal.Layout
import ProtoSchema.Proofs.Proto.Layout
import ProtoSchema.Proofs.Schema.Strings

/-! Texts that end no line: those of all statements with no end of a line in their names and
strings. -/
namespace ProtoSchema.Proto

/-- A text on one line. -/
def OneLine (text : String) : Prop := '\n' ∉ text.toList

instance : DecidablePred OneLine := fun _ => inferInstanceAs (Decidable (¬ _))

theorem oneLine_iff_madeOf {text : String} : OneLine text ↔ MadeOf (· ≠ '\n') text :=
  List.forall_mem_ne'.symm

namespace OneLine
variable {s t : String}

theorem append (hs : OneLine s) (ht : OneLine t) : OneLine (s ++ t) :=
  oneLine_iff_madeOf.mpr ((oneLine_iff_madeOf.mp hs).append (oneLine_iff_madeOf.mp ht))

theorem of_isWord (h : IsWord s) : OneLine s := not_mem_of_isWord h (by decide)

theorem number (n : Int) : OneLine (toString n) := of_isWord (isWord_toString n)

theorem literal (h : OneLine s) : OneLine (literal s) :=
  ((by decide : OneLine "\"").append h).append (by decide)

theorem indent {lines : List String} (h : ∀ line ∈ lines, OneLine line) :
    ∀ line ∈ Lines.indent 2 lines, OneLine line := by
  have hBlanks : OneLine ("".pushn ' ' 2) := by
    rw [OneLine, Lines.toList_blanks]
    decide
  intro line hLine
  obtain ⟨inner, hMem, hEq⟩ := List.mem_map.mp hLine
  rw [← hEq, Lines.indentLine]
  split
  · exact h inner hMem
  · exact hBlanks.append (h inner hMem)

section
variable {keyword name : String} {body : List String} (hKeyword : OneLine keyword)
  (hName : OneLine name)
include hKeyword hName

theorem opening : OneLine (Proto.opening keyword name) :=
  ((hKeyword.append (by decide)).append hName).append (by decide)

theorem block (h : ∀ line ∈ body, OneLine line) :
    ∀ line ∈ Proto.block keyword name (Lines.indent 2 body), OneLine line := by
  rw [Proto.block, List.cons_append, List.forall_mem_cons, List.forall_mem_append,
    List.forall_mem_singleton]
  exact ⟨opening hKeyword hName, indent h, by decide⟩

theorem braced (h : ∀ line ∈ body, OneLine line) :
    ∀ line ∈ Proto.braced keyword name body, OneLine line := by
  unfold Proto.braced
  split
  · rw [List.forall_mem_singleton]
    exact (opening hKeyword hName).append (by decide)
  · exact block hKeyword hName h

end

theorem fieldLine {field : Field} (h : ∀ word ∈ field.words, OneLine word) :
    OneLine (fieldLine field) := by
  have hFixed : OneLine "repeated map<, > = ;" := by decide
  simp only [oneLine_iff_madeOf] at h hFixed ⊢
  exact .fieldLine hFixed (oneLine_iff_madeOf.mp (number _)) h

theorem methodLine {method : Method} (h : ∀ word ∈ method.words, OneLine word) :
    OneLine (methodLine method) := by
  have hFixed : OneLine "rpc (stream map<, >) returns ();" := by decide
  simp only [oneLine_iff_madeOf] at h hFixed ⊢
  exact .methodLine hFixed h

theorem variantLine {variant : Variant} (h : OneLine variant.name) :
    OneLine (variantLine variant) :=
  ((h.append (by decide)).append (number _)).append (by decide)

theorem enumBody {enum : Enum} (h : ∀ v ∈ enum.variants, OneLine v.name) :
    ∀ line ∈ Proto.enumBody enum, OneLine line := by
  intro line hLine
  rcases mem_enumBody hLine with rfl | rfl | ⟨v, hv, rfl⟩
  · decide
  · decide
  · exact variantLine (h v hv)

theorem reservedLine {entries : List String} (h : ∀ entry ∈ entries, OneLine entry) :
    ∀ line ∈ reservedLine entries, OneLine line := by
  have hFixed : OneLine "reserved , ;" := by decide
  simp only [oneLine_iff_madeOf] at h hFixed ⊢
  exact .reservedLine hFixed h

theorem reservationLines {reservations : List Reservation}
    (h : ∀ r ∈ reservations, ∀ word ∈ r.words, OneLine word) :
    ∀ line ∈ reservationLines reservations, OneLine line := by
  have hNumbers : ∀ entry ∈ reservations.filterMap reservedNumber?, OneLine entry := by
    intro entry hEntry
    obtain ⟨reservation, -, hReservation⟩ := List.mem_filterMap.mp hEntry
    have hTo : OneLine " to " := by decide
    simp only [oneLine_iff_madeOf] at hTo ⊢
    exact .reservedNumber hTo (fun n => oneLine_iff_madeOf.mp (number n)) hReservation
  have hNames : ∀ entry ∈ reservations.filterMap reservedName?, OneLine entry := by
    intro entry hEntry
    obtain ⟨reservation, hMem, hReservation⟩ := List.mem_filterMap.mp hEntry
    cases reservation with
    | name name =>
      cases hReservation
      exact (h _ hMem name (List.mem_singleton.mpr rfl)).literal
    | _ => cases hReservation
  have hBlank : ∀ empty : Bool, ∀ line ∈ if empty then [] else [""], OneLine line := by decide
  rw [Proto.reservationLines, List.forall_mem_append, List.forall_mem_append]
  exact ⟨⟨reservedLine hNumbers, reservedLine hNames⟩, hBlank _⟩

theorem optionText {value : OptionValue} (h : ∀ s, value = .text s → OneLine s) :
    OneLine (optionText value) := by
  cases value with
  | text s => exact (h s rfl).literal
  | integer n => exact number n
  | float x =>
    have hMarks : OneLine ".e+-" := by decide
    have hNan : OneLine "nan" := by decide
    have hInfinity : OneLine "inf" := by decide
    intro hMem
    rcases Decimal.Layout.mem_write hMem with (hDigit | hMark) | hName | hName
    · exact absurd hDigit (by decide)
    · exact hMarks hMark
    · exact hNan hName
    · exact hInfinity hName
  | boolean flag => cases flag <;> decide

theorem optionStatement {name : String} {value : OptionValue} (hName : OneLine name)
    (hValue : ∀ s, value = .text s → OneLine s) : OneLine (optionStatement name value) :=
  ((((by decide : OneLine "option ").append hName).append (by decide)).append
    (optionText hValue)).append (by decide)

theorem importStatement {path : String} (h : OneLine path) : OneLine (importStatement path) :=
  ((by decide : OneLine "import ").append h.literal).append (by decide)

theorem packageStatement {name : String} (h : OneLine name) : OneLine (packageStatement name) :=
  ((by decide : OneLine "package ").append h).append (by decide)

theorem sectionLines {lines : List String} (h : ∀ line ∈ lines, OneLine line) :
    ∀ line ∈ sectionLines lines, OneLine line := by
  unfold Proto.sectionLines
  split
  · exact List.forall_mem_nil _
  · exact List.forall_mem_cons.mpr ⟨by decide, h⟩

end OneLine

/-- No line of a declaration ends before its end, if no name in it does. -/
theorem oneLine_lines_of_words {decl : Declaration}
    (h : ∀ node ∈ decl.nodes, ∀ word ∈ node.words, OneLine word) :
    ∀ line ∈ lines decl, OneLine line := by
  have hMembers : ∀ {decls : List Declaration}, (∀ d ∈ decls, (∀ node ∈ d.nodes,
        ∀ word ∈ node.words, OneLine word) → ∀ line ∈ lines d, OneLine line) →
      (∀ d ∈ decls, ∀ node ∈ d.nodes, ∀ word ∈ node.words, OneLine word) →
      ∀ line ∈ memberLines decls, OneLine line := by
    intro decls ih hWords
    rw [memberLines_eq_flatMap, List.forall_mem_flatMap]
    exact fun d hd => ih d hd (hWords d hd)
  induction decl using Decl.induct with
  | message name ms rs ih =>
    rw [Decl.forall_mem_nodes, Decl.words, List.forall_mem_cons, List.forall_mem_flatMap] at h
    obtain ⟨⟨hName, hReservations⟩, hNodes⟩ := h
    rw [lines_message]
    exact .braced (by decide) hName
      (List.forall_mem_append.mpr ⟨.reservationLines hReservations, hMembers ih hNodes⟩)
  | field f =>
    rw [lines, List.forall_mem_singleton]
    exact .fieldLine (h _ List.mem_cons_self)
  | oneof name ms ih =>
    rw [Decl.forall_mem_nodes, Decl.words, List.forall_mem_singleton] at h
    rw [lines]
    exact .block (by decide) h.1 (hMembers ih h.2)
  | enum e =>
    have hWords := h _ List.mem_cons_self
    rw [Decl.words, List.forall_mem_cons, List.forall_mem_map] at hWords
    rw [lines, enumLines_eq]
    exact .block (by decide) hWords.1 (.enumBody hWords.2)
  | method m =>
    rw [lines, List.forall_mem_singleton]
    exact .methodLine (h _ List.mem_cons_self)
  | service name ops =>
    rw [Decl.forall_mem_nodes, Decl.words, List.forall_mem_singleton, Decl.members,
      List.forall_mem_map] at h
    rw [lines, serviceLines_eq]
    refine .braced (by decide) h.1 ?_
    rw [List.forall_mem_map]
    exact fun m hm => .methodLine (h.2 m hm _ List.mem_cons_self)
  | foreign value => exact value.elim

theorem oneLine_lines {decl : Declaration} (h : decl.Worded) :
    ∀ line ∈ lines decl, OneLine line :=
  oneLine_lines_of_words fun node hNode word hWord => .of_isWord (h node hNode word hWord)

/-- No line of a file ends before its end, if no name and no string in it does. -/
theorem oneLine_bodyLines_of_texts {schema : Schema}
    (h : ∀ s ∈ schema.names ++ schema.strings, OneLine s) :
    ∀ line ∈ bodyLines schema, OneLine line := by
  simp only [SchemaFile.names, SchemaFile.strings, SchemaFile.nodes, List.forall_mem_append,
    List.forall_mem_map, List.forall_mem_flatMap, List.forall_mem_filterMap] at h
  obtain ⟨⟨⟨hPackage, hNames⟩, hWords⟩, ⟨hImports, hStrings⟩, hReserved⟩ := h
  have hDeclarations : ∀ decl ∈ schema.declarations, ∀ node ∈ decl.nodes,
      ∀ word ∈ node.words, OneLine word := by
    intro decl hDecl node hNode word hWord
    rcases Decl.mem_words_iff.mp hWord with hName | hName
    · exact hWords decl hDecl node hNode word hName
    · exact hReserved decl hDecl node hNode word hName
  simp only [bodyLines, List.forall_mem_append, List.forall_mem_flatMap]
  refine ⟨.sectionLines ?_, .sectionLines ?_, .sectionLines ?_, fun decl hDecl =>
    .sectionLines (oneLine_lines_of_words (hDeclarations decl hDecl))⟩
  · rw [List.forall_mem_map]
    intro name hName
    rw [Option.mem_toList, Option.filter_eq_some_iff] at hName
    exact .packageStatement (hPackage name (Option.mem_toList.mpr hName.1))
  · rw [List.forall_mem_map]
    exact fun path hPath => .importStatement (hImports path hPath)
  · rw [List.forall_mem_map]
    refine fun option hOption => .optionStatement (hNames option hOption) fun s hText => ?_
    exact hStrings option hOption s (by rw [hText]; rfl)

end ProtoSchema.Proto
