import ProtoSchema.Proofs.Proto.Indentation

/-! The text of a file as paragraphs with one blank line between them. -/
namespace ProtoSchema

namespace Text
variable {lines : List String}

theorem infix_of_infix_append {α : Type} {a : α} {as l r : List α} (ha : a ∉ as)
    (h : a :: l <:+: as ++ r) : a :: l <:+: r := by
  induction as with
  | nil => exact h
  | cons b as ih =>
    rw [List.mem_cons, not_or] at ha
    rw [List.cons_append, List.infix_cons_iff, List.cons_prefix_cons] at h
    rcases h with ⟨hHead, -⟩ | hTail
    · exact absurd hHead ha.1
    · exact ih ha.2 hTail

theorem toList_unlines_cons (line : String) (lines : List String) :
    (unlines (line :: lines)).toList = line.toList ++ '\n' :: (unlines lines).toList := by
  rw [unlines_cons, String.toList_append, String.toList_append]
  rfl

theorem eq_empty_of_head?_unlines (h : ∀ line ∈ lines, '\n' ∉ line.toList)
    (hHead : (unlines lines).toList.head? = some '\n') : ∃ rest, lines = "" :: rest := by
  cases lines with
  | nil => cases hHead
  | cons line rest =>
    rw [List.forall_mem_cons] at h
    rw [toList_unlines_cons] at hHead
    cases hLine : line.toList with
    | nil => exact ⟨rest, by rw [String.toList_eq_nil_iff.mp hLine]⟩
    | cons c cs =>
      rw [hLine] at hHead h
      have hFirst : c = '\n' := Option.some.inj hHead
      exact absurd (hFirst ▸ List.mem_cons_self) h.1

/-- Line ends meet in blank lines only. -/
theorem not_infix_unlines (h : ∀ line ∈ lines, '\n' ∉ line.toList)
    (hApart : lines.IsChain fun a b => a ≠ "" ∨ b ≠ "") :
    ¬ ['\n', '\n', '\n'] <:+: (unlines lines).toList := by
  induction lines with
  | nil => exact fun hInfix => absurd (List.infix_nil.mp hInfix) (by simp)
  | cons line lines ih =>
    rw [List.forall_mem_cons] at h
    rw [toList_unlines_cons]
    intro hInfix
    have hFrom := infix_of_infix_append h.1 hInfix
    rw [List.infix_cons_iff, List.cons_prefix_cons] at hFrom
    rcases hFrom with ⟨-, hPrefix⟩ | hTail
    -- the first of the three ends this line, so that the next two lines are blank
    · obtain ⟨more, hMore⟩ := hPrefix
      have hHead : (unlines lines).toList.head? = some '\n' := by rw [← hMore]; rfl
      obtain ⟨rest, rfl⟩ := eq_empty_of_head?_unlines h.2 hHead
      rw [toList_unlines_cons] at hMore
      have hNext : (unlines rest).toList.head? = some '\n' := by
        have hRest : '\n' :: more = (unlines rest).toList := (List.cons.inj hMore).2
        rw [← hRest]
        rfl
      obtain ⟨others, rfl⟩ := eq_empty_of_head?_unlines (List.forall_mem_cons.mp h.2).2 hNext
      rcases hApart.tail.rel with hBlank | hBlank
      · exact hBlank rfl
      · exact hBlank rfl
    · exact ih h.2 hApart.tail hTail

theorem exists_unlines_eq_append (h : ∀ line ∈ lines, '\n' ∉ line.toList) (hNil : lines ≠ [])
    (hLast : ∀ line ∈ lines.getLast?, line ≠ "") :
    ∃ front last, (unlines lines).toList = front ++ [last, '\n'] ∧ last ≠ '\n' := by
  obtain ⟨before, line, rfl⟩ := (List.eq_nil_or_concat' lines).resolve_left hNil
  have hLine : line.toList ≠ [] := by
    intro hEmpty
    exact hLast line (by simp) (String.toList_eq_nil_iff.mp hEmpty)
  obtain ⟨cs, c, hChars⟩ := (List.eq_nil_or_concat' line.toList).resolve_left hLine
  refine ⟨(unlines before).toList ++ cs, c, ?_, ?_⟩
  · rw [unlines_append, String.toList_append, toList_unlines_cons, hChars]
    simp [unlines]
  · rintro rfl
    exact h line (by simp) (by simp [hChars])

/-- Texts of lines, with blank lines between them. -/
theorem unlines_append_flatMap {first : List String} {rest : List (List String)}
    (hFirst : first ≠ []) (hRest : ∀ lines ∈ rest, lines ≠ []) :
    unlines (first ++ rest.flatMap ("" :: ·)) =
      "\n\n".intercalate ((first :: rest).map fun lines => "\n".intercalate lines) ++ "\n" := by
  induction rest generalizing first with
  | nil =>
    rw [List.flatMap_nil, List.append_nil, List.map_singleton, String.intercalate_singleton,
      intercalate_append hFirst]
  | cons next rest ih =>
    rw [List.forall_mem_cons] at hRest
    have hBreak : "\n\n" = "\n" ++ "\n" := by decide
    have hNext := ih hRest.1 hRest.2
    rw [unlines_append] at hNext
    rw [List.flatMap_cons, List.cons_append, unlines_append, unlines_cons, unlines_append, hNext,
      ← intercalate_append hFirst, List.map_cons, List.map_cons, List.map_cons,
      String.intercalate_cons_cons, String.empty_append]
    simp only [String.append_assoc, hBreak]

end Text

namespace Proto

def headerLines : List String := ["/* Generated by protoemit */", "", "syntax = \"proto3\";"]

/-- The lines of each section that follows the header: the package, the imports, the options, as
far as there are any, and the declarations. -/
def sections (schema : Schema) : List (List String) :=
  [(schema.package.filter (· ≠ "")).toList.map packageStatement,
    schema.imports.map importStatement,
    schema.options.map fun (name, value) => optionStatement name value].filter (· ≠ []) ++
  schema.declarations.map lines

/-- The header and the sections of a file, each as a text. -/
def paragraphs (schema : Schema) : List String :=
  (headerLines :: sections schema).map fun lines => "\n".intercalate lines

theorem lines_ne_nil (decl : Declaration) : lines decl ≠ [] := by
  obtain ⟨rest, hLines⟩ := lines_eq_cons decl
  rw [hLines]
  exact List.cons_ne_nil _ _

section
variable {schema : Schema}

theorem ne_nil_of_mem_sections : ∀ lines ∈ sections schema, lines ≠ [] := by
  rw [sections, List.forall_mem_append, List.forall_mem_map]
  refine ⟨fun lines hLines => ?_, fun decl _ => lines_ne_nil decl⟩
  exact of_decide_eq_true (List.mem_filter.mp hLines).2

theorem bodyLines_eq (schema : Schema) :
    bodyLines schema = (sections schema).flatMap ("" :: ·) := by
  have hSection : ∀ lines : List String,
      sectionLines lines = ([lines].filter (· ≠ [])).flatMap ("" :: ·) := by
    intro lines
    cases lines <;> simp [sectionLines]
  have hList : ∀ a b c : List String, [a, b, c] = [a] ++ ([b] ++ [c]) := fun _ _ _ => rfl
  have hDeclarations : (schema.declarations.flatMap fun decl => sectionLines (lines decl)) =
      (schema.declarations.map lines).flatMap ("" :: ·) := by
    rw [List.flatMap_map]
    refine List.flatMap_congr fun decl _ => ?_
    rw [sectionLines, if_neg (by simpa using lines_ne_nil decl)]
  rw [bodyLines, sections, hList, List.filter_append, List.filter_append, List.flatMap_append,
    List.flatMap_append, List.flatMap_append, hDeclarations, ← hSection, ← hSection, ← hSection,
    List.append_assoc, List.append_assoc]

theorem text_eq_unlines_sections (schema : Schema) :
    text schema = Text.unlines (headerLines ++ (sections schema).flatMap ("" :: ·)) := by
  have hHeader : header = Text.unlines headerLines := by decide
  rw [text_eq_unlines, hHeader, Text.unlines_append, bodyLines_eq]

theorem Spaced.append_blank {as bs : List String} (ha : Spaced as) (hb : Spaced bs)
    (hAs : as ≠ []) (hBs : bs ≠ []) : Spaced (as ++ "" :: bs) := by
  refine ⟨fun line hLine => ?_, fun line hLine => ?_, ?_⟩
  · rw [List.head?_append_of_ne_nil _ hAs] at hLine
    exact ha.first line hLine
  · rw [List.getLast?_append_cons, List.getLast?_cons_of_ne_nil hBs] at hLine
    exact hb.last line hLine
  · have hApart := apart_blank ha hb false
    rwa [if_neg Bool.false_ne_true, List.append_assoc, List.singleton_append] at hApart

theorem Spaced.append_flatMap {first : List String} {rest : List (List String)}
    (hFirst : Spaced first) (hRest : ∀ lines ∈ rest, Spaced lines) (hNil : first ≠ [])
    (hNils : ∀ lines ∈ rest, lines ≠ []) : Spaced (first ++ rest.flatMap ("" :: ·)) := by
  induction rest generalizing first with
  | nil =>
    rw [List.flatMap_nil, List.append_nil]
    exact hFirst
  | cons next rest ih =>
    rw [List.forall_mem_cons] at hRest hNils
    have hNext := ih (hFirst.append_blank hRest.1 hNil hNils.1) hRest.2 (by simp) hNils.2
    rwa [List.append_assoc] at hNext

theorem spaced_of_mem_sections : ∀ lines ∈ sections schema, Spaced lines := by
  rw [sections, List.forall_mem_append, List.forall_mem_map]
  refine ⟨fun lines hLines => ?_, fun decl _ => spaced_lines decl⟩
  have hSection := (List.mem_filter.mp hLines).1
  simp only [List.mem_cons, List.not_mem_nil, or_false] at hSection
  have hEnding : ∀ {start : String}, (start ++ ";").toList.getLast? = some ';' :=
    getLast?_toList_append (by decide)
  rcases hSection with rfl | rfl | rfl
  all_goals
    apply spaced_statements
    rw [List.forall_mem_map]
    exact fun _ _ => hEnding

end

/-- The text of a file is its paragraphs with one blank line between them and the end of a line
after them. It has no other blank lines but those in declarations, which stand alone, and ends in
one end of a line, if no name and no string holds any. -/
theorem text_eq_paragraphs (schema : Schema) :
    text schema = "\n\n".intercalate (paragraphs schema) ++ "\n" ∧
      ((∀ s ∈ schema.names ++ schema.strings, OneLine s) →
        ¬ ['\n', '\n', '\n'] <:+: (text schema).toList ∧
          ∃ front last, (text schema).toList = front ++ [last, '\n'] ∧ last ≠ '\n') := by
  have hHeader : headerLines ≠ [] := List.cons_ne_nil _ _
  refine ⟨?_, fun h => ?_⟩
  · rw [text_eq_unlines_sections, Text.unlines_append_flatMap hHeader ne_nil_of_mem_sections,
      paragraphs]
  · have hLines : ∀ line ∈ headerLines ++ (sections schema).flatMap ("" :: ·), OneLine line := by
      rw [← bodyLines_eq, List.forall_mem_append]
      exact ⟨by decide, oneLine_bodyLines_of_texts h⟩
    have hHeaderSpaced : Spaced headerLines := ⟨by decide, by decide, by decide⟩
    have hSpaced : Spaced (headerLines ++ (sections schema).flatMap ("" :: ·)) :=
      hHeaderSpaced.append_flatMap spaced_of_mem_sections hHeader ne_nil_of_mem_sections
    rw [text_eq_unlines_sections]
    exact ⟨Text.not_infix_unlines hLines hSpaced.apart,
      Text.exists_unlines_eq_append hLines (by simp [hHeader]) hSpaced.last⟩

/-- A file with an empty package, an import that is there twice, and a message that only reserves a
number. -/
def scatteredFile : Schema where
  package := some ""
  imports := ["a.proto", "a.proto"]
  declarations := [.message "M" [] [.number 3], .service "S" []]

theorem text_scatteredFile :
    text scatteredFile = "\n\n".intercalate ["/* Generated by protoemit */\n\nsyntax = \"proto3\";",
      "import \"a.proto\";\nimport \"a.proto\";", "message M \x7b\n  reserved 3;\n\n\x7d",
      "service S \x7b\x7d"] ++ "\n" ∧
    ¬ ['\n', '\n', '\n'] <:+: (text scatteredFile).toList ∧
      ∃ front last, (text scatteredFile).toList = front ++ [last, '\n'] ∧ last ≠ '\n' := by
  have hParagraphs : paragraphs scatteredFile =
      ["/* Generated by protoemit */\n\nsyntax = \"proto3\";",
        "import \"a.proto\";\nimport \"a.proto\";", "message M \x7b\n  reserved 3;\n\n\x7d",
        "service S \x7b\x7d"] := by
    decide +kernel
  obtain ⟨hText, hBlanks⟩ := text_eq_paragraphs scatteredFile
  rw [hParagraphs] at hText
  exact ⟨hText, hBlanks (by decide)⟩

end Proto
end ProtoSchema
