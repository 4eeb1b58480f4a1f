import ProtoSchema.Proofs.Proto.Trees

/-! The text of a file as lines: a header, and sections that empty lines precede. -/
namespace ProtoSchema.Proto

/-- An empty line and the lines of a section, nothing if it has none. -/
def sectionLines (lines : List String) : List String := if lines.isEmpty then [] else "" :: lines

def packageStatement (name : String) : String := "package " ++ name ++ ";"

/-- The lines after the header. -/
def bodyLines (schema : Schema) : List String :=
  sectionLines ((schema.package.filter (· ≠ "")).toList.map packageStatement) ++
    (sectionLines (schema.imports.map importStatement) ++
      (sectionLines (schema.options.map fun (name, value) => optionStatement name value) ++
        schema.declarations.flatMap fun decl => sectionLines (lines decl)))

theorem packageText_eq (package : Option String) : packageText package =
    Text.unlines (sectionLines ((package.filter (· ≠ "")).toList.map packageStatement)) := by
  cases package with
  | none => rfl
  | some name =>
    by_cases h : name = ""
    · rw [packageText, if_pos h, Option.filter_some_neg (by simpa using h)]
      rfl
    · rw [packageText, if_neg h, Option.filter_some_pos (by simpa using h)]
      simp only [Option.toList_some, List.map_cons, List.map_nil, sectionLines, List.isEmpty_cons,
        Bool.false_eq_true, if_false, Text.unlines_cons, packageStatement]
      simp only [String.append_assoc]
      rfl

theorem statementsText_eq (statements : List String) :
    statementsText statements = Text.unlines (sectionLines statements) := by
  cases statements with
  | nil => rfl
  | cons statement statements =>
    have hText := Text.join_map_append (statement :: statements)
    rw [sectionLines, List.isEmpty_cons, if_neg (by decide), Text.unlines_cons,
      String.empty_append, ← hText]
    rfl

theorem declarationText_eq (decl : Declaration) :
    declarationText decl = Text.unlines (sectionLines (lines decl)) := by
  obtain ⟨rest, hLines⟩ := lines_eq_cons decl
  rw [declarationText, String.append_assoc, Text.intercalate_append (by simp [hLines]), hLines,
    sectionLines, List.isEmpty_cons, if_neg (by decide), Text.unlines_cons "",
    String.empty_append]

theorem text_eq_unlines (schema : Schema) :
    text schema = header ++ Text.unlines (bodyLines schema) := by
  have hDeclarations : String.join (schema.declarations.map declarationText) =
      Text.unlines (schema.declarations.flatMap fun decl => sectionLines (lines decl)) := by
    induction schema.declarations with
    | nil => rfl
    | cons decl decls ih =>
      rw [List.map_cons, String.join_cons, List.flatMap_cons, Text.unlines_append, ih,
        declarationText_eq]
  rw [text, bodyLines, Text.unlines_append, Text.unlines_append, Text.unlines_append,
    packageText_eq, statementsText_eq, statementsText_eq, hDeclarations]
  simp only [String.append_assoc]

end ProtoSchema.Proto
