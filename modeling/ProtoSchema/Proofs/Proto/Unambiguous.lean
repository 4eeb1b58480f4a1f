import ProtoSchema.Proofs.Proto.Sections

/-! The text of a file determines it up to normal form. -/
namespace ProtoSchema.Proto
open SchemaFile (reserving)
open TypeExpr (untag)

/-- A file without floats whose text can be read back: names are words, the texts in it end no
line, and no field starts like an option. -/
structure Plain (schema : Schema) : Prop where
  words : ∀ decl ∈ schema.declarations, decl.Worded
  package : ∀ name, schema.package = some name → ∀ c ∈ name.toList, c ∉ marks
  imports : ∀ path ∈ schema.imports, OneLine path
  optionNames : ∀ option ∈ schema.options, ' ' ∉ option.1.toList ∧ OneLine option.1
  optionTexts : ∀ option ∈ schema.options, ∀ s, option.2 = .text s → OneLine s
  optionFloats : ∀ option ∈ schema.options, ∀ x, option.2 ≠ .float x
  noOptionFields : ∀ field, .field field ∈ schema.declarations → field.repeated = false →
    field.type.untag ≠ .ref "option"

theorem importStatement_inj {p q : String} (h : importStatement p = importStatement q) : p = q := by
  simpa [importStatement, literal, String.append_left_inj, String.append_right_inj] using h

private theorem toString_ne {n : Int} {text : String} {c : Char} (hMem : c ∈ text.toList)
    (hMinus : c ≠ '-') (hDigit : c.isDigit = false) : toString n ≠ text := by
  intro h
  rw [← h] at hMem
  exact Decimal.not_mem_toString hMinus hDigit hMem

theorem optionText_inj {v w : OptionValue} (hv : ∀ x, v ≠ .float x) (hw : ∀ x, w ≠ .float x)
    (h : optionText v = optionText w) : v = w := by
  have hBoolean : ∀ flag, optionText (.boolean flag) = if flag then "true" else "false" := by
    decide
  have hQuote : ∀ s, '"' ∈ (literal s).toList := by simp [literal]
  have hText : ∀ s flag, literal s ≠ optionText (.boolean flag) := by
    intro s flag hEq
    have hMem := hQuote s
    rw [hEq, hBoolean] at hMem
    cases flag <;> exact absurd hMem (by decide)
  have hInteger : ∀ (n : Int) (flag : Bool), toString n ≠ optionText (.boolean flag) := by
    intro n flag
    rw [hBoolean]
    cases flag
    · exact toString_ne (c := 'e') (by decide) (by decide) (by decide)
    · exact toString_ne (c := 'e') (by decide) (by decide) (by decide)
  cases v with
  | float x => exact absurd rfl (hv x)
  | text s =>
    cases w with
    | float x => exact absurd rfl (hw x)
    | text t =>
      have hEq : s = t := by
        simpa [optionText, literal, String.append_left_inj, String.append_right_inj] using h
      rw [hEq]
    | integer n => exact absurd h.symm (toString_ne (hQuote s) (by decide) (by decide))
    | boolean flag => exact absurd h (hText s flag)
  | integer n =>
    cases w with
    | float x => exact absurd rfl (hw x)
    | text t => exact absurd h (toString_ne (hQuote t) (by decide) (by decide))
    | integer m => rw [Decimal.toString_injective h]
    | boolean flag => exact absurd h (hInteger n flag)
  | boolean flag =>
    cases w with
    | float x => exact absurd rfl (hw x)
    | text t => exact absurd h.symm (hText t flag)
    | integer m => exact absurd h.symm (hInteger m flag)
    | boolean other => cases flag <;> cases other <;> first | rfl | exact absurd h (by decide)

theorem optionStatement_inj {name name' : String} {v w : OptionValue} (hName : ' ' ∉ name.toList)
    (hName' : ' ' ∉ name'.toList) (hv : ∀ x, v ≠ .float x) (hw : ∀ x, w ≠ .float x)
    (h : optionStatement name v = optionStatement name' w) : name = name' ∧ v = w := by
  have hBlank : ∀ {text : String}, ' ' ∉ text.toList → ∀ c ∈ text.toList, c ≠ ' ' :=
    fun hText c hc hEq => hText (hEq ▸ hc)
  have hList : (optionStatement name v).toList = (optionStatement name' w).toList :=
    congrArg String.toList h
  simp only [optionStatement, String.toList_append, List.append_assoc,
    List.append_cancel_left_eq] at hList
  obtain ⟨hNames, -, hRest⟩ := Text.append_cons_inj (a := ' ') (b := ' ') (hBlank hName)
    (hBlank hName') (by simp) (by simp) hList
  have hValues := (List.cons.inj (List.cons.inj hRest).2).2
  refine ⟨String.toList_inj.mp hNames, optionText_inj hv hw ?_⟩
  exact String.toList_inj.mp (List.append_cancel_right hValues)

theorem packageStatements_inj {p q : Option String}
    (h : (p.toList.map packageStatement) = q.toList.map packageStatement) : p = q := by
  cases p with
  | none =>
    cases q with
    | none => rfl
    | some name => cases h
  | some name =>
    cases q with
    | none => cases h
    | some other =>
      have hEq : name = other := by
        simpa [packageStatement, String.append_left_inj, String.append_right_inj] using h
      rw [hEq]

theorem text_normal (schema : Schema) : text schema.normal = text schema := by
  have hPackage : packageText (schema.package.filter (· ≠ "")) = packageText schema.package := by
    rw [packageText_eq, packageText_eq, Option.filter_filter]
    simp
  have hDeclarations : (schema.declarations.map Decl.normal).map declarationText =
      schema.declarations.map declarationText := by
    rw [List.map_map]
    refine List.map_congr_left fun decl _ => ?_
    simp only [Function.comp, declarationText, lines_normal]
  rw [text, SchemaFile.normal, hPackage, hDeclarations, text]

namespace Plain
variable {schema : Schema} (h : Plain schema)
include h

theorem not_mem_package : ∀ name ∈ (schema.package.filter (· ≠ "")).toList,
    ∀ c ∈ name.toList, c ∉ marks := by
  intro name hName
  rw [Option.mem_toList, Option.filter_eq_some_iff] at hName
  exact h.package name hName.1

theorem oneLine_bodyLines : ∀ line ∈ bodyLines schema, OneLine line := by
  have hWords : ∀ decl ∈ schema.declarations, ∀ node ∈ decl.nodes, ∀ word,
      word ∈ node.names ∨ word ∈ node.reservedNames → OneLine word := by
    intro decl hDecl node hNode word hWord
    exact .of_isWord (h.words decl hDecl node hNode word (Decl.mem_words_iff.mpr hWord))
  have hPackage : ∀ name ∈ schema.package.toList, OneLine name := by
    intro name hName hMem
    exact h.package name (Option.mem_toList.mp hName) _ hMem (by decide)
  have hStrings : ∀ option ∈ schema.options, ∀ s, option.2.string? = some s → OneLine s := by
    intro option hOption s hString
    refine h.optionTexts option hOption s ?_
    cases hValue : option.2 with
    | text t =>
      rw [hValue] at hString
      exact congrArg OptionValue.text (Option.some.inj hString)
    | _ =>
      rw [hValue] at hString
      cases hString
  apply oneLine_bodyLines_of_texts
  simp only [SchemaFile.names, SchemaFile.strings, SchemaFile.nodes, List.forall_mem_append,
    List.forall_mem_map, List.forall_mem_flatMap, List.forall_mem_filterMap]
  exact ⟨⟨⟨hPackage, fun option hOption => (h.optionNames option hOption).2⟩,
    fun decl hDecl node hNode word hName => hWords decl hDecl node hNode word (.inl hName)⟩,
    ⟨h.imports, hStrings⟩,
    fun decl hDecl node hNode word hName => hWords decl hDecl node hNode word (.inr hName)⟩

theorem isPackage : ∀ line ∈ (schema.package.filter (· ≠ "")).toList.map packageStatement,
    IsPackage line ∧ line ≠ "" := by
  rw [List.forall_mem_map]
  intro name hName
  have hEquals : '=' ∉ name.toList := fun hMem => h.not_mem_package name hName _ hMem (by decide)
  exact ⟨⟨startsWith_package name, by simpa [packageStatement] using hEquals⟩,
    (startsWith_package name).ne_empty⟩

omit h in
theorem isImport : ∀ line ∈ schema.imports.map importStatement, IsImport line ∧ line ≠ "" := by
  rw [List.forall_mem_map]
  exact fun path _ => ⟨⟨startsWith_import path, by simp [importStatement, literal]⟩,
    (startsWith_import path).ne_empty⟩

omit h in
theorem isOption : ∀ line ∈ schema.options.map fun (name, value) => optionStatement name value,
    IsOption line ∧ line ≠ "" := by
  rw [List.forall_mem_map]
  exact fun option _ => ⟨startsWith_option option.1 option.2,
    (startsWith_option option.1 option.2).ne_empty⟩

theorem declarations_lack_options :
    Lacks IsOption (schema.declarations.flatMap fun decl => sectionLines (lines decl)) := by
  refine .declarations fun decl hDecl => not_isOption_firstLine (h.words decl hDecl) ?_
  intro f hField
  exact h.noOptionFields f (hField ▸ hDecl)

theorem rest_lacks_imports : Lacks IsImport
    (sectionLines (schema.options.map fun (name, value) => optionStatement name value) ++
      schema.declarations.flatMap fun decl => sectionLines (lines decl)) := by
  refine .sectionLines_append ?_ (.declarations fun decl hDecl =>
    not_isImport_firstLine (h.words decl hDecl))
  intro line hLine hImport
  have hOption := (isOption line (List.mem_of_mem_head? hLine)).1
  exact absurd (StartsWith.eq (by decide) (by decide) hOption hImport.1) (by decide)

omit h in
theorem rest_lacks_packages : Lacks IsPackage (sectionLines (schema.imports.map importStatement) ++
    (sectionLines (schema.options.map fun (name, value) => optionStatement name value) ++
      schema.declarations.flatMap fun decl => sectionLines (lines decl))) := by
  refine .sectionLines_append ?_ (.sectionLines_append ?_ (.declarations fun decl _ =>
    not_isPackage_firstLine decl))
  · intro line hLine hPackage
    have hImport := (isImport line (List.mem_of_mem_head? hLine)).1
    exact absurd (StartsWith.eq (by decide) (by decide) hImport.1 hPackage.1) (by decide)
  · intro line hLine hPackage
    have hOption := (isOption line (List.mem_of_mem_head? hLine)).1
    exact absurd (StartsWith.eq (by decide) (by decide) hOption hPackage.1) (by decide)

end Plain

/-- Numbers among names, a range held as a list, a scalar type taken for a reference, and an empty
package. -/
def looseFile : Schema where
  package := some ""
  imports := ["a\".proto"]
  options := [("java_package", .text "x = 1;"), ("deprecated", .boolean true)]
  declarations := [
    .message "M" [.field ⟨"message", .map (.ref "string") (.ref "pkg.M"), 1, false⟩,
      .oneof "choice" [.field ⟨"x", .ref "repeated", 2, true⟩]]
      [.name "a", .number 3, .name "b", .range 5 9 .list],
    .service "S" [⟨"Run", .ref "stream", .ref "M", ⟨true, false⟩⟩]]

def strictFile : Schema :=
  { looseFile with
    package := none
    declarations := [
      .message "M" [.field ⟨"message", .map (.scalar "string") (.ref "pkg.M"), 1, false⟩,
        .oneof "choice" [.field ⟨"x", .ref "repeated", 2, true⟩]]
        [.number 3, .range 5 9, .name "a", .name "b"],
      .service "S" [⟨"Run", .ref "stream", .ref "M", ⟨true, false⟩⟩]] }

/-- The file with the field of the oneof moved out of it. -/
def flatFile : Schema :=
  { strictFile with
    declarations := [
      .message "M" [.field ⟨"message", .map (.scalar "string") (.ref "pkg.M"), 1, false⟩,
        .oneof "choice" [], .field ⟨"x", .ref "repeated", 2, true⟩]
        [.number 3, .range 5 9, .name "a", .name "b"],
      .service "S" [⟨"Run", .ref "stream", .ref "M", ⟨true, false⟩⟩]] }

private theorem plain_files : Plain looseFile ∧ Plain strictFile ∧ Plain flatFile := by
  refine ⟨?_, ?_, ?_⟩ <;>
    exact {
      words := by decide
      package := by simp [looseFile, strictFile, flatFile]
      imports := by decide
      optionNames := by decide
      optionTexts := by simp [looseFile, strictFile, flatFile, OneLine]
      optionFloats := by simp [looseFile, strictFile, flatFile]
      noOptionFields := by simp [looseFile, strictFile, flatFile] }

end ProtoSchema.Proto
