import ProtoSchema.Proofs.Decimal.Layout
import ProtoSchema.Proofs.Proto.Layout
import ProtoSchema.Proofs.Proto.Outline
import ProtoSchema.Proofs.Schema.Strings

/-! The text of a schema as a template: strings stand between double quotes, and nothing else
depends on them. -/
namespace ProtoSchema.Proto

-- the instance for all characters would be found first
instance : DecidablePred (MadeOf Quiet) := fun text => List.decidableBAll Quiet text.toList

/-- Lines are other lines with these strings between their double quotes. -/
inductive WrittenLines (P : Char → Prop) : List String → List String → List String → Prop where
  | nil : WrittenLines P [] [] []
  | cons {line blank : String} {lines blanks strings more : List String}
    (hLine : Written P line.toList strings blank.toList) (h : WrittenLines P lines more blanks) :
    WrittenLines P (line :: lines) (strings ++ more) (blank :: blanks)

theorem quiet_of_isDigit {c : Char} (h : c.isDigit) : Quiet c := by
  have hMarks : ['"', '\'', '/'].all (fun c => c.isDigit = false) = true := by decide
  intro hMem
  have hNot := of_decide_eq_true (List.all_eq_true.mp hMarks c hMem)
  rw [h] at hNot
  cases hNot

theorem quiet_toString (n : Int) : MadeOf Quiet (toString n) := by
  intro c hc
  rcases Decimal.mem_toString hc with rfl | hDigit
  · decide
  · exact quiet_of_isDigit hDigit

theorem quiet_write (x : Float) : MadeOf Quiet (Decimal.Layout.plain.write x) := by
  have hMarks : MadeOf Quiet ".e+-" := by decide
  have hNan : MadeOf Quiet "nan" := by decide
  have hInfinity : MadeOf Quiet "inf" := by decide
  intro c hc
  rcases Decimal.Layout.mem_write hc with (hDigit | hMark) | hName | hName
  · exact quiet_of_isDigit hDigit
  · exact hMarks c hMark
  · exact hNan c hName
  · exact hInfinity c hName

section
variable {P : Char → Prop} {s t line blank : String}
  {lines lines' blanks blanks' strings strings' : List String}

theorem Written.append_text {more blank' : String} (h : Written P s.toList strings blank.toList)
    (hMore : Written P more.toList strings' blank'.toList) :
    Written P (s ++ more).toList (strings ++ strings') (blank ++ blank').toList := by
  rw [String.toList_append, String.toList_append]
  exact h.append hMore

theorem Written.of_madeOf (h : MadeOf P s) : Written P s.toList [] s.toList := .of_forall h

theorem Written.of_literal (s : String) :
    Written P (Proto.literal s).toList [s] (Proto.literal "").toList := by
  have h : Written P ('"' :: (s.toList ++ ['"'])) [s] ['"', '"'] := .literal s .nil
  have hList : (Proto.literal s).toList = '"' :: (s.toList ++ ['"']) := by simp [Proto.literal]
  rw [hList]
  exact h

theorem WrittenLines.append (h : WrittenLines P lines strings blanks)
    (hMore : WrittenLines P lines' strings' blanks') :
    WrittenLines P (lines ++ lines') (strings ++ strings') (blanks ++ blanks') := by
  induction h with
  | nil => exact hMore
  | cons hLine _ ih =>
    rw [List.cons_append, List.cons_append, List.append_assoc]
    exact .cons hLine ih

theorem WrittenLines.of_forall (h : ∀ line ∈ lines, MadeOf P line) :
    WrittenLines P lines [] lines := by
  induction lines with
  | nil => exact .nil
  | cons line lines ih =>
    rw [List.forall_mem_cons] at h
    exact .cons (.of_madeOf h.1) (ih h.2)

theorem WrittenLines.singleton (h : Written P line.toList strings blank.toList) :
    WrittenLines P [line] strings [blank] := by
  have hCons := WrittenLines.cons h .nil
  rwa [List.append_nil] at hCons

theorem WrittenLines.isEmpty_eq (h : WrittenLines P lines strings blanks) :
    lines.isEmpty = blanks.isEmpty := by
  cases h <;> rfl

theorem WrittenLines.flatMap {α : Type} {items : List α} {f g h : α → List String}
    (hItems : ∀ item ∈ items, WrittenLines P (f item) (g item) (h item)) :
    WrittenLines P (items.flatMap f) (items.flatMap g) (items.flatMap h) := by
  induction items with
  | nil => exact .nil
  | cons item items ih =>
    rw [List.forall_mem_cons] at hItems
    exact hItems.1.append (ih hItems.2)

theorem WrittenLines.section {lines blanks strings : List String}
    (h : WrittenLines P lines strings blanks) :
    WrittenLines P (sectionLines lines) strings (sectionLines blanks) := by
  have hBlank : WrittenLines P [""] [] [""] := .singleton .nil
  unfold sectionLines
  rw [← h.isEmpty_eq]
  by_cases hEmpty : lines = []
  · rw [hEmpty] at h ⊢
    cases h
    exact .nil
  · rw [if_neg (by simpa using hEmpty), if_neg (by simpa using hEmpty)]
    exact hBlank.append h

variable (hQuiet : ∀ c, Quiet c → P c)
include hQuiet

theorem MadeOf.of_quiet (h : MadeOf Quiet s) : MadeOf P s := fun c hc => hQuiet c (h c hc)

theorem WrittenLines.indent (h : WrittenLines P lines strings blanks) :
    WrittenLines P (Lines.indent 2 lines) strings (Lines.indent 2 blanks) := by
  have hBlanks : MadeOf P ("".pushn ' ' 2) := by
    apply MadeOf.of_quiet hQuiet
    intro c hc
    rw [Lines.toList_blanks] at hc
    rw [List.eq_of_mem_replicate hc]
    decide
  induction h with
  | nil => exact .nil
  | @cons line blank _ _ _ _ hLine _ ih =>
    refine .cons ?_ ih
    have hEmpty : line = "" ↔ blank = "" := by
      rw [← String.toList_eq_nil_iff, ← String.toList_eq_nil_iff]
      exact hLine.eq_nil_iff
    unfold Lines.indentLine
    by_cases h : line = ""
    · rwa [if_pos h, if_pos (hEmpty.mp h)]
    · rw [if_neg h, if_neg (h ∘ hEmpty.mpr)]
      exact (Written.of_madeOf hBlanks).append_text hLine

theorem WrittenLines.unlines (h : WrittenLines P lines strings blanks) :
    Written P (Text.unlines lines).toList strings (Text.unlines blanks).toList := by
  have hEnd : MadeOf P "\n" := .of_quiet hQuiet (by decide)
  induction h with
  | nil => exact .nil
  | cons hLine _ ih =>
    rw [Text.unlines_cons, Text.unlines_cons]
    exact hLine.append_text ((Written.of_madeOf hEnd).append_text ih)

end

section
variable {P : Char → Prop} (hQuiet : ∀ c, Quiet c → P c)
include hQuiet

theorem madeOf_enumBody {enum : Enum} (h : ∀ v ∈ enum.variants, MadeOf P v.name) :
    ∀ line ∈ enumBody enum, MadeOf P line := by
  intro line hLine
  rcases mem_enumBody hLine with rfl | rfl | ⟨v, hv, rfl⟩
  · exact .of_quiet hQuiet (by decide)
  · exact .of_quiet hQuiet (by decide)
  · exact .variantLine (.of_quiet hQuiet (by decide)) (.of_quiet hQuiet (quiet_toString _)) (h v hv)

section
variable {keyword name : String} (hKeyword : MadeOf Quiet keyword) (hName : MadeOf P name)
include hKeyword hName

theorem madeOf_opening : MadeOf P (opening keyword name) := by
  exact .opening (.of_quiet hQuiet (by decide)) (.of_quiet hQuiet hKeyword) hName

variable {body blanks strings : List String} (h : WrittenLines P body strings blanks)
include h

theorem WrittenLines.block : WrittenLines P (Proto.block keyword name (Lines.indent 2 body)) strings
    (Proto.block keyword name (Lines.indent 2 blanks)) := by
  have hOpening : WrittenLines P [opening keyword name] [] [opening keyword name] :=
    .singleton (.of_madeOf (madeOf_opening hQuiet hKeyword hName))
  have hClosing : WrittenLines P [closing] [] [closing] :=
    .singleton (.of_madeOf (.of_quiet hQuiet (by decide)))
  have hBlock := (hOpening.append (h.indent hQuiet)).append hClosing
  rwa [List.nil_append, List.append_nil] at hBlock

theorem WrittenLines.braced : WrittenLines P (Proto.braced keyword name body) strings
    (Proto.braced keyword name blanks) := by
  unfold Proto.braced
  rw [← h.isEmpty_eq]
  by_cases hEmpty : body = []
  · have hClosing : MadeOf P closing := .of_quiet hQuiet (by decide)
    have hNone : strings = [] := by
      rw [hEmpty] at h
      cases h
      rfl
    rw [hEmpty, hNone]
    exact .singleton (.of_madeOf ((madeOf_opening hQuiet hKeyword hName).append hClosing))
  · rw [if_neg (by simpa using hEmpty), if_neg (by simpa using hEmpty)]
    exact h.block hQuiet hKeyword hName

end

end

section
variable {P : Char → Prop} (hQuiet : ∀ c, Quiet c → P c)
include hQuiet

theorem written_intercalate (names : List String) :
    Written P (", ".intercalate (names.map literal)).toList names
      (", ".intercalate (names.map fun _ => literal "")).toList := by
  have hComma : MadeOf P ", " := .of_quiet hQuiet (by decide)
  induction names with
  | nil => exact .nil
  | cons name names ih =>
    cases names with
    | nil =>
      rw [List.map_singleton, List.map_singleton, String.intercalate_singleton,
        String.intercalate_singleton]
      exact .of_literal name
    | cons next names =>
      rw [List.map_cons, List.map_cons, List.map_cons, List.map_cons,
        String.intercalate_cons_cons, String.intercalate_cons_cons]
      exact ((Written.of_literal name).append_text (.of_madeOf hComma)).append_text ih

theorem written_reservedLine (names : List String) :
    WrittenLines P (reservedLine (names.map literal)) names
      (reservedLine (names.map fun _ => literal "")) := by
  have hReserved : MadeOf P "reserved " := .of_quiet hQuiet (by decide)
  have hEnd : MadeOf P ";" := .of_quiet hQuiet (by decide)
  cases names with
  | nil => exact .nil
  | cons name names =>
    have hNames := written_intercalate hQuiet (name :: names)
    have hLine := ((Written.of_madeOf hReserved).append_text hNames).append_text (.of_madeOf hEnd)
    rw [List.nil_append, List.append_nil] at hLine
    exact .singleton hLine

theorem madeOf_reservedNumbers (reservations : List Reservation) :
    ∀ line ∈ reservedLine (reservations.filterMap reservedNumber?), MadeOf P line := by
  have hFixed : MadeOf P "reserved , ;" := .of_quiet hQuiet (by decide)
  have hTo : MadeOf P " to " := .of_quiet hQuiet (by decide)
  have hNumber : ∀ n : Int, MadeOf P (toString n) := fun n => .of_quiet hQuiet (quiet_toString n)
  apply MadeOf.reservedLine hFixed
  intro entry hEntry
  obtain ⟨reservation, -, hReservation⟩ := List.mem_filterMap.mp hEntry
  exact .reservedNumber hTo hNumber hReservation

end

theorem filterMap_reservedName?_eq (reservations : List Reservation) :
    reservations.filterMap reservedName? =
        (reservations.filterMap Reservation.string?).map literal ∧
      (reservations.map Reservation.blank).filterMap reservedName? =
        (reservations.filterMap Reservation.string?).map (fun _ => literal "") ∧
      (reservations.map Reservation.blank).filterMap reservedNumber? =
        reservations.filterMap reservedNumber? := by
  induction reservations with
  | nil => exact ⟨rfl, rfl, rfl⟩
  | cons reservation reservations ih =>
    obtain ⟨hNames, hBlanks, hNumbers⟩ := ih
    cases reservation <;>
      simp [List.filterMap_cons, reservedName?, reservedNumber?, Reservation.string?,
        Reservation.blank, hNames, hBlanks, hNumbers]

section
variable {P : Char → Prop} (hQuiet : ∀ c, Quiet c → P c)
include hQuiet

theorem written_reservationLines (reservations : List Reservation) :
    WrittenLines P (reservationLines reservations) (reservations.filterMap Reservation.string?)
      (reservationLines (reservations.map Reservation.blank)) := by
  obtain ⟨hNames, hBlanks, hNumbers⟩ := filterMap_reservedName?_eq reservations
  have hFirst := WrittenLines.of_forall (madeOf_reservedNumbers hQuiet reservations)
  have hSecond := written_reservedLine hQuiet (reservations.filterMap Reservation.string?)
  have hEmpty : ∀ numbers names : List String, WrittenLines P
      (if numbers.isEmpty && (names.map literal).isEmpty then [] else [""]) []
      (if numbers.isEmpty && (names.map fun _ => literal "").isEmpty then [] else [""]) := by
    intro numbers names
    rw [List.isEmpty_map, List.isEmpty_map]
    apply WrittenLines.of_forall
    intro line hLine
    split at hLine
    · cases hLine
    · rw [List.mem_singleton.mp hLine]
      exact .of_quiet hQuiet (by decide)
  have hLines := (hFirst.append hSecond).append (hEmpty (reservations.filterMap reservedNumber?)
    (reservations.filterMap Reservation.string?))
  rw [List.nil_append, List.append_nil] at hLines
  unfold reservationLines
  rw [hNames, hBlanks, hNumbers]
  exact hLines

/-- The lines of a declaration hold its reserved names in quotes, and nothing else depends on
them. -/
theorem written_lines {decl : Declaration}
    (h : ∀ node ∈ decl.nodes, ∀ name ∈ node.names, MadeOf P name) :
    WrittenLines P (lines decl) decl.strings (lines decl.blank) := by
  have hMembers : ∀ {decls : List Declaration}, (∀ d ∈ decls, (∀ node ∈ d.nodes,
        ∀ name ∈ node.names, MadeOf P name) → WrittenLines P (lines d) d.strings (lines d.blank)) →
      (∀ d ∈ decls, ∀ node ∈ d.nodes, ∀ name ∈ node.names, MadeOf P name) →
      WrittenLines P (memberLines decls) (decls.flatMap Decl.strings)
        (memberLines (Decl.blankIn decls)) := by
    intro decls ih hNames
    rw [memberLines_eq_flatMap, memberLines_eq_flatMap, Decl.blankIn_eq_map, List.flatMap_map]
    exact .flatMap fun d hd => ih d hd (hNames d hd)
  induction decl using Decl.induct with
  | message name members reservations ih =>
    rw [Decl.forall_mem_nodes] at h
    obtain ⟨hName, hNames⟩ := h
    have hBody := (written_reservationLines hQuiet reservations).append (hMembers ih hNames)
    rw [Decl.blank, lines_message, lines_message, Decl.strings_eq]
    exact hBody.braced hQuiet (by decide) (hName name (List.mem_singleton.mpr rfl))
  | oneof name members ih =>
    rw [Decl.forall_mem_nodes] at h
    obtain ⟨hName, hNames⟩ := h
    rw [Decl.blank, lines, lines, Decl.strings_eq]
    exact (hMembers ih hNames).block hQuiet (by decide) (hName name (List.mem_singleton.mpr rfl))
  | field f =>
    have hLine : MadeOf P (fieldLine f) := .fieldLine (.of_quiet hQuiet (by decide))
      (.of_quiet hQuiet (quiet_toString _)) (h _ List.mem_cons_self)
    rw [Decl.blank, lines]
    exact .singleton (.of_madeOf hLine)
  | method m =>
    have hLine : MadeOf P (methodLine m) := .methodLine (.of_quiet hQuiet (by decide))
      (h _ List.mem_cons_self)
    rw [Decl.blank, lines]
    exact .singleton (.of_madeOf hLine)
  | enum e =>
    have hNames : ∀ word ∈ e.name :: e.variants.map Variant.name, MadeOf P word :=
      h _ List.mem_cons_self
    rw [List.forall_mem_cons, List.forall_mem_map] at hNames
    have hBody := WrittenLines.of_forall (madeOf_enumBody hQuiet hNames.2)
    rw [Decl.blank, lines, enumLines_eq]
    exact hBody.block hQuiet (by decide) hNames.1
  | service name operations =>
    rw [Decl.forall_mem_nodes] at h
    obtain ⟨hName, hNames⟩ := h
    have hLines : ∀ line ∈ operations.map methodLine, MadeOf P line := by
      rw [List.forall_mem_map]
      intro m hm
      exact .methodLine (.of_quiet hQuiet (by decide))
        (hNames _ (List.mem_map_of_mem hm) _ List.mem_cons_self)
    have hNone : (Decl.service name operations : Declaration).strings = [] := by
      rw [Decl.strings_eq, Decl.members, List.flatMap_map]
      exact List.flatMap_eq_nil_iff.mpr fun m _ => rfl
    rw [Decl.blank, lines, serviceLines_eq, hNone]
    exact (WrittenLines.of_forall hLines).braced hQuiet (by decide)
      (hName name (List.mem_singleton.mpr rfl))
  | foreign value => exact value.elim

theorem written_importStatement (path : String) :
    Written P (importStatement path).toList [path] (importStatement "").toList := by
  have hImport : MadeOf P "import " := .of_quiet hQuiet (by decide)
  have hEnd : MadeOf P ";" := .of_quiet hQuiet (by decide)
  exact ((Written.of_madeOf hImport).append_text (.of_literal path)).append_text (.of_madeOf hEnd)

theorem written_optionStatement {name : String} (hName : MadeOf P name) (value : OptionValue) :
    Written P (optionStatement name value).toList value.string?.toList
      (optionStatement name value.blank).toList := by
  have hOption : MadeOf P "option " := .of_quiet hQuiet (by decide)
  have hEquals : MadeOf P " = " := .of_quiet hQuiet (by decide)
  have hEnd : MadeOf P ";" := .of_quiet hQuiet (by decide)
  have hValue : Written P (optionText value).toList value.string?.toList
      (optionText value.blank).toList := by
    cases value with
    | text s => exact .of_literal s
    | integer n => exact .of_madeOf (.of_quiet hQuiet (quiet_toString n))
    | float x => exact .of_madeOf (.of_quiet hQuiet (quiet_write x))
    | boolean b => cases b <;> exact .of_madeOf (.of_quiet hQuiet (by decide))
  have hStart := Written.of_madeOf ((hOption.append hName).append hEquals)
  have hLine := (hStart.append_text hValue).append_text (.of_madeOf hEnd)
  rwa [List.nil_append, List.append_nil] at hLine

theorem written_package {package : Option String}
    (h : ∀ name ∈ package.toList, MadeOf P name) :
    WrittenLines P ((package.filter (· ≠ "")).toList.map packageStatement) []
      ((package.filter (· ≠ "")).toList.map packageStatement) := by
  have hPackage : MadeOf P "package " := .of_quiet hQuiet (by decide)
  have hEnd : MadeOf P ";" := .of_quiet hQuiet (by decide)
  apply WrittenLines.of_forall
  rw [List.forall_mem_map]
  intro name hName
  rw [Option.mem_toList, Option.filter_eq_some_iff] at hName
  exact (hPackage.append (h name (Option.mem_toList.mpr hName.1))).append hEnd

theorem written_imports (imports : List String) : WrittenLines P (imports.map importStatement)
    imports (imports.map fun _ => importStatement "") := by
  induction imports with
  | nil => exact .nil
  | cons path imports ih => exact .cons (written_importStatement hQuiet path) ih

theorem written_options {options : List (String × OptionValue)}
    (h : ∀ option ∈ options, MadeOf P option.1) :
    WrittenLines P (options.map fun option => optionStatement option.1 option.2)
      (options.filterMap fun option => option.2.string?)
      (options.map fun option => optionStatement option.1 option.2.blank) := by
  induction options with
  | nil => exact .nil
  | cons option options ih =>
    rw [List.forall_mem_cons] at h
    have hLines := WrittenLines.cons (written_optionStatement hQuiet h.1 option.2) (ih h.2)
    rw [List.filterMap_cons]
    cases hString : option.2.string? with
    | none => rwa [hString] at hLines
    | some s => rwa [hString] at hLines

/-- The body of a file holds its strings in quotes, and nothing else depends on them. -/
theorem written_bodyLines {schema : Schema} (h : ∀ name ∈ schema.names, MadeOf P name) :
    WrittenLines P (bodyLines schema) schema.strings (bodyLines schema.blank) := by
  simp only [SchemaFile.names, List.forall_mem_append, List.forall_mem_map,
    List.forall_mem_flatMap] at h
  obtain ⟨⟨hPackage, hOptions⟩, hNames⟩ := h
  have hPackages := (written_package hQuiet hPackage).section
  have hImports := (written_imports hQuiet schema.imports).section
  have hOptionLines := (written_options hQuiet hOptions).section
  have hDeclarations : WrittenLines P
      (schema.declarations.flatMap fun decl => sectionLines (lines decl))
      (schema.declarations.flatMap Decl.strings)
      (schema.declarations.flatMap fun decl => sectionLines (lines decl.blank)) := by
    apply WrittenLines.flatMap
    intro decl hDecl
    have hDeclNames : ∀ node ∈ decl.nodes, ∀ name ∈ node.names, MadeOf P name :=
      fun node hNode => hNames node (List.mem_flatMap.mpr ⟨decl, hDecl, hNode⟩)
    exact (written_lines hQuiet hDeclNames).section
  have hBody := hPackages.append (hImports.append (hOptionLines.append hDeclarations))
  have hStrings : schema.strings = [] ++ (schema.imports ++
      ((schema.options.filterMap fun option => option.2.string?) ++
        schema.declarations.flatMap Decl.strings)) := by
    rw [SchemaFile.strings, SchemaFile.nodes, List.flatMap_assoc, List.append_assoc]
    rfl
  rw [hStrings]
  unfold bodyLines SchemaFile.blank
  simp only [List.map_map, List.flatMap_map]
  exact hBody

end

end ProtoSchema.Proto
