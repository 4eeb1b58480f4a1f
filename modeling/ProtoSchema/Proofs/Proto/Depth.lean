import ProtoSchema.Proofs.Proto.Indentation

/-!
Lines at a depth. A renderer that knows how deep it is puts each line at its place at once, and
comes to the same lines as one that indents them again in every declaration around them.
-/
namespace ProtoSchema

namespace Lines

theorem indentLine_indentLine (m n : Nat) (line : String) :
    indentLine m (indentLine n line) = indentLine (m + n : Nat) line := by
  by_cases hEmpty : line = ""
  · rw [hEmpty]
    rfl
  · have hInner := (indentLine_eq_empty_iff n line).not.mpr hEmpty
    rw [indentLine, if_neg hInner, indentLine, if_neg hEmpty, indentLine, if_neg hEmpty,
      ← String.append_assoc]
    congr 1
    apply String.toList_injective
    simp only [String.toList_append, toList_blanks, Int.toNat_natCast,
      List.replicate_append_replicate]

/-- Depths add up. -/
theorem indent_indent (m n : Nat) (lines : List String) :
    indent m (indent n lines) = indent (m + n : Nat) lines := by
  unfold indent
  rw [List.map_map]
  exact List.map_congr_left fun line _ => indentLine_indentLine m n line

theorem indent_zero (lines : List String) : indent 0 lines = lines := by
  have hLine : indentLine 0 = id := by
    funext line
    unfold indentLine
    split
    · rfl
    · exact String.empty_append
  rw [indent, hLine, List.map_id]

end Lines

namespace Proto

/-- A line behind two blanks for each level. -/
def lineAt (depth : Nat) (line : String) : String := "".pushn ' ' (2 * depth) ++ line

/-- A statement with lines between its braces, which know their own depth. -/
def blockAt (depth : Nat) (keyword name : String) (body : List String) : List String :=
  lineAt depth (opening keyword name) :: body ++ [lineAt depth closing]

def reservationLinesAt (depth : Nat) (reservations : List Reservation) : List String :=
  (reservedLine ((reservations.filter (! ·.isName)).map entry) ++
    reservedLine ((reservations.filter Reservation.isName).map entry)).map (lineAt depth) ++
    if reservations.isEmpty then [] else [""]

def aliasLinesAt (depth : Nat) (enum : Enum) : List String :=
  if enum.allowAlias then
    lineAt depth "option allow_alias = true;" :: if enum.variants.isEmpty then [] else [""]
  else []

mutual

/-- The lines of a declaration that stands in this many others. -/
def linesAt (depth : Nat) : Declaration → List String
  | .message name members reservations =>
    if members.isEmpty && reservations.isEmpty then
      [lineAt depth (opening "message" name ++ closing)]
    else
      blockAt depth "message" name
        (reservationLinesAt (depth + 1) reservations ++ memberLinesAt (depth + 1) members)
  | .field field => [lineAt depth (fieldLine field)]
  | .oneof name members => blockAt depth "oneof" name (memberLinesAt (depth + 1) members)
  | .enum enum =>
    blockAt depth "enum" enum.name (aliasLinesAt (depth + 1) enum ++
      enum.variants.map fun variant => lineAt (depth + 1) (variantLine variant))
  | .method method => [lineAt depth (methodLine method)]
  | .service name operations =>
    if operations.isEmpty then [lineAt depth (opening "service" name ++ closing)]
    else
      blockAt depth "service" name
        (operations.map fun method => lineAt (depth + 1) (methodLine method))

def memberLinesAt (depth : Nat) : List Declaration → List String
  | [] => []
  | decl :: decls => linesAt depth decl ++ memberLinesAt depth decls

end

/-- A message around a declaration: what else is in it. -/
structure Enclosing where
  name : String
  reservations : List Reservation
  before : List Declaration
  after : List Declaration

def Enclosing.around (enclosing : Enclosing) (decl : Declaration) : Declaration :=
  .message enclosing.name (enclosing.before ++ decl :: enclosing.after) enclosing.reservations

/-- A declaration in messages in each other, the outermost first. -/
def nested : List Enclosing → Declaration → Declaration
  | [], decl => decl
  | enclosing :: chain, decl => enclosing.around (nested chain decl)

/-- What stands above a declaration in these messages. -/
def linesAbove (depth : Nat) : List Enclosing → List String
  | [] => []
  | enclosing :: chain =>
    lineAt depth (opening "message" enclosing.name) ::
      (reservationLinesAt (depth + 1) enclosing.reservations ++
        memberLinesAt (depth + 1) enclosing.before ++ linesAbove (depth + 1) chain)

def linesBelow (depth : Nat) : List Enclosing → List String
  | [] => []
  | enclosing :: chain =>
    linesBelow (depth + 1) chain ++ memberLinesAt (depth + 1) enclosing.after ++
      [lineAt depth closing]

section
variable {line : String} {depth : Nat}

theorem indentLine_eq_lineAt (h : line ≠ "") :
    Lines.indentLine (2 * depth : Nat) line = lineAt depth line := by
  rw [Lines.indentLine, if_neg h, Int.toNat_natCast, lineAt]

theorem indent_eq_map_lineAt {lines : List String} (h : ∀ line ∈ lines, line ≠ "") :
    Lines.indent (2 * depth : Nat) lines = lines.map (lineAt depth) :=
  List.map_congr_left fun line hLine => indentLine_eq_lineAt (h line hLine)

theorem indent_singleton (h : line ≠ "") :
    Lines.indent (2 * depth : Nat) [line] = [lineAt depth line] :=
  indent_eq_map_lineAt (List.forall_mem_singleton.mpr h)

theorem indent_block (keyword name : String) (body : List String) :
    Lines.indent (2 * depth : Nat) (block keyword name (Lines.indent 2 body)) =
      blockAt depth keyword name (Lines.indent (2 * (depth + 1) : Nat) body) := by
  have hOpening : opening keyword name ≠ "" := by
    have hAppended := opening_append_ne_empty keyword name ""
    rwa [String.append_empty] at hAppended
  have hBody : Lines.indent (2 * depth : Nat) (Lines.indent 2 body) =
      Lines.indent (2 * (depth + 1) : Nat) body := Lines.indent_indent (2 * depth) 2 body
  rw [block, blockAt, ← List.singleton_append, Lines.indent_append, Lines.indent_append, hBody,
    indent_singleton hOpening, indent_singleton (by decide : closing ≠ "")]
  rfl

theorem indent_reservationLines (reservations : List Reservation) :
    Lines.indent (2 * depth : Nat) (reservationLines reservations) =
      reservationLinesAt depth reservations := by
  have hStatement : ∀ entries, ∀ line ∈ reservedLine entries, line ≠ "" :=
    fun entries line hLine => ne_empty_of_semicolon (getLast?_of_mem_reservedLine hLine)
  rw [reservationLines_eq, Lines.indent_append, Lines.indent_blank, reservationLinesAt,
    indent_eq_map_lineAt (List.forall_mem_append.mpr ⟨hStatement _, hStatement _⟩)]

theorem indent_enumBody (enum : Enum) : Lines.indent (2 * depth : Nat) (enumBody enum) =
    aliasLinesAt depth enum ++
      enum.variants.map fun variant => lineAt depth (variantLine variant) := by
  have hAlias : Lines.indent (2 * depth : Nat) (if enum.allowAlias then
      "option allow_alias = true;" :: if enum.variants.isEmpty then [] else [""] else []) =
        aliasLinesAt depth enum := by
    unfold aliasLinesAt
    split
    · rw [← List.singleton_append, Lines.indent_append, indent_singleton (by decide),
        Lines.indent_blank]
      rfl
    · rfl
  have hVariants : ∀ line ∈ enum.variants.map variantLine, line ≠ "" := by
    rw [List.forall_mem_map]
    exact fun v _ => ne_empty_of_semicolon (getLast?_variantLine v)
  rw [enumBody, Lines.indent_append, hAlias, indent_eq_map_lineAt hVariants, List.map_map]
  rfl

theorem indent_memberLines {decls : List Declaration}
    (h : ∀ decl ∈ decls, Lines.indent (2 * depth : Nat) (lines decl) = linesAt depth decl) :
    Lines.indent (2 * depth : Nat) (memberLines decls) = memberLinesAt depth decls := by
  induction decls with
  | nil => rfl
  | cons decl decls ih =>
    obtain ⟨hDecl, hDecls⟩ := List.forall_mem_cons.mp h
    rw [memberLines, memberLinesAt, Lines.indent_append, hDecl, ih hDecls]

end

/-- The lines of a declaration, indented for those around it, are its lines at that depth. -/
theorem indent_lines (decl : Declaration) (depth : Nat) :
    Lines.indent (2 * depth : Nat) (lines decl) = linesAt depth decl := by
  -- Members stand one level deeper, so the depth is not fixed.
  induction decl using Decl.induct generalizing depth with
  | message name members reservations ih =>
    rw [lines, linesAt]
    split
    · exact indent_singleton (opening_append_ne_empty "message" name closing)
    · rw [← Lines.indent_append, indent_block, Lines.indent_append, indent_reservationLines,
        indent_memberLines fun m hm => ih m hm (depth + 1)]
  | field f =>
    rw [lines, linesAt]
    exact indent_singleton (ne_empty_of_semicolon (getLast?_fieldLine f))
  | oneof name members ih =>
    rw [lines, linesAt, indent_block, indent_memberLines fun m hm => ih m hm (depth + 1)]
  | enum e => rw [lines, linesAt, enumLines_eq, indent_block, indent_enumBody]
  | method m =>
    rw [lines, linesAt]
    exact indent_singleton (ne_empty_of_semicolon (getLast?_methodLine m))
  | service name operations =>
    rw [lines, linesAt, serviceLines]
    split
    · exact indent_singleton (opening_append_ne_empty "service" name closing)
    · have hOperations : ∀ line ∈ operations.map methodLine, line ≠ "" := by
        rw [List.forall_mem_map]
        exact fun m _ => ne_empty_of_semicolon (getLast?_methodLine m)
      rw [indent_block, indent_eq_map_lineAt hOperations, List.map_map]
      rfl
  | foreign value => exact value.elim

theorem lines_eq_linesAt (decl : Declaration) : lines decl = linesAt 0 decl := by
  rw [← indent_lines]
  exact (Lines.indent_zero _).symm

theorem memberLinesAt_append (depth : Nat) (as bs : List Declaration) :
    memberLinesAt depth (as ++ bs) = memberLinesAt depth as ++ memberLinesAt depth bs := by
  induction as with
  | nil => rfl
  | cons a as ih => rw [List.cons_append, memberLinesAt, memberLinesAt, ih, List.append_assoc]

theorem linesAt_nested (chain : List Enclosing) (decl : Declaration) (depth : Nat) :
    linesAt depth (nested chain decl) =
      linesAbove depth chain ++ linesAt (depth + chain.length) decl ++ linesBelow depth chain := by
  induction chain generalizing depth with
  | nil => exact (List.append_nil _).symm
  | cons enclosing chain ih =>
    have hInner : linesAt (depth + 1) (nested chain decl) = linesAbove (depth + 1) chain ++
        linesAt (depth + (enclosing :: chain).length) decl ++ linesBelow (depth + 1) chain := by
      rw [ih, List.length_cons, Nat.add_assoc, Nat.add_comm 1]
    have hBody : ¬ ((enclosing.before ++ nested chain decl :: enclosing.after).isEmpty &&
        enclosing.reservations.isEmpty) = true := by simp
    rw [nested, Enclosing.around, linesAt, if_neg hBody, blockAt, memberLinesAt_append,
      memberLinesAt, hInner, linesAbove, linesBelow]
    simp only [List.append_assoc, List.cons_append]

/-- Lines that are indented once for each enclosing declaration are those of a renderer that knows
its depth, and a declaration in messages in each other has its own lines there, two blanks further
to the right for each of them. -/
theorem lines_at_depth :
    (∀ decl depth, Lines.indent (2 * depth : Nat) (lines decl) = linesAt depth decl) ∧
    ∀ chain decl, lines (nested chain decl) = linesAbove 0 chain ++
      Lines.indent (2 * chain.length : Nat) (lines decl) ++ linesBelow 0 chain := by
  refine ⟨indent_lines, fun chain decl => ?_⟩
  have hNested := linesAt_nested chain decl 0
  rwa [← lines_eq_linesAt, Nat.zero_add, ← indent_lines decl] at hNested

end Proto
end ProtoSchema
