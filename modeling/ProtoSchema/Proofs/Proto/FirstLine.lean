import ProtoSchema.Proofs.Proto.Statements

/-! The first line of a declaration, which tells its kind. -/
namespace ProtoSchema.Proto

/-- The kind of the declaration that starts with this line. A line that ends with a semicolon may
start with the name of any kind, since types may be named so. -/
def lineKind? (line : String) : Option DeclKind :=
  if line.toList.getLast? = some ';' then
    if '(' ∈ line.toList then some .method
    else if '=' ∈ line.toList then some .field
    else none
  else DeclKind.ofName? (String.ofList (line.toList.takeWhile (· ≠ ' ')))

/-- The first line of a declaration. -/
def firstLine : Declaration → String
  | .message name members reservations =>
    opening "message" name ++ if members.isEmpty && reservations.isEmpty then closing else ""
  | .field field => fieldLine field
  | .oneof name _ => opening "oneof" name ++ ""
  | .enum enum => opening "enum" enum.name ++ ""
  | .method method => methodLine method
  | .service name operations =>
    opening "service" name ++ if operations.isEmpty then closing else ""

theorem lines_eq_cons (decl : Declaration) : ∃ rest, lines decl = firstLine decl :: rest := by
  cases decl with
  | message name members reservations =>
    rw [lines, firstLine]
    by_cases hEmpty : (members.isEmpty && reservations.isEmpty) = true
    · rw [if_pos hEmpty, if_pos hEmpty]
      exact ⟨[], rfl⟩
    · rw [if_neg hEmpty, if_neg hEmpty, String.append_empty]
      exact ⟨_, rfl⟩
  | field f => exact ⟨[], rfl⟩
  | oneof name members =>
    rw [lines, firstLine, String.append_empty]
    exact ⟨_, rfl⟩
  | enum e =>
    rw [lines, firstLine, String.append_empty]
    exact ⟨_, rfl⟩
  | method m => exact ⟨[], rfl⟩
  | service name operations =>
    rw [lines, firstLine, serviceLines]
    by_cases hEmpty : operations.isEmpty = true
    · rw [if_pos hEmpty, if_pos hEmpty]
      exact ⟨[], rfl⟩
    · rw [if_neg hEmpty, if_neg hEmpty, String.append_empty]
      exact ⟨_, rfl⟩
  | foreign value => exact value.elim

theorem getLast?_toList_append {text literal : String} {c : Char}
    (h : literal.toList.getLast? = some c) : (text ++ literal).toList.getLast? = some c := by
  rw [String.toList_append, List.getLast?_append, h, Option.some_or]

theorem lineKind?_opening (kind : DeclKind) (name : String) {tail : String}
    (hTail : tail = closing ∨ tail = "") :
    lineKind? (opening kind.name name ++ tail) = some kind := by
  have hLast : (opening kind.name name ++ tail).toList.getLast? ≠ some ';' := by
    rcases hTail with hClosing | hEmpty
    · rw [hClosing, getLast?_toList_append (c := '}') (by decide)]
      decide
    · rw [hEmpty, String.append_empty, opening, getLast?_toList_append (c := '{') (by decide)]
      decide
  have hWord : ' ' ∉ kind.name.toList := by cases kind <;> decide
  have hFirst : (opening kind.name name ++ tail).toList.takeWhile (· ≠ ' ') = kind.name.toList := by
    simp only [opening, String.toList_append, List.append_assoc]
    have hBlank : ∀ c ∈ kind.name.toList, decide (c ≠ ' ') = true :=
      fun c hc => decide_eq_true fun hEq => hWord (hEq ▸ hc)
    rw [List.takeWhile_append_of_pos hBlank]
    simp
  rw [lineKind?, if_neg hLast, hFirst, String.ofList_toList, DeclKind.ofName?_eq_some_iff]

private theorem closing_or_empty (empty : Bool) :
    (if empty then closing else "") = closing ∨ (if empty then closing else "") = "" := by
  cases empty with
  | false => exact .inr rfl
  | true => exact .inl rfl

theorem lineKind?_firstLine {decl : Declaration} (h : ∀ word ∈ decl.words, IsWord word) :
    lineKind? (firstLine decl) = some decl.kind := by
  cases decl with
  | message name members reservations =>
    exact lineKind?_opening .message name (closing_or_empty _)
  | field f =>
    have hLast : (fieldLine f).toList.getLast? = some ';' :=
      getLast?_toList_append (by decide)
    have hParen : '(' ∉ (fieldLine f).toList :=
      (MarksIn.fieldLine h).not_mem (by decide) (by decide)
    have hEquals : '=' ∈ (fieldLine f).toList := by simp [fieldLine]
    rw [firstLine, lineKind?, if_pos hLast, if_neg hParen, if_pos hEquals]
    rfl
  | oneof name members => exact lineKind?_opening .oneof name (.inr rfl)
  | enum e => exact lineKind?_opening .enum e.name (.inr rfl)
  | method m =>
    have hLast : (methodLine m).toList.getLast? = some ';' :=
      getLast?_toList_append (by decide)
    have hParen : '(' ∈ (methodLine m).toList := by simp [methodLine]
    rw [firstLine, lineKind?, if_pos hLast, if_pos hParen]
    rfl
  | service name operations => exact lineKind?_opening .service name (closing_or_empty _)
  | foreign value => exact value.elim

theorem kind_eq_of_lines_append {a b : Declaration} (ha : a.Worded) (hb : b.Worded)
    {r s : List String} (h : lines a ++ r = lines b ++ s) : a.kind = b.kind := by
  obtain ⟨as, hA⟩ := lines_eq_cons a
  obtain ⟨bs, hB⟩ := lines_eq_cons b
  rw [hA, hB, List.cons_append, List.cons_append, List.cons.injEq] at h
  have hKind : lineKind? (firstLine a) = lineKind? (firstLine b) := congrArg lineKind? h.1
  rw [lineKind?_firstLine ((Decl.worded_iff a).mp ha).1,
    lineKind?_firstLine ((Decl.worded_iff b).mp hb).1] at hKind
  exact Option.some.inj hKind

end ProtoSchema.Proto
