import ProtoSchema.Proofs.Proto.Statements

/-! Bodies in braces: their indentation and where they end. -/
namespace ProtoSchema

namespace Lines

theorem toList_blanks (n : Nat) : ("".pushn ' ' n).toList = List.replicate n ' ' := by
  rw [String.pushn_eq_repeat_push]
  induction n with
  | zero => rfl
  | succ n ih => rw [Nat.repeat, String.toList_push, ih, List.replicate_succ']

theorem indentLine_eq_empty_iff (depth : Int) (line : String) :
    indentLine depth line = "" ↔ line = "" := by
  unfold indentLine
  split
  · rfl
  · simp [String.append_eq_empty_iff, *]

theorem indentLine_inj {depth : Int} {a b : String} (h : indentLine depth a = indentLine depth b) :
    a = b := by
  by_cases ha : a = ""
  · have hEmpty : indentLine depth b = "" := by rw [← h, indentLine_eq_empty_iff, ha]
    rw [ha, (indentLine_eq_empty_iff depth b).mp hEmpty]
  · have hb : b ≠ "" := by
      intro hb
      rw [hb] at h
      exact ha ((indentLine_eq_empty_iff depth a).mp (h.trans (by simp [indentLine])))
    rw [indentLine, indentLine, if_neg ha, if_neg hb, String.append_right_inj] at h
    exact h

theorem indent_inj {depth : Int} {as bs : List String} (h : indent depth as = indent depth bs) :
    as = bs :=
  (List.map_inj_right fun _ _ => indentLine_inj).mp h

theorem indent_append (depth : Int) (as bs : List String) :
    indent depth (as ++ bs) = indent depth as ++ indent depth bs := List.map_append

/-- A blank line stays blank. -/
theorem indent_blank (depth : Int) (empty : Bool) :
    indent depth (if empty then [] else [""]) = if empty then [] else [""] := by
  cases empty <;> rfl

end Lines

namespace Proto
open TypeExpr (untag)

theorem closing_not_mem_indent (lines : List String) : closing ∉ Lines.indent 2 lines := by
  intro h
  obtain ⟨line, -, hLine⟩ := List.mem_map.mp h
  unfold Lines.indentLine at hLine
  split at hLine
  · rename_i hEmpty
    rw [hEmpty] at hLine
    exact absurd hLine (by decide)
  · have hFirst : ("".pushn ' ' 2 ++ line).toList = closing.toList := congrArg String.toList hLine
    rw [String.toList_append, Lines.toList_blanks] at hFirst
    exact absurd (List.cons.inj hFirst).1 (by decide)

section
variable {keyword a b : String} {as bs r s : List String}

/-- A block ends at its closing brace, since the lines in it are indented. -/
theorem block_append_inj (ha : IsWord a) (hb : IsWord b)
    (h : block keyword a (Lines.indent 2 as) ++ r = block keyword b (Lines.indent 2 bs) ++ s) :
    a = b ∧ as = bs ∧ r = s := by
  have hLine : ∀ lines, ∀ line ∈ Lines.indent 2 lines, line ≠ closing :=
    fun lines line hMem hEq => closing_not_mem_indent lines (hEq ▸ hMem)
  simp only [block, List.cons_append, List.append_assoc, List.nil_append, List.cons.injEq] at h
  obtain ⟨hOpening, hRest⟩ := h
  have hFirst : opening keyword a ++ "" = opening keyword b ++ "" := by rw [hOpening]
  obtain ⟨hBody, -, hEnd⟩ := Text.append_cons_inj (hLine as) (hLine bs) (by simp) (by simp) hRest
  exact ⟨(opening_append_inj ha hb hFirst).1, Lines.indent_inj hBody, hEnd⟩

/-- A body in braces, on one line if there is nothing in it. -/
def braced (keyword name : String) (body : List String) : List String :=
  if body.isEmpty then [opening keyword name ++ closing]
  else block keyword name (Lines.indent 2 body)

theorem braced_append_inj (ha : IsWord a) (hb : IsWord b)
    (h : braced keyword a as ++ r = braced keyword b bs ++ s) : a = b ∧ as = bs ∧ r = s := by
  have hMixed : ∀ {x y : String} {lines t u : List String}, IsWord x → IsWord y →
      [opening keyword x ++ closing] ++ t ≠ block keyword y lines ++ u := by
    intro x y lines t u hx hy hLines
    have hOpening : opening keyword x ++ closing = opening keyword y ++ "" := by
      rw [String.append_empty]
      exact (List.cons.inj hLines).1
    exact absurd (opening_append_inj hx hy hOpening).2 (by decide)
  unfold braced at h
  by_cases hAs : as = [] <;> by_cases hBs : bs = [] <;>
    simp only [hAs, hBs, List.isEmpty_iff, if_true, if_false] at h
  · rw [List.cons_append, List.cons_append, List.cons.injEq] at h
    exact ⟨(opening_append_inj ha hb h.1).1, hAs.trans hBs.symm, h.2⟩
  · exact absurd h (hMixed ha hb)
  · exact absurd h.symm (hMixed hb ha)
  · exact block_append_inj ha hb h

end

theorem serviceLines_eq (name : String) (operations : List Method) :
    serviceLines name operations = braced "service" name (operations.map methodLine) := by
  unfold serviceLines braced
  rw [List.isEmpty_map]

theorem methodLines_inj {as bs : List Method} (ha : ∀ m ∈ as, ∀ word ∈ m.words, IsWord word)
    (hb : ∀ m ∈ bs, ∀ word ∈ m.words, IsWord word) (h : as.map methodLine = bs.map methodLine) :
    as.map (Method.mapTypes untag) = bs.map (Method.mapTypes untag) :=
  Text.map_eq_map (fun m hm n hn => methodLine_inj (ha m hm) (hb n hn)) h

/-- The body of an enum before it is indented. -/
def enumBody (enum : Enum) : List String :=
  (if enum.allowAlias then
    "option allow_alias = true;" :: if enum.variants.isEmpty then [] else [""]
  else []) ++ enum.variants.map variantLine

theorem mem_enumBody {enum : Enum} {line : String} (h : line ∈ enumBody enum) :
    line = "" ∨ line = "option allow_alias = true;" ∨
      ∃ v ∈ enum.variants, line = variantLine v := by
  have hAlias : ∀ allow empty : Bool, ∀ line ∈ (if allow then
      "option allow_alias = true;" :: if empty then [] else [""] else []),
      line = "" ∨ line = "option allow_alias = true;" := by
    decide
  rw [enumBody, List.mem_append] at h
  rcases h with hOption | hVariant
  · exact (hAlias _ _ line hOption).imp_right .inl
  · obtain ⟨v, hv, rfl⟩ := List.mem_map.mp hVariant
    exact .inr (.inr ⟨v, hv, rfl⟩)

theorem enumLines_eq (enum : Enum) :
    enumLines enum = block "enum" enum.name (Lines.indent 2 (enumBody enum)) := by
  have hAlias : aliasLines enum = Lines.indent 2 (if enum.allowAlias then
      "option allow_alias = true;" :: if enum.variants.isEmpty then [] else [""] else []) := by
    unfold aliasLines
    split
    · split <;> rfl
    · rfl
  rw [enumLines, hAlias, enumBody, Lines.indent_append]

theorem variantLines_inj {vs ws : List Variant} (hv : ∀ v ∈ vs, IsWord v.name)
    (hw : ∀ w ∈ ws, IsWord w.name) (h : vs.map variantLine = ws.map variantLine) : vs = ws := by
  have hMap := Text.map_eq_map (g := id) (fun v hMem w hMem' =>
    variantLine_inj (hv v hMem) (hw w hMem')) h
  rwa [List.map_id, List.map_id] at hMap

private theorem aliasOption_not_mem {vs : List Variant} (hv : ∀ v ∈ vs, IsWord v.name) :
    "option allow_alias = true;" ∉ vs.map variantLine := by
  intro h
  obtain ⟨v, hMem, hLine⟩ := List.mem_map.mp h
  exact variantLine_ne (hv v hMem) hLine

/-- An empty line is put before the variants, but only if there are any. -/
private theorem blank_append_inj {vs ws : List Variant}
    (h : (if vs.isEmpty then [] else [""]) ++ vs.map variantLine =
      (if ws.isEmpty then [] else [""]) ++ ws.map variantLine) :
    vs.map variantLine = ws.map variantLine := by
  cases vs with
  | nil =>
    cases ws with
    | nil => rfl
    | cons w ws => cases h
  | cons v vs =>
    cases ws with
    | nil => cases h
    | cons w ws => exact (List.cons.inj h).2

theorem enumBody_inj {d e : Enum} (hd : ∀ v ∈ d.variants, IsWord v.name)
    (he : ∀ v ∈ e.variants, IsWord v.name) (h : enumBody d = enumBody e) :
    d.variants = e.variants ∧ d.allowAlias = e.allowAlias := by
  unfold enumBody at h
  cases hAlias : d.allowAlias <;> cases hAlias' : e.allowAlias <;>
    simp only [hAlias, hAlias', if_true, Bool.false_eq_true, if_false, List.nil_append,
      List.cons_append] at h
  · exact ⟨variantLines_inj hd he h, rfl⟩
  · exact absurd (h ▸ List.mem_cons_self) (aliasOption_not_mem hd)
  · exact absurd (h ▸ List.mem_cons_self) (aliasOption_not_mem he)
  · exact ⟨variantLines_inj hd he (blank_append_inj (List.cons.inj h).2), rfl⟩

end Proto
end ProtoSchema
