import ProtoSchema.Proofs.Proto.OneLine

/-! The sections of a file, each of which is told by its first line. -/
namespace ProtoSchema.Proto
open TypeExpr (untag)

/-- Lines that hold no section whose first line passes this test. -/
structure Lacks (p : String → Prop) (lines : List String) : Prop where
  starts : ∀ line ∈ lines.head?, line = ""
  opens : ∀ line rest, lines = "" :: line :: rest → ¬ p line

theorem Lacks.nil (p : String → Prop) : Lacks p [] where
  starts := by simp
  opens := by simp

theorem Lacks.sectionLines_append {p : String → Prop} {lines rest : List String}
    (h : ∀ line ∈ lines.head?, ¬ p line) (hRest : Lacks p rest) :
    Lacks p (sectionLines lines ++ rest) := by
  cases lines with
  | nil => exact hRest
  | cons line lines =>
    refine ⟨by simp [sectionLines], ?_⟩
    intro first others hEq
    have hFirst : line = first := (List.cons.inj (List.cons.inj hEq).2).1
    rw [← hFirst]
    exact h line rfl

/-- A section is determined if its lines pass a test that the first lines of later ones fail. -/
theorem sectionLines_append_inj {p : String → Prop} {as bs r s : List String}
    (ha : ∀ a ∈ as, p a ∧ a ≠ "") (hb : ∀ b ∈ bs, p b ∧ b ≠ "") (hr : Lacks p r) (hs : Lacks p s)
    (h : sectionLines as ++ r = sectionLines bs ++ s) : as = bs ∧ r = s := by
  cases as with
  | nil =>
    cases bs with
    | nil => exact ⟨rfl, h⟩
    | cons b bs => exact absurd (hb b List.mem_cons_self).1 (hr.opens b (bs ++ s) h)
  | cons a as =>
    cases bs with
    | nil => exact absurd (ha a List.mem_cons_self).1 (hs.opens a (as ++ r) h.symm)
    | cons b bs =>
      have hLines : (a :: as) ++ r = (b :: bs) ++ s := (List.cons.inj h).2
      exact Text.append_inj_of_head (fun line hLine => (ha line hLine).2)
        (fun line hLine => (hb line hLine).2)
        (fun line hLine hNe => hNe (hr.starts line hLine))
        (fun line hLine hNe => hNe (hs.starts line hLine)) hLines

/-- A line that starts with a word, which is not the whole of it. -/
def StartsWith (word line : String) : Prop := ∃ rest, line.toList = word.toList ++ ' ' :: rest

def IsPackage (line : String) : Prop := StartsWith "package" line ∧ '=' ∉ line.toList

def IsImport (line : String) : Prop := StartsWith "import" line ∧ '"' ∈ line.toList

def IsOption (line : String) : Prop := StartsWith "option" line

theorem StartsWith.eq {word word' line : String} (hWord : IsWord word) (hWord' : IsWord word')
    (h : StartsWith word line) (h' : StartsWith word' line) : word = word' := by
  obtain ⟨rest, hRest⟩ := h
  obtain ⟨rest', hRest'⟩ := h'
  rw [hRest] at hRest'
  exact (word_append_inj hWord hWord' hRest' (by decide) (by decide)).1

theorem startsWith_package (name : String) : StartsWith "package" (packageStatement name) :=
  ⟨name.toList ++ [';'], by simp [packageStatement]⟩

theorem startsWith_import (path : String) : StartsWith "import" (importStatement path) :=
  ⟨'"' :: (path.toList ++ ['"', ';']), by simp [importStatement, literal]⟩

theorem startsWith_option (name : String) (value : OptionValue) :
    StartsWith "option" (optionStatement name value) :=
  ⟨name.toList ++ (" = ".toList ++ ((optionText value).toList ++ [';'])),
    by simp [optionStatement]⟩

theorem startsWith_opening (keyword name tail : String) :
    StartsWith keyword (opening keyword name ++ tail) :=
  ⟨name.toList ++ (" \x7b".toList ++ tail.toList), by simp [opening]⟩

theorem StartsWith.ne_empty {word line : String} (h : StartsWith word line) : line ≠ "" := by
  obtain ⟨rest, hRest⟩ := h
  intro hEmpty
  rw [hEmpty] at hRest
  exact absurd hRest.symm (by simp)

/-- The words that start declarations other than fields. -/
def keywords : List String := ["message", "oneof", "enum", "rpc", "service"]

theorem field_or_keyword (decl : Declaration) :
    (∃ f, decl = .field f) ∨ ∃ keyword ∈ keywords, StartsWith keyword (firstLine decl) := by
  cases decl with
  | message name ms rs => exact .inr ⟨"message", by decide, startsWith_opening _ _ _⟩
  | field f => exact .inl ⟨f, rfl⟩
  | oneof name ms => exact .inr ⟨"oneof", by decide, startsWith_opening _ _ _⟩
  | enum e => exact .inr ⟨"enum", by decide, startsWith_opening _ _ _⟩
  | method m =>
    refine .inr ⟨"rpc", by decide, ?_⟩
    rw [StartsWith, firstLine, toList_methodLine]
    exact ⟨_, rfl⟩
  | service name ops => exact .inr ⟨"service", by decide, startsWith_opening _ _ _⟩
  | foreign value => exact value.elim

/-- Only fields start with words of all kinds. -/
theorem exists_field_of_startsWith {decl : Declaration} {word : String} (hWord : IsWord word)
    (hKeyword : word ∉ keywords) (h : StartsWith word (firstLine decl)) : ∃ f, decl = .field f := by
  rcases field_or_keyword decl with hField | ⟨keyword, hMem, hStart⟩
  · exact hField
  · have hWords : ∀ keyword ∈ keywords, IsWord keyword := by decide
    rw [StartsWith.eq hWord (hWords keyword hMem) h hStart] at hKeyword
    exact absurd hMem hKeyword

/-- A field starts with its type, unless it starts with a keyword. -/
theorem untag_of_startsWith {field : Field} {word : String} (hWord : IsWord word)
    (hRepeated : word ≠ "repeated") (hField : ∀ w ∈ field.words, IsWord w)
    (h : StartsWith word (fieldLine field)) :
    field.repeated = false ∧ field.type.untag = .ref word := by
  obtain ⟨rest, hRest⟩ := h
  rw [toList_fieldLine] at hRest
  cases hFlag : field.repeated with
  | true =>
    rw [hFlag, if_pos rfl, List.append_assoc] at hRest
    have hKeyword : IsWord "repeated" := by decide
    exact absurd (word_append_inj hKeyword hWord hRest (by decide) (by decide)).1.symm hRepeated
  | false =>
    rw [hFlag, if_neg Bool.false_ne_true, List.nil_append] at hRest
    rw [Field.words, List.forall_mem_cons] at hField
    have hLeaf : ∀ name ∈ (TypeExpr.ref word).leaves, IsWord name := by
      simpa [TypeExpr.leaves] using hWord
    exact ⟨rfl, (typeText_append_inj hField.2 hLeaf hRest (by decide) (by decide)).1⟩

theorem not_isPackage_firstLine (decl : Declaration) : ¬ IsPackage (firstLine decl) := by
  intro h
  obtain ⟨f, rfl⟩ := exists_field_of_startsWith (by decide) (by decide) h.1
  exact h.2 (by simp [firstLine, fieldLine])

theorem not_isImport_firstLine {decl : Declaration} (hDecl : decl.Worded) :
    ¬ IsImport (firstLine decl) := by
  intro h
  obtain ⟨f, rfl⟩ := exists_field_of_startsWith (by decide) (by decide) h.1
  rw [Decl.worded_field] at hDecl
  have hQuote : '"' ∉ (fieldLine f).toList :=
    (MarksIn.fieldLine hDecl).not_mem (by decide) (by decide)
  exact hQuote h.2

/-- A field is taken for an option only if its type is named so. -/
theorem not_isOption_firstLine {decl : Declaration} (hDecl : decl.Worded)
    (hOption : ∀ f, decl = .field f → f.repeated = false → f.type.untag ≠ .ref "option") :
    ¬ IsOption (firstLine decl) := by
  intro h
  obtain ⟨f, rfl⟩ := exists_field_of_startsWith (by decide) (by decide) h
  rw [Decl.worded_field] at hDecl
  obtain ⟨hRepeated, hType⟩ := untag_of_startsWith (by decide) (by decide) hDecl h
  exact hOption f rfl hRepeated hType

theorem Lacks.declarations {p : String → Prop} {decls : List Declaration}
    (h : ∀ decl ∈ decls, ¬ p (firstLine decl)) :
    Lacks p (decls.flatMap fun decl => sectionLines (lines decl)) := by
  induction decls with
  | nil => exact .nil p
  | cons decl decls ih =>
    rw [List.forall_mem_cons] at h
    obtain ⟨rest, hLines⟩ := lines_eq_cons decl
    rw [List.flatMap_cons]
    refine .sectionLines_append ?_ (ih h.2)
    rw [hLines]
    simpa using h.1

theorem declarations_inj {as bs : List Declaration} (ha : ∀ a ∈ as, a.Worded)
    (hb : ∀ b ∈ bs, b.Worded) (h : (as.flatMap fun decl => sectionLines (lines decl)) =
      bs.flatMap fun decl => sectionLines (lines decl)) :
    as.map Decl.normal = bs.map Decl.normal := by
  have hSection : ∀ decl : Declaration, sectionLines (lines decl) = "" :: lines decl := by
    intro decl
    obtain ⟨rest, hLines⟩ := lines_eq_cons decl
    rw [hLines]
    rfl
  simp only [hSection] at h
  induction as generalizing bs with
  | nil =>
    cases bs with
    | nil => rfl
    | cons b bs => cases h
  | cons a as ih =>
    cases bs with
    | nil => cases h
    | cons b bs =>
      rw [List.forall_mem_cons] at ha hb
      rw [List.flatMap_cons, List.flatMap_cons] at h
      obtain ⟨hHead, hTail⟩ := determined a ha.1 b hb.1 _ _ (List.cons.inj h).2
      rw [List.map_cons, List.map_cons, hHead, ih ha.2 hb.2 hTail]

end ProtoSchema.Proto
