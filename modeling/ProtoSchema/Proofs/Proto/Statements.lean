import ProtoSchema.Proofs.Proto.Characters

/-! Statements on one line: which marks they hold, and that they determine what they state. -/
namespace ProtoSchema.Proto
open TypeExpr (untag)

/-- The marks in a text are among these. -/
def MarksIn (allowed : List Char) (text : String) : Prop :=
  ∀ c ∈ text.toList, c ∈ marks → c ∈ allowed

instance (allowed : List Char) : DecidablePred (MarksIn allowed) :=
  fun text => List.decidableBAll (fun c => c ∈ marks → c ∈ allowed) text.toList

namespace MarksIn
variable {allowed : List Char} {s t : String}

theorem append (hs : MarksIn allowed s) (ht : MarksIn allowed t) : MarksIn allowed (s ++ t) :=
  MadeOf.append hs ht

theorem of_isWord (h : IsWord s) : MarksIn allowed s :=
  fun c hc hMark => absurd hMark (h.2 c hc)

theorem mono {more : List Char} (h : MarksIn allowed s) (hMore : allowed ⊆ more) :
    MarksIn more s :=
  fun c hc hMark => hMore (h c hc hMark)

theorem not_mem (h : MarksIn allowed s) {c : Char} (hMark : c ∈ marks)
    (hc : c ∉ allowed) : c ∉ s.toList :=
  fun hMem => hc (h c hMem hMark)

theorem fieldLine {field : Field} (h : ∀ word ∈ field.words, IsWord word) :
    MarksIn [' ', ',', ';', '<', '=', '>'] (fieldLine field) := by
  have hFixed : MarksIn [' ', ',', ';', '<', '=', '>'] "repeated map<, > = ;" := by decide
  exact MadeOf.fieldLine hFixed (of_isWord (isWord_toString _)) fun word hWord =>
    of_isWord (h word hWord)

end MarksIn

section
variable {f g : Field} {m n : Method} {v w : Variant}

/-- What follows the type of a field. -/
def fieldTail (field : Field) : List Char :=
  field.name.toList ++ ' ' :: '=' :: ' ' :: ((toString field.index).toList ++ [';'])

theorem toList_fieldLine (field : Field) :
    (fieldLine field).toList = (if field.repeated then "repeated".toList ++ [' '] else []) ++
      ((typeText field.type).toList ++ ' ' :: fieldTail field) := by
  unfold fieldLine fieldTail
  split <;> simp

private theorem fieldTail_inj (hf : IsWord f.name) (hg : IsWord g.name)
    (h : fieldTail f = fieldTail g) : f.name = g.name ∧ f.index = g.index := by
  unfold fieldTail at h
  obtain ⟨hName, -, hRest⟩ := word_append_inj hf hg h (by decide) (by decide)
  have hNumber := (List.cons.inj (List.cons.inj hRest).2).2
  exact ⟨hName, (number_append_inj hNumber (by decide) (by decide)).1⟩

/-- A type named like the keyword does not make a field a repeated one. -/
private theorem repeated_ne (hf : ∀ word ∈ f.words, IsWord word)
    (hg : ∀ word ∈ g.words, IsWord word) :
    ("repeated".toList ++ [' ']) ++ ((typeText f.type).toList ++ ' ' :: fieldTail f) ≠
      (typeText g.type).toList ++ ' ' :: fieldTail g := by
  intro h
  rw [Field.words, List.forall_mem_cons] at hf hg
  have hWord : ∀ name ∈ (TypeExpr.ref "repeated").leaves, IsWord name := by decide
  have hName : ∀ name ∈ (TypeExpr.ref g.name).leaves, IsWord name := by
    simpa [TypeExpr.leaves] using hg.1
  rw [List.append_assoc] at h
  obtain ⟨-, -, hType⟩ := typeText_append_inj hWord hg.2 h (by decide) (by decide)
  obtain ⟨-, -, hTail⟩ := typeText_append_inj hf.2 hName hType (by decide) (by decide)
  exact word_append_ne hf.1 hTail (by decide)

theorem fieldLine_inj (hf : ∀ word ∈ f.words, IsWord word) (hg : ∀ word ∈ g.words, IsWord word)
    (h : fieldLine f = fieldLine g) : f.mapType untag = g.mapType untag := by
  have hList : (fieldLine f).toList = (fieldLine g).toList := congrArg String.toList h
  rw [toList_fieldLine, toList_fieldLine] at hList
  have hEq : f.repeated = g.repeated := by
    by_cases hr : f.repeated <;> by_cases hs : g.repeated <;>
      simp only [hr, hs, if_true] at hList ⊢
    · exact absurd hList (repeated_ne hf hg)
    · exact absurd hList.symm (repeated_ne hg hf)
  rw [hEq, List.append_cancel_left_eq] at hList
  rw [Field.words, List.forall_mem_cons] at hf hg
  obtain ⟨hType, -, hTail⟩ := typeText_append_inj hf.2 hg.2 hList (by decide) (by decide)
  obtain ⟨hName, hIndex⟩ := fieldTail_inj hf.1 hg.1 hTail
  simp only [Field.mapType, Field.mk.injEq]
  exact ⟨hName, hType, hIndex, hEq⟩

private theorem streamWord_append_inj {a b : TypeExpr} {s t : Bool} {q r : List Char}
    (ha : ∀ name ∈ a.leaves, IsWord name) (hb : ∀ name ∈ b.leaves, IsWord name)
    (h : (streamWord s).toList ++ ((typeText a).toList ++ ')' :: q) =
      (streamWord t).toList ++ ((typeText b).toList ++ ')' :: r)) :
    s = t ∧ a.untag = b.untag ∧ q = r := by
  have hWord : ∀ name ∈ (TypeExpr.ref "stream").leaves, IsWord name := by decide
  -- a type named like the keyword is followed by a parenthesis and not by a blank
  have hKeyword : ∀ {type : TypeExpr} {rest tail : List Char},
      (∀ name ∈ type.leaves, IsWord name) →
      "stream ".toList ++ rest ≠ (typeText type).toList ++ ')' :: tail := by
    intro type rest tail hType hStream
    have hBlank := typeText_append_inj (x := ' ') (r := rest) hWord hType hStream
      (by decide) (by decide)
    exact absurd hBlank.2.1 (by decide)
  have hEq : s = t := by
    cases s <;> cases t <;> simp only [streamWord, if_true] at h
    · rfl
    · exact absurd h.symm (hKeyword ha)
    · exact absurd h (hKeyword hb)
    · rfl
  rw [hEq, List.append_cancel_left_eq] at h
  obtain ⟨hType, -, hRest⟩ := typeText_append_inj ha hb h (by decide) (by decide)
  exact ⟨hEq, hType, hRest⟩

theorem toList_methodLine (method : Method) :
    (methodLine method).toList = "rpc ".toList ++ (method.name.toList ++ '(' ::
      ((streamWord method.streaming.request).toList ++ ((typeText method.input).toList ++ ')' ::
        (" returns (".toList ++ ((streamWord method.streaming.response).toList ++
          ((typeText method.returns).toList ++ ')' :: [';'])))))) := by
  simp [methodLine]

theorem methodLine_inj (hm : ∀ word ∈ m.words, IsWord word) (hn : ∀ word ∈ n.words, IsWord word)
    (h : methodLine m = methodLine n) : m.mapTypes untag = n.mapTypes untag := by
  have hList : (methodLine m).toList = (methodLine n).toList := congrArg String.toList h
  rw [toList_methodLine, toList_methodLine, List.append_cancel_left_eq] at hList
  rw [Method.words, List.forall_mem_cons, List.forall_mem_append] at hm hn
  obtain ⟨hName, -, hInput⟩ := word_append_inj hm.1 hn.1 hList (by decide) (by decide)
  obtain ⟨hRequest, hInput, hRest⟩ := streamWord_append_inj hm.2.1 hn.2.1 hInput
  rw [List.append_cancel_left_eq] at hRest
  obtain ⟨hResponse, hReturns, -⟩ := streamWord_append_inj hm.2.2 hn.2.2 hRest
  have hStreaming : m.streaming = n.streaming := by
    obtain ⟨name, input, returns, request, response⟩ := m
    simp only at hRequest hResponse
    rw [hRequest, hResponse]
  simp only [Method.mapTypes, Method.mk.injEq]
  exact ⟨hName, hInput, hReturns, hStreaming⟩

private theorem toList_variantLine (variant : Variant) :
    (variantLine variant).toList = variant.name.toList ++ ' ' :: '=' :: ' ' ::
      ((toString variant.number).toList ++ [';']) := by
  simp [variantLine]

theorem variantLine_inj (hv : IsWord v.name) (hw : IsWord w.name)
    (h : variantLine v = variantLine w) : v = w := by
  have hList : (variantLine v).toList = (variantLine w).toList := congrArg String.toList h
  rw [toList_variantLine, toList_variantLine] at hList
  obtain ⟨hName, -, hRest⟩ := word_append_inj hv hw hList (by decide) (by decide)
  have hNumber := (List.cons.inj (List.cons.inj hRest).2).2
  rw [Variant.mk.injEq]
  exact ⟨hName, (number_append_inj hNumber (by decide) (by decide)).1⟩

/-- The option of an enum is not taken for a variant named like its keyword. -/
theorem variantLine_ne (hv : IsWord v.name) :
    variantLine v ≠ "option allow_alias = true;" := by
  intro h
  have hList := congrArg String.toList h
  rw [toList_variantLine] at hList
  have hWord : IsWord "option" := by decide
  obtain ⟨-, -, hRest⟩ := word_append_inj (y := ' ') (s := "allow_alias = true;".toList) hv hWord
    hList (by decide) (by decide)
  exact absurd (List.cons.inj hRest).1 (by decide)

theorem opening_append_inj {keyword a b : String} {s t : String} (ha : IsWord a) (hb : IsWord b)
    (h : opening keyword a ++ s = opening keyword b ++ t) : a = b ∧ s = t := by
  have hList := congrArg String.toList h
  simp only [opening, String.toList_append, List.append_assoc, List.append_cancel_left_eq] at hList
  obtain ⟨hName, -, hRest⟩ := word_append_inj (x := ' ') (y := ' ') ha hb hList
    (by decide) (by decide)
  exact ⟨hName, String.toList_inj.mp (List.cons.inj hRest).2⟩

end

end ProtoSchema.Proto
