import ProtoSchema.Proofs.Decimal.Integer
import ProtoSchema.Proofs.Schema.Types
import ProtoSchema.Proofs.Text.Separated
import ProtoSchema.Proto.Printer

/-! Words, the marks that end them, and types as words and marks. -/
namespace ProtoSchema

namespace Proto

/-- The characters that end a word. -/
def marks : List Char := [' ', '\n', '"', '(', ')', ',', ';', '<', '=', '>', '{', '}']

/-- A name that is not empty and holds no mark, such as an identifier or several with points
between them. -/
def IsWord (name : String) : Prop := name ≠ "" ∧ ∀ c ∈ name.toList, c ∉ marks

-- the instance for all characters would be found first
instance : DecidablePred IsWord := fun name =>
  @instDecidableAnd _ _ inferInstance (List.decidableBAll (· ∉ marks) name.toList)

end Proto

namespace TypeExpr

/-- The names in a type. -/
def leaves : TypeExpr → List String
  | .scalar name => [name]
  | .ref name => [name]
  | .map key value => key.leaves ++ value.leaves

/-- The type with all its names taken for references. -/
def untag : TypeExpr → TypeExpr
  | .scalar name => .ref name
  | .ref name => .ref name
  | .map key value => .map key.untag value.untag

theorem leaf_or_map (type : TypeExpr) :
    (Proto.typeText type ∈ type.leaves ∧ type.untag = .ref (Proto.typeText type)) ∨
      ∃ key value, type = .map key value := by
  cases type with
  | scalar name => simp [Proto.typeText, leaves, untag]
  | ref name => simp [Proto.typeText, leaves, untag]
  | map key value => exact .inr ⟨key, value, rfl⟩

end TypeExpr

namespace Proto
open TypeExpr (untag)

theorem not_mem_of_isWord {name : String} (h : IsWord name) {c : Char} (hc : c ∈ marks) :
    c ∉ name.toList :=
  fun hMem => h.2 c hMem hc

theorem isWord_toString (n : Int) : IsWord (toString n) := by
  have hMarks : marks.all (fun c => c ≠ '-' ∧ c.isDigit = false) = true := by decide
  refine ⟨Decimal.toString_ne_empty n, ?_⟩
  intro c hc hMark
  obtain ⟨hMinus, hDigit⟩ := of_decide_eq_true (List.all_eq_true.mp hMarks c hMark)
  exact Decimal.not_mem_toString hMinus hDigit hc

section
variable {x y : Char} {r s : List Char}

/-- A word is determined by a text that goes on with a mark. -/
theorem word_append_inj {a b : String} (ha : IsWord a) (hb : IsWord b)
    (h : a.toList ++ x :: r = b.toList ++ y :: s) (hx : x ∈ marks)
    (hy : y ∈ marks) : a = b ∧ x = y ∧ r = s := by
  obtain ⟨hWord, hRest⟩ := Text.append_cons_inj ha.2 hb.2 (not_not_intro hx) (not_not_intro hy) h
  exact ⟨String.toList_inj.mp hWord, hRest⟩

theorem number_append_inj {m n : Int}
    (h : (toString m).toList ++ x :: r = (toString n).toList ++ y :: s)
    (hx : x ∈ marks) (hy : y ∈ marks) : m = n ∧ x = y ∧ r = s := by
  obtain ⟨hNumber, hRest⟩ := word_append_inj (isWord_toString m) (isWord_toString n) h hx hy
  exact ⟨Decimal.toString_injective hNumber, hRest⟩

/-- A text that starts with a word does not start with a mark. -/
theorem word_append_ne {a : String} (ha : IsWord a) (h : a.toList ++ r = x :: s)
    (hx : x ∈ marks) : False := by
  cases hList : a.toList with
  | nil => exact ha.1 (String.toList_eq_nil_iff.mp hList)
  | cons c cs =>
    rw [hList, List.cons_append, List.cons.injEq] at h
    refine ha.2 c ?_ (h.1 ▸ hx)
    rw [hList]
    exact List.mem_cons_self

theorem toList_typeText_map (key value : TypeExpr) :
    (typeText (.map key value)).toList = "map".toList ++
      '<' :: ((typeText key).toList ++ ',' :: ' ' :: ((typeText value).toList ++ ['>'])) := by
  simp [typeText]

/-- The marks that may follow a type. -/
def typeEnds : List Char := [' ', ')', ',', '>']

theorem mem_marks_of_mem_typeEnds (hx : x ∈ typeEnds) : x ∈ marks ∧ x ≠ '<' := by
  have hSubset : typeEnds ⊆ marks := by decide
  have hAngle : '<' ∉ typeEnds := by decide
  exact ⟨hSubset hx, fun hEq => hAngle (hEq ▸ hx)⟩

private theorem leaf_ne_map {name : String} (hName : IsWord name) {key value : TypeExpr}
    (hx : x ∈ typeEnds) : name.toList ++ x :: r ≠ (typeText (.map key value)).toList ++ s := by
  intro h
  obtain ⟨hMark, hAngle⟩ := mem_marks_of_mem_typeEnds hx
  rw [toList_typeText_map, List.append_assoc, List.cons_append] at h
  have hMap : IsWord "map" := by decide
  exact hAngle (word_append_inj hName hMap h hMark (by decide)).2.1

end

/-- A type is determined, but for its tags, by a text that goes on after it. -/
theorem typeText_append_inj {a b : TypeExpr} (ha : ∀ name ∈ a.leaves, IsWord name)
    (hb : ∀ name ∈ b.leaves, IsWord name) {x y : Char} {r s : List Char}
    (h : (typeText a).toList ++ x :: r = (typeText b).toList ++ y :: s)
    (hx : x ∈ typeEnds) (hy : y ∈ typeEnds) :
    a.untag = b.untag ∧ x = y ∧ r = s := by
  induction a generalizing b x y r s with
  | map k v hk hv =>
    rcases b.leaf_or_map with ⟨hLeaf, -⟩ | ⟨l, w, rfl⟩
    · exact absurd h.symm (leaf_ne_map (hb _ hLeaf) hy)
    · simp only [TypeExpr.leaves, List.forall_mem_append] at ha hb
      rw [toList_typeText_map, toList_typeText_map] at h
      simp only [List.append_assoc, List.cons_append, List.nil_append,
        List.append_cancel_left_eq, List.cons.injEq, true_and] at h
      obtain ⟨hKey, -, hRest⟩ := hk ha.1 hb.1 h (by decide) (by decide)
      obtain ⟨hValue, -, hEnd⟩ := hv ha.2 hb.2 (List.cons.inj hRest).2
        (by decide) (by decide)
      exact ⟨by rw [untag, untag, hKey, hValue], List.cons.inj hEnd⟩
  | _ =>
    rename_i name
    have hName : IsWord name := ha name (by simp [TypeExpr.leaves])
    rcases b.leaf_or_map with ⟨hLeaf, hUntag⟩ | ⟨l, w, rfl⟩
    · obtain ⟨hText, hRest⟩ := word_append_inj hName (hb _ hLeaf) h
        (mem_marks_of_mem_typeEnds hx).1 (mem_marks_of_mem_typeEnds hy).1
      exact ⟨by rw [hUntag, ← hText, untag], hRest⟩
    · exact absurd h (leaf_ne_map hName hx)

end Proto
end ProtoSchema
