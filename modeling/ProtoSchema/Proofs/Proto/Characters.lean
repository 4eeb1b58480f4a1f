import ProtoSchema.Proofs.Proto.Worded

/-! What holds of all characters of a statement, if it holds of its fixed parts, of numbers and of
the names in it. -/
namespace ProtoSchema.Proto

/-- The characters of a text are as `P` says. -/
def MadeOf (P : Char → Prop) (text : String) : Prop := ∀ c ∈ text.toList, P c

namespace MadeOf
variable {P : Char → Prop} {s t : String}

theorem empty : MadeOf P "" := List.forall_mem_nil _

theorem append (hs : MadeOf P s) (ht : MadeOf P t) : MadeOf P (s ++ t) := by
  unfold MadeOf
  rw [String.toList_append, List.forall_mem_append]
  exact ⟨hs, ht⟩

theorem of_subset (h : MadeOf P t) (hSubset : s.toList ⊆ t.toList) : MadeOf P s :=
  fun c hc => h c (hSubset hc)

theorem intercalate {entries : List String} (hComma : MadeOf P ", ")
    (h : ∀ entry ∈ entries, MadeOf P entry) : MadeOf P (", ".intercalate entries) := by
  induction entries with
  | nil => exact empty
  | cons entry entries ih =>
    rw [List.forall_mem_cons] at h
    cases entries with
    | nil =>
      rw [String.intercalate_singleton]
      exact h.1
    | cons next entries =>
      rw [String.intercalate_cons_cons]
      exact (h.1.append hComma).append (ih h.2)

theorem typeText {type : TypeExpr} (hFixed : MadeOf P "map<, >")
    (h : ∀ name ∈ type.leaves, MadeOf P name) : MadeOf P (typeText type) := by
  induction type with
  | map key value hKey hValue =>
    rw [TypeExpr.leaves, List.forall_mem_append] at h
    have hOpen : MadeOf P "map<" := hFixed.of_subset (by decide)
    have hComma : MadeOf P ", " := hFixed.of_subset (by decide)
    have hClose : MadeOf P ">" := hFixed.of_subset (by decide)
    exact (((hOpen.append (hKey h.1)).append hComma).append (hValue h.2)).append hClose
  | _ =>
    rename_i name
    exact h name (by simp [TypeExpr.leaves])

theorem fieldLine {field : Field} (hFixed : MadeOf P "repeated map<, > = ;")
    (hNumber : MadeOf P (toString field.index)) (h : ∀ word ∈ field.words, MadeOf P word) :
    MadeOf P (fieldLine field) := by
  rw [Field.words, List.forall_mem_cons] at h
  have hRepeated : MadeOf P (if field.repeated then "repeated " else "") := by
    apply hFixed.of_subset
    split <;> decide
  have hType : MadeOf P (Proto.typeText field.type) := .typeText (hFixed.of_subset (by decide)) h.2
  have hBlank : MadeOf P " " := hFixed.of_subset (by decide)
  have hEquals : MadeOf P " = " := hFixed.of_subset (by decide)
  have hEnd : MadeOf P ";" := hFixed.of_subset (by decide)
  exact (((((hRepeated.append hType).append hBlank).append h.1).append hEquals).append
    hNumber).append hEnd

theorem methodLine {method : Method} (hFixed : MadeOf P "rpc (stream map<, >) returns ();")
    (h : ∀ word ∈ method.words, MadeOf P word) : MadeOf P (methodLine method) := by
  rw [Method.words, List.forall_mem_cons, List.forall_mem_append] at h
  have hStream : ∀ streams, MadeOf P (streamWord streams) := by
    intro streams
    apply hFixed.of_subset
    cases streams <;> decide
  have hMap : MadeOf P "map<, >" := hFixed.of_subset (by decide)
  have hRpc : MadeOf P "rpc " := hFixed.of_subset (by decide)
  have hOpen : MadeOf P "(" := hFixed.of_subset (by decide)
  have hReturns : MadeOf P ") returns (" := hFixed.of_subset (by decide)
  have hEnd : MadeOf P ");" := hFixed.of_subset (by decide)
  have hInput := (hStream method.streaming.request).append (hMap.typeText h.2.1)
  have hOutput := (hStream method.streaming.response).append (hMap.typeText h.2.2)
  have hLine := (((hRpc.append h.1).append hOpen).append hInput).append
    ((hReturns.append hOutput).append hEnd)
  unfold Proto.methodLine
  simpa only [String.append_assoc] using hLine

theorem variantLine {variant : Variant} (hFixed : MadeOf P " = ;")
    (hNumber : MadeOf P (toString variant.number)) (h : MadeOf P variant.name) :
    MadeOf P (variantLine variant) := by
  have hEquals : MadeOf P " = " := hFixed.of_subset (by decide)
  have hEnd : MadeOf P ";" := hFixed.of_subset (by decide)
  exact ((h.append hEquals).append hNumber).append hEnd

theorem opening {keyword name : String} (hFixed : MadeOf P " \x7b") (hKeyword : MadeOf P keyword)
    (hName : MadeOf P name) : MadeOf P (opening keyword name) := by
  have hBlank : MadeOf P " " := hFixed.of_subset (by decide)
  exact ((hKeyword.append hBlank).append hName).append hFixed

theorem reservedNumber {reservation : Reservation} {entry : String} (hTo : MadeOf P " to ")
    (hNumber : ∀ n : Int, MadeOf P (toString n)) (h : reservedNumber? reservation = some entry) :
    MadeOf P entry := by
  cases reservation with
  | number n =>
    cases h
    exact hNumber n
  | range first last =>
    cases h
    exact ((hNumber first).append hTo).append (hNumber last)
  | name name => cases h

theorem reservedLine {entries : List String} (hFixed : MadeOf P "reserved , ;")
    (h : ∀ entry ∈ entries, MadeOf P entry) : ∀ line ∈ reservedLine entries, MadeOf P line := by
  have hReserved : MadeOf P "reserved " := hFixed.of_subset (by decide)
  have hComma : MadeOf P ", " := hFixed.of_subset (by decide)
  have hEnd : MadeOf P ";" := hFixed.of_subset (by decide)
  unfold Proto.reservedLine
  split
  · exact List.forall_mem_nil _
  · exact List.forall_mem_singleton.mpr ((hReserved.append (.intercalate hComma h)).append hEnd)

end MadeOf

end ProtoSchema.Proto
