import ProtoSchema.Proofs.Proto.Literals

/-! A text apart from its literals: what a reader of proto3 finds outside of them, and in them. -/
namespace ProtoSchema.Proto

/-- A text with nothing between the quotes of its literals, and the bytes that stood there. -/
structure Outline where
  outside : List Char
  literals : List (List UInt8)
  deriving DecidableEq

namespace Outline

def append (first rest : Outline) : Outline where
  outside := first.outside ++ rest.outside
  literals := first.literals ++ rest.literals

instance : Append Outline := ⟨append⟩

/-- How many bytes there are, in literals or outside of them. -/
def weight (outline : Outline) : Nat :=
  (utf8 outline.outside).length + outline.literals.flatten.length

theorem weight_append (first rest : Outline) :
    (first ++ rest).weight = first.weight + rest.weight := by
  have hOutside : (first ++ rest).outside = first.outside ++ rest.outside := rfl
  have hLiterals : (first ++ rest).literals = first.literals ++ rest.literals := rfl
  rw [weight, hOutside, hLiterals, utf8_append, List.flatten_append, List.length_append,
    List.length_append, weight, weight]
  omega

end Outline

/-- The rest of a comment between a slash with a star and a star with a slash. -/
def blockComment? : List Char → Option (List Char × List Char)
  | [] => none
  | '*' :: '/' :: rest => some (['*', '/'], rest)
  | c :: rest => (blockComment? rest).map fun found => (c :: found.1, found.2)

/-- The rest of a comment after its slash. A slash may also start none. -/
def comment? : List Char → Option (List Char × List Char)
  | '/' :: rest => some ('/' :: rest.takeWhile (· ≠ '\n'), rest.dropWhile (· ≠ '\n'))
  | '*' :: rest => (blockComment? rest).map fun found => ('*' :: found.1, found.2)
  | text => some ([], text)

/-- Reads a literal, a comment or another character. -/
def outlineFirst (c : Char) (rest : List Char) : Option (Outline × List Char) :=
  if c = '"' ∨ c = '\'' then
    (literal? (c :: rest)).map fun found => (⟨[c, c], [found.1]⟩, found.2)
  else if c = '/' then (comment? rest).map fun found => (⟨c :: found.1, []⟩, found.2)
  else some (⟨[c], []⟩, rest)

/-- Reads a text to its end. -/
def outlineFrom : Nat → List Char → Option Outline
  | 0, _ => none
  | _ + 1, [] => some ⟨[], []⟩
  | fuel + 1, c :: rest => do
    let (first, after) ← outlineFirst c rest
    return first ++ (← outlineFrom fuel after)

/-- The outline of a text, if all its literals and comments are well formed. Each part read costs at
least one character, so the length of the text is fuel enough. -/
def outline (text : List Char) : Option Outline := outlineFrom (text.length + 1) text

/-- A character that starts neither a literal nor a comment. -/
def Quiet (c : Char) : Prop := c ∉ ['"', '\'', '/']

instance : DecidablePred Quiet := fun c => inferInstanceAs (Decidable (c ∉ ['"', '\'', '/']))

/-- A text is another one with these strings between its double quotes. Where no string stands, its
characters are as `P` says. -/
inductive Written (P : Char → Prop) : List Char → List String → List Char → Prop where
  | nil : Written P [] [] []
  | char {c : Char} {text blank : List Char} {strings : List String} (hc : P c)
    (h : Written P text strings blank) : Written P (c :: text) strings (c :: blank)
  | literal (s : String) {text blank : List Char} {strings : List String}
    (h : Written P text strings blank) :
    Written P ('"' :: (s.toList ++ '"' :: text)) (s :: strings) ('"' :: '"' :: blank)

namespace Written
variable {P : Char → Prop} {text more blank blank' : List Char} {strings strings' : List String}

theorem append (h : Written P text strings blank) (hMore : Written P more strings' blank') :
    Written P (text ++ more) (strings ++ strings') (blank ++ blank') := by
  induction h with
  | nil => exact hMore
  | char hc _ ih => exact ih.char hc
  | @literal s text blank strings _ ih =>
    have hLiteral := ih.literal s
    rwa [List.cons_append, List.append_assoc, List.cons_append]

theorem of_forall (h : ∀ c ∈ text, P c) : Written P text [] text := by
  induction text with
  | nil => exact .nil
  | cons c text ih =>
    rw [List.forall_mem_cons] at h
    exact (ih h.2).char h.1

theorem eq_nil_iff (h : Written P text strings blank) : text = [] ↔ blank = [] := by
  cases h <;> simp

/-- The text with nothing between its quotes is one of the same kind. -/
theorem empty (h : Written P text strings blank) :
    Written P blank (strings.map fun _ => "") blank := by
  induction h with
  | nil => exact .nil
  | char hc _ ih => exact ih.char hc
  | literal s _ ih => exact ih.literal ""

theorem length_utf8 (h : Written P text strings blank) : (utf8 text).length =
    Outline.weight ⟨blank, strings.map fun s => utf8 s.toList⟩ := by
  unfold Outline.weight
  induction h with
  | nil => rfl
  | char hc _ ih =>
    rw [utf8_cons, utf8_cons, List.length_append, List.length_append, ih, Nat.add_assoc]
  | literal s _ ih =>
    rw [List.map_cons, List.flatten_cons]
    simp only [utf8_cons, utf8_append, List.length_append, ih]
    omega

/-- A reader finds the strings where they are if they are clean. -/
theorem outlineFrom_eq (h : Written Quiet text strings blank)
    (hClean : ∀ s ∈ strings, Clean '"' s.toList) {fuel : Nat} (hFuel : text.length < fuel) :
    outlineFrom fuel text = some ⟨blank, strings.map fun s => utf8 s.toList⟩ := by
  induction h generalizing fuel with
  | nil =>
    cases fuel with
    | zero => cases hFuel
    | succ fuel => rfl
  | @char c text blank strings hc _ ih =>
    cases fuel with
    | zero => cases hFuel
    | succ fuel =>
      have hRest := ih hClean (Nat.lt_of_succ_lt_succ hFuel)
      simp only [Quiet, List.mem_cons, List.not_mem_nil, or_false, not_or] at hc
      have hFirst : outlineFirst c text = some (⟨[c], []⟩, text) := by
        rw [outlineFirst, if_neg (not_or.mpr ⟨hc.1, hc.2.1⟩), if_neg hc.2.2]
      rw [outlineFrom, hFirst]
      simp only [bind, Option.bind, hRest]
      rfl
  | @literal s text blank strings _ ih =>
    cases fuel with
    | zero => cases hFuel
    | succ fuel =>
      rw [List.forall_mem_cons] at hClean
      have hLength : text.length < fuel := by
        simp only [List.length_cons, List.length_append] at hFuel
        omega
      have hRest := ih hClean.2 hLength
      have hLiteral := (literal?_literal_iff s text).mpr hClean.1
      rw [toList_literal_append] at hLiteral
      rw [outlineFrom, outlineFirst, if_pos (Or.inl rfl), hLiteral]
      simp only [bind, Option.bind, Option.map, hRest]
      rfl

end Written

/-- Bytes that are a text as it is, between double quotes. -/
def Verbatim (bytes : List UInt8) : Prop := ∃ text, Clean '"' text ∧ bytes = utf8 text

/-- The outline of a text is no longer than the text. If it is as long and has no single quotes,
there is nothing in its literals that had to be interpreted. -/
def Bounds (text : List Char) (outline : Outline) : Prop :=
  outline.weight ≤ (utf8 text).length ∧
    (outline.weight = (utf8 text).length → '\'' ∉ outline.outside →
      ∀ bytes ∈ outline.literals, Verbatim bytes)

section
variable {text left : List Char}

theorem Bounds.append {first rest : Outline} (hFirst : Bounds text first)
    (hRest : Bounds left rest) : Bounds (text ++ left) (first ++ rest) := by
  have hWeight := first.weight_append rest
  have hText : (utf8 (text ++ left)).length = (utf8 text).length + (utf8 left).length := by
    rw [utf8_append, List.length_append]
  refine ⟨by have := hFirst.1; have := hRest.1; omega, fun hEq hQuote => ?_⟩
  have hOutside : '\'' ∉ first.outside ++ rest.outside := hQuote
  rw [List.mem_append, not_or] at hOutside
  have hLess := hFirst.1
  have hLess' := hRest.1
  have hLiterals : (first ++ rest).literals = first.literals ++ rest.literals := rfl
  rw [hLiterals, List.forall_mem_append]
  exact ⟨hFirst.2 (by omega) hOutside.1, hRest.2 (by omega) hOutside.2⟩

theorem bounds_self (text : List Char) : Bounds text ⟨text, []⟩ :=
  ⟨Nat.le_refl _, fun _ _ => List.forall_mem_nil _⟩

theorem blockComment?_spec {comment : List Char} (h : blockComment? text = some (comment, left)) :
    text = comment ++ left := by
  induction text using blockComment?.induct generalizing comment with
  | case1 => cases h
  | case2 rest =>
    rw [blockComment?] at h
    cases h
    rfl
  | case3 c rest hNot ih =>
    rw [blockComment?] at h
    · obtain ⟨found, hFound, hEq⟩ := Option.map_eq_some_iff.mp h
      cases hEq
      rw [List.cons_append, ← ih hFound]
    · exact hNot

theorem comment?_spec {comment : List Char} (h : comment? text = some (comment, left)) :
    text = comment ++ left := by
  unfold comment? at h
  split at h
  · cases h
    rw [List.cons_append, List.takeWhile_append_dropWhile]
  · obtain ⟨found, hFound, hEq⟩ := Option.map_eq_some_iff.mp h
    cases hEq
    rw [List.cons_append, ← blockComment?_spec hFound]
  · cases h
    rfl

theorem outlineFirst_spec {c : Char} {rest : List Char} {first : Outline}
    (h : outlineFirst c rest = some (first, left)) :
    ∃ used, c :: rest = used ++ left ∧ Bounds used first := by
  unfold outlineFirst at h
  split at h
  · rename_i hQuote
    obtain ⟨⟨bytes, after⟩, hLiteral, hEq⟩ := Option.map_eq_some_iff.mp h
    cases hEq
    rw [literal?, if_pos hQuote] at hLiteral
    obtain ⟨used, rfl, hLength, hClean⟩ := readLiteral_spec hLiteral
    refine ⟨c :: (used ++ [c]), by simp, ?_⟩
    dsimp only
    have hWeight : Outline.weight ⟨[c, c], [bytes]⟩ + (utf8 used).length =
        (utf8 (c :: (used ++ [c]))).length + bytes.length := by
      simp only [Outline.weight, utf8_cons, utf8_append, List.length_append, List.flatten_cons,
        List.flatten_nil, List.append_nil]
      omega
    refine ⟨by omega, fun hEq hSingle => ?_⟩
    have hDouble : c = '"' := hQuote.resolve_right fun hc => hSingle (by simp [hc])
    obtain ⟨hUsed, hBytes⟩ := hClean (by omega)
    rw [hDouble] at hUsed
    exact List.forall_mem_singleton.mpr ⟨used, hUsed, hBytes⟩
  · split at h
    · obtain ⟨found, hComment, hEq⟩ := Option.map_eq_some_iff.mp h
      cases hEq
      refine ⟨c :: found.1, ?_, bounds_self _⟩
      rw [List.cons_append, ← comment?_spec hComment]
    · cases h
      exact ⟨[c], rfl, bounds_self _⟩

theorem bounds_of_outlineFrom {fuel : Nat} {found : Outline}
    (h : outlineFrom fuel text = some found) : Bounds text found := by
  induction fuel generalizing text found with
  | zero => cases h
  | succ fuel ih =>
    cases text with
    | nil =>
      cases h
      exact bounds_self []
    | cons c rest =>
      obtain ⟨⟨first, after⟩, hFirst, h⟩ := Option.bind_eq_some_iff.mp h
      obtain ⟨others, hOthers, hEq⟩ := Option.bind_eq_some_iff.mp h
      cases hEq
      obtain ⟨used, hText, hBounds⟩ := outlineFirst_spec hFirst
      rw [hText]
      exact hBounds.append (ih hOthers)

end

theorem Written.single_not_mem {text blank : List Char} {strings : List String}
    (h : Written Quiet text strings blank) : '\'' ∉ blank := by
  induction h with
  | nil => exact List.not_mem_nil
  | char hc _ ih =>
    rw [List.mem_cons, not_or]
    exact ⟨fun hEq => hc (hEq ▸ by simp), ih⟩
  | literal s _ ih => simpa using ih

/-- A reader finds the strings where they are exactly if they are clean: whatever has to be
interpreted stands for less than it takes. -/
theorem Written.outlineFrom_eq_iff {text blank : List Char} {strings : List String}
    (h : Written Quiet text strings blank) {fuel : Nat} (hFuel : text.length < fuel) :
    outlineFrom fuel text = some ⟨blank, strings.map fun s => utf8 s.toList⟩ ↔
      ∀ s ∈ strings, Clean '"' s.toList := by
  constructor
  · intro hFound s hs
    obtain ⟨-, hVerbatim⟩ := bounds_of_outlineFrom hFound
    have hAll := hVerbatim h.length_utf8.symm h.single_not_mem
    obtain ⟨used, hClean, hBytes⟩ := hAll (utf8 s.toList) (List.mem_map_of_mem hs)
    rwa [utf8_injective hBytes]
  · intro hClean
    exact h.outlineFrom_eq hClean hFuel

end ProtoSchema.Proto
