/-! Lists and texts that separators take apart in only one way. -/
namespace ProtoSchema.Text
variable {α : Type}

/-- What precedes the first item that fails a test is determined by the whole. -/
theorem append_inj_of_head {p : α → Prop} {as bs r s : List α} (has : ∀ a ∈ as, p a)
    (hbs : ∀ b ∈ bs, p b) (hr : ∀ a ∈ r.head?, ¬ p a) (hs : ∀ a ∈ s.head?, ¬ p a)
    (h : as ++ r = bs ++ s) : as = bs ∧ r = s := by
  induction as generalizing bs with
  | nil =>
    cases bs with
    | nil => exact ⟨rfl, h⟩
    | cons b bs =>
      rw [List.nil_append] at h
      exact absurd (hbs b List.mem_cons_self) (hr b (by rw [h]; rfl))
  | cons a as ih =>
    cases bs with
    | nil =>
      rw [List.nil_append] at h
      exact absurd (has a List.mem_cons_self) (hs a (by rw [← h]; rfl))
    | cons b bs =>
      rw [List.cons_append, List.cons_append, List.cons.injEq] at h
      obtain ⟨hTail, hRest⟩ := ih (fun a ha => has a (List.mem_cons_of_mem _ ha))
        (fun b hb => hbs b (List.mem_cons_of_mem _ hb)) h.2
      exact ⟨by rw [h.1, hTail], hRest⟩

theorem append_cons_inj {p : α → Prop} {as bs r s : List α} {a b : α} (has : ∀ a ∈ as, p a)
    (hbs : ∀ b ∈ bs, p b) (ha : ¬ p a) (hb : ¬ p b) (h : as ++ a :: r = bs ++ b :: s) :
    as = bs ∧ a = b ∧ r = s := by
  have hHead : as = bs ∧ a :: r = b :: s :=
    append_inj_of_head has hbs (by simpa using ha) (by simpa using hb) h
  rw [List.cons.injEq] at hHead
  exact hHead

/-- Images of items determine what they determine of each item. -/
theorem map_eq_map {β γ : Type} {f : α → β} {g : α → γ} {as bs : List α}
    (hItem : ∀ a ∈ as, ∀ b ∈ bs, f a = f b → g a = g b) (h : as.map f = bs.map f) :
    as.map g = bs.map g := by
  induction as generalizing bs with
  | nil =>
    rw [List.map_nil, eq_comm, List.map_eq_nil_iff] at h
    rw [h]
  | cons a as ih =>
    cases bs with
    | nil => cases h
    | cons b bs =>
      rw [List.map_cons, List.map_cons, List.cons.injEq] at h
      rw [List.map_cons, List.map_cons, hItem a List.mem_cons_self b List.mem_cons_self h.1,
        ih (fun a ha b hb => hItem a (List.mem_cons_of_mem _ ha) b (List.mem_cons_of_mem _ hb)) h.2]

/-- Lines, each with its end. -/
def unlines (lines : List String) : String := String.join (lines.map (· ++ "\n"))

theorem unlines_cons (line : String) (lines : List String) :
    unlines (line :: lines) = line ++ ("\n" ++ unlines lines) := by
  rw [unlines, List.map_cons, String.join_cons, String.append_assoc, unlines]

/-- Line ends may as well be written before the lines and after the last one. -/
theorem join_map_append (lines : List String) :
    String.join (lines.map ("\n" ++ ·)) ++ "\n" = "\n" ++ unlines lines := by
  induction lines with
  | nil => rfl
  | cons line lines ih =>
    rw [List.map_cons, String.join_cons, String.append_assoc, ih, unlines_cons, String.append_assoc]

theorem intercalate_append {lines : List String} (h : lines ≠ []) :
    "\n".intercalate lines ++ "\n" = unlines lines := by
  induction lines with
  | nil => exact absurd rfl h
  | cons line lines ih =>
    cases lines with
    | nil => rw [String.intercalate_singleton, unlines_cons]; rfl
    | cons next lines =>
      rw [String.intercalate_cons_cons, String.append_assoc, ih (by simp), String.append_assoc,
        unlines_cons line]

theorem unlines_append (as bs : List String) : unlines (as ++ bs) = unlines as ++ unlines bs := by
  rw [unlines, List.map_append, String.join_append, unlines, unlines]

theorem toList_unlines (lines : List String) :
    (unlines lines).toList = lines.flatMap fun line => line.toList ++ ['\n'] := by
  rw [unlines, String.toList_join, List.flatMap_map]
  simp only [String.toList_append]
  rfl

/-- A text of lines determines them, unless one of them holds the end of a line. -/
theorem unlines_inj {as bs : List String} (has : ∀ a ∈ as, '\n' ∉ a.toList)
    (hbs : ∀ b ∈ bs, '\n' ∉ b.toList) (h : unlines as = unlines bs) : as = bs := by
  have hList := congrArg String.toList h
  rw [toList_unlines, toList_unlines] at hList
  clear h
  induction as generalizing bs with
  | nil =>
    cases bs with
    | nil => rfl
    | cons b bs => simp at hList
  | cons a as ih =>
    cases bs with
    | nil => simp at hList
    | cons b bs =>
      have hLine : ∀ line : String, '\n' ∉ line.toList → ∀ c ∈ line.toList, c ≠ '\n' :=
        fun line hLine c hc hEq => hLine (hEq ▸ hc)
      simp only [List.flatMap_cons, List.append_assoc, List.singleton_append] at hList
      obtain ⟨hHead, -, hTail⟩ := append_cons_inj (hLine a (has a List.mem_cons_self))
        (hLine b (hbs b List.mem_cons_self)) (by simp) (by simp) hList
      rw [String.toList_inj.mp hHead, ih (fun a ha => has a (List.mem_cons_of_mem _ ha))
        (fun b hb => hbs b (List.mem_cons_of_mem _ hb)) hTail]

/-- What follows the first entry of an enumeration. -/
private def afterEntry : List String → List Char
  | [] => []
  | a :: as => ',' :: ' ' :: (", ".intercalate (a :: as)).toList

private theorem toList_intercalate_cons (a : String) (as : List String) :
    (", ".intercalate (a :: as)).toList = a.toList ++ afterEntry as := by
  cases as with
  | nil => simp [afterEntry]
  | cons b as => simp [afterEntry]

theorem mem_intercalate_of_mem_head {a : String} {as : List String} {c : Char}
    (h : c ∈ a.toList) : c ∈ (", ".intercalate (a :: as)).toList := by
  rw [toList_intercalate_cons]
  exact List.mem_append_left _ h

/-- An enumeration determines its entries, unless one of them holds a comma. -/
theorem intercalate_inj {as bs : List String} (has : ∀ a ∈ as, ',' ∉ a.toList)
    (hbs : ∀ b ∈ bs, ',' ∉ b.toList) (hNil : as ≠ [] ∧ bs ≠ [])
    (h : ", ".intercalate as = ", ".intercalate bs) : as = bs := by
  have hEntry : ∀ entry : String, ',' ∉ entry.toList → ∀ c ∈ entry.toList, c ≠ ',' :=
    fun entry hEntry c hc hEq => hEntry (hEq ▸ hc)
  have hAfter : ∀ entries : List String, ∀ c ∈ (afterEntry entries).head?, ¬ c ≠ ',' := by
    intro entries
    cases entries <;> simp [afterEntry]
  induction as generalizing bs with
  | nil => exact absurd rfl hNil.1
  | cons a as ih =>
    cases bs with
    | nil => exact absurd rfl hNil.2
    | cons b bs =>
      have hList := congrArg String.toList h
      rw [toList_intercalate_cons, toList_intercalate_cons] at hList
      obtain ⟨hHead, hTail⟩ := append_inj_of_head (hEntry a (has a List.mem_cons_self))
        (hEntry b (hbs b List.mem_cons_self)) (hAfter as) (hAfter bs) hList
      have hEnds : as = bs := by
        cases as with
        | nil =>
          cases bs with
          | nil => rfl
          | cons => cases hTail
        | cons =>
          cases bs with
          | nil => cases hTail
          | cons =>
            refine ih (fun a ha => has a (List.mem_cons_of_mem _ ha))
              (fun b hb => hbs b (List.mem_cons_of_mem _ hb)) (by simp) ?_
            exact String.toList_inj.mp (List.cons.inj (List.cons.inj hTail).2).2
      rw [String.toList_inj.mp hHead, hEnds]

end ProtoSchema.Text
