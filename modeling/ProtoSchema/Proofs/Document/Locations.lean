import ProtoSchema.Proofs.Document.Reports

/-!
Where the paths of reported errors lead, and what their messages say was found there.
-/
namespace ProtoSchema.Document

/-- A message that asks for some kind of value names the kind of what was found or, if this is an
entry, of one of the two values of a pair. A missing value counts as null. -/
def Names (entry : Prop) (message : String) (found? : Option Json) : Prop :=
  ∀ (wanted : Wanted) (found : String),
    message = "expected " ++ wanted.phrase ++ ", got " ++ found →
      found = (found?.getD .null).kind.name ∨
        entry ∧ ∃ first second, found? = some (.arr [first, second]) ∧
          (found = first.kind.name ∨ found = second.kind.name)

theorem Wanted.comma_not_mem_phrase (wanted : Wanted) : ',' ∉ wanted.phrase.toList := by
  cases wanted <;> decide

/-- A message after its first comma. -/
theorem Wanted.dropWhile_message (wanted : Wanted) (found : String) :
    ("expected " ++ wanted.phrase ++ ", got " ++ found).toList.dropWhile (· != ',') =
      ", got ".toList ++ found.toList := by
  have hBefore : ∀ {text : String}, ',' ∉ text.toList → ∀ c ∈ text.toList, (c != ',') = true :=
    fun hText c hc => bne_iff_ne.mpr fun hComma => hText (hComma ▸ hc)
  have hExpected : ',' ∉ "expected ".toList := by decide
  simp only [String.toList_append, List.append_assoc]
  rw [List.dropWhile_append_of_pos (hBefore hExpected),
    List.dropWhile_append_of_pos (hBefore wanted.comma_not_mem_phrase)]
  exact List.dropWhile_cons_of_neg (by decide)

theorem head?_toList_append {s : String} (h : s ≠ "") (t : String) :
    (s ++ t).toList.head? = s.toList.head? := by
  have hList : s.toList ≠ [] := fun hNil => h (String.toList_eq_nil_iff.mp hNil)
  rw [String.toList_append, List.head?_append_of_ne_nil _ hList]

theorem Problem.exists_unexpected_of_message {problem : Problem} {wanted : Wanted} {found : String}
    (h : problem.message = "expected " ++ wanted.phrase ++ ", got " ++ found) :
    ∃ wanted' kind, problem = .unexpected wanted' kind ∧ found = kind.name := by
  have hFirst : problem.message.toList.head? = some 'e' := by
    rw [h, String.append_assoc, String.append_assoc, head?_toList_append (by decide)]
    rfl
  have hDrop : problem.message.toList.dropWhile (· != ',') = ", got ".toList ++ found.toList := by
    rw [h, Wanted.dropWhile_message]
  have hThird : (problem.message.toList.dropWhile (· != ','))[2]? = some 'g' := by
    rw [hDrop]
    rfl
  -- other messages start with another letter or go on differently after a comma
  cases problem with
  | unexpected wanted' kind =>
    have hFound := hDrop.symm.trans (Wanted.dropWhile_message wanted' kind.name)
    exact ⟨wanted', kind, rfl, String.toList_injective (List.append_cancel_left hFound)⟩
  | packageNotString | variantNotPair | mapNotPair => exact absurd hThird (by decide)
  | emptyOneof | mapAsKey | invalidType | invalidReservation =>
    exact absurd hFirst (by decide)
  | unsupportedOption | unknownKind | notField | notMethod | invalidStreaming =>
    have hOpening := hFirst.symm.trans (head?_toList_append (by decide) _)
    exact absurd hOpening (by decide)

theorem Explains.names {entry : Prop} {problem : Problem} {found? : Option Json}
    (h : Explains entry problem found?) : Names entry problem.message found? := by
  intro wanted found hMessage
  obtain ⟨_, kind, rfl, rfl⟩ := Problem.exists_unexpected_of_message hMessage
  obtain hKind | ⟨hEntry, first, second, hPair, hKind⟩ := h
  · exact .inl (congrArg Json.Kind.name hKind)
  · refine .inr ⟨hEntry, first, second, hPair, ?_⟩
    exact hKind.imp (congrArg Json.Kind.name) (congrArg Json.Kind.name)

/-- The path of a reported error leads to a value in the document or to a field that an object in it
does not have, and the message names the kind of value that is there. -/
theorem leads_of_reported_readSchema {document : Json} {path message : String}
    {hint : Option String}
    (h : reported "" (readSchema document) = .error (.located path message hint)) :
    ∃ (steps : Path) (found? : Option Json), steps.dotted = path ∧
      PointsAt steps document found? ∧ Names (EntryPath steps document) message found? := by
  obtain ⟨error, hError, hReport⟩ := reported_eq_error_iff.mp h
  cases error with
  | broken cause => cases hReport
  | located steps problem =>
    obtain ⟨rfl, rfl, -⟩ := Report.located.inj hReport
    have hKeyed := keyed_readSchema document _ hError
    obtain ⟨found?, hPoints, hExplains⟩ :=
      errs_readSchema (fun _ => trivial) document _ hError
    exact ⟨steps, found?, (render_eq_dotted hKeyed).symm, hPoints, hExplains.names⟩

/-- A document with an enum in a message in a message, whose second variant has no number. -/
def crookedDocument : Json :=
  .obj [("declarations", .arr [
    .obj [("kind", .str "message"), ("name", .str "Outer"), ("declarations", .arr [
      .obj [("kind", .str "message"), ("name", .str "Inner"), ("declarations", .arr [
        .obj [("kind", .str "enum"), ("name", .str "E"), ("variants", .arr [
          .arr [.str "A", .int 0], .arr [.str "B", .bool true]])]])]])]])]

theorem leads_of_reported_crookedDocument :
    ∃ (steps : Path) (found? : Option Json),
      steps.dotted = "declarations[0].declarations[0].declarations[0].variants[1]" ∧
      PointsAt steps crookedDocument found? ∧
      Names (EntryPath steps crookedDocument) "expected an integer, got bool" found? :=
  leads_of_reported_readSchema rfl

end ProtoSchema.Document
