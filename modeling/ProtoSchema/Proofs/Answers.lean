import ProtoSchema.Json.Equality
import ProtoSchema.Proofs.Document.Breakdowns

/-!
Which documents and texts have an answer: a schema, or what is wrong and where. Two things in a
document leave it without one, a kind that is a list or an object and an integer that is too long.
In a text, an integer that is too long is met before there is a document.
-/
namespace ProtoSchema
open Document (readSchema PointsAt SchemaBreaks)

/-- A schema, or an error at a place in the document. -/
def Document.Answers (document : Json) : Prop :=
  (∃ schema, readSchema document = .ok schema) ∨
    ∃ path problem found?, readSchema document = .error (.located path problem) ∧
      PointsAt path document found?

namespace Source

/-- A schema, an error at a position in the text, or one at a place in its document. -/
def Answers (file text : String) : Prop :=
  (∃ schema, load file text = .ok schema) ∨
    (∃ position problem, load file text = .error (.malformed file position problem)) ∨
    ∃ document path problem found?, readJson file text = .ok document ∧
      load file text = .error (.document (.located path problem)) ∧ PointsAt path document found?

theorem answers_document_iff (document : Json) :
    Document.Answers document ↔ ∀ cause, ¬ SchemaBreaks cause document := by
  simp only [← Document.readSchema_eq_broken_iff]
  constructor
  · rintro (⟨schema, h⟩ | ⟨path, problem, found?, h, -⟩) cause hBroken
    · rw [h] at hBroken
      cases hBroken
    · rw [h] at hBroken
      cases hBroken
  · intro h
    cases hRead : readSchema document with
    | ok schema => exact .inl ⟨schema, hRead⟩
    | error error =>
      cases error with
      | broken cause => exact absurd hRead (h cause)
      | located path problem =>
        obtain ⟨found?, hPoints, -⟩ := Document.errs_readSchema (fun _ => trivial) document _ hRead
        exact .inr ⟨path, problem, found?, hRead, hPoints⟩

section
variable {file text : String}

theorem answers_iff_of_readJson {document : Json} (h : readJson file text = .ok document) :
    Answers file text ↔ Document.Answers document := by
  rw [Answers, Document.Answers, load_of_readJson h]
  cases hRead : readSchema document with
  | ok schema => exact iff_of_true (.inl ⟨schema, rfl⟩) (.inl ⟨schema, rfl⟩)
  | error error =>
    constructor
    · rintro (⟨schema, hLoad⟩ | ⟨position, problem, hLoad⟩ |
        ⟨other, path, problem, found?, hOther, hLoad, hPoints⟩)
      · cases hLoad
      · cases hLoad
      · rw [h] at hOther
        cases hOther
        cases hLoad
        exact .inr ⟨path, problem, found?, rfl, hPoints⟩
    · rintro (⟨schema, hLoad⟩ | ⟨path, problem, found?, hLoad, hPoints⟩)
      · cases hLoad
      · cases hLoad
        exact .inr (.inr ⟨document, path, problem, found?, h, rfl, hPoints⟩)

theorem readJson_eq_longInteger_iff {n : Nat} :
    readJson file text = .error (.longInteger n) ↔
      Json.read text.toList = .error (.longInteger n) := by
  rw [readJson]
  cases Json.read text.toList with
  | ok document => exact iff_of_false nofun nofun
  | error failure =>
    cases failure with
    | longInteger digits =>
      refine ⟨fun h => ?_, fun h => ?_⟩
      · cases h
        rfl
      · cases h
        rfl
    | _ => exact iff_of_false nofun nofun

/-- A text that is no JSON has an answer unless an integer is too long, or half of a pair of
surrogates is found. -/
theorem answers_or_stops {error : Error} (h : readJson file text = .error error) :
    Answers file text ∨ (∃ n, error = .longInteger n) ∨ error = .loneSurrogate := by
  have hLoad := load_of_readJson_error h
  rw [readJson] at h
  cases hRead : Json.read text.toList with
  | ok document =>
    rw [hRead] at h
    cases h
  | error failure =>
    rw [hRead] at h
    cases failure with
    | malformed problem rest =>
      cases h
      exact .inl (.inr (.inl ⟨_, problem, hLoad⟩))
    | longInteger digits =>
      cases h
      exact .inr (.inl ⟨digits, rfl⟩)
    | loneSurrogate =>
      cases h
      exact .inr (.inr rfl)

theorem not_answers_of_longInteger {n : Nat} (h : readJson file text = .error (.longInteger n)) :
    ¬ Answers file text := by
  rw [Answers, load_of_readJson_error h]
  rintro (⟨schema, hLoad⟩ | ⟨position, problem, hLoad⟩ | ⟨_, path, problem, _, -, hLoad, -⟩)
  · cases hLoad
  · cases hLoad
  · cases hLoad

end

/-- Integers too long to be shown do not come from a text. -/
theorem not_schemaBreaks_longInteger {file text : String} {document : Json}
    (h : readJson file text = .ok document) : ¬ SchemaBreaks .longInteger document :=
  mt Document.holdsLong_of_schemaBreaks (scanned_of_readJson h).short

theorem answers_text_iff {file text : String}
    (hPaired : readJson file text ≠ .error .loneSurrogate) :
    Answers file text ↔ (∀ n, readJson file text ≠ .error (.longInteger n)) ∧
      ∀ document, readJson file text = .ok document →
        ∀ kind, ¬ SchemaBreaks (.compoundKind kind) document := by
  cases hJson : readJson file text with
  | ok document =>
    have hCauses : (∀ cause, ¬ SchemaBreaks cause document) ↔
        ∀ kind, ¬ SchemaBreaks (.compoundKind kind) document := by
      refine ⟨fun h kind => h _, fun h cause => ?_⟩
      cases cause with
      | compoundKind kind => exact h kind
      | longInteger => exact not_schemaBreaks_longInteger hJson
    rw [answers_iff_of_readJson hJson, answers_document_iff, hCauses]
    simp
  | error error =>
    constructor
    · intro hAnswers
      refine ⟨fun n hError => ?_, nofun⟩
      cases hError
      exact not_answers_of_longInteger hJson hAnswers
    · rintro ⟨hShort, -⟩
      rcases answers_or_stops hJson with hAnswers | ⟨n, rfl⟩ | rfl
      · exact hAnswers
      · exact absurd rfl (hShort n)
      · exact absurd hJson hPaired

/-- A document has an answer unless the first thing wrong with it is a kind that is a list or an
object, or an integer too long to be shown. A text has one unless there is a document of the first
sort in it or it has an integer that is too long. Of texts with half of a pair of surrogates
nothing is said. -/
theorem answers_iff (document : Json) (file text : String) :
    (∀ cause, readSchema document = .error (.broken cause) ↔ SchemaBreaks cause document) ∧
    (Document.Answers document ↔ ∀ cause, ¬ SchemaBreaks cause document) ∧
    (readJson file text ≠ .error .loneSurrogate →
      (Answers file text ↔ (∀ n, readJson file text ≠ .error (.longInteger n)) ∧
        ∀ document, readJson file text = .ok document →
          ∀ kind, ¬ SchemaBreaks (.compoundKind kind) document)) ∧
    (∀ n, readJson file text = .error (.longInteger n) → Json.HasLongInteger n text.toList) ∧
    ∀ n : Int, (∃ digits, readJson file (toString n) = .error (.longInteger digits)) ↔
      ¬ Decimal.Short n := by
  refine ⟨fun _ => Document.readSchema_eq_broken_iff, answers_document_iff document,
    answers_text_iff, fun n h => ?_, fun n => ?_⟩
  · exact Json.hasLongInteger_of_read (readJson_eq_longInteger_iff.mp h)
  · simp only [readJson_eq_longInteger_iff, Json.read_toString_eq_longInteger_iff]

/-- A file with a declaration whose kind is a list. -/
def listedKind : Json :=
  .obj [("declarations", .arr [.obj [("kind", .arr []), ("name", .str "M")]])]

theorem not_answers_listedKind :
    readSchema listedKind = .error (.broken (.compoundKind .arr)) ∧ ¬ Document.Answers listedKind ∧
    readJson memory
      "\x7b\"declarations\": [\x7b\"kind\": [], \"name\": \"M\"\x7d]\x7d" = .ok listedKind ∧
    ¬ Answers memory "\x7b\"declarations\": [\x7b\"kind\": [], \"name\": \"M\"\x7d]\x7d" := by
  have hSchema : readSchema listedKind = .error (.broken (.compoundKind .arr)) := rfl
  have hDocument : ¬ Document.Answers listedKind := by
    rintro (⟨schema, h⟩ | ⟨path, problem, found?, h, -⟩)
    · rw [hSchema] at h
      cases h
    · rw [hSchema] at h
      cases h
  have hJson : readJson memory
      "\x7b\"declarations\": [\x7b\"kind\": [], \"name\": \"M\"\x7d]\x7d" = .ok listedKind := by
    decide +kernel
  exact ⟨hSchema, hDocument, hJson, mt (answers_iff_of_readJson hJson).mp hDocument⟩

end Source
end ProtoSchema
