import ProtoSchema.Proofs.Document.Places

/-!
Errors as they are reported, with their paths as texts. Points stand between the keys of a path. The
error of a value in some place is that of the value by itself, with the place before its path.
-/
namespace ProtoSchema.Document

/-- A step as it is written after others. -/
def Step.text : Step → String
  | .key name => "." ++ name
  | .index i => "[" ++ toString i ++ "]"

namespace Path

/-- Keys with points between them, and indices in brackets. -/
def dotted : Path → String
  | .key name :: path => name ++ String.join (path.map Step.text)
  | path => String.join (path.map Step.text)

theorem extend_of_ne {base : String} (h : base ≠ "") (step : Step) :
    extend base step = base ++ step.text := by
  cases step with
  | key name => rw [extend, if_neg h, String.append_assoc, Step.text]
  | index i => rw [extend, String.append_assoc, String.append_assoc, Step.text, String.append_assoc]

theorem render_of_ne {base : String} (h : base ≠ "") (path : Path) :
    path.render base = base ++ String.join (path.map Step.text) := by
  induction path generalizing base with
  | nil => exact (String.append_empty).symm
  | cons step path ih =>
    have hExtended : base ++ step.text ≠ "" := fun hEmpty =>
      h (String.append_eq_empty_iff.mp hEmpty).1
    have hRender : render base (step :: path) = render (extend base step) path := rfl
    rw [hRender, extend_of_ne h, ih hExtended, List.map_cons, String.join_cons,
      String.append_assoc]

end Path

/-- What is reported of an error: a message about a place in a document, or one without a place. -/
inductive Report where
  | located (path message : String) (hint : Option String)
  | pathless (message : String)
  deriving DecidableEq

/-- What is reported of an error when the document's own place is `base`. -/
def Error.report (base : String) : Error → Report
  | .located path problem => .located (path.render base) problem.message problem.hint?
  | .broken cause => .pathless cause.message

namespace Report

def text : Report → String
  | .located path message hint => (Diagnostic.atPath path message hint).text
  | .pathless message => message

/-- The report on a value, seen from around a place in which the value stands. -/
def inside (place : String) : Report → Report
  | .located path message hint =>
    .located (if path = "" then place else place ++ "." ++ path) message hint
  | .pathless message => .pathless message

end Report

theorem Error.text_eq_text_report (base : String) (error : Error) :
    error.text base = (error.report base).text := by
  cases error with
  | located path problem => rfl
  | broken cause => rfl

/-- A result as it is reported when the value that was read stands at `base`. -/
def reported {α : Type} (base : String) (result : Result α) : Except Report α :=
  result.mapError (Error.report base)

section
variable {α β : Type} {base : String} {result : Result α} {report : Report}

theorem reported_eq_error_iff : reported base result = .error report ↔
    ∃ error, result = .error error ∧ report = error.report base := by
  cases result with
  | ok a =>
    refine iff_of_false nofun ?_
    rintro ⟨error, h, -⟩
    cases h
  | error error =>
    constructor
    · intro h
      cases h
      exact ⟨error, rfl, rfl⟩
    · rintro ⟨_, h, rfl⟩
      cases h
      rfl

theorem reported_map_eq_error_iff {f : α → β} :
    reported base (result >>= fun a => pure (f a)) = .error report ↔
      reported base result = .error report := by
  simp only [reported_eq_error_iff, map_eq_error_iff]

end

/-- The error has no path, or one that is empty or starts with a key that is not empty. -/
def StartsAtKey : Error → Prop
  | .located (step :: _) _ => ∃ name, name ≠ "" ∧ step = .key name
  | _ => True

section
variable {error : Error}

theorem startsAtKey_under {name : String} (h : name ≠ "") (error : Error) :
    StartsAtKey (error.under (.key name)) := by
  cases error with
  | located path problem => exact ⟨name, h, rfl⟩
  | broken cause => trivial

theorem render_eq_dotted {path : Path} {problem : Problem}
    (h : StartsAtKey (.located path problem)) : path.render "" = path.dotted := by
  cases path with
  | nil => rfl
  | cons step path =>
    obtain ⟨name, hName, rfl⟩ := h
    have hRender : Path.render "" (.key name :: path) = Path.render name path := rfl
    rw [hRender, Path.render_of_ne hName, Path.dotted]

theorem report_eq_inside (h : StartsAtKey error) {base : String} (hBase : base ≠ "") :
    error.report base = (error.report "").inside base := by
  cases error with
  | broken cause => rfl
  | located path problem =>
    have hPath : path.render base =
        if path.render "" = "" then base else base ++ "." ++ path.render "" := by
      cases path with
      | nil => rfl
      | cons step path =>
        obtain ⟨name, hName, rfl⟩ := h
        have hAlone : Path.render "" (.key name :: path) =
            name ++ String.join (path.map Step.text) := Path.render_of_ne hName path
        have hNonempty : name ++ String.join (path.map Step.text) ≠ "" := fun hEmpty =>
          hName (String.append_eq_empty_iff.mp hEmpty).1
        rw [hAlone, if_neg hNonempty, Path.render_of_ne hBase, List.map_cons, String.join_cons,
          Step.text, String.append_assoc, String.append_assoc]
    rw [Error.report, Error.report, Report.inside, hPath]

end

section
variable {α : Type} {base : String} {result : Result α}

theorem reported_eq_inside (h : Errs StartsAtKey result) (hBase : base ≠ "") :
    reported base result = (reported "" result).mapError (Report.inside base) := by
  cases hResult : result with
  | ok a => rfl
  | error error =>
    have hReport := report_eq_inside (h error hResult) hBase
    exact congrArg Except.error hReport

theorem keyed_under {name : String} (h : name ≠ "") :
    Errs StartsAtKey (under (.key name) result) := by
  intro error hError
  obtain ⟨inner, -, rfl⟩ := under_eq_error_iff.mp hError
  exact startsAtKey_under h inner

theorem keyed_fail (problem : Problem) : Errs StartsAtKey (fail problem : Result α) :=
  errs_error trivial

end

theorem keyed_readType (value : Json) : Errs StartsAtKey (readType value) := by
  have hMap : "map" ≠ "" := by decide
  unfold readType
  split
  · exact errs_ok _
  · split
    · split
      · refine (keyed_under hMap).bind fun key _ => ?_
        split
        · exact (keyed_under hMap).bind fun _ _ => (keyed_under hMap).map _
        · exact (keyed_under hMap).map _
      · exact keyed_under hMap
    · exact keyed_fail _
  · exact keyed_fail _

section
variable {fields : List (String × Json)} {name : String}

theorem keyed_readField : Errs StartsAtKey (readField name fields) :=
  (keyed_under (by decide)).bind fun _ _ =>
    (keyed_under (by decide)).bind fun _ _ => (keyed_under (by decide)).map _

theorem keyed_readEnum : Errs StartsAtKey (readEnum name fields) :=
  (keyed_under (by decide)).bind fun _ _ => (keyed_under (by decide)).map _

theorem keyed_readMethod : Errs StartsAtKey (readMethod name fields) :=
  (keyed_under (by decide)).bind fun _ _ =>
    (keyed_under (by decide)).bind fun _ _ => (keyed_under (by decide)).map _

theorem keyed_readDeclarationOf (kind : DeclKind) :
    Errs StartsAtKey (readDeclarationOf name fields kind) := by
  cases kind with
  | message => exact (keyed_under (by decide)).bind fun _ _ => (keyed_under (by decide)).map _
  | field => exact keyed_readField.map _
  | oneof => exact (keyed_under (by decide)).map _
  | enum => exact keyed_readEnum.map _
  | method => exact keyed_readMethod.map _
  | service => exact (keyed_under (by decide)).map _

end

theorem keyed_readDeclaration (value : Json) : Errs StartsAtKey (readDeclaration value) := by
  cases value with
  | obj fields =>
    rw [readDeclaration_obj]
    exact (keyed_under (by decide)).bind fun kind _ =>
      (keyed_under (by decide)).bind fun _ _ => keyed_readDeclarationOf kind
  | _ => exact keyed_fail _

theorem keyed_readSchema (document : Json) : Errs StartsAtKey (readSchema document) := by
  cases document with
  | obj fields =>
    rw [readSchema_obj]
    exact (keyed_under (by decide)).bind fun _ _ => (keyed_under (by decide)).bind fun _ _ =>
      (keyed_under (by decide)).bind fun _ _ => (keyed_under (by decide)).map _
  | _ => exact keyed_fail _

end ProtoSchema.Document
