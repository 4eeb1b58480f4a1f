import ProtoSchema.Proofs.CommandLine.Course

/-!
Where a run stops, and why. An input that cannot be read is complained about. An output directory
that cannot be made and a text that cannot be written end the program instead.
-/
namespace ProtoSchema.CommandLine.Render
open FileSystem (Path Tree Node Cause)
open Machine (bind_run workingDirectory_run makeDirectories_run)

/-- The machine after an input has been looked for. -/
def looked (settings : Settings) (machine : Machine) (input : String) : Machine := {
  machine with
  reported := machine.reported ++
    loadLog settings machine.locate machine.files input }

section
variable {settings : Settings} {outDir : Option Path} {machine : Machine} {input : String}

theorem renderAll_of_unreported {failure : Failure}
    (hText : textIn machine.locate machine.files input = .error failure)
    (hReported : failure.isReported = false) (inputs : List String) :
    (renderAll settings outDir (input :: inputs) :
        StateM Machine (Except Failure Nat)).run machine =
      (.error failure, looked settings machine input) := by
  rw [renderAll, bind_run, textOf_run, hText]
  dsimp only
  rw [if_neg (by simp [hReported])]
  rfl

theorem renderAll_of_unwritable {directory : Path} {text : String} {cause : Cause}
    (hText : textIn machine.locate machine.files input = .ok text)
    (hWrite : machine.files.write (directory ++ [outputName input]) text.toUTF8 = .error cause)
    (inputs : List String) :
    (renderAll settings (some directory) (input :: inputs) :
        StateM Machine (Except Failure Nat)).run machine =
      (.error (.file { cause, path := directory ++ [outputName input] }),
        looked settings machine input) := by
  have hDeliver : (deliver settings (some directory) input text :
      StateM Machine (Except Failure Unit)).run (looked settings machine input) =
      (.error (.file { cause, path := directory ++ [outputName input] }),
        looked settings machine input) := deliver_some_run_of_error hWrite
  rw [renderAll, bind_run, textOf_run, hText, bind_run, ← looked, hDeliver]
  rfl

theorem exists_step (settings : Settings) {text : String} {files : Tree}
    (hText : textIn machine.locate machine.files input = .ok text)
    (hPut : Put outDir input text machine.files files) :
    ∃ next, Step settings outDir machine input text next ∧ next.files = files := by
  refine ⟨{
    machine with
    files
    printed := machine.printed ++ shown settings outDir text
    reported := machine.reported ++
      doneLog settings outDir machine.locate machine.files input }, ?_, rfl⟩
  exact ⟨hText, hPut, rfl⟩

/-- An input is done unless it has no text or its text cannot be written. -/
theorem step_or_stop (settings : Settings) (outDir : Option Path) (machine : Machine)
    (input : String) :
    (∃ text next, Step settings outDir machine input text next) ∨
      (∃ failure, textIn machine.locate machine.files input = .error failure) ∨
      ∃ directory text cause, outDir = some directory ∧
        textIn machine.locate machine.files input = .ok text ∧
        machine.files.write (directory ++ [outputName input]) text.toUTF8 = .error cause := by
  cases hText : textIn machine.locate machine.files input with
  | error failure => exact .inr (.inl ⟨failure, rfl⟩)
  | ok text =>
    cases outDir with
    | none =>
      have hPut : Put none input text machine.files machine.files := rfl
      obtain ⟨next, hStep, -⟩ := exists_step settings hText hPut
      exact .inl ⟨text, next, hStep⟩
    | some directory =>
      cases hWrite : machine.files.write (directory ++ [outputName input]) text.toUTF8 with
      | error cause => exact .inr (.inr ⟨directory, text, cause, rfl, rfl, hWrite⟩)
      | ok files =>
        have hPut : Put (some directory) input text machine.files files := hWrite
        obtain ⟨next, hStep, -⟩ := exists_step settings hText hPut
        exact .inl ⟨text, next, hStep⟩

/-- All inputs are done, or there is a first one that is not. -/
theorem exists_steps (settings : Settings) (outDir : Option Path) (machine : Machine)
    (inputs : List String) :
    (∃ texts next, Steps settings outDir machine inputs texts next) ∨
      ∃ done input others texts next, inputs = done ++ input :: others ∧
        Steps settings outDir machine done texts next ∧
        ¬ ∃ text after, Step settings outDir next input text after := by
  induction inputs generalizing machine with
  | nil => exact .inl ⟨[], machine, .nil machine⟩
  | cons input inputs ih =>
    by_cases h : ∃ text after, Step settings outDir machine input text after
    · obtain ⟨text, next, first⟩ := h
      rcases ih next with ⟨texts, last, rest⟩ | ⟨done, stop, others, texts, last, rfl, rest, hStop⟩
      · exact .inl ⟨text :: texts, last, .cons first rest⟩
      · exact .inr ⟨input :: done, stop, others, text :: texts, last, rfl, .cons first rest, hStop⟩
    · exact .inr ⟨[], input, inputs, [], machine, rfl, .nil machine, h⟩

theorem render_run_of_opened {opened : Tree}
    (h : Opened (outDir? settings machine.workingDirectory) machine.files opened)
    (inputs : List String) :
    (render settings inputs : StateM Machine (Except Failure Nat)).run machine =
      (renderAll settings (outDir? settings machine.workingDirectory) inputs :
        StateM Machine (Except Failure Nat)).run { machine with files := opened } := by
  by_cases hNone : settings.outDir = ""
  · rw [outDir?, if_pos hNone] at h ⊢
    cases h
    rw [render, if_pos hNone]
  · rw [outDir?, if_neg hNone] at h ⊢
    have hMade : machine.files.makeDirectories
        (Path.resolve machine.workingDirectory settings.outDir) = .ok opened := h
    rw [render, if_neg hNone, bind_run, workingDirectory_run, bind_run, makeDirectories_run,
      Machine.change, hMade]

theorem render_run_of_unopened {directory : Path} {cause : Cause}
    (hDirectory : outDir? settings machine.workingDirectory = some directory)
    (h : machine.files.makeDirectories directory = .error cause) (inputs : List String) :
    (render settings inputs : StateM Machine (Except Failure Nat)).run machine =
      (.error (.file { cause, path := directory }), machine) := by
  by_cases hNone : settings.outDir = ""
  · rw [outDir?, if_pos hNone] at hDirectory
    cases hDirectory
  · rw [outDir?, if_neg hNone] at hDirectory
    cases hDirectory
    rw [render, if_neg hNone, bind_run, workingDirectory_run, bind_run, makeDirectories_run,
      Machine.change, h]
    rfl

theorem Put.look_directory_iff {text : String} {files written : Tree}
    (h : Put outDir input text files written) (path : Path) :
    Tree.look path written = some .directory ↔ Tree.look path files = some .directory := by
  cases outDir with
  | none =>
    cases h
    exact Iff.rfl
  | some directory =>
    have hWrite : files.write (directory ++ [outputName input]) text.toUTF8 = .ok written := h
    exact Tree.look_directory_of_write hWrite path

theorem Steps.look_directory_iff {next : Machine} {inputs texts : List String}
    (h : Steps settings outDir machine inputs texts next) (path : Path) :
    Tree.look path next.files = some .directory ↔
      Tree.look path machine.files = some .directory := by
  induction h with
  | nil machine => exact Iff.rfl
  | cons first _ ih => exact ih.trans (first.put.look_directory_iff path)

/-- Once the output directory is there, a text can be written unless a directory is in its place. -/
theorem exists_put_iff {directory : Path} {files opened : Tree} {next : Machine}
    {done texts : List String} (hMade : files.makeDirectories directory = .ok opened)
    (hSteps : Steps settings (some directory) { machine with files := opened } done texts next)
    (input text : String) :
    (∃ written, next.files.write (directory ++ [outputName input]) text.toUTF8 = .ok written) ↔
      Tree.look (directory ++ [outputName input]) files ≠ some .directory := by
  have hDirectory : ∀ above, above <+: directory →
      Tree.look above next.files = some .directory := by
    intro above hAbove
    rw [hSteps.look_directory_iff, Tree.look_makeDirectories hMade, if_pos hAbove]
  rw [Tree.exists_write_in_iff hDirectory, ne_eq, hSteps.look_directory_iff,
    Tree.look_append_of_makeDirectories hMade (List.cons_ne_nil _ _)]

end

/-- A file stands where the way to a directory leads. -/
def Blocked (directory : Path) (files : Tree) : Prop :=
  ∃ above, above <+: directory ∧ ∃ content, Tree.look above files = some (.file content)

/-- The run comes to an input: the output directory is there, and the inputs before are done. -/
def Reaches (settings : Settings) (machine : Machine) (inputs : List String) (input : String)
    (next : Machine) : Prop :=
  ∃ done others opened texts, inputs = done ++ input :: others ∧
    Opened (outDir? settings machine.workingDirectory) machine.files opened ∧
    Steps settings (outDir? settings machine.workingDirectory) { machine with files := opened }
      done texts next

/-- The run comes to an input whose text it cannot write, because a directory is in its place. -/
def Jammed (settings : Settings) (machine : Machine) (inputs : List String) (directory : Path) :
    Prop :=
  ∃ input next text, Reaches settings machine inputs input next ∧
    textIn next.locate next.files input = .ok text ∧
    Tree.look (directory ++ [outputName input]) machine.files = some .directory

section
variable {settings : Settings} {machine : Machine} {inputs : List String}

theorem makeDirectories_fails_iff {directory : Path} {files : Tree} :
    (∃ cause, files.makeDirectories directory = .error cause) ↔ Blocked directory files := by
  have hMade : (∃ opened, files.makeDirectories directory = .ok opened) ↔
      ¬ Blocked directory files := by
    simp [Tree.exists_makeDirectories_iff, Blocked]
  cases h : files.makeDirectories directory with
  | error cause =>
    have hFails : ¬ ∃ opened, files.makeDirectories directory = .ok opened := by simp [h]
    exact iff_of_true ⟨cause, rfl⟩ (not_not.mp (mt hMade.mpr hFails))
  | ok opened =>
    rw [h] at hMade
    exact iff_of_false nofun (hMade.mp ⟨opened, rfl⟩)

theorem opened_or_blocked (settings : Settings) (machine : Machine) :
    (∃ opened, Opened (outDir? settings machine.workingDirectory) machine.files opened) ∨
      ∃ directory, outDir? settings machine.workingDirectory = some directory ∧
        Blocked directory machine.files := by
  cases outDir? settings machine.workingDirectory with
  | none => exact .inl ⟨machine.files, rfl⟩
  | some directory =>
    cases hMake : machine.files.makeDirectories directory with
    | ok opened => exact .inl ⟨opened, hMake⟩
    | error cause => exact .inr ⟨directory, rfl, makeDirectories_fails_iff.mp ⟨cause, hMake⟩⟩

/-- A text that cannot be written has a directory in its place. -/
theorem jammed_of_reaches {input text : String} {next : Machine} {directory : Path} {cause : Cause}
    (hDirectory : outDir? settings machine.workingDirectory = some directory)
    (hReaches : Reaches settings machine inputs input next)
    (hText : textIn next.locate next.files input = .ok text)
    (hWrite : next.files.write (directory ++ [outputName input]) text.toUTF8 = .error cause) :
    Jammed settings machine inputs directory := by
  refine ⟨input, next, text, hReaches, hText, ?_⟩
  obtain ⟨done, -, opened, texts, -, hOpened, hSteps⟩ := hReaches
  rw [hDirectory] at hOpened hSteps
  have hFails : ¬ ∃ written,
      next.files.write (directory ++ [outputName input]) text.toUTF8 = .ok written := by
    rw [hWrite]
    exact nofun
  exact not_not.mp (mt (exists_put_iff hOpened hSteps input text).mpr hFails)

theorem run_of_reaches {arguments : List String} {input : String} {next : Machine}
    (hRequest : request arguments = .render settings inputs)
    (h : Reaches settings machine inputs input next) :
    ∃ others, (run arguments : StateM Machine (Except Failure Nat)).run machine =
      (renderAll settings (outDir? settings machine.workingDirectory) (input :: others) :
        StateM Machine (Except Failure Nat)).run next := by
  obtain ⟨done, others, opened, texts, rfl, hOpened, hSteps⟩ := h
  refine ⟨others, ?_⟩
  rw [run_eq_render hRequest, render_run_of_opened hOpened, renderAll_of_steps hSteps]

/-- Without a failure to make the output directory, the run either does all inputs or reaches one
that it cannot do. -/
theorem done_or_reaches {arguments : List String} {opened : Tree}
    (hRequest : request arguments = .render settings inputs)
    (hOpened : Opened (outDir? settings machine.workingDirectory) machine.files opened) :
    (∃ final, (run arguments : StateM Machine (Except Failure Nat)).run machine = (.ok 0, final)) ∨
      ∃ input next, Reaches settings machine inputs input next ∧
        ¬ ∃ text after, Step settings (outDir? settings machine.workingDirectory) next input text
          after := by
  rcases exists_steps settings (outDir? settings machine.workingDirectory)
    { machine with files := opened } inputs with ⟨texts, next, hSteps⟩ |
    ⟨done, input, others, texts, next, rfl, hSteps, hStop⟩
  · refine .inl ⟨next, ?_⟩
    rw [run_eq_render hRequest, render_run_of_opened hOpened, ← List.append_nil inputs,
      renderAll_of_steps hSteps]
    rfl
  · exact .inr ⟨input, next, ⟨done, others, opened, texts, rfl, hOpened, hSteps⟩, hStop⟩

/-- Where the program is ended by a failure to read or write, it could not make the output directory
or could not write a text. -/
theorem blocked_or_jammed {arguments : List String} {error : FileSystem.Error} {final : Machine}
    (hRequest : request arguments = .render settings inputs)
    (h : (run arguments : StateM Machine (Except Failure Nat)).run machine =
      (.error (.file error), final)) :
    ∃ directory, outDir? settings machine.workingDirectory = some directory ∧
      (Blocked directory machine.files ∨ Jammed settings machine inputs directory) := by
  rcases opened_or_blocked settings machine with
    ⟨opened, hOpened⟩ | ⟨directory, hDirectory, hBlocked⟩
  · rcases done_or_reaches hRequest hOpened with ⟨_, hDone⟩ | ⟨input, next, hReaches, hStop⟩
    · rw [hDone] at h
      cases h
    obtain ⟨others, hRun⟩ := run_of_reaches hRequest hReaches
    rw [hRun] at h
    rcases step_or_stop settings (outDir? settings machine.workingDirectory) next input with
      hStep | ⟨failure, hText⟩ | ⟨directory, text, cause, hDirectory, hText, hWrite⟩
    · exact absurd hStep hStop
    · -- A failure that is complained about ends the run with a code, and the others are no failures
      -- to read.
      cases hReported : failure.isReported with
      | true =>
        rw [renderAll_of_fails ⟨hText, hReported, rfl⟩] at h
        cases h
      | false =>
        rw [renderAll_of_unreported hText hReported] at h
        cases h
        cases hReported
    · exact ⟨directory, hDirectory, .inr (jammed_of_reaches hDirectory hReaches hText hWrite)⟩
  · exact ⟨directory, hDirectory, .inl hBlocked⟩

end

/-- A file is in the way of the directory `out`, and a directory in the way of `g/a.proto`. -/
def obstructed : Machine where
  workingDirectory := ["w"]
  files := .directory [("w", .directory [
    ("a.json", .file "\x7b\x7d".toUTF8), ("out", .file "".toUTF8),
    ("g", .directory [("a.proto", .directory [])])])]

end ProtoSchema.CommandLine.Render
