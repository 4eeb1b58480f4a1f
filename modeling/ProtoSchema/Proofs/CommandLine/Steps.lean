import ProtoSchema.CommandLine.Render
import ProtoSchema.Proofs.FileSystem.Agreement

/-! What each part of a run does to a machine that is a value. -/
namespace ProtoSchema.CommandLine
open FileSystem (Path Tree)

namespace Machine

theorem bind_run {α β : Type} (first : StateM Machine α) (next : α → StateM Machine β)
    (machine : Machine) : (first >>= next).run machine =
      (next (first.run machine).1).run (first.run machine).2 := rfl

theorem workingDirectory_run (machine : Machine) :
    (Host.workingDirectory : StateM Machine Path).run machine =
      (machine.workingDirectory, machine) := rfl

theorem read_run (path : Path) (machine : Machine) :
    (Host.read path : StateM Machine _).run machine =
      (located path (machine.files.read path), machine) := rfl

theorem makeDirectories_run (directory : Path) (machine : Machine) :
    (Host.makeDirectories directory : StateM Machine (Except FileSystem.Error Unit)).run machine =
      change directory (Tree.makeDirectories directory) machine := rfl

theorem write_run (path : Path) (content : ByteArray) (machine : Machine) :
    (Host.write path content : StateM Machine (Except FileSystem.Error Unit)).run machine =
      change path (Tree.write path content) machine := rfl

end Machine

namespace Render
open Machine (bind_run workingDirectory_run read_run write_run)

/-- The schema of the file at a path among these. -/
def loadAt (files : Tree) (path : Path) : Except Failure Schema :=
  match files.read path with
  | .error cause => .error (.file { cause, path })
  | .ok bytes => schemaOf path bytes

/-- The schema of an input in these files. -/
def loadIn (locate : String → Option Path) (files : Tree) (input : String) :
    Except Failure Schema :=
  match locate input with
  | none => .error .noHome
  | some path => loadAt files path

/-- The text for an input in these files, or why there is none. -/
def textIn (locate : String → Option Path) (files : Tree) (input : String) :
    Except Failure String :=
  (loadIn locate files input).map Proto.text

/-- The path to which the output directory leads. -/
def outDir? (settings : Settings) (workingDirectory : Path) : Option Path :=
  if settings.outDir = "" then none else some (Path.resolve workingDirectory settings.outDir)

/-- What is reported about an input that fails. -/
def complaint (input : String) (failure : Failure) : String :=
  input ++ ": " ++ failure.text ++ "\n"

def infoLog (settings : Settings) (message : String) : String :=
  if 1 ≤ settings.verbosity then "INFO " ++ message ++ "\n" else ""

def debugLog (settings : Settings) (message : String) : String :=
  if 2 ≤ settings.verbosity then "DEBUG " ++ message ++ "\n" else ""

/-- What is logged while an input is loaded and its text is written. -/
def loadLog (settings : Settings) (locate : String → Option Path) (files : Tree)
    (input : String) : String :=
  match locate input with
  | none => ""
  | some path =>
    infoLog settings ("protoemit.api: loading " ++ path.text) ++
      match loadAt files path with
      | .ok schema => debugLog settings ("protoemit.emit: writing " ++
          toString schema.declarations.length ++ " top-level declaration(s)")
      | .error _ => ""

/-- What is logged when a text is put into the output directory. -/
def putLog (settings : Settings) (outDir : Option Path) (input : String) : String :=
  match outDir with
  | none => ""
  | some directory =>
    infoLog settings ("protoemit.cli: wrote " ++ (directory ++ [outputName input]).text)

theorem report_run_of_level (settings : Settings) (level : Nat) (line : String)
    (machine : Machine) :
    (if level ≤ settings.verbosity then Host.report line else return () :
        StateM Machine Unit).run machine =
      ((), {
        machine with
        reported := machine.reported ++ if level ≤ settings.verbosity then line else "" }) := by
  split
  · rfl
  · rw [String.append_empty]
    rfl

theorem info_run (settings : Settings) (message : String) (machine : Machine) :
    (info settings message : StateM Machine Unit).run machine =
      ((), { machine with reported := machine.reported ++ infoLog settings message }) :=
  report_run_of_level settings 1 _ machine

theorem debug_run (settings : Settings) (message : String) (machine : Machine) :
    (debug settings message : StateM Machine Unit).run machine =
      ((), { machine with reported := machine.reported ++ debugLog settings message }) :=
  report_run_of_level settings 2 _ machine

theorem locate_run (input : String) (machine : Machine) :
    (locate input : StateM Machine (Option Path)).run machine =
      (machine.locate input, machine) := by
  rw [locate, bind_run, workingDirectory_run, Machine.locate, Path.locate?]
  cases Path.user? input with
  | none => rfl
  | some user => rfl

theorem textOf_run (settings : Settings) (input : String) (machine : Machine) :
    (textOf settings input : StateM Machine (Except Failure String)).run machine =
      (textIn machine.locate machine.files input,
        { machine with
          reported := machine.reported ++
            loadLog settings machine.locate machine.files input }) := by
  rw [textOf, bind_run, locate_run, textIn, loadIn, loadLog]
  cases machine.locate input with
  | none =>
    rw [String.append_empty]
    rfl
  | some path =>
    dsimp only
    rw [bind_run, info_run, bind_run, read_run, loadAt]
    dsimp only
    cases machine.files.read path with
    | error cause =>
      rw [String.append_empty]
      rfl
    | ok bytes =>
      have hLocated : Machine.located path (.ok bytes) = .ok bytes := rfl
      rw [hLocated]
      dsimp only
      cases schemaOf path bytes with
      | error failure =>
        rw [String.append_empty]
        rfl
      | ok schema =>
        dsimp only
        rw [bind_run, debug_run, String.append_assoc]
        rfl

theorem deliver_none_run (settings : Settings) (input text : String) (machine : Machine) :
    (deliver settings none input text : StateM Machine (Except Failure Unit)).run machine =
      (.ok (), { machine with printed := machine.printed ++ text }) := rfl

theorem deliver_some_run_of_error {settings : Settings} {directory : Path} {input text : String}
    {machine : Machine} {cause : FileSystem.Cause}
    (h : machine.files.write (directory ++ [outputName input]) text.toUTF8 = .error cause) :
    (deliver settings (some directory) input text : StateM Machine (Except Failure Unit)).run
        machine = (.error (.file { cause, path := directory ++ [outputName input] }), machine) := by
  rw [deliver, bind_run, write_run, Machine.change, h]
  rfl

theorem deliver_some_run_of_ok {settings : Settings} {directory : Path} {input text : String}
    {machine : Machine} {files : Tree}
    (h : machine.files.write (directory ++ [outputName input]) text.toUTF8 = .ok files) :
    (deliver settings (some directory) input text : StateM Machine (Except Failure Unit)).run
        machine = (.ok (), {
          machine with
          files
          printed := machine.printed ++ if settings.stdout then text else ""
          reported := machine.reported ++ putLog settings (some directory) input }) := by
  rw [deliver, bind_run, write_run, Machine.change, h]
  dsimp only
  rw [bind_run, info_run]
  split
  · rfl
  · rw [String.append_empty]
    rfl

/-- The text of an input is put into the output directory, if there is one. -/
def Put (outDir : Option Path) (input text : String) (files written : Tree) : Prop :=
  match outDir with
  | none => written = files
  | some directory => files.write (directory ++ [outputName input]) text.toUTF8 = .ok written

/-- What of a text is printed. -/
def shown (settings : Settings) (outDir : Option Path) (text : String) : String :=
  if outDir = none ∨ settings.stdout then text else ""

/-- What is logged about an input that is done. -/
def doneLog (settings : Settings) (outDir : Option Path) (locate : String → Option Path)
    (files : Tree) (input : String) : String :=
  loadLog settings locate files input ++ putLog settings outDir input

/-- An input is done: it has a text, which is put and shown. -/
structure Step (settings : Settings) (outDir : Option Path) (machine : Machine)
    (input text : String) (next : Machine) : Prop where
  text_eq : textIn machine.locate machine.files input = .ok text
  put : Put outDir input text machine.files next.files
  next_eq : next = {
    machine with
    files := next.files
    printed := machine.printed ++ shown settings outDir text
    reported := machine.reported ++
      doneLog settings outDir machine.locate machine.files input }

theorem deliver_run_eq_ok_iff (settings : Settings) (outDir : Option Path) (input text : String)
    (machine next : Machine) :
    (deliver settings outDir input text : StateM Machine (Except Failure Unit)).run machine =
      (.ok (), next) ↔
    Put outDir input text machine.files next.files ∧ next = {
      machine with
      files := next.files
      printed := machine.printed ++ shown settings outDir text
      reported := machine.reported ++ putLog settings outDir input } := by
  cases outDir with
  | none =>
    rw [deliver_none_run, shown, if_pos (.inl rfl), putLog, String.append_empty, Put]
    constructor
    · intro h
      cases h
      exact ⟨rfl, rfl⟩
    · rintro ⟨hFiles, hNext⟩
      rw [hNext, hFiles]
  | some directory =>
    rw [Put, shown]
    simp only [reduceCtorEq, false_or]
    cases hWrite : machine.files.write (directory ++ [outputName input]) text.toUTF8 with
    | error cause =>
      rw [deliver_some_run_of_error hWrite]
      constructor
      · intro h
        cases h
      · rintro ⟨hPut, -⟩
        cases hPut
    | ok files =>
      rw [deliver_some_run_of_ok hWrite]
      constructor
      · intro h
        cases h
        exact ⟨rfl, rfl⟩
      · rintro ⟨hFiles, hNext⟩
        cases hFiles
        rw [hNext]

/-- A row of inputs is done, each with the files that those before it have left. -/
inductive Steps (settings : Settings) (outDir : Option Path) :
    Machine → List String → List String → Machine → Prop
  | nil (machine : Machine) : Steps settings outDir machine [] [] machine
  | cons {machine next last : Machine} {input text : String} {inputs texts : List String}
      (first : Step settings outDir machine input text next)
      (rest : Steps settings outDir next inputs texts last) :
      Steps settings outDir machine (input :: inputs) (text :: texts) last

/-- An input fails: it has no text, for a reason that is reported. -/
structure Fails (settings : Settings) (machine : Machine) (input : String) (failure : Failure)
    (final : Machine) : Prop where
  text_eq : textIn machine.locate machine.files input = .error failure
  isReported : failure.isReported
  final_eq : final = {
    machine with
    reported := machine.reported ++
      loadLog settings machine.locate machine.files input ++ complaint input failure }

section
variable {settings : Settings} {outDir : Option Path}

theorem renderAll_of_step {machine next : Machine} {input text : String}
    (h : Step settings outDir machine input text next) (inputs : List String) :
    (renderAll settings outDir (input :: inputs) :
        StateM Machine (Except Failure Nat)).run machine =
      (renderAll settings outDir inputs : StateM Machine (Except Failure Nat)).run next := by
  have hDeliver := (deliver_run_eq_ok_iff settings outDir input text { machine with
    reported := machine.reported ++
      loadLog settings machine.locate machine.files input } next).mpr ⟨h.put, by
        rw [String.append_assoc]; exact h.next_eq⟩
  rw [renderAll, bind_run, textOf_run, h.text_eq, bind_run, hDeliver]

theorem renderAll_of_fails {machine final : Machine} {input : String} {failure : Failure}
    (h : Fails settings machine input failure final) (inputs : List String) :
    (renderAll settings outDir (input :: inputs) :
        StateM Machine (Except Failure Nat)).run machine =
      (.ok 1, final) := by
  rw [renderAll, bind_run, textOf_run, h.text_eq]
  dsimp only
  rw [if_pos h.isReported, h.final_eq]
  rfl

theorem renderAll_of_steps {machine next : Machine} {done texts : List String}
    (h : Steps settings outDir machine done texts next) (inputs : List String) :
    (renderAll settings outDir (done ++ inputs) : StateM Machine (Except Failure Nat)).run machine =
      (renderAll settings outDir inputs : StateM Machine (Except Failure Nat)).run next := by
  induction h with
  | nil => rfl
  | cons first _ ih => rw [List.cons_append, renderAll_of_step first, ih]

/-- From the first input on, the course of a run is a step, a failure, or an escape. -/
theorem step_or_fails {machine final : Machine} {input : String} {inputs : List String} {code : Nat}
    (h : (renderAll settings outDir (input :: inputs) :
      StateM Machine (Except Failure Nat)).run machine = (.ok code, final)) :
    (∃ text next, Step settings outDir machine input text next) ∨
      ∃ failure, code = 1 ∧ Fails settings machine input failure final := by
  rw [renderAll, bind_run, textOf_run] at h
  dsimp only at h
  cases hText : textIn machine.locate machine.files input with
  | error failure =>
    rw [hText] at h
    dsimp only at h
    split at h
    · rename_i hReported
      cases h
      exact .inr ⟨failure, rfl, hText, hReported, rfl⟩
    · cases h
  | ok text =>
    rw [hText] at h
    dsimp only at h
    rw [bind_run] at h
    split at h
    · cases h
    · rename_i hDeliver
      obtain ⟨hPut, hNext⟩ := (deliver_run_eq_ok_iff settings outDir input text _ _).mp
        (Prod.ext hDeliver rfl)
      refine .inl ⟨text, _, hText, hPut, ?_⟩
      unfold doneLog
      rw [← String.append_assoc]
      exact hNext

/-- A run goes through its inputs until all are done or one fails. -/
theorem steps_of_renderAll {machine final : Machine} {inputs : List String} {code : Nat}
    (h : (renderAll settings outDir inputs : StateM Machine (Except Failure Nat)).run machine =
      (.ok code, final)) :
    (∃ texts, code = 0 ∧ Steps settings outDir machine inputs texts final) ∨
      ∃ done input others texts next failure, inputs = done ++ input :: others ∧ code = 1 ∧
        Steps settings outDir machine done texts next ∧
        Fails settings next input failure final := by
  induction inputs generalizing machine with
  | nil =>
    cases h
    exact .inl ⟨[], rfl, .nil _⟩
  | cons input inputs ih =>
    rcases step_or_fails h with ⟨text, next, first⟩ | ⟨failure, rfl, hFails⟩
    · rw [renderAll_of_step first] at h
      rcases ih h with ⟨texts, hCode, rest⟩ |
        ⟨done, failed, others, texts, last, failure, rfl, hCode, rest, hFails⟩
      · exact .inl ⟨text :: texts, hCode, Steps.cons first rest⟩
      · exact .inr ⟨input :: done, failed, others, text :: texts, last, failure, rfl, hCode,
          Steps.cons first rest, hFails⟩
    · exact .inr ⟨[], input, inputs, [], machine, failure, rfl, rfl, .nil machine, hFails⟩

end

end Render
end ProtoSchema.CommandLine
