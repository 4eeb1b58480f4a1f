import Mathlib.Control.Monad.Basic
import ProtoSchema.Proofs.CommandLine.Steps

/-!
What a run over a row of inputs leaves behind. The inputs are done one after the other up to the
first that fails. The files, what is printed and what is reported come from the inputs that are
done, and nothing is read after the one that fails.
-/
namespace ProtoSchema.CommandLine.Render
open FileSystem (Path Tree Node)
open Machine (bind_run workingDirectory_run makeDirectories_run)

def IsLogLine (line : String) : Prop :=
  ∃ message, line = "INFO " ++ message ++ "\n" ∨ line = "DEBUG " ++ message ++ "\n"

/-- A text made of lines of the log. There are none unless the program is asked for them. -/
def IsLog (settings : Settings) (text : String) : Prop :=
  ∃ lines : List String, text = String.join lines ∧ (settings.verbosity = 0 → lines = []) ∧
    ∀ line ∈ lines, IsLogLine line

namespace IsLog
variable {settings : Settings}

theorem empty : IsLog settings "" := ⟨[], String.join_nil.symm, fun _ => rfl, nofun⟩

theorem append {first second : String} (hFirst : IsLog settings first)
    (hSecond : IsLog settings second) : IsLog settings (first ++ second) := by
  obtain ⟨lines, rfl, hQuiet, hLines⟩ := hFirst
  obtain ⟨more, rfl, hQuiet', hMore⟩ := hSecond
  refine ⟨lines ++ more, String.join_append.symm, fun h => ?_, fun line hLine => ?_⟩
  · rw [hQuiet h, hQuiet' h, List.nil_append]
  · exact (List.mem_append.mp hLine).elim (hLines line) (hMore line)

theorem of_level {level : Nat} (hLevel : 0 < level) {line : String} (hLine : IsLogLine line) :
    IsLog settings (if level ≤ settings.verbosity then line else "") := by
  by_cases h : level ≤ settings.verbosity
  · rw [if_pos h]
    refine ⟨[line], ?_, fun hQuiet => by omega, List.forall_mem_singleton.mpr hLine⟩
    rw [String.join_cons, String.join_nil, String.append_empty]
  · rw [if_neg h]
    exact empty

theorem infoLog (message : String) : IsLog settings (infoLog settings message) :=
  of_level (by decide) ⟨message, .inl rfl⟩

theorem debugLog (message : String) : IsLog settings (debugLog settings message) :=
  of_level (by decide) ⟨message, .inr rfl⟩

theorem loadLog (locate : String → Option Path) (files : Tree) (input : String) :
    IsLog settings (loadLog settings locate files input) := by
  unfold Render.loadLog
  split
  · exact empty
  · refine append (infoLog _) ?_
    split
    · exact debugLog _
    · exact empty

theorem doneLog (outDir : Option Path) (locate : String → Option Path) (files : Tree)
    (input : String) : IsLog settings (doneLog settings outDir locate files input) := by
  refine append (loadLog locate files input) ?_
  cases outDir with
  | none => exact empty
  | some directory => exact infoLog _

end IsLog

/-- What was put last at a path, if these texts have been put in order. -/
def lastPut (directory : Path) (inputs texts : List String) (path : Path) : Option String :=
  ((inputs.zip texts).reverse.find? fun (input, _) => directory ++ [outputName input] = path).map
    Prod.snd

theorem lastPut_cons (directory : Path) (input text : String) (inputs texts : List String)
    (path : Path) : lastPut directory (input :: inputs) (text :: texts) path =
      (lastPut directory inputs texts path).or
        (if path = directory ++ [outputName input] then some text else none) := by
  rw [lastPut, List.zip_cons_cons, List.reverse_cons, List.find?_append, Option.map_or, ← lastPut,
    List.find?_singleton]
  by_cases h : path = directory ++ [outputName input]
  · simp [h]
  · simp [h, Ne.symm h]

/-- The files are the same, except at the output directory, above it, and where texts are put. -/
def OnlyPuts (outDir : Option Path) (inputs texts : List String) (files final : Tree) : Prop :=
  match outDir with
  | none => final = files
  | some directory => ∀ path, Tree.look path final =
      match lastPut directory inputs texts path with
      | some text => some (.file text.toUTF8)
      | none => if path <+: directory then some .directory else Tree.look path files

/-- The output directory is made if it is not there. -/
def Opened (outDir : Option Path) (files opened : Tree) : Prop :=
  match outDir with
  | none => opened = files
  | some directory => files.makeDirectories directory = .ok opened

/-- The path is not that of an input among these. -/
def NotAmong (locate : String → Option Path) (inputs : List String) (path : Path) : Prop :=
  ∀ input ∈ inputs, locate input ≠ some path

section
variable {settings : Settings} {outDir : Option Path} {exempt : Path → Prop}

theorem loadAt_eq_of_agree {files others : Tree} (hAgree : files.AgreeBut exempt others)
    {path : Path} (h : ¬ exempt path) : loadAt files path = loadAt others path := by
  rw [loadAt, loadAt, hAgree.read_eq h]

theorem loadIn_eq_of_agree {files others : Tree} (hAgree : files.AgreeBut exempt others)
    {locate : String → Option Path} {input : String}
    (h : ∀ path, locate input = some path → ¬ exempt path) :
    loadIn locate files input = loadIn locate others input := by
  unfold loadIn
  cases hPath : locate input with
  | none => rfl
  | some path => exact loadAt_eq_of_agree hAgree (h path hPath)

theorem Put.agree {input text : String} {files written others : Tree}
    (h : Put outDir input text files written) (hAgree : files.AgreeBut exempt others) :
    ∃ left, Put outDir input text others left ∧ written.AgreeBut exempt left := by
  cases outDir with
  | none =>
    cases h
    exact ⟨others, rfl, hAgree⟩
  | some directory => exact hAgree.write h

theorem Opened.agree {files opened others : Tree} (h : Opened outDir files opened)
    (hAgree : files.AgreeBut exempt others) :
    ∃ left, Opened outDir others left ∧ opened.AgreeBut exempt left := by
  cases outDir with
  | none =>
    cases h
    exact ⟨others, rfl, hAgree⟩
  | some directory => exact hAgree.makeDirectories h

theorem loadLog_eq_of_agree {files others : Tree} (hAgree : files.AgreeBut exempt others)
    {locate : String → Option Path} {input : String}
    (h : ∀ path, locate input = some path → ¬ exempt path) :
    loadLog settings locate files input = loadLog settings locate others input := by
  unfold loadLog
  cases hPath : locate input with
  | none => rfl
  | some path =>
    dsimp only
    rw [loadAt_eq_of_agree hAgree (h path hPath)]

/-- A step is the same whatever the files hold that it does not read. -/
theorem Step.agree {machine next : Machine} {input text : String}
    (h : Step settings outDir machine input text next) {files : Tree}
    (hAgree : machine.files.AgreeBut exempt files)
    (hRead : ∀ path, machine.locate input = some path → ¬ exempt path) :
    ∃ left, Step settings outDir { machine with files } input text { next with files := left } ∧
      next.files.AgreeBut exempt left := by
  obtain ⟨left, hPut, hLeft⟩ := h.put.agree hAgree
  refine ⟨left, ⟨?_, hPut, ?_⟩, hLeft⟩
  · rw [textIn, ← loadIn_eq_of_agree hAgree hRead]
    exact h.text_eq
  · unfold doneLog
    rw [← loadLog_eq_of_agree hAgree hRead, h.next_eq]
    rfl

theorem Step.surroundings {machine next : Machine} {input text : String}
    (h : Step settings outDir machine input text next) :
    next.workingDirectory = machine.workingDirectory ∧ next.home = machine.home := by
  rw [h.next_eq]
  exact ⟨rfl, rfl⟩

theorem Step.locate_eq {machine next : Machine} {input text : String}
    (h : Step settings outDir machine input text next) : next.locate = machine.locate := by
  rw [h.next_eq]

/-- A failure is the same too. -/
theorem Fails.agree {machine final : Machine} {input : String} {failure : Failure}
    (h : Fails settings machine input failure final) {files : Tree}
    (hAgree : machine.files.AgreeBut exempt files)
    (hRead : ∀ path, machine.locate input = some path → ¬ exempt path) :
    Fails settings { machine with files } input failure { final with files } := by
  refine ⟨?_, h.isReported, ?_⟩
  · rw [textIn, ← loadIn_eq_of_agree hAgree hRead]
    exact h.text_eq
  · rw [← loadLog_eq_of_agree hAgree hRead, h.final_eq]

namespace Steps

theorem surroundings {machine next : Machine} {inputs texts : List String}
    (h : Steps settings outDir machine inputs texts next) :
    next.workingDirectory = machine.workingDirectory ∧ next.home = machine.home := by
  induction h with
  | nil => exact ⟨rfl, rfl⟩
  | cons first _ ih => exact ⟨ih.1.trans first.surroundings.1, ih.2.trans first.surroundings.2⟩

theorem locate_eq {machine next : Machine} {inputs texts : List String}
    (h : Steps settings outDir machine inputs texts next) : next.locate = machine.locate := by
  induction h with
  | nil => rfl
  | cons first _ ih => rw [ih, first.locate_eq]

theorem agree {machine next : Machine} {inputs texts : List String}
    (h : Steps settings outDir machine inputs texts next) {files : Tree}
    (hAgree : machine.files.AgreeBut exempt files)
    (hRead : ∀ input ∈ inputs, ∀ path, machine.locate input = some path → ¬ exempt path) :
    ∃ left, Steps settings outDir { machine with files } inputs texts { next with files := left } ∧
      next.files.AgreeBut exempt left := by
  induction h generalizing files with
  | nil machine => exact ⟨files, .nil _, hAgree⟩
  | cons first _ ih =>
    obtain ⟨hFirst, hRest⟩ := List.forall_mem_cons.mp hRead
    obtain ⟨between, hStep, hBetween⟩ := first.agree hAgree hFirst
    rw [← first.locate_eq] at hRest
    obtain ⟨left, hSteps, hLeft⟩ := ih hBetween hRest
    exact ⟨left, .cons hStep hSteps, hLeft⟩

theorem printed_eq {machine next : Machine} {inputs texts : List String}
    (h : Steps settings outDir machine inputs texts next) :
    next.printed = machine.printed ++ shown settings outDir (String.join texts) := by
  induction h with
  | nil machine =>
    have hNothing : shown settings outDir "" = "" := by rw [shown, ite_self]
    rw [String.join_nil, hNothing, String.append_empty]
  | @cons machine next last input text inputs texts first _ ih =>
    have hShown : shown settings outDir (text ++ String.join texts) =
        shown settings outDir text ++ shown settings outDir (String.join texts) := by
      simp only [shown]
      split
      · rfl
      · rw [String.append_empty]
    rw [ih, first.next_eq, String.join_cons, hShown, String.append_assoc]

theorem reported_eq {machine next : Machine} {inputs texts : List String}
    (h : Steps settings outDir machine inputs texts next) :
    ∃ log, IsLog settings log ∧ next.reported = machine.reported ++ log := by
  induction h with
  | nil machine => exact ⟨"", .empty, String.append_empty.symm⟩
  | @cons machine next last input text inputs texts first _ ih =>
    obtain ⟨log, hLog, hReported⟩ := ih
    refine ⟨doneLog settings outDir machine.locate machine.files input ++ log,
      .append (.doneLog ..) hLog, ?_⟩
    rw [hReported, first.next_eq, String.append_assoc]

theorem files_eq {machine next : Machine} {inputs texts : List String}
    (h : Steps settings none machine inputs texts next) : next.files = machine.files := by
  induction h with
  | nil machine => rfl
  | cons first _ ih => exact ih.trans first.put

theorem look_files {directory : Path} {machine next : Machine} {inputs texts : List String}
    (h : Steps settings (some directory) machine inputs texts next) (path : Path) :
    Tree.look path next.files = match lastPut directory inputs texts path with
      | some text => some (.file text.toUTF8)
      | none => Tree.look path machine.files := by
  induction h with
  | nil machine => rfl
  | @cons machine next last input text inputs texts first _ ih =>
    have hPut := Tree.look_writeAt first.put path
    rw [ih, lastPut_cons, hPut]
    cases lastPut directory inputs texts path with
    | some later => rfl
    | none =>
      by_cases hPath : path = directory ++ [outputName input]
      · rw [if_pos hPath, if_pos hPath]
        rfl
      · rw [if_neg hPath, if_neg hPath]
        rfl

end Steps

theorem onlyPuts_of_steps {machine next : Machine} {files opened : Tree}
    {inputs texts : List String} (hOpened : Opened outDir files opened)
    (h : Steps settings outDir { machine with files := opened } inputs texts next) :
    OnlyPuts outDir inputs texts files next.files := by
  cases outDir with
  | none => exact h.files_eq.trans hOpened
  | some directory =>
    intro path
    have hMade : Tree.look path opened =
        if path <+: directory then some .directory else Tree.look path files :=
      Tree.look_makeDirectoriesAt hOpened path
    rw [h.look_files path, hMade]

/-- A run makes its output directory and then goes through its inputs. -/
theorem render_run_eq_ok_iff {settings : Settings} {inputs : List String} {machine final : Machine}
    {code : Nat} :
    (render settings inputs : StateM Machine (Except Failure Nat)).run machine =
      (.ok code, final) ↔
    ∃ opened, Opened (outDir? settings machine.workingDirectory) machine.files opened ∧
      (renderAll settings (outDir? settings machine.workingDirectory) inputs :
        StateM Machine (Except Failure Nat)).run { machine with files := opened } =
        (.ok code, final) := by
  unfold render outDir?
  split
  · constructor
    · exact fun h => ⟨machine.files, rfl, h⟩
    · rintro ⟨opened, rfl, h⟩
      exact h
  · rw [bind_run, workingDirectory_run, bind_run, makeDirectories_run, Machine.change]
    unfold Opened
    dsimp only
    cases machine.files.makeDirectories (Path.resolve machine.workingDirectory settings.outDir) with
    | error cause =>
      constructor
      · intro h
        cases h
      · rintro ⟨opened, hOpened, -⟩
        cases hOpened
    | ok files =>
      constructor
      · exact fun h => ⟨files, rfl, h⟩
      · rintro ⟨opened, hOpened, h⟩
        cases hOpened
        exact h

end

/-- Neither inputs after these nor files at other paths than theirs make a difference, but for what
these files hold in the end where nothing is put. -/
def Unread (settings : Settings) (inputs : List String) (machine : Machine) (code : Nat)
    (final : Machine) : Prop :=
  ∀ (arguments others : List String) (files : Tree),
    request arguments = .render settings (inputs ++ others) →
    machine.files.AgreeBut (NotAmong machine.locate inputs) files →
    ∃ left, (run arguments : StateM Machine (Except Failure Nat)).run { machine with files } =
        (.ok code, { final with files := left }) ∧
      final.files.AgreeBut (NotAmong machine.locate inputs) left

/-- The end of a run, with what is reported after the log: nothing if no inputs are left, and one
complaint if the first that is left has no text. -/
def Ends (settings : Settings) (machine : Machine) (done rest : List String) (log : String)
    (code : Nat) (final : Machine) : Prop :=
  match rest with
  | [] => code = 0 ∧ final.reported = machine.reported ++ log
  | input :: _ => code = 1 ∧ Unread settings (done ++ [input]) machine code final ∧
      ∃ failure, textIn machine.locate final.files input = .error failure ∧
        failure.isReported ∧
        final.reported = machine.reported ++ log ++ complaint input failure

/-- The course of a run in which these inputs are done, with these texts, before the rest. -/
structure Course (settings : Settings) (machine : Machine) (done texts rest : List String)
    (code : Nat) (final : Machine) : Prop where
  steps : ∃ opened next,
    Opened (outDir? settings machine.workingDirectory) machine.files opened ∧
    Steps settings (outDir? settings machine.workingDirectory) { machine with files := opened }
      done texts next ∧ final.files = next.files
  files : OnlyPuts (outDir? settings machine.workingDirectory) done texts machine.files final.files
  workingDirectory : final.workingDirectory = machine.workingDirectory
  home : final.home = machine.home
  printed : final.printed = machine.printed ++
    shown settings (outDir? settings machine.workingDirectory) (String.join texts)
  reported : ∃ log, IsLog settings log ∧ Ends settings machine done rest log code final

section
variable {settings : Settings} {machine : Machine} {opened : Tree}

theorem run_eq_render {arguments inputs : List String}
    (hRequest : request arguments = .render settings inputs) :
    (run arguments : StateM Machine (Except Failure Nat)) = render settings inputs := by
  rw [run, hRequest]

theorem course_of_steps {next : Machine} {inputs texts : List String}
    (hOpened : Opened (outDir? settings machine.workingDirectory) machine.files opened)
    (h : Steps settings (outDir? settings machine.workingDirectory)
      { machine with files := opened } inputs texts next) :
    Course settings machine inputs texts [] 0 next := by
  obtain ⟨log, hLog, hReported⟩ := h.reported_eq
  exact {
    steps := ⟨opened, next, hOpened, h, rfl⟩
    files := onlyPuts_of_steps hOpened h
    workingDirectory := h.surroundings.1
    home := h.surroundings.2
    printed := h.printed_eq
    reported := ⟨log, hLog, rfl, hReported⟩ }

theorem unread_of_fails {next final : Machine} {done texts : List String} {input : String}
    {failure : Failure}
    (hOpened : Opened (outDir? settings machine.workingDirectory) machine.files opened)
    (hSteps : Steps settings (outDir? settings machine.workingDirectory)
      { machine with files := opened } done texts next)
    (hFails : Fails settings next input failure final) :
    Unread settings (done ++ [input]) machine 1 final := by
  intro arguments others files hRequest hAgree
  have hRead : ∀ read ∈ done ++ [input], ∀ path, machine.locate read = some path →
      ¬ NotAmong machine.locate (done ++ [input]) path :=
    fun read hMem path hPath h => h read hMem hPath
  obtain ⟨hDone, hInput⟩ := List.forall_mem_append.mp hRead
  obtain ⟨opened', hOpened', hAgree⟩ := hOpened.agree hAgree
  obtain ⟨left, hSteps', hAgree⟩ := hSteps.agree hAgree hDone
  have hFails' := hFails.agree hAgree
    (hSteps.locate_eq ▸ hInput input List.mem_cons_self)
  refine ⟨left, ?_, ?_⟩
  · rw [run_eq_render hRequest, render_run_eq_ok_iff]
    refine ⟨opened', hOpened', ?_⟩
    rw [List.append_assoc, renderAll_of_steps hSteps', List.singleton_append,
      renderAll_of_fails hFails']
  · rw [hFails.final_eq]
    exact hAgree

theorem course_of_fails {next final : Machine} {done texts : List String} {input : String}
    {failure : Failure}
    (hOpened : Opened (outDir? settings machine.workingDirectory) machine.files opened)
    (hSteps : Steps settings (outDir? settings machine.workingDirectory)
      { machine with files := opened } done texts next)
    (hFails : Fails settings next input failure final) (others : List String) :
    Course settings machine done texts (input :: others) 1 final := by
  have hUnread := unread_of_fails hOpened hSteps hFails
  have hText := hFails.text_eq
  have hCourse := course_of_steps hOpened hSteps
  obtain ⟨log, hLog, -, hReported⟩ := hCourse.reported
  rw [hFails.final_eq] at hUnread ⊢
  exact {
    steps := ⟨opened, next, hOpened, hSteps, rfl⟩
    files := hCourse.files
    workingDirectory := hCourse.workingDirectory
    home := hCourse.home
    printed := hCourse.printed
    reported := by
      refine ⟨log ++ loadLog settings next.locate next.files input,
        hLog.append (.loadLog ..), rfl, hUnread, failure, ?_, hFails.isReported, ?_⟩
      · have hLocate : next.locate = machine.locate := hSteps.locate_eq
        rw [← hLocate]
        exact hText
      · rw [hReported]
        simp only [String.append_assoc] }

end

/-- Files of which the second has no schema, and of which none is called `c.json`. -/
def twoFiles : Machine where
  workingDirectory := ["w"]
  files := .directory [("w", .directory [
    ("a.json", .file "\x7b\"package\": \"p\"\x7d".toUTF8), ("b.json", .file "\x7b".toUTF8)])]

end ProtoSchema.CommandLine.Render
