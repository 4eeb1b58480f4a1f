import ProtoSchema.Proofs.CommandLine.Inputs
import ProtoSchema.Proofs.CommandLine.Stops

/-!
Inputs that are done alone, done together. They disturb each other where the text of one is put in
the place of a later one, and where the texts of two are put in the same place.
-/
namespace ProtoSchema.CommandLine.Render
open FileSystem (Path Tree)

section
variable {settings : Settings} {directory : Path} {machine next : Machine} {input text : String}
  {inputs texts : List String}

theorem HoldsText.not_input {path : Path} {files : Tree} (h : HoldsText path files)
    {locate : String → Option Path} (hPath : locate input = some path) :
    ∃ failure, textIn locate files input = .error failure ∧ failure.isReported := by
  obtain ⟨schema, hLook⟩ := h
  have hRead := Tree.read_eq_ok_iff.mpr hLook
  refine ⟨.source (.malformed path.text ⟨1, 1⟩ .valueExpected), ?_, rfl⟩
  rw [textIn, loadIn_of_read hPath hRead, schemaOf_text]
  rfl

theorem Step.holdsText (h : Step settings (some directory) machine input text next) :
    HoldsText (directory ++ [outputName input]) next.files := by
  obtain ⟨schema, -, rfl⟩ := exists_schema_of_textIn h.text_eq
  exact ⟨schema, by rw [Tree.look_write h.put, if_pos rfl]⟩

/-- What is a proto3 text stays one, though it may be replaced by another. -/
theorem Step.keeps_text (h : Step settings (some directory) machine input text next) {path : Path}
    (hHolds : HoldsText path machine.files) : HoldsText path next.files := by
  by_cases hPath : path = directory ++ [outputName input]
  · rw [hPath]
    exact h.holdsText
  · obtain ⟨schema, hLook⟩ := hHolds
    exact ⟨schema, by rw [Tree.look_write h.put, if_neg hPath, hLook]⟩

/-- No input is done after a proto3 text has been put in its place. -/
theorem Steps.locate_ne {final : Machine}
    (h : Steps settings (some directory) machine inputs texts final) {path : Path}
    (hHolds : HoldsText path machine.files) :
    ∀ input ∈ inputs, machine.locate input ≠ some path := by
  induction h with
  | nil => exact nofun
  | cons first rest ih =>
    refine List.forall_mem_cons.mpr ⟨fun hPath => ?_, ?_⟩
    · obtain ⟨failure, hText, -⟩ := hHolds.not_input hPath
      rw [first.text_eq] at hText
      cases hText
    · rw [← first.locate_eq]
      exact ih (first.keeps_text hHolds)

/-- Where all inputs are done, none is in the place of the text of an earlier one. -/
theorem Steps.pairwise {final : Machine}
    (h : Steps settings (some directory) machine inputs texts final) :
    inputs.Pairwise fun earlier later =>
      machine.locate later ≠ some (directory ++ [outputName earlier]) := by
  induction h with
  | nil => exact .nil
  | cons first rest ih =>
    rw [first.locate_eq] at ih
    refine .cons ?_ ih
    rw [← first.locate_eq]
    exact rest.locate_ne first.holdsText

theorem Steps.keeps_text {final : Machine}
    (h : Steps settings (some directory) machine inputs texts final) {path : Path}
    (hHolds : HoldsText path machine.files) : HoldsText path final.files := by
  induction h with
  | nil => exact hHolds
  | cons first _ ih => exact ih (first.keeps_text hHolds)

/-- Where no proto3 text has been put, everything is as before. -/
theorem Steps.look_eq_or_holdsText {final : Machine}
    (h : Steps settings (some directory) machine inputs texts final) (path : Path) :
    Tree.look path final.files = Tree.look path machine.files ∨ HoldsText path final.files := by
  induction h with
  | nil => exact .inl rfl
  | @cons machine next last input text inputs texts first rest ih =>
    by_cases hPath : path = directory ++ [outputName input]
    · rw [hPath]
      exact .inr (rest.keeps_text first.holdsText)
    · rw [Tree.look_write first.put, if_neg hPath] at ih
      exact ih

/-- What can be written before a text is put can be written after it. -/
theorem Put.exists_put {files written : Tree} (h : Put (some directory) input text files written)
    {other content : String} (hOther : ∃ left, Put (some directory) other content files left) :
    ∃ left, Put (some directory) other content written left := by
  have hBefore := Tree.exists_write_iff.mp hOther
  refine Tree.exists_write_iff.mpr ⟨?_, fun above hAbove hNe => ?_⟩
  · exact mt (h.look_directory_iff _).mp hBefore.1
  · exact (h.look_directory_iff above).mpr (hBefore.2 above hAbove hNe)

/-- Inputs are done one after the other if each has a text at the start that can be written, and no
text is put where a later one is read. -/
theorem exists_steps_of_pairwise (settings : Settings) {text : String → String}
    (hText : ∀ input ∈ inputs,
      textIn machine.locate machine.files input = .ok (text input))
    (hPut : ∀ input ∈ inputs,
      ∃ written, Put (some directory) input (text input) machine.files written)
    (hApart : inputs.Pairwise fun earlier later =>
      machine.locate later ≠ some (directory ++ [outputName earlier])) :
    ∃ final, Steps settings (some directory) machine inputs (inputs.map text) final := by
  induction inputs generalizing machine with
  | nil => exact ⟨machine, .nil machine⟩
  | cons input inputs ih =>
    obtain ⟨hFirst, hRest⟩ := List.forall_mem_cons.mp hText
    obtain ⟨⟨written, hWritten⟩, hPutRest⟩ := List.forall_mem_cons.mp hPut
    obtain ⟨hNe, hApart⟩ := List.pairwise_cons.mp hApart
    obtain ⟨next, hStep, rfl⟩ := exists_step settings hFirst hWritten
    have hTextRest : ∀ later ∈ inputs,
        textIn next.locate next.files later = .ok (text later) := by
      intro later hLater
      rw [hStep.locate_eq]
      refine textIn_of_look (hRest later hLater) fun path hPath => ?_
      have hOther : path ≠ directory ++ [outputName input] := by
        rintro rfl
        exact hNe later hLater hPath
      rw [Tree.look_write hStep.put, if_neg hOther]
    rw [← hStep.locate_eq] at hApart
    obtain ⟨final, hSteps⟩ := ih hTextRest
      (fun later hLater => hStep.put.exists_put (hPutRest later hLater)) hApart
    exact ⟨final, .cons hStep hSteps⟩

end

section
variable {settings : Settings} {machine : Machine} {arguments inputs : List String}
  {directory : Path} {opened : Tree} {text : String → String}
  (hRequest : request arguments = .render settings inputs)
  (hDirectory : outDir? settings machine.workingDirectory = some directory)
  (hMade : machine.files.makeDirectories directory = .ok opened)
  (hText : ∀ input ∈ inputs, textIn machine.locate opened input = .ok (text input))
  (hPut : ∀ input ∈ inputs, ∃ written, Put (some directory) input (text input) opened written)
include hRequest hDirectory hMade hText hPut

/-- Inputs that have texts at the start, none of which is put where a later one is read. -/
theorem run_of_pairwise (hApart : inputs.Pairwise fun earlier later =>
      machine.locate later ≠ some (directory ++ [outputName earlier])) :
    ∃ final, (run arguments : StateM Machine (Except Failure Nat)).run machine = (.ok 0, final) ∧
      Steps settings (some directory) { machine with files := opened } inputs (inputs.map text)
        final := by
  have hSteps : ∃ final, Steps settings (some directory) { machine with files := opened } inputs
      (inputs.map text) final := exists_steps_of_pairwise settings hText hPut hApart
  obtain ⟨final, hSteps⟩ := hSteps
  have hOpened : Opened (outDir? settings machine.workingDirectory) machine.files opened := by
    rw [hDirectory]
    exact hMade
  refine ⟨final, ?_, hSteps⟩
  rw [run_eq_render hRequest, render_run_of_opened hOpened, hDirectory, ← List.append_nil inputs,
    renderAll_of_steps hSteps]
  rfl

/-- The first input that is read where a text has been put is complained about. -/
theorem run_of_not_pairwise (hOverlap : ¬ inputs.Pairwise fun earlier later =>
      machine.locate later ≠ some (directory ++ [outputName earlier])) :
    ∃ final, (run arguments : StateM Machine (Except Failure Nat)).run machine =
      (.ok 1, final) := by
  have hOpened : Opened (outDir? settings machine.workingDirectory) machine.files opened := by
    rw [hDirectory]
    exact hMade
  rw [run_eq_render hRequest, render_run_of_opened hOpened, hDirectory]
  rcases exists_steps settings (some directory) { machine with files := opened } inputs with
    ⟨texts, next, hSteps⟩ | ⟨done, input, others, texts, next, rfl, hSteps, hStop⟩
  · exact absurd hSteps.pairwise hOverlap
  rw [renderAll_of_steps hSteps]
  have hMem : input ∈ done ++ input :: others := List.mem_append_cons_self
  have hLocate : next.locate = machine.locate := hSteps.locate_eq
  rcases step_or_stop settings (some directory) next input with
    hStep | ⟨failure, hFailure⟩ | ⟨_, content, cause, hEq, -, hWrite⟩
  · exact absurd hStep hStop
  · obtain ⟨path, -, hPath, -⟩ := exists_file_of_textIn (hText input hMem)
    rcases hSteps.look_eq_or_holdsText path with hSame | hHolds
    · have hLook : ∀ other, machine.locate input = some other →
          Tree.look other next.files = Tree.look other opened := by
        intro other hOther
        rw [hPath] at hOther
        cases hOther
        exact hSame
      rw [hLocate, textIn_of_look (hText input hMem) hLook] at hFailure
      cases hFailure
    · obtain ⟨failure, hText, hReported⟩ := hHolds.not_input hPath
      rw [← hLocate] at hText
      exact ⟨_, renderAll_of_fails ⟨hText, hReported, rfl⟩ others⟩
  · -- Nothing that the inputs before leave behind keeps a text from being written.
    cases hEq
    have hStart : Steps settings (some directory) { machine with files := opened } [] []
        { machine with files := opened } := .nil _
    have hFree := (exists_put_iff hMade hStart input (text input)).mp (hPut input hMem)
    obtain ⟨written, hWritten⟩ := (exists_put_iff hMade hSteps input content).mpr hFree
    rw [hWrite] at hWritten
    cases hWritten

end

/-- Where the text of an input is put. -/
def destination (machine : Machine) (outDir input : String) : Path :=
  Path.resolve machine.workingDirectory outDir ++ [outputName input]

/-- No text is put where an input after it is read. -/
def Apart (machine : Machine) (outDir : String) (inputs : List String) : Prop :=
  inputs.Pairwise fun earlier later =>
    machine.locate later ≠ some (destination machine outDir earlier)

/-- A run on this input alone that exits with zero. -/
def Alone (machine : Machine) (outDir input : String) (final : Machine) : Prop :=
  ∃ arguments settings, request arguments = .render settings [input] ∧ settings.outDir = outDir ∧
    (run arguments : StateM Machine (Except Failure Nat)).run machine = (.ok 0, final)

/-- The same text is in a file of this path in both trees. -/
def SameText (path : Path) (files others : Tree) : Prop :=
  ∃ text : String, files.read path = .ok text.toUTF8 ∧ others.read path = .ok text.toUTF8

namespace SameText
variable {path : Path} {files others more : Tree}

theorem symm (h : SameText path files others) : SameText path others files := by
  obtain ⟨text, hFiles, hOthers⟩ := h
  exact ⟨text, hOthers, hFiles⟩

theorem trans (h : SameText path files others) (hMore : SameText path others more) :
    SameText path files more := by
  obtain ⟨text, hFiles, hOthers⟩ := h
  obtain ⟨other, hOthers', hMore⟩ := hMore
  rw [hOthers] at hOthers'
  exact ⟨text, hFiles, hMore.trans hOthers'.symm⟩

end SameText

section
variable {settings : Settings} {machine : Machine} {inputs : List String}

/-- What an input does alone it does from the output directory on, with its text at the start. -/
theorem exists_text_of_alone {outDir input : String} {final : Machine} (hOutDir : outDir ≠ "")
    (h : Alone machine outDir input final) :
    ∃ opened text, machine.files.makeDirectories (Path.resolve machine.workingDirectory outDir) =
        .ok opened ∧
      textIn machine.locate opened input = .ok text ∧
      Put (some (Path.resolve machine.workingDirectory outDir)) input text opened final.files := by
  obtain ⟨arguments, settings, hRequest, rfl, hRun⟩ := h
  rw [run_eq_render hRequest, render_run_eq_ok_iff, outDir?, if_neg hOutDir] at hRun
  obtain ⟨opened, hOpened, hRun⟩ := hRun
  rcases steps_of_renderAll hRun with ⟨texts, -, hSteps⟩ | ⟨_, _, _, _, _, _, -, hCode, -⟩
  · cases hSteps with
    | cons first rest =>
      cases rest
      exact ⟨opened, _, hOpened, first.text_eq, first.put⟩
  · cases hCode

end

section
variable {directory : Path} {inputs : List String} {text : String → String}

theorem lastPut_eq_none {path : Path}
    (h : ∀ input ∈ inputs, path ≠ directory ++ [outputName input]) :
    lastPut directory inputs (inputs.map text) path = none := by
  induction inputs with
  | nil => rfl
  | cons input inputs ih =>
    obtain ⟨hFirst, hRest⟩ := List.forall_mem_cons.mp h
    rw [List.map_cons, lastPut_cons, ih hRest, if_neg hFirst]
    rfl

theorem lastPut_append_cons {last : String} {after : List String}
    (h : ∀ later ∈ after, outputName later ≠ outputName last) (before : List String) :
    lastPut directory (before ++ last :: after) ((before ++ last :: after).map text)
      (directory ++ [outputName last]) = some (text last) := by
  induction before with
  | nil =>
    have hAfter : ∀ later ∈ after,
        directory ++ [outputName last] ≠ directory ++ [outputName later] := by
      intro later hLater hEq
      exact h later hLater (List.singleton_inj.mp (List.append_cancel_left hEq)).symm
    rw [List.nil_append, List.map_cons, lastPut_cons, lastPut_eq_none hAfter, if_pos rfl]
    rfl
  | cons input before ih =>
    rw [List.cons_append, List.map_cons, lastPut_cons, ih]
    rfl

/-- Among inputs whose texts go to the same place there is a last one. -/
theorem exists_last {input : String} (h : input ∈ inputs) :
    ∃ before last after, inputs = before ++ last :: after ∧ outputName last = outputName input ∧
      ∀ later ∈ after, outputName later ≠ outputName last := by
  have hSome : (inputs.reverse.find? fun other => outputName other = outputName input).isSome :=
    List.find?_isSome.mpr ⟨input, List.mem_reverse.mpr h, by simp⟩
  obtain ⟨last, hLast⟩ := Option.isSome_iff_exists.mp hSome
  obtain ⟨hName, after, before, hInputs, hAfter⟩ := List.find?_eq_some_iff_append.mp hLast
  simp only [decide_eq_true_eq] at hName
  refine ⟨before.reverse, last, after.reverse, ?_, hName, fun later hLater => ?_⟩
  · rw [← List.reverse_reverse inputs, hInputs]
    simp
  · have hNot := hAfter later (List.mem_reverse.mp hLater)
    rw [hName]
    simpa using hNot

end

section
variable {machine : Machine} {outDir : String} {inputs : List String} {lone : String → Machine}

/-- If every input has a text, then a function gives them. -/
theorem exists_text {P : String → String → Prop} (h : ∀ input ∈ inputs, ∃ text, P input text) :
    ∃ text : String → String, ∀ input ∈ inputs, P input (text input) := by
  have hAll : ∀ input, ∃ text, input ∈ inputs → P input text := by
    intro input
    by_cases hInput : input ∈ inputs
    · obtain ⟨text, hText⟩ := h input hInput
      exact ⟨text, fun _ => hText⟩
    · exact ⟨"", fun hMem => absurd hMem hInput⟩
  exact Classical.skolem.mp hAll

/-- Inputs that are done alone have texts at the start. -/
theorem exists_texts_of_alone (hOutDir : outDir ≠ "") (hInputs : inputs ≠ [])
    (hAlone : ∀ input ∈ inputs, Alone machine outDir input (lone input)) :
    ∃ opened, ∃ text : String → String,
      machine.files.makeDirectories (Path.resolve machine.workingDirectory outDir) = .ok opened ∧
      (∀ input ∈ inputs, textIn machine.locate opened input = .ok (text input)) ∧
      ∀ input ∈ inputs, Put (some (Path.resolve machine.workingDirectory outDir)) input
        (text input) opened (lone input).files := by
  obtain ⟨first, hFirst⟩ := List.exists_mem_of_ne_nil inputs hInputs
  obtain ⟨opened, -, hMade, -⟩ := exists_text_of_alone hOutDir (hAlone first hFirst)
  have hText : ∀ input ∈ inputs, ∃ text,
      textIn machine.locate opened input = .ok text ∧
      Put (some (Path.resolve machine.workingDirectory outDir)) input text opened
        (lone input).files := by
    intro input hInput
    obtain ⟨opened', text, hMade', hText, hPut⟩ :=
      exists_text_of_alone hOutDir (hAlone input hInput)
    rw [hMade] at hMade'
    cases hMade'
    exact ⟨text, hText, hPut⟩
  obtain ⟨text, hText⟩ := exists_text hText
  exact ⟨opened, text, hMade, fun input h => (hText input h).1, fun input h => (hText input h).2⟩

/-- If the last text for each place is there in the end, then every text is there exactly if those
for the same place are the same. -/
theorem sameText_iff_of_last {final : Machine}
    (hLast : ∀ before last after, inputs = before ++ last :: after →
      (∀ later ∈ after, outputName later ≠ outputName last) →
      SameText (destination machine outDir last) (lone last).files final.files) :
    (∀ input ∈ inputs,
        SameText (destination machine outDir input) (lone input).files final.files) ↔
      ∀ a ∈ inputs, ∀ b ∈ inputs, outputName a = outputName b →
        SameText (destination machine outDir a) (lone a).files (lone b).files := by
  have hPlace : ∀ a b, outputName a = outputName b →
      destination machine outDir a = destination machine outDir b := by
    intro a b h
    rw [destination, destination, h]
  constructor
  · intro h a ha b hb hName
    have hOther := h b hb
    rw [← hPlace a b hName] at hOther
    exact (h a ha).trans hOther.symm
  · intro h input hInput
    obtain ⟨before, last, after, hInputs, hName, hAfter⟩ := exists_last hInput
    have hMem : last ∈ inputs := by
      rw [hInputs]
      exact List.mem_append_cons_self
    have hFinal := hLast before last after hInputs hAfter
    rw [hPlace last input hName] at hFinal
    exact (h input hInput last hMem hName.symm).trans hFinal

end

/-- Two inputs of one name in two directories, and two in one that are called alike. -/
def crossed : Machine where
  workingDirectory := ["w"]
  files := .directory [("w", .directory [
    ("a", .directory [("x.json", .file "\x7b\"package\": \"p\"\x7d".toUTF8)]),
    ("b", .directory [("x.json", .file "\x7b\"package\": \"q\"\x7d".toUTF8)]),
    ("g", .directory [("a.json", .file "\x7b\x7d".toUTF8), ("a.proto", .file "\x7b\x7d".toUTF8)])])]

/-- The code of a run on these inputs, and the machine after it. -/
def crossedRun (outDir : String) (inputs : List String) : Except Failure Nat × Machine :=
  (run (inputs ++ ["-o", outDir]) : StateM Machine (Except Failure Nat)).run crossed

private theorem alone_crossed {outDir input : String}
    (hRequest : request [input, "-o", outDir] = .render { outDir } [input])
    (hCode : (crossedRun outDir [input]).1 = .ok 0) :
    Alone crossed outDir input (crossedRun outDir [input]).2 :=
  ⟨[input, "-o", outDir], { outDir }, hRequest, rfl, Prod.ext hCode rfl⟩

private theorem alone_crossed_out : ∀ input ∈ ["a/x.json", "b/x.json"],
    Alone crossed "out" input (crossedRun "out" [input]).2 := by
  have hRequest : ∀ input ∈ ["a/x.json", "b/x.json"],
      request [input, "-o", "out"] = .render { outDir := "out" } [input] := by decide +kernel
  have hCode : ∀ input ∈ ["a/x.json", "b/x.json"], (crossedRun "out" [input]).1 = .ok 0 := by
    decide +kernel
  exact fun input h => alone_crossed (hRequest input h) (hCode input h)

end ProtoSchema.CommandLine.Render
