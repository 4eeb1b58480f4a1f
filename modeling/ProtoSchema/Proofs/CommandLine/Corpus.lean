import ProtoSchema.Proofs.CommandLine.Generated
import ProtoSchema.Proofs.CommandLine.Numbers
import ProtoSchema.Proofs.CommandLine.Together
import ProtoSchema.Proofs.Json.Plain
import ProtoSchema.Proofs.Source

/-!
The two programs agree. The documents of a generated set are rendered as the texts that have been
generated beside them.
-/
namespace ProtoSchema.CommandLine
open FileSystem (Path Tree)
open Generate (documentName documentText outputs corpus)
open Generator (Entry fileName)

namespace Render

/-- A generated document is read as its schema with the types tagged by their names. -/
theorem schemaOf_documentText (path : Path) {schema : Schema} (h : schema.Writable) :
    schemaOf path (documentText schema).toUTF8 = .ok schema.settled := by
  have hPortable := Document.portable_ofSchema h.portable
  have hBlank : ∀ c ∈ "\n".toList, Json.isBlank c = true := by simp [Json.isBlank]
  have hPlain : ∀ c ∈ (documentText schema).toList, Text.Plain c := by
    rw [documentText, String.toList_append]
    exact List.forall_mem_append.mpr
      ⟨Json.plain_write hPortable .indented, Text.plain_of_all (by decide)⟩
  rw [schemaOf_toUTF8, Text.unifyLineEnds_of_plain hPlain, String.ofList_toList, documentText,
    Source.load, Source.readJson_write path.text .indented hBlank hPortable]
  simp only [bind, Except.bind, (Document.readSchema_ofSchema schema).ok h.readable]
  rfl

theorem textIn_of_documentText {locate : String → Option Path} {files : Tree} {path : Path}
    {input : String} {schema : Schema} (h : schema.Writable) (hPath : locate input = some path)
    (hLook : Tree.look path files = some (.file (documentText schema).toUTF8)) :
    textIn locate files input = .ok (Proto.text schema) := by
  rw [textIn, loadIn_of_read hPath (Tree.read_eq_ok_iff.mpr hLook), schemaOf_documentText _ h,
    Except.map, Proto.text_settled]

/-- A file is read as before when a free directory has been made. -/
theorem textIn_of_free {locate : String → Option Path} {directory : Path} {files made : Tree}
    {input text : String} (hText : textIn locate files input = .ok text)
    (hFree : Tree.Free directory files) (hMade : files.makeDirectories directory = .ok made) :
    textIn locate made input = .ok text := by
  obtain ⟨path, content, hPath, hLook⟩ := exists_file_of_textIn hText
  have hApart : ¬ path <+: directory := fun hPrefix => hFree.way _ hPrefix content hLook
  refine textIn_of_look hText fun other hOther => ?_
  rw [hPath] at hOther
  cases hOther
  rw [Tree.look_makeDirectories hMade, if_neg hApart]

section
variable {settings : Settings} {directory : Path} {machine final : Machine}
  {arguments inputs : List String} {text : String → String} {files : List (String × String)}
  (hNames : (files.map Prod.fst).Nodup)
  (hFile : ∀ file ∈ files, ∃ input ∈ inputs, outputName input = file.1)
include hNames hFile

/-- Inputs that are all done fill the output directory. -/
theorem Steps.filled (h : Steps settings (some directory) machine inputs (inputs.map text) final)
    (hInput : ∀ input ∈ inputs, (outputName input, text input) ∈ files) :
    Tree.Filled directory files machine.files final.files := by
  constructor
  case look_file =>
    intro file hMem
    obtain ⟨input, hInputs, hName⟩ := hFile file hMem
    obtain ⟨before, last, after, rfl, hLast, hAfter⟩ := exists_last hInputs
    have hPut : lastPut directory (before ++ last :: after) ((before ++ last :: after).map text)
        (directory ++ [outputName last]) = some (text last) := lastPut_append_cons hAfter before
    have hSame : (outputName last, text last) = file :=
      List.inj_on_of_nodup_map hNames (hInput last (by simp)) hMem (hLast.trans hName)
    rw [← hSame, h.look_files, hPut]
  case look_other =>
    intro path hPath
    have hNotPut : ∀ input ∈ inputs, path ≠ directory ++ [outputName input] :=
      fun input hMem => hPath (outputName input, text input) (hInput input hMem)
    have hNone : lastPut directory inputs (inputs.map text) path = none := lastPut_eq_none hNotPut
    rw [h.look_files, hNone]

/-- Inputs that have texts are rendered into a free directory. It then holds these texts and nothing
else. -/
theorem run_of_free (hRequest : request arguments = .render settings inputs)
    (hDirectory : outDir? settings machine.workingDirectory = some directory)
    (hFree : Tree.Free directory machine.files)
    (hInput : ∀ input ∈ inputs, ∃ text, (outputName input, text) ∈ files ∧
      textIn machine.locate machine.files input = .ok text) :
    ∃ final, (run arguments : StateM Machine (Except Failure Nat)).run machine = (.ok 0, final) ∧
      (settings.stdout = false → final.printed = machine.printed) ∧
      Tree.HoldsExactly directory files final.files := by
  obtain ⟨made, hMade⟩ := hFree.exists_makeDirectories
  obtain ⟨text, hText⟩ := exists_text hInput
  have hVacant : ∀ input, Tree.look (directory ++ [outputName input]) machine.files = none :=
    fun input => hFree.look_inside [outputName input] (List.cons_ne_nil _ _)
  have hPut : ∀ input ∈ inputs, ∃ written,
      Put (some directory) input (text input) made written := by
    intro input _
    have hStart : Steps settings (some directory) { machine with files := made } [] []
        { machine with files := made } := .nil _
    refine (exists_put_iff hMade hStart input (text input)).mpr ?_
    rw [hVacant input]
    exact nofun
  have hApart : inputs.Pairwise fun earlier later =>
      machine.locate later ≠ some (directory ++ [outputName earlier]) := by
    refine List.pairwise_of_forall_mem_list fun earlier _ later hLater hEq => ?_
    obtain ⟨path, content, hPath, hLook⟩ := exists_file_of_textIn (hText later hLater).2
    rw [hEq] at hPath
    cases hPath
    rw [hVacant earlier] at hLook
    cases hLook
  obtain ⟨final, hRun, hSteps⟩ := run_of_pairwise hRequest hDirectory hMade
    (fun input hMem => textIn_of_free (hText input hMem).2 hFree hMade) hPut hApart
  refine ⟨final, hRun, fun hStdout => ?_, ?_⟩
  · have hShown : shown settings (some directory) (String.join (inputs.map text)) = "" := by
      simp [shown, hStdout]
    rw [hSteps.printed_eq, hShown, String.append_empty]
  · exact (hSteps.filled hNames hFile fun input hMem => (hText input hMem).1).holdsExactly hFree
      hMade hNames

end

/-- The inputs are the files of these names in a directory, in any order. -/
structure AreFiles (locate : String → Option Path) (directory : Path)
    (names inputs : List String) : Prop where
  each : ∀ input ∈ inputs, Path.lastName input ∈ names ∧
    locate input = some (directory ++ [Path.lastName input])
  all : ∀ name ∈ names, ∃ input ∈ inputs, Path.lastName input = name

/-- Rendering the files of these names into a free directory exits with zero, prints nothing, and
leaves exactly these texts there. -/
def RendersTo (files : Tree) (directory : Path) (names : List String)
    (texts : List (String × String)) : Prop :=
  ∀ (machine : Machine) (arguments inputs : List String) (settings : Settings),
    machine.files = files → request arguments = .render settings inputs →
    settings.outDir ≠ "" → settings.stdout = false →
    AreFiles machine.locate directory names inputs →
    Tree.Free (Path.resolve machine.workingDirectory settings.outDir) files →
    ∃ final, (run arguments : StateM Machine (Except Failure Nat)).run machine = (.ok 0, final) ∧
      final.printed = machine.printed ∧
      Tree.HoldsExactly (Path.resolve machine.workingDirectory settings.outDir) texts final.files

section
variable {generated : List Entry} {count : Nat} {directory : Path} {files : Tree}
  {settings : Generate.Settings}
  (hPaths : generated.map Entry.path = (List.range count).map fileName)
include hPaths

theorem mem_documentNames_iff {name : String} : name ∈ (List.range count).map documentName ↔
    ∃ entry ∈ generated, Path.stem entry.path ++ ".json" = name := by
  have hNames : (List.range count).map documentName =
      generated.map fun entry => Path.stem entry.path ++ ".json" := by
    have hMap := congrArg (List.map fun path => Path.stem path ++ ".json") hPaths
    rw [List.map_map, List.map_map] at hMap
    exact hMap.symm
  rw [hNames, List.mem_map]

/-- The text of a document is put under the name of its file. -/
theorem outputName_of_document {entry : Entry} (hEntry : entry ∈ generated) {input : String}
    (hName : Path.lastName input = Path.stem entry.path ++ ".json") :
    outputName input = entry.path := by
  have hPath : entry.path ∈ (List.range count).map fileName :=
    hPaths ▸ List.mem_map_of_mem hEntry
  obtain ⟨i, -, hFile⟩ := List.mem_map.mp hPath
  rw [outputName, hName, ← hFile]
  exact Generate.stem_documentName i

/-- The documents of a generated set are rendered as the texts of the set. -/
theorem rendersTo_generated (hWritable : ∀ entry ∈ generated, entry.schema.Writable)
    (hHolds : Tree.HoldsExactly directory (generated.flatMap (outputs settings)) files) :
    RendersTo files directory ((List.range count).map documentName)
      (generated.map fun entry => (entry.path, Proto.text entry.schema)) := by
  intro machine arguments inputs rendering hFiles hRequest hOutDir hStdout hInputs hFree
  subst hFiles
  have hDirectory : outDir? rendering machine.workingDirectory =
      some (Path.resolve machine.workingDirectory rendering.outDir) := by
    rw [outDir?, if_neg hOutDir]
  have hNames : ((generated.map fun entry => (entry.path, Proto.text entry.schema)).map
      Prod.fst).Nodup := by
    have hFst : (generated.map fun entry => (entry.path, Proto.text entry.schema)).map Prod.fst =
        generated.map Entry.path := List.map_map
    rw [hFst, hPaths]
    exact List.nodup_range.map Generator.fileName_injective
  have hText : ∀ input ∈ inputs, ∃ text, (outputName input, text) ∈
        (generated.map fun entry => (entry.path, Proto.text entry.schema)) ∧
      textIn machine.locate machine.files input = .ok text := by
    intro input hInput
    obtain ⟨hName, hPath⟩ := hInputs.each input hInput
    obtain ⟨entry, hEntry, hStem⟩ := (mem_documentNames_iff hPaths).mp hName
    have hDocument : (Path.stem entry.path ++ ".json", documentText entry.schema) ∈
        generated.flatMap (outputs settings) :=
      List.mem_flatMap.mpr ⟨entry, hEntry, List.mem_cons_self⟩
    have hLook := hHolds.look_file _ hDocument
    rw [hStem] at hLook
    refine ⟨Proto.text entry.schema, ?_,
      textIn_of_documentText (hWritable entry hEntry) hPath hLook⟩
    rw [outputName_of_document hPaths hEntry hStem.symm]
    exact List.mem_map_of_mem hEntry
  have hFile : ∀ file ∈ (generated.map fun entry => (entry.path, Proto.text entry.schema)),
      ∃ input ∈ inputs, outputName input = file.1 := by
    refine List.forall_mem_map.mpr fun entry hEntry => ?_
    obtain ⟨input, hInput, hName⟩ :=
      hInputs.all _ ((mem_documentNames_iff hPaths).mpr ⟨entry, hEntry, rfl⟩)
    exact ⟨input, hInput, outputName_of_document hPaths hEntry hName⟩
  obtain ⟨final, hRun, hPrinted, hHolds⟩ :=
    run_of_free hNames hFile hRequest hDirectory hFree hText
  exact ⟨final, hRun, hPrinted hStdout, hHolds⟩

end

end Render

/-- A run that generates a set fills its directory with a document and a text for each file. The
documents, in any order, are then rendered as these texts into any free directory. Only numbers
without end that are rejected keep a set from being generated. -/
theorem rendersTo_of_generate {arguments : List String} {settings : Generate.Settings}
    {machine : Machine} (hRequest : Generate.request arguments = .generate settings)
    (hProto : settings.noProto = false)
    (hFree : Tree.Free (corpus settings machine.workingDirectory) machine.files) :
    (∃ generated after,
      Generator.entries settings.seed settings.count = .ok generated ∧
      generated.map Entry.path = (List.range settings.count.toNat).map fileName ∧
      (Generate.run arguments : StateM Machine (Except Failure Nat)).run machine =
        (.ok 0, after) ∧
      Tree.HoldsExactly (corpus settings machine.workingDirectory)
        (generated.flatMap (outputs settings)) after.files ∧
      (∀ path, ¬ corpus settings machine.workingDirectory <+: path →
        Tree.look path after.files =
          if path <+: corpus settings machine.workingDirectory then some .directory
          else Tree.look path machine.files) ∧
      Render.RendersTo after.files (corpus settings machine.workingDirectory)
        ((List.range settings.count.toNat).map documentName)
        (generated.map fun entry => (entry.path, Proto.text entry.schema))) ∨
    Generator.entries settings.seed settings.count = .error .stalled ∧
      (Sampling.MersenneTwister.ofSeed settings.seed).Stalls := by
  refine (Generator.entries_or_stalls settings.seed settings.count).imp_left ?_
  rintro ⟨generated, hEntries, hPaths, hWritable⟩
  have hNames : ((generated.flatMap (outputs settings)).map Prod.fst).Nodup := by
    rw [Generate.map_fst_outputs hProto hPaths]
    exact Generate.outputNames_nodup _
  obtain ⟨made, files, hMade, hFilled, hRun⟩ := Generate.generate_run hFree hEntries hNames
  have hHolds := hFilled.holdsExactly hFree hMade hNames
  have hRenders := Render.rendersTo_generated hPaths hWritable hHolds
  refine ⟨generated, {
    machine with
    files
    printed := machine.printed ++ ((corpus settings machine.workingDirectory).text ++ "\n") },
    hEntries, hPaths, ?_, hHolds, fun path hPath => ?_, hRenders⟩
  · rw [Generate.run, hRequest]
    exact hRun
  · exact (hFilled.look_of_not_prefix hPath).trans (Tree.look_makeDirectories hMade path)

/-- A machine without files. -/
def blank : Machine := { workingDirectory := [], files := .empty }

theorem free_blank {path : Path} (h : path ≠ []) : Tree.Free path blank.files := by
  have hLook : ∀ path : Path, path ≠ [] → Tree.look path blank.files = none := by
    intro path h
    cases path with
    | nil => exact absurd rfl h
    | cons name rest => rfl
  refine .of_look_eq_none (hLook path h) fun above _ content => ?_
  by_cases hAbove : above = []
  · rw [hAbove]
    exact nofun
  · rw [hLook above hAbove]
    exact nofun

theorem rendersTo_of_generate_blank :
    Generate.request ["--seed", "7", "--count", "1"] = .generate { seed := 7, count := 1 } ∧
    ((∃ generated after final,
      Generator.entries 7 1 = .ok generated ∧
      (Generate.run ["--seed", "7", "--count", "1"] : StateM Machine (Except Failure Nat)).run
        blank = (.ok 0, after) ∧
      (Render.run ["tests/fixtures/generated_corpus/seed_7_count_1/case_000000.json", "-o", "out"] :
        StateM Machine (Except Failure Nat)).run { blank with files := after.files } =
        (.ok 0, final) ∧
      final.printed = "" ∧
      Tree.HoldsExactly ["out"]
        (generated.map fun entry => (entry.path, Proto.text entry.schema)) final.files) ∨
    Generator.entries 7 1 = .error .stalled ∧ (Sampling.MersenneTwister.ofSeed 7).Stalls) := by
  have hShort : Decimal.Short 7 ∧ Decimal.Short 1 := by decide
  have hRequest : Generate.request ["--seed", "7", "--count", "1"] =
      .generate { seed := 7, count := 1 } := Generate.request_toString hShort.1 hShort.2
  have hRender : Render.request
      ["tests/fixtures/generated_corpus/seed_7_count_1/case_000000.json", "-o", "out"] =
      .render { outDir := "out" }
        ["tests/fixtures/generated_corpus/seed_7_count_1/case_000000.json"] := by decide +kernel
  have hCorpus : corpus { seed := 7, count := 1 } blank.workingDirectory =
      ["tests", "fixtures", "generated_corpus", "seed_7_count_1"] := by decide +kernel
  have hInputs : Render.AreFiles blank.locate
      ["tests", "fixtures", "generated_corpus", "seed_7_count_1"] ((List.range 1).map documentName)
      ["tests/fixtures/generated_corpus/seed_7_count_1/case_000000.json"] := by
    constructor
    case each => decide +kernel
    case all => decide +kernel
  have hOut : Path.resolve [] "out" = ["out"] := by decide +kernel
  have hBlank : Tree.Free (corpus { seed := 7, count := 1 } blank.workingDirectory) blank.files :=
    free_blank (by simp [corpus])
  refine ⟨hRequest, ?_⟩
  rcases rendersTo_of_generate hRequest rfl hBlank with
    ⟨generated, after, hEntries, -, hRun, -, hSame, hRenders⟩ | hStalls
  · rw [hCorpus] at hSame hRenders
    have hFree : Tree.Free ["out"] after.files := by
      have hNothing : Tree.look ["out"] after.files = none :=
        (hSame ["out"] (by decide)).trans (if_neg (by decide))
      have hRoot : Tree.look [] after.files = some .directory :=
        (hSame [] (by decide)).trans (if_pos (by decide))
      refine .of_look_eq_none hNothing fun above hAbove content => ?_
      rcases List.prefix_cons_iff.mp hAbove with rfl | ⟨rest, rfl, hRest⟩
      · rw [hRoot]
        intro h
        cases h
      · rw [List.prefix_nil.mp hRest, hNothing]
        intro h
        cases h
    obtain ⟨final, hFinal⟩ := hRenders { blank with files := after.files } _ _ _ rfl hRender
      (by decide) rfl hInputs (hOut ▸ hFree)
    exact .inl ⟨generated, after, final, hEntries, hRun, hOut ▸ hFinal⟩
  · exact .inr hStalls

end ProtoSchema.CommandLine
