import ProtoSchema.CommandLine.Generate
import ProtoSchema.Proofs.CommandLine.Steps
import ProtoSchema.Proofs.FileSystem.Contents
import ProtoSchema.Proofs.Generator.FileSets

/-! What a run that generates a set of files leaves behind. -/
namespace ProtoSchema.CommandLine.Generate
open FileSystem (Path Tree)
open Generator (Entry baseName fileName)
open Machine (bind_run workingDirectory_run makeDirectories_run write_run)

/-- The name of the document from which the file `i` is rendered. -/
def documentName (i : Nat) : String := Path.stem (fileName i) ++ ".json"

/-- The path of the directory for a set. -/
def corpus (settings : Settings) (workingDirectory : Path) : Path :=
  Path.resolve workingDirectory settings.out ++ [directoryName settings]

theorem documentName_eq (i : Nat) :
    documentName i = String.ofList (baseName i ++ ".json".toList) := by
  rw [documentName, Generator.stem_fileName, String.ofList_append, String.ofList_toList]

/-- A document and its text have the same stem. -/
theorem stem_documentName (i : Nat) : Path.stem (documentName i) ++ ".proto" = fileName i := by
  have hStem : Path.stem (documentName i) = String.ofList (baseName i) := by
    rw [documentName_eq]
    exact Generator.stem_baseName i (by decide) (by decide)
  rw [hStem, Generator.fileName_eq, String.ofList_append, String.ofList_toList]

theorem documentName_injective : Function.Injective documentName := by
  intro i j h
  have hFile := congrArg (fun name => Path.stem name ++ ".proto") h
  simp only [stem_documentName] at hFile
  exact Generator.fileName_injective hFile

theorem documentName_ne_fileName (i j : Nat) : documentName i ≠ fileName j := by
  intro h
  have hJson : ".json".toList.getLast? = some 'n' := by decide
  have hProto : ".proto".toList.getLast? = some 'o' := by decide
  have hLast := congrArg (fun name => name.toList.getLast?) h
  simp only [documentName_eq, Generator.fileName_eq, String.toList_ofList,
    List.getLast?_append, hJson, hProto, Option.some_or] at hLast
  exact absurd (Option.some.inj hLast) (by decide)

/-- The names of a document and its text, for each file of a set. -/
def outputNames (count : Nat) : List String :=
  (List.range count).flatMap fun i => [documentName i, fileName i]

theorem outputNames_nodup (count : Nat) : (outputNames count).Nodup := by
  refine List.nodup_flatMap.mpr ⟨fun i _ => ?_, List.nodup_range.imp fun {i j} hNe => ?_⟩
  · exact List.nodup_cons.mpr ⟨by simp [documentName_ne_fileName], List.nodup_singleton _⟩
  · have hDocuments : documentName j ≠ documentName i :=
      fun h => hNe (documentName_injective h).symm
    have hFiles : fileName j ≠ fileName i := fun h => hNe (Generator.fileName_injective h).symm
    simp [Function.onFun, hDocuments, hFiles, documentName_ne_fileName,
      (documentName_ne_fileName _ _).symm]

theorem map_fst_outputs {settings : Settings} (hProto : settings.noProto = false)
    {generated : List Entry} {count : Nat}
    (hPaths : generated.map Entry.path = (List.range count).map fileName) :
    (generated.flatMap (outputs settings)).map Prod.fst = outputNames count := by
  have hNames : ∀ entry, (outputs settings entry).map Prod.fst =
      [Path.stem entry.path ++ ".json", entry.path] := by
    intro entry
    rw [outputs, hProto]
    rfl
  have hFlat : (generated.flatMap (outputs settings)).map Prod.fst =
      (generated.map Entry.path).flatMap fun path => [Path.stem path ++ ".json", path] := by
    rw [List.map_flatMap, List.flatMap_map]
    exact congrArg (List.flatMap · generated) (funext hNames)
  rw [hFlat, hPaths, List.flatMap_map]
  rfl

section
variable {directory : Path} {files : List (String × String)} {machine : Machine}

theorem writeAll_run_cons {file : String × String} {first : Tree}
    (h : machine.files.write (directory ++ [file.1]) file.2.toUTF8 = .ok first) :
    (writeAll directory (file :: files) : StateM Machine (Except Failure Unit)).run machine =
      (writeAll directory files : StateM Machine (Except Failure Unit)).run
        { machine with files := first } := by
  rw [writeAll, bind_run, write_run, Machine.change, h]

/-- Files of different names are all written into a directory, unless a directory has one of the
names. -/
theorem writeAll_run (machine : Machine)
    (hDirectory : ∀ above, above <+: directory → Tree.look above machine.files = some .directory)
    (hNames : (files.map Prod.fst).Nodup)
    (hFree : ∀ file ∈ files, Tree.look (directory ++ [file.1]) machine.files ≠ some .directory) :
    ∃ written, (writeAll directory files : StateM Machine (Except Failure Unit)).run machine =
        (.ok (), { machine with files := written }) ∧
      Tree.Filled directory files machine.files written := by
  induction files generalizing machine with
  | nil => exact ⟨machine.files, rfl, .nil directory machine.files⟩
  | cons file files ih =>
    obtain ⟨hName, hNames⟩ := List.nodup_cons.mp hNames
    obtain ⟨hFirst, hRest⟩ := List.forall_mem_cons.mp hFree
    obtain ⟨first, hWrite⟩ : ∃ first, machine.files.write (directory ++ [file.1])
        file.2.toUTF8 = .ok first := (Tree.exists_write_in_iff hDirectory).mpr hFirst
    have hKept : ∀ path, Tree.look path first = some .directory ↔
        Tree.look path machine.files = some .directory := Tree.look_directory_of_write hWrite
    obtain ⟨written, hRun, hFilled⟩ := ih { machine with files := first }
      (fun above hAbove => (hKept above).mpr (hDirectory above hAbove)) hNames
      fun other hMem => mt (hKept _).mp (hRest other hMem)
    exact ⟨written, (writeAll_run_cons hWrite).trans hRun, hFilled.cons hWrite hName⟩

end

/-- A run that generates a set of files makes a directory for them, fills it and prints its path. -/
theorem generate_run {settings : Settings} {machine : Machine} {generated : List Entry}
    (hFree : Tree.Free (corpus settings machine.workingDirectory) machine.files)
    (hEntries : Generator.entries settings.seed settings.count = .ok generated)
    (hNames : ((generated.flatMap (outputs settings)).map Prod.fst).Nodup) :
    ∃ made files,
      machine.files.makeDirectories (corpus settings machine.workingDirectory) = .ok made ∧
      Tree.Filled (corpus settings machine.workingDirectory)
        (generated.flatMap (outputs settings)) made files ∧
      (generate settings : StateM Machine (Except Failure Nat)).run machine =
        (.ok 0, {
          machine with
          files
          printed := machine.printed ++
            ((corpus settings machine.workingDirectory).text ++ "\n") }) := by
  obtain ⟨made, hMade⟩ := hFree.exists_makeDirectories
  have hAbove : ∀ above, above <+: corpus settings machine.workingDirectory →
      Tree.look above made = some .directory :=
    fun above hAbove => (Tree.look_makeDirectories hMade above).trans (if_pos hAbove)
  have hInside : ∀ file ∈ generated.flatMap (outputs settings),
      Tree.look (corpus settings machine.workingDirectory ++ [file.1]) made ≠
        some .directory := by
    intro file _
    rw [Tree.look_append_of_makeDirectories hMade (List.cons_ne_nil _ _),
      hFree.look_inside [file.1] (List.cons_ne_nil _ _)]
    exact nofun
  obtain ⟨files, hWrite, hFilled⟩ :=
    writeAll_run { machine with files := made } hAbove hNames hInside
  refine ⟨made, files, hMade, hFilled, ?_⟩
  rw [generate, bind_run, workingDirectory_run]
  dsimp only
  rw [← corpus, bind_run, makeDirectories_run, Machine.change, hMade]
  dsimp only
  rw [hEntries]
  dsimp only
  rw [bind_run, hWrite]
  rfl

end ProtoSchema.CommandLine.Generate
