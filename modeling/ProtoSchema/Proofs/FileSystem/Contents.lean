import ProtoSchema.Proofs.FileSystem.Look

/-! What a directory holds that was free and has been filled. -/
namespace ProtoSchema.FileSystem.Tree

/-- Nothing stands below a place where nothing stands. -/
theorem look_append_eq_none {path : Path} {tree : Tree} (h : look path tree = none) (rest : Path) :
    look (path ++ rest) tree = none := by
  induction path generalizing tree with
  | nil => cases tree <;> cases h
  | cons name path ih =>
    cases tree with
    | file content => rfl
    | directory entries =>
      rw [look] at h
      rw [List.cons_append, look]
      cases hLookup : entries.lookup name with
      | none => rfl
      | some inner =>
        rw [hLookup] at h
        exact ih h

/-- No file stands at the path or on the way to it, and nothing stands below it. -/
structure Free (directory : Path) (tree : Tree) : Prop where
  way : ∀ above, above <+: directory → ∀ content, look above tree ≠ some (.file content)
  look_inside : ∀ path, path ≠ [] → look (directory ++ path) tree = none

/-- The directory holds these files, each under a name of its own, and nothing else. -/
structure HoldsExactly (directory : Path) (files : List (String × String)) (tree : Tree) :
    Prop where
  look_directory : look directory tree = some .directory
  names_nodup : (files.map Prod.fst).Nodup
  look_file : ∀ file ∈ files, look (directory ++ [file.1]) tree = some (.file file.2.toUTF8)
  look_other : ∀ path, path ≠ [] → (∀ file ∈ files, path ≠ [file.1]) →
    look (directory ++ path) tree = none

/-- The files are put into the directory, and nothing else is changed. -/
structure Filled (directory : Path) (files : List (String × String)) (tree new : Tree) : Prop where
  look_file : ∀ file ∈ files, look (directory ++ [file.1]) new = some (.file file.2.toUTF8)
  look_other : ∀ path, (∀ file ∈ files, path ≠ directory ++ [file.1]) →
    look path new = look path tree

section
variable {directory : Path} {files : List (String × String)} {tree made new : Tree}

theorem Free.of_look_eq_none (h : look directory tree = none)
    (hWay : ∀ above, above <+: directory → ∀ content, look above tree ≠ some (.file content)) :
    Free directory tree :=
  ⟨hWay, fun path _ => look_append_eq_none h path⟩

theorem Free.exists_makeDirectories (h : Free directory tree) :
    ∃ made, makeDirectories directory tree = .ok made :=
  exists_makeDirectories_iff.mpr h.way

theorem Filled.nil (directory : Path) (tree : Tree) : Filled directory [] tree tree :=
  ⟨nofun, fun _ _ => rfl⟩

/-- A file that is put into the directory first stays there if the others have other names. -/
theorem Filled.cons {file : String × String} {first : Tree}
    (hWrite : write (directory ++ [file.1]) file.2.toUTF8 tree = .ok first)
    (hName : file.1 ∉ files.map Prod.fst) (h : Filled directory files first new) :
    Filled directory (file :: files) tree new := by
  have hOther : ∀ other ∈ files, directory ++ [file.1] ≠ directory ++ [other.1] := by
    intro other hMem hEq
    have hSame : file.1 = other.1 := List.singleton_inj.mp (List.append_cancel_left hEq)
    exact hName (hSame ▸ List.mem_map_of_mem hMem)
  constructor
  case look_file =>
    refine List.forall_mem_cons.mpr ⟨?_, h.look_file⟩
    rw [h.look_other _ hOther, look_write hWrite, if_pos rfl]
  case look_other =>
    intro path hPath
    obtain ⟨hFirst, hRest⟩ := List.forall_mem_cons.mp hPath
    rw [h.look_other path hRest, look_write hWrite, if_neg hFirst]

theorem Filled.look_of_not_prefix (h : Filled directory files tree new) {path : Path}
    (hPath : ¬ directory <+: path) : look path new = look path tree := by
  refine h.look_other path fun file _ hEq => hPath ?_
  rw [hEq]
  exact List.prefix_append directory [file.1]

/-- A directory that was free holds what is put into it and nothing else. -/
theorem Filled.holdsExactly (h : Filled directory files made new) (hFree : Free directory tree)
    (hMade : makeDirectories directory tree = .ok made) (hNames : (files.map Prod.fst).Nodup) :
    HoldsExactly directory files new := by
  refine ⟨?_, hNames, h.look_file, fun path hPath hOther => ?_⟩
  · have hNotFile : ∀ file ∈ files, directory ≠ directory ++ [file.1] :=
      fun file _ hEq => absurd (congrArg List.length hEq) (by simp)
    rw [h.look_other directory hNotFile, look_makeDirectories hMade, if_pos List.prefix_rfl]
  · have hNotFile : ∀ file ∈ files, directory ++ path ≠ directory ++ [file.1] :=
      fun file hFile hEq => hOther file hFile (List.append_cancel_left hEq)
    rw [h.look_other _ hNotFile, look_append_of_makeDirectories hMade hPath]
    exact hFree.look_inside path hPath

end
end ProtoSchema.FileSystem.Tree
