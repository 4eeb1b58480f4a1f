import ProtoSchema.FileSystem.Tree

/-! What stands where in a tree of files, how operations change it, and when they fail. -/
namespace ProtoSchema.FileSystem

/-- What can stand at a path. -/
inductive Node where
  | file (content : ByteArray)
  | directory

namespace Tree

/-- What stands at a path. -/
def look : Path → Tree → Option Node
  | [], file content => some (.file content)
  | [], directory _ => some .directory
  | _ :: _, file _ => none
  | name :: path, directory entries => (entries.lookup name).bind (look path)

/-- What stands at a path from here, where nothing or a tree stands. -/
def lookAt (path : Path) (tree? : Option Tree) : Option Node := tree?.bind (look path)

/-- A file is read where it stands, and nothing else is. -/
theorem read_eq_ok_iff {path : Path} {tree : Tree} {content : ByteArray} :
    Tree.read path tree = .ok content ↔ look path tree = some (.file content) := by
  induction path generalizing tree with
  | nil => cases tree <;> simp [Tree.read, find, look, bind, Except.bind, pure, Except.pure]
  | cons name path ih =>
    cases tree with
    | file other => simp [Tree.read, find, look, bind, Except.bind]
    | directory entries =>
      cases hLookup : entries.lookup name with
      | none => simp [Tree.read, find, look, hLookup, bind, Except.bind]
      | some inner =>
        have hInner : Tree.read path inner = .ok content ↔ look path inner = some (.file content) :=
          ih
        simp only [Tree.read, find, look, hLookup, Option.bind_some] at hInner ⊢
        exact hInner

theorem lookAt_cons_directory (name : String) (path : Path) (entries : List (String × Tree)) :
    lookAt (name :: path) (some (directory entries)) = lookAt path (entries.lookup name) := by
  rw [lookAt, Option.bind_some, look, lookAt]

theorem lookAt_cons_insert (name other : String) (path : Path) (entries : List (String × Tree))
    (inner : Tree) : lookAt (other :: path) (some (directory (Assoc.insert name inner entries))) =
      if other = name then look path inner
      else lookAt (other :: path) (some (directory entries)) := by
  rw [lookAt_cons_directory, lookAt_cons_directory]
  split
  · rename_i h
    rw [h, Assoc.lookup_insert_self]
    rfl
  · rename_i h
    rw [Assoc.lookup_insert_of_ne h]

/-- Writing puts the file in its place and changes nothing else. -/
theorem look_writeAt {content : ByteArray} {path : Path} {tree? : Option Tree} {new : Tree}
    (h : writeAt content path tree? = .ok new) (other : Path) :
    look other new = if other = path then some (.file content) else lookAt other tree? := by
  induction path generalizing tree? new other with
  | nil =>
    match tree?, other with
    | none, [] => cases h; rfl
    | none, _ :: _ => cases h; rfl
    | some (file _), [] => cases h; rfl
    | some (file _), _ :: _ => cases h; rfl
    | some (directory _), _ => cases h
  | cons name path ih =>
    match tree? with
    | none => cases h
    | some (file _) => cases h
    | some (directory entries) =>
      cases hInner : writeAt content path (entries.lookup name) with
      | error cause =>
        simp only [writeAt, hInner] at h
        cases h
      | ok inner =>
        simp only [writeAt, hInner] at h
        cases h
        cases other with
        | nil => rfl
        | cons first rest =>
          rw [← Option.bind_some (f := look (first :: rest)), ← lookAt, lookAt_cons_insert]
          by_cases hFirst : first = name
          · rw [if_pos hFirst, ih hInner, hFirst, lookAt_cons_directory]
            simp only [List.cons.injEq, true_and]
          · rw [if_neg hFirst, if_neg fun hPath => hFirst (List.cons.inj hPath).1]

/-- Making directories changes only what stands at the path and above it. -/
theorem look_makeDirectoriesAt {path : Path} {tree? : Option Tree} {new : Tree}
    (h : makeDirectoriesAt path tree? = .ok new) (other : Path) :
    look other new = if other <+: path then some .directory else lookAt other tree? := by
  induction path generalizing tree? new other with
  | nil =>
    match tree?, other with
    | none, [] => cases h; rfl
    | none, _ :: _ => cases h; rfl
    | some (directory _), [] => cases h; rfl
    | some (directory _), _ :: _ => cases h; rfl
    | some (file _), _ => cases h
  | cons name path ih =>
    match tree? with
    | some (file _) => cases h
    | none =>
      cases hInner : makeDirectoriesAt path none with
      | error cause =>
        simp only [makeDirectoriesAt, hInner] at h
        cases h
      | ok inner =>
        simp only [makeDirectoriesAt, hInner] at h
        cases h
        cases other with
        | nil => rfl
        | cons first rest =>
          have hEntry : look (first :: rest) (directory [(name, inner)]) =
              if first = name then look rest inner else none :=
            lookAt_cons_insert name first rest [] inner
          rw [hEntry]
          simp only [List.cons_prefix_cons]
          by_cases hFirst : first = name
          · rw [if_pos hFirst, ih hInner]
            simp only [hFirst, true_and]
            rfl
          · rw [if_neg hFirst, if_neg fun hPrefix => hFirst hPrefix.1]
            rfl
    | some (directory entries) =>
      cases hInner : makeDirectoriesAt path (entries.lookup name) with
      | error cause =>
        simp only [makeDirectoriesAt, hInner] at h
        cases h
      | ok inner =>
        simp only [makeDirectoriesAt, hInner] at h
        cases h
        cases other with
        | nil => rfl
        | cons first rest =>
          rw [← Option.bind_some (f := look (first :: rest)), ← lookAt, lookAt_cons_insert]
          simp only [List.cons_prefix_cons]
          by_cases hFirst : first = name
          · rw [if_pos hFirst, ih hInner, hFirst, lookAt_cons_directory]
            simp only [true_and]
          · rw [if_neg hFirst, if_neg fun hPrefix => hFirst hPrefix.1]

private theorem exists_map_eq_ok_iff {result : Except Cause Tree} {f : Tree → Tree} :
    (∃ new, (result >>= fun inner => pure (f inner)) = .ok new) ↔
      ∃ inner, result = .ok inner := by
  cases result with
  | error cause => exact iff_of_false nofun nofun
  | ok inner => exact iff_of_true ⟨_, rfl⟩ ⟨_, rfl⟩

private theorem forall_prefix_cons_iff {P : Path → Prop} {name : String} {path : Path} :
    (∀ above, above <+: name :: path → P above) ↔
      P [] ∧ ∀ above, above <+: path → P (name :: above) := by
  constructor
  · intro h
    exact ⟨h [] List.nil_prefix, fun above hAbove => h _ (List.cons_prefix_cons.mpr ⟨rfl, hAbove⟩)⟩
  · intro h above hAbove
    cases above with
    | nil => exact h.1
    | cons first rest =>
      obtain ⟨rfl, hRest⟩ := List.cons_prefix_cons.mp hAbove
      exact h.2 rest hRest

/-- A file can be written where no directory stands, if its path leads through directories. -/
theorem exists_writeAt_iff (content : ByteArray) (path : Path) (tree? : Option Tree) :
    (∃ new, writeAt content path tree? = .ok new) ↔ lookAt path tree? ≠ some .directory ∧
      ∀ above, above <+: path → above ≠ path → lookAt above tree? = some .directory := by
  induction path generalizing tree? with
  | nil =>
    have hAbove : ∀ above : Path, above <+: [] → above ≠ [] →
        lookAt above tree? = some .directory :=
      fun above hAbove hNe => absurd (List.prefix_nil.mp hAbove) hNe
    match tree? with
    | none => exact iff_of_true ⟨_, rfl⟩ ⟨nofun, hAbove⟩
    | some (file _) => exact iff_of_true ⟨_, rfl⟩ ⟨nofun, hAbove⟩
    | some (directory _) => exact iff_of_false nofun fun h => h.1 rfl
  | cons name path ih =>
    rw [forall_prefix_cons_iff]
    match tree? with
    | none => exact iff_of_false nofun fun h => absurd (h.2.1 nofun) nofun
    | some (file _) => exact iff_of_false nofun fun h => absurd (h.2.1 nofun) nofun
    | some (directory entries) =>
      rw [writeAt, exists_map_eq_ok_iff, ih]
      simp only [lookAt_cons_directory, ne_eq, List.cons.injEq, true_and]
      simp [lookAt, look]

/-- Directories can be made where no file is in the way. -/
theorem exists_makeDirectoriesAt_iff (path : Path) (tree? : Option Tree) :
    (∃ new, makeDirectoriesAt path tree? = .ok new) ↔
      ∀ above, above <+: path → ∀ content, lookAt above tree? ≠ some (.file content) := by
  induction path generalizing tree? with
  | nil =>
    have hAbove : ∀ above : Path, above <+: [] → above = [] := fun _ => List.prefix_nil.mp
    match tree? with
    | none => exact iff_of_true ⟨_, rfl⟩ nofun
    | some (directory _) =>
      refine iff_of_true ⟨_, rfl⟩ fun above h => ?_
      rw [hAbove above h]
      exact nofun
    | some (file content) =>
      exact iff_of_false nofun fun h => h [] List.nil_prefix content rfl
  | cons name path ih =>
    rw [forall_prefix_cons_iff]
    match tree? with
    | some (file content) => exact iff_of_false nofun fun h => h.1 content rfl
    | none =>
      rw [makeDirectoriesAt, exists_map_eq_ok_iff, ih]
      exact iff_of_true nofun ⟨nofun, nofun⟩
    | some (directory entries) =>
      rw [makeDirectoriesAt, exists_map_eq_ok_iff, ih]
      simp only [lookAt_cons_directory]
      exact (and_iff_right nofun).symm

section
variable {path : Path} {tree new : Tree}

theorem exists_write_iff {content : ByteArray} :
    (∃ new, write path content tree = .ok new) ↔ look path tree ≠ some .directory ∧
      ∀ above, above <+: path → above ≠ path → look above tree = some .directory :=
  exists_writeAt_iff content path (some tree)

theorem exists_makeDirectories_iff : (∃ new, makeDirectories path tree = .ok new) ↔
    ∀ above, above <+: path → ∀ content, look above tree ≠ some (.file content) :=
  exists_makeDirectoriesAt_iff path (some tree)

theorem look_write {content : ByteArray} (h : write path content tree = .ok new) (other : Path) :
    look other new = if other = path then some (.file content) else look other tree :=
  look_writeAt h other

theorem look_makeDirectories (h : makeDirectories path tree = .ok new) (other : Path) :
    look other new = if other <+: path then some .directory else look other tree :=
  look_makeDirectoriesAt h other

/-- A file never takes the place of a directory, nor does writing it make one. -/
theorem look_directory_of_write {content : ByteArray} (h : write path content tree = .ok new)
    (other : Path) : look other new = some .directory ↔ look other tree = some .directory := by
  have hFree := (exists_write_iff.mp ⟨new, h⟩).1
  rw [look_write h]
  split
  · rename_i hPath
    rw [hPath]
    exact iff_of_false nofun hFree
  · exact Iff.rfl

/-- In a directory that is there, a file can be written unless a directory has its name. -/
theorem exists_write_in_iff {name : String} {content : ByteArray}
    (h : ∀ above, above <+: path → look above tree = some .directory) :
    (∃ new, write (path ++ [name]) content tree = .ok new) ↔
      look (path ++ [name]) tree ≠ some .directory := by
  refine exists_write_iff.trans (and_iff_left fun above hAbove hNe => h above ?_)
  exact (List.prefix_concat_iff.mp hAbove).resolve_left hNe

/-- What stands in a directory is not changed by making it. -/
theorem look_append_of_makeDirectories (h : makeDirectories path tree = .ok new) {inner : Path}
    (hInner : inner ≠ []) : look (path ++ inner) new = look (path ++ inner) tree := by
  have hLonger : ¬ path ++ inner <+: path := by
    intro hPrefix
    rw [← List.append_nil path, List.append_assoc, List.prefix_append_right_inj] at hPrefix
    exact hInner (List.prefix_nil.mp hPrefix)
  rw [look_makeDirectories h, if_neg hLonger]

end

end Tree
end ProtoSchema.FileSystem
