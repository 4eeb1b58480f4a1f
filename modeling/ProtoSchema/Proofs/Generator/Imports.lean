import ProtoSchema.Proofs.Generator.FileSets

/-! What the files of a generated set import: files before them, so that no chain of imports comes
back to where it started. -/
namespace ProtoSchema.Generator
open Sampling (Gen Fault MersenneTwister)

theorem nodup_eraseDups : (names : List String) → names.eraseDups.Nodup
  | [] => List.nodup_nil
  | name :: names => by
    have hName : name ∉ (names.filter fun other => !other == name).eraseDups := by simp
    rw [List.eraseDups_cons, List.nodup_cons]
    exact ⟨hName, nodup_eraseDups _⟩
termination_by names => names.length
decreasing_by
  have hFilter := List.length_filter_le (fun other => !other == name) names
  rw [List.length_cons]
  omega

theorem mem_sortedSet_iff {name : String} {names : List String} :
    name ∈ sortedSet names ↔ name ∈ names := by
  rw [sortedSet, List.mem_mergeSort, List.mem_eraseDups]

/-- A sorted set ascends without repeats. -/
theorem pairwise_sortedSet (names : List String) : (sortedSet names).Pairwise (· < ·) := by
  have hSorted : (sortedSet names).Pairwise (· ≤ ·) := by
    have hTrans : ∀ a b c : String, decide (a ≤ b) = true → decide (b ≤ c) = true →
        decide (a ≤ c) = true := fun a b c hab hbc =>
      decide_eq_true (String.le_trans (of_decide_eq_true hab) (of_decide_eq_true hbc))
    have hTotal : ∀ a b : String, (decide (a ≤ b) || decide (b ≤ a)) = true :=
      fun a b => by simpa using String.le_total a b
    exact (List.pairwise_mergeSort hTrans hTotal names.eraseDups).imp of_decide_eq_true
  have hNodup : (sortedSet names).Nodup :=
    (List.mergeSort_perm _ _).nodup_iff.mpr (nodup_eraseDups names)
  refine (hSorted.and hNodup).imp fun {a b} hBoth => ?_
  by_contra hLess
  exact hBoth.2 (String.le_antisymm hBoth.1 (String.not_lt.mp hLess))

theorem length_sortedSet_le (names : List String) : (sortedSet names).length ≤ names.length := by
  have hNodup : (sortedSet names).Nodup := by
    refine (pairwise_sortedSet names).imp fun {a b} hLess hEq => ?_
    rw [hEq] at hLess
    exact String.lt_irrefl b hLess
  exact (List.subperm_of_subset hNodup fun name => mem_sortedSet_iff.mp).length_le

/-- Names drawn for the file `i` are those of files before it. -/
theorem ensures_earlierFiles (i draws : Nat) : Gen.Ensures (earlierFiles i draws) fun names =>
    names.Pairwise (· < ·) ∧ names.length ≤ draws ∧ ∀ name ∈ names, ∃ j < i, name = fileName j := by
  unfold earlierFiles
  split
  · exact .pure ⟨.nil, Nat.zero_le draws, nofun⟩
  · rename_i hFirst
    have hName : Gen.Ensures (return fileName (← Gen.below i))
        fun name => ∃ j < i, name = fileName j :=
      (Gen.ensures_below (Nat.pos_of_ne_zero hFirst)).bind fun j hj => .pure ⟨j, hj, rfl⟩
    refine (Gen.ensures_times hName draws).bind fun names hNames => .pure ?_
    have hLength := length_sortedSet_le names
    rw [hNames.1] at hLength
    exact ⟨pairwise_sortedSet names, hLength,
      fun name hMem => hNames.2 name (mem_sortedSet_iff.mp hMem)⟩

theorem length_imports_le : Gen.Ensures schema fun schema => schema.imports.length ≤ 2 := by
  refine ensures_package.bind fun package _ => ?_
  refine (Gen.ensures_between (Nat.zero_le 2)).bind fun count hCount => ?_
  refine (Gen.ensures_times ensures_identifier count).bind fun imports hImports => ?_
  refine ensures_options.bind fun options _ => ?_
  refine Gen.Ensures.bind ensures_declarations fun result _ => .pure ?_
  rw [List.length_map, hImports.1]
  exact hCount.2

/-- The package of the file `i`. -/
def packageName (i : Nat) : String := "corpus.case" ++ toString i

/-- A file that can stand in the place `i` of a set. -/
structure Placed (i : Nat) (entry : Entry) : Prop where
  path : entry.path = fileName i
  package : entry.schema.package = some (packageName i)
  ascending : entry.schema.imports.Pairwise (· < ·)
  length_le : entry.schema.imports.length ≤ 2
  earlier : ∀ name ∈ entry.schema.imports, ∃ j < i, name = fileName j

theorem placed_entry (i : Nat) : Gen.Ensures (entry i) (Placed i) := by
  refine length_imports_le.bind fun tree hTree => ?_
  refine (ensures_earlierFiles i tree.imports.length).bind fun imports hImports => .pure ?_
  obtain ⟨hAscending, hLength, hEarlier⟩ := hImports
  exact ⟨rfl, rfl, hAscending, Nat.le_trans hLength hTree, hEarlier⟩

/-- Files that follow each other, the first of which has the place `i`. -/
theorem placed_entriesFrom (i n : Nat) : Gen.Ensures (entriesFrom i n) fun files =>
    files.length = n ∧ ∀ k entry, files[k]? = some entry → Placed (i + k) entry := by
  induction n generalizing i with
  | zero => exact .pure ⟨rfl, nofun⟩
  | succ n ih =>
    refine (placed_entry i).bind fun first hFirst => (ih (i + 1)).bind fun rest hRest => .pure ?_
    obtain ⟨hLength, hPlaced⟩ := hRest
    refine ⟨congrArg Nat.succ hLength, fun k entry hEntry => ?_⟩
    cases k with
    | zero =>
      rw [List.getElem?_cons_zero, Option.some.injEq] at hEntry
      rw [← hEntry]
      exact hFirst
    | succ k =>
      rw [List.getElem?_cons_succ] at hEntry
      have hLater := hPlaced k entry hEntry
      rwa [Nat.add_assoc, Nat.add_comm 1] at hLater

/-- One file imports another. Both are known by their paths. -/
def ImportsFrom (files : List Entry) (importer imported : String) : Prop :=
  ∃ entry ∈ files, entry.path = importer ∧ imported ∈ entry.schema.imports

/-- Files that import only files before them. -/
structure Closed (files : List Entry) : Prop where
  paths : files.map Entry.path = (List.range files.length).map fileName
  packages : files.map (fun entry => entry.schema.package) =
    (List.range files.length).map fun i => some (packageName i)
  paths_nodup : (files.map Entry.path).Nodup
  packages_nodup : (files.map fun entry => entry.schema.package).Nodup
  ascending : ∀ entry ∈ files, entry.schema.imports.Pairwise (· < ·)
  length_le : ∀ entry ∈ files, entry.schema.imports.length ≤ 2
  earlier : ∀ (i : Nat) (entry : Entry), files[i]? = some entry →
    ∀ name ∈ entry.schema.imports, ∃ j < i, ∃ file, files[j]? = some file ∧ file.path = name
  first : ∀ entry, files[0]? = some entry → entry.schema.imports = []
  not_self : ∀ entry ∈ files, entry.path ∉ entry.schema.imports
  acyclic : ∀ path, ¬ Relation.TransGen (ImportsFrom files) path path

section
variable {files : List Entry} (h : ∀ i entry, files[i]? = some entry → Placed i entry)
include h

theorem map_eq_of_placed {α : Type} {f : Entry → α} {g : Nat → α}
    (hPlaced : ∀ i entry, Placed i entry → f entry = g i) :
    files.map f = (List.range files.length).map g := by
  refine List.ext_getElem? fun i => ?_
  rw [List.getElem?_map, List.getElem?_map]
  by_cases hi : i < files.length
  · have hEntry := List.getElem?_eq_getElem hi
    rw [hEntry, List.getElem?_range hi, Option.map_some, Option.map_some,
      hPlaced i _ (h i _ hEntry)]
  · have hLength := Nat.not_lt.mp hi
    have hRange : (List.range files.length).length ≤ i := by rwa [List.length_range]
    rw [List.getElem?_eq_none hLength, List.getElem?_eq_none hRange]
    rfl

theorem exists_placed {entry : Entry} (hEntry : entry ∈ files) : ∃ i, Placed i entry := by
  obtain ⟨i, hi⟩ := List.mem_iff_getElem?.mp hEntry
  exact ⟨i, h i entry hi⟩

/-- A file has a higher number than the one it imports. -/
theorem lt_of_importsFrom {importer imported : String}
    (hImport : ImportsFrom files importer imported) :
    ∃ i j, importer = fileName i ∧ imported = fileName j ∧ j < i := by
  obtain ⟨entry, hEntry, rfl, hMem⟩ := hImport
  obtain ⟨i, hPlaced⟩ := exists_placed h hEntry
  obtain ⟨j, hj, hName⟩ := hPlaced.earlier imported hMem
  exact ⟨i, j, hPlaced.path, hName, hj⟩

/-- Numbers fall along a chain of imports. -/
theorem lt_of_transGen {start last : String}
    (hChain : Relation.TransGen (ImportsFrom files) start last) :
    ∃ i j, start = fileName i ∧ last = fileName j ∧ j < i := by
  induction hChain with
  | single hImport => exact lt_of_importsFrom h hImport
  | tail _ hImport ih =>
    obtain ⟨i, j, hStart, hMiddle, hLess⟩ := ih
    obtain ⟨k, l, hMiddle', hLast, hLess'⟩ := lt_of_importsFrom h hImport
    have hSame : j = k := fileName_injective (hMiddle.symm.trans hMiddle')
    exact ⟨i, l, hStart, hLast, by omega⟩

theorem not_transGen_self (path : String) : ¬ Relation.TransGen (ImportsFrom files) path path := by
  intro hChain
  obtain ⟨i, j, hStart, hLast, hLess⟩ := lt_of_transGen h hChain
  have hSame : i = j := fileName_injective (hStart.symm.trans hLast)
  omega

theorem closed_of_placed : Closed files := by
  have hPaths := map_eq_of_placed h fun i entry hEntry => hEntry.path
  have hPackages := map_eq_of_placed h fun i entry hEntry => hEntry.package
  have hPackageName : Function.Injective fun i => some (packageName i) :=
    fun i j hEq => append_toString_injective "corpus.case" (Option.some.inj hEq)
  constructor
  case paths => exact hPaths
  case packages => exact hPackages
  case paths_nodup =>
    rw [hPaths]
    exact List.nodup_range.map fileName_injective
  case packages_nodup =>
    rw [hPackages]
    exact List.nodup_range.map hPackageName
  case ascending =>
    intro entry hEntry
    obtain ⟨i, hPlaced⟩ := exists_placed h hEntry
    exact hPlaced.ascending
  case length_le =>
    intro entry hEntry
    obtain ⟨i, hPlaced⟩ := exists_placed h hEntry
    exact hPlaced.length_le
  case earlier =>
    intro i entry hEntry name hName
    obtain ⟨j, hj, rfl⟩ := (h i entry hEntry).earlier name hName
    have hi := (List.getElem?_eq_some_iff.mp hEntry).1
    have hFile := List.getElem?_eq_getElem (Nat.lt_trans hj hi)
    exact ⟨j, hj, _, hFile, (h j _ hFile).path⟩
  case first =>
    intro entry hEntry
    refine List.eq_nil_iff_forall_not_mem.mpr fun name hName => ?_
    obtain ⟨j, hj, -⟩ := (h 0 entry hEntry).earlier name hName
    exact Nat.not_lt_zero j hj
  case not_self =>
    intro entry hEntry hMem
    exact not_transGen_self h entry.path (.single ⟨entry, hEntry, rfl, hMem⟩)
  case acyclic => exact not_transGen_self h

end

/-- So many files from any source import only files before them, as do those of any seed. No choice
is ever made from nothing: a set fails to be there only if the source has no end of numbers that are
rejected. -/
theorem closed_of_generation :
    (∀ count, Gen.Ensures (entriesFrom 0 count) fun files =>
      files.length = count ∧ Closed files) ∧
    ∀ seed count,
      (∃ files, entries seed count = .ok files ∧ files.length = count.toNat ∧ Closed files) ∨
      entries seed count = .error .stalled ∧ (MersenneTwister.ofSeed seed).Stalls := by
  have hClosed : ∀ count, Gen.Ensures (entriesFrom 0 count) fun files =>
      files.length = count ∧ Closed files := by
    intro count
    refine (placed_entriesFrom 0 count).mono fun files hFiles => ⟨hFiles.1, closed_of_placed ?_⟩
    intro i entry hEntry
    have hPlaced := hFiles.2 i entry hEntry
    rwa [Nat.zero_add] at hPlaced
  exact ⟨hClosed, fun seed count => generate_or_stalls (hClosed count.toNat) seed⟩

end ProtoSchema.Generator
