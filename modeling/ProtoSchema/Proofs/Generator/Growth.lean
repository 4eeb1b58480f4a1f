import ProtoSchema.Proofs.Generator.Imports

/-! What a seed determines for a count starts with what it determines for every smaller one. -/
namespace ProtoSchema.Generator
open Sampling (Gen Fault MersenneTwister)

/-- The first `m` values for a larger count are those for a smaller one, unless the source of the
seed has no end of numbers that are rejected. -/
def Extends {α : Type} (seed : Int) (m : Nat) (shorter longer : Except Fault (List α)) : Prop :=
  (∃ whole, longer = .ok whole ∧ shorter = .ok (whole.take m)) ∨
    longer = .error .stalled ∧ (MersenneTwister.ofSeed seed).Stalls

theorem Extends.map {α β : Type} {seed : Int} {m : Nat} {shorter longer : Except Fault (List α)}
    (h : Extends seed m shorter longer) (f : α → β) :
    Extends seed m (shorter.map (List.map f)) (longer.map (List.map f)) := by
  rcases h with ⟨whole, rfl, rfl⟩ | ⟨rfl, hStalls⟩
  · refine .inl ⟨whole.map f, rfl, ?_⟩
    rw [← List.map_take]
    rfl
  · exact .inr ⟨rfl, hStalls⟩

theorem generate_eq_ok_iff {α : Type} {gen : Gen α} {seed : Int} {a : α} :
    generate seed gen = .ok a ↔
      ∃ left, gen.run (MersenneTwister.ofSeed seed) = .ok (a, left) := by
  rw [generate]
  cases hRun : gen.run (MersenneTwister.ofSeed seed) with
  | error fault => simp [Except.map]
  | ok result =>
    obtain ⟨b, left⟩ := result
    simp [Except.map]

/-- A run that goes on after a first part has the values of that part first. -/
theorem extends_of_append {α : Type} {shorter longer rest : Gen (List α)} {m : Nat}
    (hLonger : longer = (do
      let first ← shorter
      let others ← rest
      return first ++ others))
    (hLength : Gen.Ensures shorter fun first => first.length = m)
    (hRun : Gen.Ensures longer fun _ => True) (seed : Int) :
    Extends seed m (generate seed shorter) (generate seed longer) := by
  rcases generate_or_stalls hRun seed with ⟨whole, hWhole, -⟩ | hStalls
  · refine .inl ⟨whole, hWhole, ?_⟩
    obtain ⟨left, hResult⟩ := generate_eq_ok_iff.mp hWhole
    rw [hLonger, Gen.bind_run_eq_ok_iff] at hResult
    obtain ⟨first, middle, hFirst, hResult⟩ := hResult
    obtain ⟨others, last, -, hResult⟩ := Gen.bind_run_eq_ok_iff.mp hResult
    cases hResult
    have hm := hLength (MersenneTwister.ofSeed seed)
    rw [hFirst] at hm
    rw [← hm.1, List.take_left]
    exact generate_eq_ok_iff.mpr ⟨middle, hFirst⟩
  · exact .inr hStalls

theorem entriesFrom_add (i m k : Nat) : entriesFrom i (m + k) = (do
    let first ← entriesFrom i m
    let rest ← entriesFrom (i + m) k
    return first ++ rest) := by
  induction m generalizing i with
  | zero => simp [entriesFrom]
  | succ m ih => simp [Nat.succ_add, entriesFrom, ih, Nat.add_assoc]

/-- The names of a set of so many files. -/
def fileNames (count : Nat) : List String := (List.range count).map fileName

/-- Draws the imports of the file `i` from the names of a whole set. -/
def drawnFrom (names : List String) (i draws : Nat) : Gen (List String) := do
  if i = 0 then return []
  else
    let name : Gen String := do
      let j ← Gen.below i
      (names[j]?).elim (throw .emptyRange) pure
    return sortedSet (← Gen.times name draws)

/-- Like `entriesFrom`, with the names of the whole set at hand. -/
def entriesAmong (names : List String) (i : Nat) : Nat → Gen (List Entry)
  | 0 => return []
  | n + 1 => do
    let tree ← schema
    let imports ← drawnFrom names i tree.imports.length
    let first : Entry := {
      path := fileName i
      schema := { tree with package := some (packageName i), imports } }
    return first :: (← entriesAmong names (i + 1) n)

/-- Draws never reach the names of later files. -/
theorem drawnFrom_fileNames {i count : Nat} (h : i ≤ count) (draws : Nat) :
    drawnFrom (fileNames count) i draws = earlierFiles i draws := by
  unfold drawnFrom earlierFiles
  by_cases hFirst : i = 0
  · rw [if_pos hFirst, if_pos hFirst]
  · have hName : (do
        let j ← Gen.below i
        ((fileNames count)[j]?).elim (throw .emptyRange) pure) =
          (return fileName (← Gen.below i) : Gen String) := by
      refine Gen.bind_congr_of_ensures (Gen.ensures_below (Nat.pos_of_ne_zero hFirst)) ?_
      intro j hj
      have hLess : j < count := by omega
      rw [fileNames, List.getElem?_map, List.getElem?_range hLess]
      rfl
    rw [if_neg hFirst, if_neg hFirst]
    dsimp only
    rw [hName]

theorem entriesAmong_fileNames {i n count : Nat} (h : i + n ≤ count) :
    entriesAmong (fileNames count) i n = entriesFrom i n := by
  induction n generalizing i with
  | zero => rfl
  | succ n ih =>
    have hRest : entriesAmong (fileNames count) (i + 1) n = entriesFrom (i + 1) n :=
      ih (by omega)
    have hDrawn : ∀ draws, drawnFrom (fileNames count) i draws = earlierFiles i draws :=
      drawnFrom_fileNames (by omega)
    simp only [entriesAmong, entriesFrom, entry, packageName, hRest, hDrawn, bind_assoc, pure_bind]

/-- A seed's schemas, files of a set and their texts for a count are the first ones of those for any
larger count. A set does not depend on the names of its later files, although they are all at hand
when imports are drawn. -/
theorem extends_of_le (seed : Int) {m n : Int} (h : m ≤ n) :
    Extends seed m.toNat (schemas seed m) (schemas seed n) ∧
      Extends seed m.toNat (entries seed m) (entries seed n) ∧
      Extends seed m.toNat (files seed m) (files seed n) ∧
      entries seed n = generate seed (entriesAmong (fileNames n.toNat) 0 n.toNat) := by
  obtain ⟨k, hk⟩ : ∃ k, n.toNat = m.toNat + k := Nat.exists_eq_add_of_le (Int.toNat_le_toNat h)
  have hSchemas : Extends seed m.toNat (schemas seed m) (schemas seed n) := by
    have hTimes := Gen.ensures_times ensures_schema
    have hAppend := Gen.times_add schema m.toNat k
    rw [← hk] at hAppend
    exact extends_of_append hAppend ((hTimes m.toNat).mono fun _ hLength => hLength.1)
      ((hTimes n.toNat).mono fun _ _ => trivial) seed
  have hEntries : Extends seed m.toNat (entries seed m) (entries seed n) := by
    have hAppend := entriesFrom_add 0 m.toNat k
    rw [← hk] at hAppend
    exact extends_of_append hAppend
      ((placed_entriesFrom 0 m.toNat).mono fun _ hFiles => hFiles.1)
      ((placed_entriesFrom 0 n.toNat).mono fun _ _ => trivial) seed
  have hAmong : entriesAmong (fileNames n.toNat) 0 n.toNat = entriesFrom 0 n.toNat :=
    entriesAmong_fileNames (Nat.le_of_eq (Nat.zero_add _))
  refine ⟨hSchemas, hEntries, hEntries.map _, ?_⟩
  rw [hAmong, entries]

theorem extends_two_five : (2 : Int) ≤ 5 ∧
    Extends 7 2 (schemas 7 2) (schemas 7 5) ∧ Extends 7 2 (entries 7 2) (entries 7 5) ∧
      Extends 7 2 (files 7 2) (files 7 5) ∧
      entries 7 5 = generate 7 (entriesAmong (fileNames 5) 0 5) :=
  ⟨by decide, extends_of_le 7 (by decide)⟩

end ProtoSchema.Generator
