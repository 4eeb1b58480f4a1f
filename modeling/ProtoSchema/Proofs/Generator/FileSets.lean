import ProtoSchema.FileSystem.Path
import ProtoSchema.Proofs.Generator.Writable

/-!
Generated sets of files: their names, which are told apart by their numbers, and their schemas.
-/
namespace ProtoSchema.Generator
open FileSystem (Path)
open Sampling (Gen MersenneTwister)

/-- The name of the file `i` without its suffix. -/
def baseName (i : Nat) : List Char :=
  "case_".toList ++ (List.replicate (6 - (Nat.toDigits 10 i).length) '0' ++ Nat.toDigits 10 i)

theorem toList_pushn (text : String) (c : Char) (n : Nat) :
    (text.pushn c n).toList = text.toList ++ List.replicate n c := by
  rw [String.pushn_eq_repeat_push]
  induction n with
  | zero => exact (List.append_nil _).symm
  | succ n ih =>
    rw [Nat.repeat, String.toList_push, ih, List.replicate_succ', List.append_assoc]

theorem toList_fileName (i : Nat) : (fileName i).toList = baseName i ++ ".proto".toList := by
  have hDigits : (toString i).toList = Nat.toDigits 10 i := Nat.toList_repr
  have hLength : (toString i).length = (Nat.toDigits 10 i).length := by
    rw [← String.length_toList, hDigits]
  unfold fileName
  simp only [String.toList_append, toList_pushn, hDigits, hLength, baseName, List.append_assoc]
  rfl

/-- Zeros in front do not change a number. -/
theorem ofDigits_replicate_append (k : Nat) (digits : List Char) :
    Decimal.ofDigits (List.replicate k '0' ++ digits) = Decimal.ofDigits digits := by
  induction k with
  | zero => rfl
  | succ k ih => exact ih

theorem baseName_injective : Function.Injective baseName := by
  intro i j h
  have hDigits := congrArg Decimal.ofDigits (List.append_cancel_left h)
  rwa [ofDigits_replicate_append, ofDigits_replicate_append, Decimal.ofDigits_toDigits,
    Decimal.ofDigits_toDigits] at hDigits

theorem fileName_injective : Function.Injective fileName := by
  intro i j h
  have hList := congrArg String.toList h
  rw [toList_fileName, toList_fileName] at hList
  exact baseName_injective (List.append_cancel_right hList)

/-- A suffix is dropped and another takes its place. -/
theorem stem_baseName (i : Nat) {suffix : List Char} (hSuffix : suffix ≠ [])
    (hPoint : '.' ∉ suffix) :
    Path.stem (String.ofList (baseName i ++ '.' :: suffix)) = String.ofList (baseName i) :=
  Path.stem_append (List.cons_ne_nil _ _) hSuffix hPoint

theorem fileName_eq (i : Nat) : fileName i = String.ofList (baseName i ++ ".proto".toList) := by
  rw [← toList_fileName, String.ofList_toList]

theorem stem_fileName (i : Nat) : Path.stem (fileName i) = String.ofList (baseName i) := by
  rw [fileName_eq]
  exact stem_baseName i (by decide) (by decide)

/-- A file of a set: its name is that of its number, and it can be written and read back. -/
theorem ensures_entry (i : Nat) :
    Gen.Ensures (entry i) fun entry => entry.path = fileName i ∧ entry.schema.Writable := by
  have hImports : ∀ draws, Gen.Ensures (earlierFiles i draws) fun _ => True := by
    intro draws
    unfold earlierFiles
    split
    · exact .pure trivial
    · have hBelow := Gen.ensures_below (Nat.pos_of_ne_zero ‹_›)
      have hName : Gen.Ensures (return fileName (← Gen.below i)) fun _ => True :=
        hBelow.bind fun _ _ => .pure trivial
      exact (Gen.ensures_times hName draws).bind fun _ _ => .pure trivial
  refine writable_schema.bind fun tree hTree => (hImports _).bind fun imports _ => .pure ⟨rfl, ?_⟩
  -- The package and the imports are replaced, of which neither has to be readable or portable.
  exact ⟨hTree.readable, hTree.portable.optionNames, hTree.portable.optionFloats,
    hTree.portable.optionIntegers, hTree.portable.declarations⟩

theorem ensures_entriesFrom (i n : Nat) : Gen.Ensures (entriesFrom i n) fun entries =>
    entries.map Entry.path = (List.range' i n).map fileName ∧
      ∀ entry ∈ entries, entry.schema.Writable := by
  induction n generalizing i with
  | zero => exact .pure ⟨rfl, nofun⟩
  | succ n ih =>
    refine (ensures_entry i).bind fun first hFirst => (ih (i + 1)).bind fun rest hRest => .pure ?_
    refine ⟨?_, List.forall_mem_cons.mpr ⟨hFirst.2, hRest.2⟩⟩
    rw [List.map_cons, List.range'_succ, List.map_cons, hFirst.1, hRest.1]

/-- What a generator ensures holds of what a seed determines, unless the seed's source has no end of
numbers that are rejected. -/
theorem generate_or_stalls {α : Type} {gen : Gen α} {P : α → Prop} (h : Gen.Ensures gen P)
    (seed : Int) : (∃ a, generate seed gen = .ok a ∧ P a) ∨
      generate seed gen = .error .stalled ∧ (MersenneTwister.ofSeed seed).Stalls := by
  have hRun := h (MersenneTwister.ofSeed seed)
  rw [generate]
  cases hResult : gen.run (MersenneTwister.ofSeed seed) with
  | error fault =>
    rw [hResult] at hRun
    obtain ⟨rfl, hStalls⟩ := hRun
    exact .inr ⟨rfl, hStalls⟩
  | ok result =>
    rw [hResult] at hRun
    exact .inl ⟨result.1, rfl, hRun.1⟩

/-- A seed determines a set of so many files, unless its source has no end of numbers that are
rejected. -/
theorem entries_or_stalls (seed count : Int) :
    (∃ generated, entries seed count = .ok generated ∧
      generated.map Entry.path = (List.range count.toNat).map fileName ∧
      ∀ entry ∈ generated, entry.schema.Writable) ∨
    (entries seed count = .error .stalled ∧ (MersenneTwister.ofSeed seed).Stalls) := by
  rw [List.range_eq_range']
  exact generate_or_stalls (ensures_entriesFrom 0 count.toNat) seed

end ProtoSchema.Generator
