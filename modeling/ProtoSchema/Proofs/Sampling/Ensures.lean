import Mathlib.Data.List.Perm.Basic
import ProtoSchema.Sampling.Gen

/-!
What holds of a random value whatever the source is. A run comes to nothing only at a row of draws
that are all rejected.
-/
namespace ProtoSchema.Sampling

namespace MersenneTwister

/-- The source after so many words. -/
def after (source : MersenneTwister) : Nat → MersenneTwister
  | 0 => source
  | k + 1 => after source.next.2 k

/-- So many words put one before the other, the lowest first, and before them the first bits of the
word that follows. -/
def joined (source : MersenneTwister) (count : Nat) : Nat → Nat
  | 0 => source.next.1.toNat >>> (32 - count)
  | words + 1 => joined source.next.2 count words <<< 32 + source.next.1.toNat

/-- The number of so many bits that is drawn next. -/
def drawn (source : MersenneTwister) (count : Nat) : Nat :=
  source.joined (count - 32 * Gen.wholeWords count) (Gen.wholeWords count)

/-- At some place in the source, as many draws as are made are all rejected for some bound. -/
def Stalls (source : MersenneTwister) : Prop :=
  ∃ (start n : Nat), 0 < n ∧ ∀ k < Gen.maxDraws,
    n ≤ (source.after (start + k * (Gen.wholeWords (n.log2 + 1) + 1))).drawn (n.log2 + 1)

theorem after_after (source : MersenneTwister) (j k : Nat) :
    (source.after j).after k = source.after (j + k) := by
  induction j generalizing source with
  | zero => rw [Nat.zero_add, after]
  | succ j ih => rw [Nat.succ_add, after, ih, after]

theorem Stalls.of_after {source : MersenneTwister} {j : Nat} (h : (source.after j).Stalls) :
    source.Stalls := by
  obtain ⟨start, n, hPos, hRow⟩ := h
  refine ⟨j + start, n, hPos, fun k hk => ?_⟩
  rw [Nat.add_assoc, ← after_after]
  exact hRow k hk

end MersenneTwister

namespace Gen
variable {α β : Type}

/-- Every value that a generator gives has the property. It never chooses from nothing: a run
without a value is one that stalls, which only some sources do. -/
def Ensures (gen : Gen α) (P : α → Prop) : Prop :=
  ∀ source, match gen.run source with
    | .ok (a, left) => P a ∧ ∃ k, left = source.after k
    | .error fault => fault = .stalled ∧ source.Stalls

namespace Ensures
variable {gen : Gen α} {next : α → Gen β} {P R : α → Prop} {Q : β → Prop}

theorem pure {a : α} (h : P a) : Ensures (pure a : Gen α) P := fun _ => ⟨h, 0, rfl⟩

theorem bind (h : Ensures gen P) (hNext : ∀ a, P a → Ensures (next a) Q) :
    Ensures (gen >>= next) Q := by
  intro source
  have hFirst := h source
  rw [StateT.run_bind]
  cases hRun : gen.run source with
  | error fault =>
    rw [hRun] at hFirst
    exact hFirst
  | ok result =>
    rw [hRun] at hFirst
    obtain ⟨a, left⟩ := result
    obtain ⟨ha, j, rfl⟩ := hFirst
    have hSecond := hNext a ha (source.after j)
    dsimp only [Bind.bind, Except.bind]
    cases hRest : (next a).run (source.after j) with
    | error fault =>
      rw [hRest] at hSecond
      exact ⟨hSecond.1, hSecond.2.of_after⟩
    | ok result =>
      rw [hRest] at hSecond
      obtain ⟨hb, k, hLeft⟩ := hSecond
      exact ⟨hb, j + k, hLeft.trans (source.after_after j k)⟩

theorem mono (h : Ensures gen P) (hPR : ∀ a, P a → R a) : Ensures gen R := by
  intro source
  have hFirst := h source
  cases hRun : gen.run source with
  | error fault =>
    rw [hRun] at hFirst
    exact hFirst
  | ok result =>
    rw [hRun] at hFirst
    exact ⟨hPR result.1 hFirst.1, hFirst.2⟩

theorem and (h : Ensures gen P) (hAlso : Ensures gen R) : Ensures gen fun a => P a ∧ R a := by
  intro source
  have hFirst := h source
  have hSecond := hAlso source
  cases hRun : gen.run source with
  | error fault =>
    rw [hRun] at hFirst
    exact hFirst
  | ok result =>
    rw [hRun] at hFirst hSecond
    exact ⟨⟨hFirst.1, hSecond.1⟩, hFirst.2⟩

end Ensures

/-- Runs are the same if they go on in the same way after every value that can be drawn. -/
theorem bind_congr_of_ensures {gen : Gen α} {f g : α → Gen β} {P : α → Prop} (h : Ensures gen P)
    (hSame : ∀ a, P a → f a = g a) : gen >>= f = gen >>= g := by
  refine StateT.ext fun source => ?_
  have hRun := h source
  rw [StateT.run_bind, StateT.run_bind]
  cases hResult : gen.run source with
  | error fault => rfl
  | ok result =>
    rw [hResult] at hRun
    dsimp only [Bind.bind, Except.bind]
    rw [hSame result.1 hRun.1]

/-- A run that has a value has one at each of its steps. -/
theorem bind_run_eq_ok_iff {gen : Gen α} {next : α → Gen β} {source left : MersenneTwister}
    {b : β} : (gen >>= next).run source = .ok (b, left) ↔
      ∃ a middle, gen.run source = .ok (a, middle) ∧ (next a).run middle = .ok (b, left) := by
  rw [StateT.run_bind]
  cases hRun : gen.run source with
  | error fault => simp [bind, Except.bind]
  | ok result =>
    obtain ⟨a, middle⟩ := result
    simp [bind, Except.bind]

theorem joined_run (count words : Nat) (source : MersenneTwister) :
    (joined count words).run source =
      .ok (source.joined count words, source.after (words + 1)) := by
  induction words generalizing source with
  | zero => rfl
  | succ words ih =>
    change (do let high ← joined count words; pure (high <<< 32 + source.next.1.toNat)).run
      source.next.2 = _
    rw [StateT.run_bind, ih]
    rfl

theorem bits_run (count : Nat) (source : MersenneTwister) :
    (bits count).run source = .ok (source.drawn count, source.after (wholeWords count + 1)) :=
  joined_run _ _ source

theorem ensures_bits (count : Nat) : Ensures (bits count) fun _ => True := by
  intro source
  rw [bits_run]
  exact ⟨trivial, _, rfl⟩

/-- Draws go on until one is accepted. -/
theorem rejectFrom_run (n count fuel : Nat) (source : MersenneTwister) :
    match (rejectFrom n count fuel).run source with
    | .ok (drawn, left) => drawn < n ∧ ∃ k, left = source.after k
    | .error fault => fault = .stalled ∧
        ∀ k < fuel, n ≤ (source.after (k * (wholeWords count + 1))).drawn count := by
  induction fuel generalizing source with
  | zero => exact ⟨rfl, nofun⟩
  | succ fuel ih =>
    rw [rejectFrom, StateT.run_bind, bits_run]
    dsimp only [Bind.bind, Except.bind]
    by_cases hAccepted : source.drawn count < n
    · rw [if_pos hAccepted]
      exact ⟨hAccepted, _, rfl⟩
    · rw [if_neg hAccepted]
      have hRest := ih (source.after (wholeWords count + 1))
      cases hRun : (rejectFrom n count fuel).run (source.after (wholeWords count + 1)) with
      | error fault =>
        rw [hRun] at hRest
        refine ⟨hRest.1, fun k hk => ?_⟩
        cases k with
        | zero =>
          rw [Nat.zero_mul]
          exact Nat.not_lt.mp hAccepted
        | succ k =>
          rw [Nat.succ_mul, Nat.add_comm, ← source.after_after]
          exact hRest.2 k (by omega)
      | ok result =>
        rw [hRun] at hRest
        obtain ⟨hDrawn, k, hLeft⟩ := hRest
        exact ⟨hDrawn, _, hLeft.trans (source.after_after _ k)⟩

theorem ensures_below {n : Nat} (h : 0 < n) : Ensures (below n) (· < n) := by
  intro source
  have hDraws := rejectFrom_run n (n.log2 + 1) maxDraws source
  rw [below, if_neg (Nat.ne_of_gt h)]
  cases hRun : (rejectFrom n (n.log2 + 1) maxDraws).run source with
  | error fault =>
    rw [hRun] at hDraws
    refine ⟨hDraws.1, 0, n, h, fun k hk => ?_⟩
    rw [Nat.zero_add]
    exact hDraws.2 k hk
  | ok result =>
    rw [hRun] at hDraws
    exact hDraws

theorem ensures_between {least most : Nat} (h : least ≤ most) :
    Ensures (between least most) fun n => least ≤ n ∧ n ≤ most := by
  refine (ensures_below (by omega)).bind fun n hn => .pure ?_
  omega

theorem ensures_chance (p : Float) : Ensures (chance p) fun _ => True := by
  have hFraction : Ensures fraction fun _ => True :=
    (ensures_bits 27).bind fun _ _ => (ensures_bits 26).bind fun _ _ => .pure trivial
  exact hFraction.bind fun _ _ => .pure trivial

theorem ensures_choice {items : List α} (h : items ≠ []) : Ensures (choice items) (· ∈ items) := by
  refine (ensures_below (List.length_pos_iff.mpr h)).bind fun i hi => ?_
  rw [List.getElem?_eq_getElem hi]
  exact .pure (List.getElem_mem hi)

theorem ensures_times {gen : Gen α} {P : α → Prop} (h : Ensures gen P) (n : Nat) :
    Ensures (times gen n) fun as => as.length = n ∧ ∀ a ∈ as, P a := by
  induction n with
  | zero => exact .pure ⟨rfl, nofun⟩
  | succ n ih =>
    refine h.bind fun a ha => ih.bind fun as has => .pure ⟨?_, ?_⟩
    · rw [List.length_cons, has.1]
    · exact List.forall_mem_cons.mpr ⟨ha, has.2⟩

/-- So many values are drawn as first ones and then the others. -/
theorem times_add (gen : Gen α) (m k : Nat) : times gen (m + k) = (do
    let first ← times gen m
    let rest ← times gen k
    return first ++ rest) := by
  induction m with
  | zero => simp [times]
  | succ m ih => simp [Nat.succ_add, times, ih]

theorem ensures_mapM {f : α → Gen β} {Q : β → Prop} {as : List α}
    (h : ∀ a ∈ as, Ensures (f a) Q) : Ensures (as.mapM f) fun bs => ∀ b ∈ bs, Q b := by
  induction as with
  | nil =>
    rw [List.mapM_nil]
    exact .pure nofun
  | cons a as ih =>
    rw [List.mapM_cons]
    obtain ⟨hHead, hTail⟩ := List.forall_mem_cons.mp h
    exact hHead.bind fun b hb => (ih hTail).bind fun bs hbs =>
      .pure (List.forall_mem_cons.mpr ⟨hb, hbs⟩)

/-- A sample that is not larger than its pool can be drawn. -/
theorem ensures_sample {pool : List α} {n : Nat} (h : n ≤ pool.length) :
    Ensures (sample pool n) fun items => items.length = n := by
  induction n generalizing pool with
  | zero => exact .pure rfl
  | succ n ih =>
    refine (ensures_below (by omega)).bind fun i hi => ?_
    have hNil : pool ≠ [] := List.ne_nil_of_length_pos (by omega)
    rw [List.getElem?_eq_getElem hi, List.getLast?_eq_some_getLast hNil]
    refine (ih ?_).bind fun items hItems => .pure ?_
    · rw [List.length_dropLast, List.length_set]
      omega
    · rw [List.length_cons, hItems]

/-- An item, and the pool with its last item in the place of that one. -/
theorem cons_dropLast_set_perm {pool : List α} (hNil : pool ≠ []) {i : Nat}
    (hi : i < pool.length) : (pool[i] :: (pool.set i (pool.getLast hNil)).dropLast).Perm pool := by
  have hSet : pool.set i (pool.getLast hNil) ≠ [] := by simpa using hNil
  have hLast : (pool.set i (pool.getLast hNil)).getLast hSet = pool.getLast hNil := by
    simp only [List.getLast_eq_getElem, List.length_set, List.getElem_set, ite_self]
  have hSplit := List.dropLast_concat_getLast hSet
  rw [hLast] at hSplit
  have hBack : (pool.getLast hNil :: (pool.set i (pool.getLast hNil)).dropLast).Perm
      (pool.set i (pool.getLast hNil)) := by
    have hConcat := (List.perm_append_singleton (pool.getLast hNil)
      (pool.set i (pool.getLast hNil)).dropLast).symm
    rwa [hSplit] at hConcat
  have hPool : (pool[i] :: pool.set i (pool.getLast hNil)).Perm (pool.getLast hNil :: pool) :=
    ((List.set_perm_cons_eraseIdx hi _).cons _).trans
      ((List.Perm.swap ..).trans ((List.getElem_cons_eraseIdx_perm hi).cons _))
  exact ((List.Perm.swap ..).trans ((hBack.cons _).trans hPool)).cons_inv

/-- A sample of a pool without repeats is one too. -/
theorem ensures_sample_nodup {pool : List α} {n : Nat} (hPool : pool.Nodup) (h : n ≤ pool.length) :
    Ensures (sample pool n) fun items => items.Nodup ∧ ∀ item ∈ items, item ∈ pool := by
  induction n generalizing pool with
  | zero => exact .pure ⟨.nil, nofun⟩
  | succ n ih =>
    refine (ensures_below (by omega)).bind fun i hi => ?_
    have hNil : pool ≠ [] := List.ne_nil_of_length_pos (by omega)
    rw [List.getElem?_eq_getElem hi, List.getLast?_eq_some_getLast hNil]
    have hPerm := cons_dropLast_set_perm hNil hi
    have hNodup := hPerm.nodup_iff.mpr hPool
    obtain ⟨hNotMem, hRest⟩ := List.nodup_cons.mp hNodup
    refine (ih hRest ?_).bind fun items hItems => .pure ⟨?_, ?_⟩
    · rw [List.length_dropLast, List.length_set]
      omega
    · exact List.nodup_cons.mpr ⟨fun hMem => hNotMem (hItems.2 _ hMem), hItems.1⟩
    · refine List.forall_mem_cons.mpr ⟨List.getElem_mem hi, fun item hItem => ?_⟩
      exact hPerm.mem_iff.mp (List.mem_cons_of_mem _ (hItems.2 item hItem))

theorem ensures_shuffleTo {items : Array α} {i : Nat} :
    Ensures (shuffleTo items i) fun shuffled => shuffled.Perm items := by
  induction i generalizing items with
  | zero => exact .pure (.refl items)
  | succ i ih =>
    refine (ensures_below (by omega)).bind fun j _ => ih.mono fun shuffled hShuffled => ?_
    refine hShuffled.trans ?_
    rw [Array.swapIfInBounds_def]
    split
    · split
      · exact Array.swap_perm ..
      · exact .refl items
    · exact .refl items

/-- Shuffling keeps the items. -/
theorem ensures_shuffle (items : List α) :
    Ensures (shuffle items) fun shuffled => shuffled.Perm items :=
  ensures_shuffleTo.bind fun _ h => .pure h.toList

end ProtoSchema.Sampling.Gen
