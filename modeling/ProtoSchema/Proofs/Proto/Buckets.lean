import Mathlib.Data.List.Induction
import Mathlib.Data.List.Nodup
import ProtoSchema.Proto.Lines

/-!
What is in a bucket: the items that go there, in their order. Each step of the sorting keeps the
buckets filled with the items so far, and an item without a bucket ends it.
-/
namespace ProtoSchema.Buckets
variable {κ α β : Type} [DecidableEq κ] {select : α → κ} {convert : Assoc κ (α → β)}

/-- Each bucket with those of the items that go there. -/
def filled (select : α → κ) (convert : Assoc κ (α → β)) (items : List α) : Assoc κ (List β) :=
  convert.map fun bucket =>
    (bucket.1, (items.filter fun item => select item = bucket.1).map bucket.2)

theorem filter_append_of_eq {key : κ} {item : α} (h : select item = key) (items : List α) :
    ((items ++ [item]).filter fun item => select item = key) =
      (items.filter fun item => select item = key) ++ [item] := by
  rw [List.filter_append, List.filter_singleton, decide_eq_true h, cond_true]

theorem filter_append_of_ne {key : κ} {item : α} (h : select item ≠ key) (items : List α) :
    ((items ++ [item]).filter fun item => select item = key) =
      items.filter fun item => select item = key := by
  rw [List.filter_append, List.filter_singleton, decide_eq_false h, cond_false, List.append_nil]

theorem filled_append_of_ne {item : α} (h : ∀ bucket ∈ convert, select item ≠ bucket.1)
    (items : List α) :
    filled select convert (items ++ [item]) = filled select convert items :=
  List.map_congr_left fun bucket hMem => by rw [filter_append_of_ne (h bucket hMem)]

/-- A step of the sorting. Of distinct buckets only the item's own changes. -/
theorem put_filled (hKeys : (convert.map Prod.fst).Nodup) {item : α} {f : α → β}
    (hBucket : (select item, f) ∈ convert) (items : List α) :
    put (select item) (f item) (filled select convert items) =
      filled select convert (items ++ [item]) := by
  induction convert with
  | nil => cases hBucket
  | cons bucket rest ih =>
    obtain ⟨k, g⟩ := bucket
    rw [List.map_cons, List.nodup_cons] at hKeys
    have hOthers : ∀ bucket ∈ rest, k ≠ bucket.1 :=
      fun bucket hMem hEq => hKeys.1 (List.mem_map.mpr ⟨bucket, hMem, hEq.symm⟩)
    rw [filled, List.map_cons, put]
    rcases List.mem_cons.mp hBucket with hFirst | hRest
    · cases hFirst
      have hUnchanged := filled_append_of_ne hOthers items
      rw [if_pos rfl, filled, List.map_cons, filter_append_of_eq rfl, List.map_append]
      exact congrArg _ hUnchanged.symm
    · have hNe : select item ≠ k := (hOthers _ hRest).symm
      rw [if_neg hNe.symm, filled, List.map_cons, filter_append_of_ne hNe]
      exact congrArg _ (ih hKeys.2 hRest)

/-- The sorting from any point on, if there is a bucket for every item. -/
theorem sortInto_filled (hKeys : (convert.map Prod.fst).Nodup) {items : List α}
    (hItems : ∀ item ∈ items, select item ∈ convert.map Prod.fst) (before : List α) :
    sortInto select convert (filled select convert before) items =
      .ok (filled select convert (before ++ items)) := by
  induction items generalizing before with
  | nil => rw [sortInto, List.append_nil]
  | cons item items ih =>
    obtain ⟨hItem, hRest⟩ := List.forall_mem_cons.mp hItems
    obtain ⟨⟨_, f⟩, hMem, rfl⟩ := List.mem_map.mp hItem
    have hFound : convert.lookup (select item) = some f :=
      (Assoc.lookup_eq_some_iff_mem hKeys).mpr hMem
    rw [sortInto, hFound]
    have hNext := ih hRest (before ++ [item])
    rwa [← put_filled hKeys hMem, List.append_assoc, List.singleton_append] at hNext

/-- Distinct buckets hold each the items that go there, if every item has one. -/
theorem sort_eq_filled (hKeys : (convert.map Prod.fst).Nodup) {items : List α}
    (hItems : ∀ item ∈ items, select item ∈ convert.map Prod.fst) :
    sort select convert items = .ok (filled select convert items) :=
  sortInto_filled hKeys hItems []

theorem keys_filled (items : List α) :
    (filled select convert items).map Prod.fst = convert.map Prod.fst := by
  rw [filled, List.map_map]
  rfl

theorem lookup_filled (hKeys : (convert.map Prod.fst).Nodup) {key : κ} {f : α → β}
    (hBucket : (key, f) ∈ convert) (items : List α) :
    (filled select convert items).lookup key =
      some ((items.filter fun item => select item = key).map f) := by
  have hFilled : ((filled select convert items).map Prod.fst).Nodup := by rwa [keys_filled]
  exact (Assoc.lookup_eq_some_iff_mem hFilled).mpr (List.mem_map.mpr ⟨_, hBucket, rfl⟩)

/-- How many items are in the buckets together. -/
def size : Assoc κ (List β) → ℕ
  | [] => 0
  | (_, items) :: rest => items.length + size rest

/-- No item is lost in a step of the sorting, and none gets into two buckets. -/
theorem size_put {key : κ} {buckets : Assoc κ (List β)} (hKey : key ∈ buckets.map Prod.fst)
    (item : β) : size (put key item buckets) = size buckets + 1 := by
  induction buckets with
  | nil => cases hKey
  | cons bucket rest ih =>
    obtain ⟨k, items⟩ := bucket
    by_cases hFirst : k = key
    · rw [put, if_pos hFirst, size, size, List.length_append, List.length_singleton]
      omega
    · have hRest : key ∈ rest.map Prod.fst := (List.mem_cons.mp hKey).resolve_left (Ne.symm hFirst)
      rw [put, if_neg hFirst, size, size, ih hRest]
      omega

theorem size_filled_nil : size (filled select convert []) = 0 := by
  induction convert with
  | nil => rfl
  | cons bucket rest ih => exact (Nat.zero_add _).trans ih

theorem size_filled (hKeys : (convert.map Prod.fst).Nodup) {items : List α}
    (hItems : ∀ item ∈ items, select item ∈ convert.map Prod.fst) :
    size (filled select convert items) = items.length := by
  -- on the last item, which is the one that the last step put in
  induction items using List.reverseRecOn with
  | nil => exact size_filled_nil
  | append_singleton items item ih =>
    obtain ⟨hRest, hLast⟩ := List.forall_mem_append.mp hItems
    have hKey : select item ∈ convert.map Prod.fst := hLast item (List.mem_singleton.mpr rfl)
    have hThere : select item ∈ (filled select convert items).map Prod.fst := by
      rwa [keys_filled]
    obtain ⟨⟨_, f⟩, hMem, rfl⟩ := List.mem_map.mp hKey
    rw [← put_filled hKeys hMem, size_put hThere, ih hRest, List.length_append,
      List.length_singleton]

/-- The sorting ends at the first item without a bucket, whatever is in the buckets by then. -/
theorem sortInto_eq_error {before : List α} {item : α}
    (hBefore : ∀ earlier ∈ before, select earlier ∈ convert.map Prod.fst)
    (hItem : select item ∉ convert.map Prod.fst) (after : List α)
    (buckets : Assoc κ (List β)) :
    sortInto select convert buckets (before ++ item :: after) = .error (select item) := by
  induction before generalizing buckets with
  | nil =>
    have hNone : convert.lookup (select item) = none := Assoc.lookup_eq_none_iff.mpr hItem
    rw [List.nil_append, sortInto, hNone]
  | cons first before ih =>
    obtain ⟨hFirst, hRest⟩ := List.forall_mem_cons.mp hBefore
    obtain ⟨f, hFound⟩ : ∃ f, convert.lookup (select first) = some f := by
      rwa [← Option.ne_none_iff_exists', Ne, Assoc.lookup_eq_none_iff, not_not]
    rw [List.cons_append, sortInto, hFound]
    exact ih hRest _

/-- Buckets that hold exactly these items: the wanted buckets in their order, in each of them the
items that go there in theirs, and nothing else. -/
structure Partition (select : α → κ) (convert : Assoc κ (α → β)) (items : List α)
    (buckets : Assoc κ (List β)) : Prop where
  keys : buckets.map Prod.fst = convert.map Prod.fst
  bucket : ∀ key f, (key, f) ∈ convert →
    buckets.lookup key = some ((items.filter fun item => select item = key).map f)
  size_eq : size buckets = items.length

theorem partition_filled (hKeys : (convert.map Prod.fst).Nodup) {items : List α}
    (hItems : ∀ item ∈ items, select item ∈ convert.map Prod.fst) :
    Partition select convert items (filled select convert items) where
  keys := keys_filled items
  bucket _ _ hBucket := lookup_filled hKeys hBucket items
  size_eq := size_filled hKeys hItems

/-- Sorting into distinct buckets is a stable partition of the items if each has a bucket. Otherwise
there is no result, and the error is the name that the first item without one asks for. -/
theorem sort_partitions (hKeys : (convert.map Prod.fst).Nodup) (items : List α) :
    ((∀ item ∈ items, select item ∈ convert.map Prod.fst) →
      ∃ buckets, sort select convert items = .ok buckets ∧
        Partition select convert items buckets) ∧
    ((∃ item ∈ items, select item ∉ convert.map Prod.fst) →
      ∃ first, items.find? (fun item => select item ∉ convert.map Prod.fst) = some first ∧
        sort select convert items = .error (select first)) := by
  constructor
  · intro hItems
    exact ⟨_, sort_eq_filled hKeys hItems, partition_filled hKeys hItems⟩
  · rintro ⟨item, hMem, hMissing⟩
    have hSome : (items.find? fun item => select item ∉ convert.map Prod.fst).isSome :=
      List.find?_isSome.mpr ⟨item, hMem, decide_eq_true hMissing⟩
    obtain ⟨first, hFirst⟩ := Option.isSome_iff_exists.mp hSome
    refine ⟨first, hFirst, ?_⟩
    obtain ⟨hNone, before, after, rfl, hBefore⟩ := List.find?_eq_some_iff_append.mp hFirst
    have hPlaced : ∀ earlier ∈ before, select earlier ∈ convert.map Prod.fst := by
      intro earlier hEarlier
      simpa using hBefore earlier hEarlier
    exact sortInto_eq_error hPlaced (of_decide_eq_true hNone) after _

/-- Three buckets for remainders by five, the last of them for none. -/
def remainderBuckets : Assoc ℕ (ℕ → ℕ) := [(2, (· + 10)), (0, (· / 5)), (9, id)]

theorem sort_partitions_remainders :
    (remainderBuckets.map Prod.fst).Nodup ∧
    (∀ n ∈ [7, 10, 2, 5, 7], n % 5 ∈ remainderBuckets.map Prod.fst) ∧
    (∃ buckets, sort (· % 5) remainderBuckets [7, 10, 2, 5, 7] = .ok buckets ∧
      Partition (· % 5) remainderBuckets [7, 10, 2, 5, 7] buckets ∧
      buckets = [(2, [17, 12, 17]), (0, [2, 1]), (9, [])]) ∧
    (∃ n ∈ [7, 4, 5, 3], n % 5 ∉ remainderBuckets.map Prod.fst) ∧
    sort (· % 5) remainderBuckets [7, 4, 5, 3] = .error 4 := by
  have hKeys : (remainderBuckets.map Prod.fst).Nodup := by decide
  have hPlaced : ∀ n ∈ [7, 10, 2, 5, 7], n % 5 ∈ remainderBuckets.map Prod.fst := by decide
  have hMissing : ∃ n ∈ [7, 4, 5, 3], n % 5 ∉ remainderBuckets.map Prod.fst := by decide
  obtain ⟨buckets, hSort, hPartition⟩ := (sort_partitions hKeys [7, 10, 2, 5, 7]).1 hPlaced
  obtain ⟨first, hFirst, hError⟩ := (sort_partitions hKeys [7, 4, 5, 3]).2 hMissing
  cases hFirst
  refine ⟨hKeys, hPlaced, ⟨buckets, hSort, hPartition, ?_⟩, hMissing, hError⟩
  cases hSort
  rfl

end ProtoSchema.Buckets
