/-! Association lists in the order in which their keys first came. -/
namespace ProtoSchema

/-- Values under keys, in the order in which the keys first came. -/
abbrev Assoc (κ : Type) (α : Type) := List (κ × α)

namespace Assoc
variable {κ α : Type} [DecidableEq κ]

/-- Writes a value at its key's place, or at the end if the key is new. -/
def insert (key : κ) (value : α) : Assoc κ α → Assoc κ α
  | [] => [(key, value)]
  | (k, v) :: rest => if k = key then (key, value) :: rest else (k, v) :: insert key value rest

/-- The last of several values of one key wins, at the first one's place. -/
def ofList (entries : List (κ × α)) : Assoc κ α :=
  entries.foldl (fun assoc entry => insert entry.1 entry.2 assoc) []

theorem lookup_insert_self (key : κ) (value : α) (assoc : Assoc κ α) :
    (insert key value assoc).lookup key = some value := by
  induction assoc with
  | nil => simp only [insert, List.lookup_cons, beq_self_eq_true]
  | cons entry rest ih =>
    obtain ⟨k, v⟩ := entry
    by_cases h : k = key
    · simp only [insert, if_pos h, List.lookup_cons, beq_self_eq_true]
    · have hBeq : (key == k) = false := beq_false_of_ne (Ne.symm h)
      simp only [insert, if_neg h, List.lookup_cons, hBeq, ih]

theorem lookup_insert_of_ne {key other : κ} (h : other ≠ key) (value : α) (assoc : Assoc κ α) :
    (insert key value assoc).lookup other = assoc.lookup other := by
  have hBeq : (other == key) = false := beq_false_of_ne h
  induction assoc with
  | nil => simp only [insert, List.lookup_cons, hBeq]
  | cons entry rest ih =>
    obtain ⟨k, v⟩ := entry
    by_cases hKey : k = key
    · subst hKey
      simp only [insert, if_true, List.lookup_cons, hBeq]
    · simp only [insert, if_neg hKey, List.lookup_cons, ih]

theorem lookup_eq_some_iff_mem {assoc : Assoc κ α} (h : (assoc.map Prod.fst).Nodup) {key : κ}
    {value : α} : assoc.lookup key = some value ↔ (key, value) ∈ assoc := by
  induction assoc with
  | nil => simp
  | cons entry rest ih =>
    obtain ⟨k, v⟩ := entry
    rw [List.map_cons, List.nodup_cons] at h
    rw [List.lookup_cons, List.mem_cons, Prod.mk.injEq]
    by_cases hKey : key = k
    · subst hKey
      have hRest : (key, value) ∉ rest := fun hMem =>
        h.1 (List.mem_map.mpr ⟨(key, value), hMem, rfl⟩)
      simp [hRest, eq_comm]
    · simp [hKey, beq_false_of_ne hKey, ih h.2]

theorem lookup_eq_none_iff {assoc : Assoc κ α} {key : κ} :
    assoc.lookup key = none ↔ key ∉ assoc.map Prod.fst := by
  rw [List.lookup_eq_none_iff, List.mem_map]
  constructor
  · rintro hOther ⟨entry, hMem, rfl⟩
    exact bne_iff_ne.mp (hOther entry hMem) rfl
  · intro hAbsent entry hMem
    exact bne_iff_ne.mpr fun hEq => hAbsent ⟨entry, hMem, hEq.symm⟩

/-- The order of entries of distinct keys does not matter for what is under a key. -/
theorem lookup_eq_of_perm {assoc other : Assoc κ α} (h : (assoc.map Prod.fst).Nodup)
    (hPerm : assoc.Perm other) (key : κ) : assoc.lookup key = other.lookup key := by
  have hOther : (other.map Prod.fst).Nodup := (hPerm.map Prod.fst).nodup h
  have hSome : ∀ value, assoc.lookup key = some value ↔ other.lookup key = some value := by
    intro value
    rw [lookup_eq_some_iff_mem h, lookup_eq_some_iff_mem hOther, hPerm.mem_iff]
  exact Option.ext hSome

theorem insert_of_not_mem {key : κ} {assoc : Assoc κ α} (h : key ∉ assoc.map Prod.fst)
    (value : α) : insert key value assoc = assoc ++ [(key, value)] := by
  induction assoc with
  | nil => rfl
  | cons entry rest ih =>
    obtain ⟨k, v⟩ := entry
    rw [List.map_cons, List.mem_cons, not_or] at h
    rw [insert, if_neg (Ne.symm h.1), ih h.2, List.cons_append]

/-- Entries of distinct keys stay as they are. -/
theorem ofList_of_nodup {entries : List (κ × α)} (h : (entries.map Prod.fst).Nodup) :
    ofList entries = entries := by
  have hFold : ∀ assoc : Assoc κ α, ((assoc ++ entries).map Prod.fst).Nodup →
      entries.foldl (fun assoc entry => insert entry.1 entry.2 assoc) assoc = assoc ++ entries := by
    clear h
    induction entries with
    | nil =>
      intro assoc _
      rw [List.foldl_nil, List.append_nil]
    | cons entry entries ih =>
      intro assoc hNodup
      have hNew : entry.1 ∉ assoc.map Prod.fst := by
        rw [List.map_append, List.map_cons, List.nodup_append] at hNodup
        exact fun hMem => hNodup.2.2 _ hMem _ List.mem_cons_self rfl
      rw [List.foldl_cons, insert_of_not_mem hNew, ih, List.append_assoc, List.singleton_append]
      rwa [List.append_assoc, List.singleton_append]
  exact hFold [] h

theorem mem_of_mem_insert {key : κ} {value : α} {assoc : Assoc κ α} {entry : κ × α}
    (h : entry ∈ insert key value assoc) : entry = (key, value) ∨ entry ∈ assoc := by
  induction assoc with
  | nil => exact .inl (List.mem_singleton.mp h)
  | cons first rest ih =>
    obtain ⟨k, v⟩ := first
    rw [insert] at h
    split at h
    · rcases List.mem_cons.mp h with hNew | hRest
      · exact .inl hNew
      · exact .inr (List.mem_cons_of_mem _ hRest)
    · rcases List.mem_cons.mp h with hFirst | hRest
      · exact .inr (hFirst ▸ List.mem_cons_self)
      · exact (ih hRest).imp_right (List.mem_cons_of_mem _)

/-- The keys stay where they are. -/
theorem keys_insert_of_mem {key : κ} {assoc : Assoc κ α} (h : key ∈ assoc.map Prod.fst)
    (value : α) : (insert key value assoc).map Prod.fst = assoc.map Prod.fst := by
  induction assoc with
  | nil => cases h
  | cons first rest ih =>
    obtain ⟨k, v⟩ := first
    by_cases hKey : k = key
    · rw [insert, if_pos hKey, List.map_cons, List.map_cons, hKey]
    · have hRest : key ∈ rest.map Prod.fst :=
        (List.mem_cons.mp h).resolve_left (Ne.symm hKey)
      rw [insert, if_neg hKey, List.map_cons, List.map_cons, ih hRest]

theorem nodup_insert {assoc : Assoc κ α} (h : (assoc.map Prod.fst).Nodup) (key : κ) (value : α) :
    ((insert key value assoc).map Prod.fst).Nodup := by
  by_cases hKey : key ∈ assoc.map Prod.fst
  · rwa [keys_insert_of_mem hKey]
  · rw [insert_of_not_mem hKey, List.map_append, List.nodup_append]
    refine ⟨h, List.pairwise_singleton _ _, fun k hMem other hOther hEq => ?_⟩
    rw [List.map_singleton, List.mem_singleton] at hOther
    rw [hEq, hOther] at hMem
    exact hKey hMem

/-- What holds of no entries and is kept by every insertion holds of the list. -/
theorem ofList_induct {P : Assoc κ α → Prop} {entries : List (κ × α)} (nil : P [])
    (insert : ∀ assoc, P assoc → ∀ entry ∈ entries, P (insert entry.1 entry.2 assoc)) :
    P (ofList entries) :=
  List.foldlRecOn entries _ nil insert

theorem nodup_ofList (entries : List (κ × α)) : ((ofList entries).map Prod.fst).Nodup := by
  apply ofList_induct (P := fun assoc => (assoc.map Prod.fst).Nodup)
  case nil => exact List.nodup_nil
  case insert =>
    intro assoc hNodup entry _
    exact nodup_insert hNodup entry.1 entry.2

theorem mem_of_mem_ofList {entries : List (κ × α)} {entry : κ × α} (h : entry ∈ ofList entries) :
    entry ∈ entries := by
  revert entry
  apply ofList_induct (P := fun assoc => ∀ {entry}, entry ∈ assoc → entry ∈ entries)
  case nil =>
    intro entry hMem
    cases hMem
  case insert =>
    intro assoc hAssoc added hAdded entry hMem
    rcases mem_of_mem_insert hMem with rfl | hOld
    · exact hAdded
    · exact hAssoc hOld

end Assoc
end ProtoSchema
