import Mathlib.Data.List.Forall2
import ProtoSchema.Proofs.Document.Grammar

/-! Lists in documents: each value that was read comes from one item, and an error from the first
item that cannot be read. -/
namespace ProtoSchema.Document
variable {α : Type}

theorem forall_mem_iff_of_forall₂ {β : Type} {R : α → β → Prop} {p : α → Prop} {q : β → Prop}
    {as : List α} {bs : List β} (h : List.Forall₂ R as bs)
    (hR : ∀ a ∈ as, ∀ b, R a b → (p a ↔ q b)) : (∀ a ∈ as, p a) ↔ ∀ b ∈ bs, q b := by
  induction h with
  | nil => simp
  | @cons a b as bs hHead _ ih =>
    rw [List.forall_mem_cons] at hR
    rw [List.forall_mem_cons, List.forall_mem_cons, hR.1 b hHead, ih hR.2]

theorem forall_mem_of_forall₂ {β : Type} {R : α → β → Prop} {q : β → Prop} {as : List α}
    {bs : List β} (h : List.Forall₂ R as bs) (hR : ∀ a ∈ as, ∀ b, R a b → q b) :
    ∀ b ∈ bs, q b := by
  have hAll : (∀ a ∈ as, True) ↔ ∀ b ∈ bs, q b :=
    forall_mem_iff_of_forall₂ h fun a ha b hab => iff_of_true trivial (hR a ha b hab)
  exact hAll.mp fun _ _ => trivial

theorem readItems_eq_ok_iff {read : Json → Result α} {i : Nat} {items : List Json} {as : List α} :
    readItems read i items = .ok as ↔ List.Forall₂ (fun item a => read item = .ok a) items as := by
  induction items generalizing i as with
  | nil =>
    rw [readItems, Except.ok.injEq, List.forall₂_nil_left_iff, eq_comm]
  | cons item items ih =>
    rw [readItems, bind_eq_ok_iff, List.forall₂_cons_left_iff]
    constructor
    · intro hRead
      obtain ⟨a, ha, hRead⟩ := hRead
      obtain ⟨rest, hRest, h⟩ := bind_eq_ok_iff.mp hRead
      exact ⟨a, rest, under_eq_ok_iff.mp ha, ih.mp hRest, (Except.ok.inj h).symm⟩
    · intro hItems
      obtain ⟨a, rest, ha, hRest, rfl⟩ := hItems
      exact ⟨a, under_eq_ok_iff.mpr ha, bind_eq_ok_iff.mpr ⟨rest, ih.mpr hRest, rfl⟩⟩

theorem readList_eq_ok_iff {read : Json → Result α} {value : Json} {as : List α} :
    readList read value = .ok as ↔
      ∃ items, value = .arr items ∧ List.Forall₂ (fun item a => read item = .ok a) items as := by
  cases value with
  | arr items => simp [readList, readItems_eq_ok_iff]
  | _ => simp [readList, fail]

/-- The value at index `k` is the first of these that cannot be read, and this is why. -/
structure FirstFails (read : Json → Result α) (items : List Json) (k : Nat) (error : Error) :
    Prop where
  before : ∀ other ∈ items.take k, Succeeds (read other)
  fails : ∃ item, items[k]? = some item ∧ read item = .error error

section
variable {read : Json → Result α} {item : Json} {items : List Json} {k : Nat} {error : Error}

theorem not_firstFails_nil : ¬ FirstFails read [] k error := by
  rintro ⟨-, item, hItem, -⟩
  cases hItem

theorem firstFails_zero_iff :
    FirstFails read (item :: items) 0 error ↔ read item = .error error := by
  constructor
  · rintro ⟨-, other, hOther, hError⟩
    rw [List.getElem?_cons_zero, Option.some.injEq] at hOther
    rwa [hOther]
  · exact fun h => ⟨nofun, item, rfl, h⟩

theorem firstFails_succ_iff : FirstFails read (item :: items) (k + 1) error ↔
    Succeeds (read item) ∧ FirstFails read items k error := by
  constructor
  · rintro ⟨hBefore, hFails⟩
    rw [List.take_succ_cons, List.forall_mem_cons] at hBefore
    exact ⟨hBefore.1, hBefore.2, hFails⟩
  · rintro ⟨hItem, hBefore, hFails⟩
    refine ⟨?_, hFails⟩
    rw [List.take_succ_cons, List.forall_mem_cons]
    exact ⟨hItem, hBefore⟩

/-- Reading items fails at the first that cannot be read. -/
theorem readItems_eq_error_iff {i : Nat} : readItems read i items = .error error ↔
    ∃ k inner, FirstFails read items k inner ∧ error = inner.under (.index (i + k)) := by
  induction items generalizing i with
  | nil =>
    refine iff_of_false nofun ?_
    rintro ⟨k, inner, h, -⟩
    exact not_firstFails_nil h
  | cons item items ih =>
    rw [readItems, bind_eq_error_iff, under_eq_error_iff]
    simp only [map_eq_error_iff, under_eq_ok_iff, ih]
    constructor
    · rintro (⟨inner, hItem, rfl⟩ | ⟨a, hItem, k, inner, hFirst, rfl⟩)
      · exact ⟨0, inner, firstFails_zero_iff.mpr hItem, rfl⟩
      · refine ⟨k + 1, inner, firstFails_succ_iff.mpr ⟨⟨a, hItem⟩, hFirst⟩, ?_⟩
        rw [Nat.add_right_comm, Nat.add_assoc]
    · rintro ⟨k, inner, hFirst, rfl⟩
      cases k with
      | zero => exact .inl ⟨inner, firstFails_zero_iff.mp hFirst, rfl⟩
      | succ k =>
        obtain ⟨⟨a, hItem⟩, hRest⟩ := firstFails_succ_iff.mp hFirst
        refine .inr ⟨a, hItem, k, inner, hRest, ?_⟩
        rw [Nat.add_right_comm, Nat.add_assoc]

end

theorem listed_eq_of_lookup {fields : List (String × Json)} {name : String} {items : List Json}
    (h : (fields.lookup name).getD (.arr []) = .arr items) : listed name fields = items := by
  unfold listed
  cases hLookup : fields.lookup name with
  | none =>
    rw [hLookup, Option.getD_none] at h
    exact Json.arr.inj h
  | some value =>
    rw [hLookup, Option.getD_some] at h
    rw [h]

/-- Declarations come from the values listed under their attribute, each read and fit for its
place. Only a oneof needs one. -/
theorem readMembers_eq_ok {fields : List (String × Json)} {name : String} {place : Place}
    {decls : List Declaration}
    (h : readAttribute fields name (.arr []) (readMembers place) = .ok decls) :
    List.Forall₂ (fun item decl => readDeclaration item = .ok decl ∧ place.Admits decl.kind)
        (listed name fields) decls ∧
      (place = .choice → decls ≠ []) := by
  rw [readAttribute, under_eq_ok_iff] at h
  by_cases hValue : (fields.lookup name).getD (.arr []) = .arr []
  · rw [hValue, readMembers_nil] at h
    rw [listed_eq_of_lookup hValue]
    cases place with
    | choice => cases h
    | member =>
      cases h
      exact ⟨.nil, by rintro ⟨⟩⟩
    | operation =>
      cases h
      exact ⟨.nil, by rintro ⟨⟩⟩
  · rw [readMembers_of_ne_nil place hValue] at h
    obtain ⟨items, hItems, hRead⟩ := readList_eq_ok_iff.mp h
    rw [listed_eq_of_lookup hItems]
    refine ⟨hRead.imp fun item decl hDecl => readMember_eq_ok_iff.mp hDecl, fun _ hNil => ?_⟩
    rw [hNil, List.forall₂_nil_right_iff] at hRead
    exact hValue (by rw [hItems, hRead])

end ProtoSchema.Document
