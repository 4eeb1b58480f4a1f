import ProtoSchema.Document.Reader

/-! Outcomes of reading a document: when there is a value, and which; errors with a path. -/
namespace ProtoSchema.Document
variable {α β : Type}

theorem bind_eq_ok_iff {result : Result α} {f : α → Result β} {b : β} :
    result >>= f = .ok b ↔ ∃ a, result = .ok a ∧ f a = .ok b := by
  constructor
  · intro h
    cases result with
    | error e => cases h
    | ok a => exact ⟨a, rfl, h⟩
  · intro hBind
    obtain ⟨a, rfl, h⟩ := hBind
    exact h

theorem under_eq_ok_iff {step : Step} {result : Result α} {a : α} :
    under step result = .ok a ↔ result = .ok a := by
  cases result with
  | error e =>
    constructor
    · intro h
      cases h
    · intro h
      cases h
  | ok b => exact Iff.rfl

theorem bind_eq_error_iff {result : Result α} {f : α → Result β} {error : Error} :
    result >>= f = .error error ↔
      result = .error error ∨ ∃ a, result = .ok a ∧ f a = .error error := by
  cases result with
  | error other =>
    refine ⟨fun h => .inl ?_, fun h => ?_⟩
    · cases h
      rfl
    · rcases h with h | ⟨a, h, -⟩
      · cases h
        rfl
      · cases h
  | ok a =>
    refine ⟨fun h => .inr ⟨a, rfl, h⟩, fun h => ?_⟩
    rcases h with h | ⟨_, h, hNext⟩
    · cases h
    · cases h
      exact hNext

theorem map_eq_error_iff {result : Result α} {f : α → β} {error : Error} :
    (result >>= fun a => pure (f a)) = .error error ↔ result = .error error := by
  rw [bind_eq_error_iff]
  refine or_iff_left ?_
  rintro ⟨a, -, h⟩
  cases h

theorem under_eq_error_iff {step : Step} {result : Result α} {error : Error} :
    under step result = .error error ↔
      ∃ inner, result = .error inner ∧ error = inner.under step := by
  cases result with
  | ok a =>
    refine ⟨nofun, ?_⟩
    rintro ⟨inner, h, -⟩
    cases h
  | error inner =>
    constructor
    · intro h
      cases h
      exact ⟨inner, rfl, rfl⟩
    · rintro ⟨_, h, rfl⟩
      cases h
      rfl

/-- There is a value. -/
def Succeeds (result : Result α) : Prop := ∃ a, result = .ok a

theorem not_succeeds_fail (problem : Problem) : ¬ Succeeds (fail (α := α) problem) := by
  intro hOk
  obtain ⟨a, h⟩ := hOk
  cases h

/-- To fail with what a value looks like is to fail, if only because it cannot be shown. -/
theorem failShowing_eq_error (problem : String → Problem) (value : Json) :
    ∃ error, failShowing (α := α) problem value = .error error := by
  unfold failShowing
  cases value.display? with
  | none => exact ⟨_, rfl⟩
  | some shown => exact ⟨_, rfl⟩

theorem failShowing_ne_ok (problem : String → Problem) (value : Json) (a : α) :
    failShowing problem value ≠ .ok a := by
  obtain ⟨error, h⟩ := failShowing_eq_error (α := α) problem value
  rw [h]
  exact nofun

theorem not_succeeds_failShowing (problem : String → Problem) (value : Json) :
    ¬ Succeeds (failShowing (α := α) problem value) :=
  fun hOk => hOk.elim fun a h => failShowing_ne_ok problem value a h

theorem succeeds_ok (a : α) : Succeeds (.ok a) := ⟨a, rfl⟩

theorem succeeds_under_iff {step : Step} {result : Result α} :
    Succeeds (under step result) ↔ Succeeds result :=
  exists_congr fun _ => under_eq_ok_iff

theorem succeeds_map_iff {result : Result α} {f : α → β} :
    Succeeds (result >>= fun a => pure (f a)) ↔ Succeeds result := by
  constructor
  · intro hOk
    obtain ⟨b, h⟩ := hOk
    obtain ⟨a, ha, -⟩ := bind_eq_ok_iff.mp h
    exact ⟨a, ha⟩
  · intro hOk
    obtain ⟨a, ha⟩ := hOk
    exact ⟨f a, bind_eq_ok_iff.mpr ⟨a, ha, rfl⟩⟩

/-- Where the success of a second part does not depend on the value of the first. -/
theorem succeeds_bind_iff {result : Result α} {f : α → Result β} {c : Prop}
    (h : ∀ a, result = .ok a → (Succeeds (f a) ↔ c)) :
    Succeeds (result >>= f) ↔ Succeeds result ∧ c := by
  constructor
  · intro hOk
    obtain ⟨b, hb⟩ := hOk
    obtain ⟨a, ha, hf⟩ := bind_eq_ok_iff.mp hb
    exact ⟨⟨a, ha⟩, (h a ha).mp ⟨b, hf⟩⟩
  · intro hOk
    obtain ⟨⟨a, ha⟩, hc⟩ := hOk
    obtain ⟨b, hb⟩ := (h a ha).mpr hc
    exact ⟨b, bind_eq_ok_iff.mpr ⟨a, ha, hb⟩⟩

/-- The result is `value` under the condition, and an error that has a path otherwise. -/
structure ReadsWhen (condition : Prop) (result : Result α) (value : α) : Prop where
  ok : condition → result = .ok value
  located : ¬ condition → ∃ path problem, result = .error (.located path problem)

namespace ReadsWhen
variable {c d : Prop} {result : Result α} {a : α}

theorem of_ok (h : result = .ok a) : ReadsWhen True result a :=
  ⟨fun _ => h, fun hn => absurd trivial hn⟩

theorem of_fail (problem : Problem) : ReadsWhen False (fail problem) a :=
  ⟨False.elim, fun _ => ⟨[], problem, rfl⟩⟩

theorem congr (h : ReadsWhen c result a) (hcd : c ↔ d) : ReadsWhen d result a := propext hcd ▸ h

theorem under (h : ReadsWhen c result a) (step : Step) :
    ReadsWhen c (Document.under step result) a := by
  constructor
  · intro hc
    rw [h.ok hc]
    rfl
  · intro hc
    obtain ⟨path, problem, hr⟩ := h.located hc
    refine ⟨step :: path, problem, ?_⟩
    rw [hr]
    rfl

/-- Two parts read one after the other. -/
theorem bind {f : α → Result β} {b : β} (h : ReadsWhen c result a) (hf : ReadsWhen d (f a) b) :
    ReadsWhen (c ∧ d) (result >>= f) b := by
  constructor
  · intro h
    obtain ⟨hc, hd⟩ := h
    rw [h.ok hc]
    exact hf.ok hd
  · intro hcd
    by_cases hc : c
    · rw [h.ok hc]
      exact hf.located fun hd => hcd ⟨hc, hd⟩
    · obtain ⟨path, problem, hr⟩ := h.located hc
      refine ⟨path, problem, ?_⟩
      rw [hr]
      rfl

/-- A last part, whose value is put to use. -/
theorem map (h : ReadsWhen c result a) (f : α → β) :
    ReadsWhen c (result >>= fun x => pure (f x)) (f a) := by
  constructor
  · intro hc
    rw [h.ok hc]
    rfl
  · intro hc
    obtain ⟨path, problem, hr⟩ := h.located hc
    refine ⟨path, problem, ?_⟩
    rw [hr]
    rfl

theorem eq_ok_iff {b : α} (h : ReadsWhen c result a) : result = .ok b ↔ c ∧ a = b := by
  constructor
  · intro hb
    by_cases hc : c
    · exact ⟨hc, Except.ok.inj ((h.ok hc).symm.trans hb)⟩
    · obtain ⟨path, problem, hr⟩ := h.located hc
      rw [hb] at hr
      cases hr
  · intro h
    obtain ⟨hc, rfl⟩ := h
    exact h.ok hc

end ReadsWhen
end ProtoSchema.Document
