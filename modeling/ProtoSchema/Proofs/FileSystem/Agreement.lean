import ProtoSchema.Proofs.FileSystem.Look

/-! Trees that are the same but for what some files hold. An operation on both keeps them so, and
nothing but a look into these files tells them apart. -/
namespace ProtoSchema.FileSystem.Tree

/-- The trees are the same, except that files at some of the paths may hold something else. -/
def AgreeBut (exempt : Path → Prop) (a b : Tree) : Prop :=
  ∀ path, look path a = look path b ∨ exempt path ∧
    ∃ c d, look path a = some (.file c) ∧ look path b = some (.file d)

namespace AgreeBut
variable {exempt : Path → Prop} {a b : Tree}

theorem directory_iff (h : AgreeBut exempt a b) (path : Path) :
    look path a = some .directory ↔ look path b = some .directory := by
  rcases h path with hSame | ⟨-, c, d, ha, hb⟩
  · rw [hSame]
  · simp [ha, hb]

theorem file_iff (h : AgreeBut exempt a b) (path : Path) :
    (∃ c, look path a = some (.file c)) ↔ ∃ c, look path b = some (.file c) := by
  rcases h path with hSame | ⟨-, c, d, ha, hb⟩
  · rw [hSame]
  · exact iff_of_true ⟨c, ha⟩ ⟨d, hb⟩

/-- A file is written in both trees, or in neither. -/
theorem write (h : AgreeBut exempt a b) {path : Path} {content : ByteArray} {a' : Tree}
    (hWrite : Tree.write path content a = .ok a') :
    ∃ b', Tree.write path content b = .ok b' ∧ AgreeBut exempt a' b' := by
  have hParents := (exists_writeAt_iff content path (some a)).mp ⟨a', hWrite⟩
  obtain ⟨b', hWrite'⟩ : ∃ b', writeAt content path (some b) = .ok b' := by
    rw [exists_writeAt_iff]
    refine ⟨fun hDirectory => hParents.1 ((h.directory_iff path).mpr hDirectory), ?_⟩
    exact fun above hAbove hNe => (h.directory_iff above).mp (hParents.2 above hAbove hNe)
  refine ⟨b', hWrite', fun other => ?_⟩
  rw [look_writeAt hWrite, look_writeAt hWrite']
  by_cases hOther : other = path
  · exact .inl (by rw [if_pos hOther, if_pos hOther])
  · rw [if_neg hOther, if_neg hOther]
    exact h other

theorem makeDirectories (h : AgreeBut exempt a b) {path : Path} {a' : Tree}
    (hMake : Tree.makeDirectories path a = .ok a') :
    ∃ b', Tree.makeDirectories path b = .ok b' ∧ AgreeBut exempt a' b' := by
  have hFree := (exists_makeDirectoriesAt_iff path (some a)).mp ⟨a', hMake⟩
  obtain ⟨b', hMake'⟩ : ∃ b', makeDirectoriesAt path (some b) = .ok b' := by
    rw [exists_makeDirectoriesAt_iff]
    intro above hAbove d hFile
    obtain ⟨c, hFile⟩ := (h.file_iff above).mpr ⟨d, hFile⟩
    exact hFree above hAbove c hFile
  refine ⟨b', hMake', fun other => ?_⟩
  rw [look_makeDirectoriesAt hMake, look_makeDirectoriesAt hMake']
  by_cases hOther : other <+: path
  · exact .inl (by rw [if_pos hOther, if_pos hOther])
  · rw [if_neg hOther, if_neg hOther]
    exact h other

/-- Parts of the trees at the same place agree too. -/
theorem entry {entries others : List (String × Tree)}
    (h : AgreeBut exempt (directory entries) (directory others)) (name : String) :
    (entries.lookup name = none ∧ others.lookup name = none) ∨
      ∃ c d, entries.lookup name = some c ∧ others.lookup name = some d ∧
        AgreeBut (fun path => exempt (name :: path)) c d := by
  have hLook : ∀ tree : Tree, look [] tree ≠ none := by
    intro tree
    cases tree <;> exact nofun
  have hName := h [name]
  simp only [look] at hName
  cases hc : entries.lookup name with
  | none =>
    cases hd : others.lookup name with
    | none => exact .inl ⟨rfl, rfl⟩
    | some d =>
      rw [hc, hd] at hName
      rcases hName with hSame | ⟨-, _, _, hFile, -⟩
      · exact absurd hSame.symm (hLook d)
      · cases hFile
  | some c =>
    cases hd : others.lookup name with
    | none =>
      rw [hc, hd] at hName
      rcases hName with hSame | ⟨-, _, _, -, hFile⟩
      · exact absurd hSame (hLook c)
      · cases hFile
    | some d =>
      refine .inr ⟨c, d, rfl, rfl, fun path => ?_⟩
      have hPath := h (name :: path)
      simp only [look, hc, hd, Option.bind_some] at hPath
      exact hPath

/-- Reading at another path gives the same content, or the same failure. -/
theorem read_eq (h : AgreeBut exempt a b) {path : Path} (hPath : ¬ exempt path) :
    Tree.read path a = Tree.read path b := by
  induction path generalizing a b exempt with
  | nil =>
    have hRoot := (h []).resolve_right fun hExempt => hPath hExempt.1
    cases a with
    | file c =>
      cases b with
      | file d => cases hRoot; rfl
      | directory others => cases hRoot
    | directory entries =>
      cases b with
      | file d => cases hRoot
      | directory others => rfl
  | cons name path ih =>
    have hKind := h.directory_iff []
    cases a with
    | file c =>
      cases b with
      | file d => rfl
      | directory others => exact absurd (hKind.mpr rfl) nofun
    | directory entries =>
      cases b with
      | file d => exact absurd (hKind.mp rfl) nofun
      | directory others =>
        rcases h.entry name with ⟨hc, hd⟩ | ⟨c, d, hc, hd, hEntry⟩
        · simp only [Tree.read, find, hc, hd]
        · have hRead := ih hEntry hPath
          simp only [Tree.read, find, hc, hd] at hRead ⊢
          exact hRead

end AgreeBut
end ProtoSchema.FileSystem.Tree
