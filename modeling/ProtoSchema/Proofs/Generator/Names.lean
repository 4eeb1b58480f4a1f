import Mathlib.Data.List.Nodup
import ProtoSchema.Generator.Names
import ProtoSchema.Proofs.Decimal.Integer
import ProtoSchema.Proofs.Sampling.Ensures
import ProtoSchema.Proofs.Text.Separated

/-!
Names that hold a number. A name determines its number, so that names with numbers from different
ranges differ. The names handed out in a file are of this kind.
-/
namespace ProtoSchema.Generator
open Sampling (Gen)

/-- The name is a character, this number, and no further digit after it. -/
def HasNumber (number : Nat) (name : String) : Prop :=
  ∃ (kind : Char) (tail : List Char), name.toList = kind :: (Nat.toDigits 10 number ++ tail) ∧
    ∀ c ∈ tail.head?, ¬ c.isDigit

theorem isDigit_toUpper (c : Char) : c.toUpper.isDigit = c.isDigit := by
  by_cases h : 'a'.val ≤ c.val ∧ c.val ≤ 'z'.val
  · have hLower : 97 ≤ c.val.toNat ∧ c.val.toNat ≤ 122 := h
    have hVal : c.toUpper.val = c.val + ('A'.val - 'a'.val) := by
      delta Char.toUpper
      rw [dif_pos h]
    have hUpper : c.toUpper.val.toNat = c.val.toNat - 32 := by
      rw [hVal, UInt32.toNat_add]
      have hShift : ('A'.val - 'a'.val).toNat = 2 ^ 32 - 32 := by decide
      omega
    have hZero : '0'.val.toNat = 48 := rfl
    have hNine : '9'.val.toNat = 57 := rfl
    rw [Bool.eq_iff_iff]
    simp only [Char.isDigit, ge_iff_le, UInt32.le_iff_toNat_le, Bool.and_eq_true,
      decide_eq_true_eq, hUpper, hZero, hNine]
    omega
  · have hSame : c.toUpper = c := dif_neg h
    rw [hSame]

theorem toUpper_of_isDigit {c : Char} (h : c.isDigit) : c.toUpper = c := by
  simp only [Char.isDigit, Bool.and_eq_true, decide_eq_true_eq] at h
  refine dif_neg fun hLetter => ?_
  exact absurd (UInt32.le_trans hLetter.1 h.2) (by decide)

namespace HasNumber

theorem unique {a b : Nat} {name : String} (ha : HasNumber a name) (hb : HasNumber b name) :
    a = b := by
  obtain ⟨kind, tail, hName, hTail⟩ := ha
  obtain ⟨kind', tail', hName', hTail'⟩ := hb
  rw [hName, List.cons.injEq] at hName'
  have hDigits : Nat.toDigits 10 a = Nat.toDigits 10 b :=
    (Text.append_inj_of_head (p := fun c => c.isDigit)
      (fun _ => Decimal.isDigit_of_mem_toDigits) (fun _ => Decimal.isDigit_of_mem_toDigits)
      hTail hTail' hName'.2).1
  rw [← Decimal.ofDigits_toDigits a, hDigits, Decimal.ofDigits_toDigits]

theorem append {number : Nat} {name suffix : String} (h : HasNumber number name)
    (hSuffix : ∀ c ∈ suffix.toList.head?, ¬ c.isDigit) : HasNumber number (name ++ suffix) := by
  obtain ⟨kind, tail, hName, hTail⟩ := h
  refine ⟨kind, tail ++ suffix.toList, ?_, ?_⟩
  · rw [String.toList_append, hName, List.cons_append, List.append_assoc]
  · cases tail with
    | nil => exact hSuffix
    | cons first rest => exact hTail

theorem toUpper {number : Nat} {name : String} (h : HasNumber number name) :
    HasNumber number name.toUpper := by
  obtain ⟨kind, tail, hName, hTail⟩ := h
  have hDigits : (Nat.toDigits 10 number).map Char.toUpper = Nat.toDigits 10 number := by
    have hSame : ∀ c ∈ Nat.toDigits 10 number, c.toUpper = c :=
      fun c hc => toUpper_of_isDigit (Decimal.isDigit_of_mem_toDigits hc)
    exact (List.map_congr_left hSame).trans (List.map_id' _)
  refine ⟨kind.toUpper, tail.map Char.toUpper, ?_, ?_⟩
  · rw [String.toUpper, String.toList_map, hName, List.map_cons, List.map_append, hDigits]
  · intro c hc
    rw [List.head?_map] at hc
    obtain ⟨first, hFirst, rfl⟩ := Option.map_eq_some_iff.mp hc
    rw [isDigit_toUpper]
    exact hTail first hFirst

end HasNumber

/-- No name stands twice among these, and their numbers lie above the first bound and not above the
second. -/
structure Fresh (low high : Nat) (names : List String) : Prop where
  le : low ≤ high
  nodup : names.Nodup
  numbered : ∀ name ∈ names, ∃ number, low < number ∧ number ≤ high ∧ HasNumber number name

namespace Fresh
variable {low middle high : Nat} {names others : List String}

theorem nil (n : Nat) : Fresh n n [] := ⟨Nat.le_refl n, .nil, nofun⟩

/-- Names that all have the number after the bound. -/
theorem of_forall (h : ∀ name ∈ names, HasNumber (low + 1) name) (hNodup : names.Nodup) :
    Fresh low (low + 1) names :=
  ⟨Nat.le_succ low, hNodup, fun name hName =>
    ⟨low + 1, Nat.lt_succ_self low, Nat.le_refl _, h name hName⟩⟩

theorem singleton {name : String} (h : HasNumber (low + 1) name) : Fresh low (low + 1) [name] :=
  of_forall (List.forall_mem_singleton.mpr h) (List.nodup_singleton name)

theorem append (hNames : Fresh low middle names) (hOthers : Fresh middle high others) :
    Fresh low high (names ++ others) := by
  refine ⟨Nat.le_trans hNames.le hOthers.le, ?_, fun name hName => ?_⟩
  · refine List.nodup_append.mpr ⟨hNames.nodup, hOthers.nodup, ?_⟩
    intro name hName other hOther hEq
    obtain ⟨number, -, hUpper, hNumber⟩ := hNames.numbered name hName
    obtain ⟨number', hLower, -, hNumber'⟩ := hOthers.numbered other hOther
    have hSame : number = number' := hNumber.unique (hEq ▸ hNumber')
    omega
  · have hLow := hNames.le
    have hHigh := hOthers.le
    rcases List.mem_append.mp hName with hName | hName
    · obtain ⟨number, hLower, hUpper, hNumber⟩ := hNames.numbered name hName
      exact ⟨number, hLower, by omega, hNumber⟩
    · obtain ⟨number, hLower, hUpper, hNumber⟩ := hOthers.numbered name hName
      exact ⟨number, by omega, hUpper, hNumber⟩

theorem perm (h : Fresh low high names) (hPerm : names.Perm others) : Fresh low high others :=
  ⟨h.le, hPerm.nodup_iff.mp h.nodup, fun name hName => h.numbered name (hPerm.mem_iff.mpr hName)⟩

end Fresh

/-- What holds of a value and of the count after it, if `n` names have been handed out before. -/
def Naming.Ensures {α : Type} (n : Nat) (gen : Naming α) (P : α → Nat → Prop) : Prop :=
  Gen.Ensures (gen.run n) fun result => P result.1 result.2

namespace Naming.Ensures
variable {α β : Type} {n : Nat} {gen : Naming α} {next : α → Naming β} {P R : α → Nat → Prop}
  {Q : β → Nat → Prop}

theorem pure {a : α} (h : P a n) : Naming.Ensures n (pure a : Naming α) P := Gen.Ensures.pure h

theorem bind (h : Naming.Ensures n gen P)
    (hNext : ∀ a n', P a n' → Naming.Ensures n' (next a) Q) :
    Naming.Ensures n (gen >>= next) Q := by
  rw [Naming.Ensures, StateT.run_bind]
  exact Gen.Ensures.bind h fun result hResult => hNext result.1 result.2 hResult

theorem mono (h : Naming.Ensures n gen P) (hPR : ∀ a n', P a n' → R a n') :
    Naming.Ensures n gen R :=
  Gen.Ensures.mono h fun result => hPR result.1 result.2

/-- A choice hands out no name. -/
theorem lift {gen : Gen α} {P : α → Prop} (h : Gen.Ensures gen P) :
    Naming.Ensures n (liftM gen) fun a n' => P a ∧ n = n' := by
  change Gen.Ensures (gen >>= fun a => Pure.pure (a, n)) _
  exact h.bind fun a ha => .pure ⟨ha, rfl⟩

end Naming.Ensures

/-- What holds of a value whatever names have been handed out before. -/
def Naming.Always {α : Type} (gen : Naming α) (P : α → Prop) : Prop :=
  ∀ n, Naming.Ensures n gen fun a _ => P a

namespace Naming.Always
variable {α β : Type} {gen : Naming α} {next : α → Naming β} {P R : α → Prop} {Q : β → Prop}

theorem pure {a : α} (h : P a) : Naming.Always (pure a : Naming α) P :=
  fun _ => Naming.Ensures.pure h

theorem bind (h : Naming.Always gen P) (hNext : ∀ a, P a → Naming.Always (next a) Q) :
    Naming.Always (gen >>= next) Q :=
  fun n => (h n).bind fun a n' ha => hNext a ha n'

theorem mono (h : Naming.Always gen P) (hPR : ∀ a, P a → R a) : Naming.Always gen R :=
  fun n => (h n).mono fun a _ => hPR a

theorem and (h : Naming.Always gen P) (hAlso : Naming.Always gen R) :
    Naming.Always gen fun a => P a ∧ R a :=
  fun n => Gen.Ensures.and (h n) (hAlso n)

theorem lift {gen : Gen α} (h : Gen.Ensures gen P) : Naming.Always (liftM gen) P :=
  fun _ => (Naming.Ensures.lift h).mono fun _ _ ha => ha.1

end Naming.Always

/-- The next name has the next number. -/
theorem ensures_freshName {kind : String} {first : Char} (hKind : kind.toList = [first]) (n : Nat) :
    Naming.Ensures n (freshName kind) fun name n' => n' = n + 1 ∧ HasNumber (n + 1) name := by
  have hGet : Naming.Ensures n get fun count n' => n = count ∧ n = n' :=
    Gen.Ensures.pure ⟨rfl, rfl⟩
  have hSet : Naming.Ensures n (set (n + 1)) fun _ n' => n' = n + 1 := Gen.Ensures.pure rfl
  have hLetters : letters.all (fun c => !c.isDigit) = true := by decide
  have hLetter : ∀ c ∈ letters, c.isDigit = false :=
    fun c hc => (Bool.not_eq_true' _).mp (List.all_eq_true.mp hLetters c hc)
  have hTail : ∀ k, Gen.Ensures (Gen.times (Gen.choice letters) k) fun tail =>
      tail.length = k ∧ ∀ c ∈ tail, c ∈ letters :=
    Gen.ensures_times (Gen.ensures_choice (by decide))
  rw [freshName]
  refine hGet.bind ?_
  rintro _ _ ⟨rfl, rfl⟩
  refine hSet.bind ?_
  rintro _ _ rfl
  refine (Naming.Ensures.lift (Gen.ensures_between (Nat.zero_le 6))).bind ?_
  rintro k _ ⟨-, rfl⟩
  refine (Naming.Ensures.lift (hTail k)).bind ?_
  rintro tail _ ⟨⟨-, hTail⟩, rfl⟩
  refine .pure ⟨rfl, first, capitalize tail, ?_, ?_⟩
  · rw [String.toList_append, String.toList_append, String.toList_ofList, hKind, List.append_assoc]
    exact congrArg (fun digits => first :: (digits ++ capitalize tail)) Nat.toList_repr
  · cases tail with
    | nil => exact nofun
    | cons c rest =>
      rintro _ ⟨⟩
      rw [isDigit_toUpper, hLetter c (hTail c List.mem_cons_self)]
      exact Bool.false_ne_true

end ProtoSchema.Generator
