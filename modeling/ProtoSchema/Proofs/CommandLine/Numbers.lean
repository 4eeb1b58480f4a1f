import Mathlib.Data.List.TakeWhile
import ProtoSchema.CommandLine.Generate
import ProtoSchema.Proofs.Decimal.Numeral

/-! Numbers as arguments. A negative number looks like a flag and is none. -/
namespace ProtoSchema.CommandLine
open Decimal (Short)

theorem splitEquals_toString (n : Int) : splitEquals (toString n) = (toString n, none) := by
  have hAll : ∀ c ∈ (toString n).toList, decide (c ≠ '=') = true := by
    intro c hc
    refine decide_eq_true fun hEq => ?_
    rw [hEq] at hc
    exact Decimal.not_mem_toString (by decide) (by decide) hc
  have hTake : (toString n).toList.takeWhile (fun c => decide (c ≠ '=')) = (toString n).toList :=
    List.takeWhile_eq_self_iff.mpr hAll
  have hDrop : (toString n).toList.drop (toString n).toList.length = [] :=
    List.drop_eq_nil_of_le (Nat.le_refl _)
  unfold splitEquals
  simp only [hTake, hDrop]

theorem isNegativeNumber_toString {n : Int} (h : n < 0) : isNegativeNumber (toString n) = true := by
  have hDigits : ∀ c ∈ Nat.toDigits 10 n.natAbs, (Text.digitValue? c).isSome = true := by
    intro c hc
    rw [Decimal.Numeral.digitValue?_of_isDigit (Decimal.isDigit_of_mem_toDigits hc)]
    rfl
  have hLast : (Nat.toDigits 10 n.natAbs).getLast? ≠ some '\n' := by
    intro hLast
    exact absurd (Decimal.isDigit_of_mem_toDigits (List.mem_of_getLast? hLast)) (by decide)
  have hDrop : (Nat.toDigits 10 n.natAbs).dropWhile (fun c => (Text.digitValue? c).isSome) = [] :=
    List.dropWhile_eq_nil_iff.mpr hDigits
  have hNotEmpty : (Nat.toDigits 10 n.natAbs).isEmpty = false :=
    List.isEmpty_eq_false_iff.mpr Nat.toDigits_ne_nil
  unfold isNegativeNumber
  rw [Decimal.toList_toString, if_pos h, List.singleton_append]
  simp only [if_neg hLast, hDrop, hNotEmpty, Bool.not_false]

theorem isLong_toString (n : Int) : isLong (toString n) = false := by
  have hDigits : ∀ c ∈ (Nat.toDigits 10 n.natAbs).head?, c ≠ '-' := by
    rintro c hc rfl
    exact absurd (Decimal.isDigit_of_mem_toDigits (List.mem_of_mem_head? hc)) (by decide)
  have hNot : ¬ ['-', '-'] <+: (toString n).toList := by
    rw [Decimal.toList_toString]
    cases hList : Nat.toDigits 10 n.natAbs with
    | nil => exact absurd hList Nat.toDigits_ne_nil
    | cons d ds =>
      rw [hList] at hDigits
      have hFirst : '-' ≠ d := (hDigits d rfl).symm
      split <;> simp [hFirst]
  exact Bool.eq_false_iff.mpr fun h => hNot (String.startsWith_string_iff.mp h)

theorem toString_ne_dashes (n : Int) : toString n ≠ "--" := by
  intro h
  have hLong : isLong "--" = true := String.startsWith_string_iff.mpr List.prefix_rfl
  rw [← h, isLong_toString] at hLong
  cases hLong

namespace Grammar
variable {κ : Type} {grammar : Grammar κ}
  (hNames : ∀ flag ∈ grammar.flags, ∀ name ∈ flag.names,
    name.toList.any fun c => c ≠ '-' && !c.isDigit)
include hNames

/-- A name of a flag is no part of a number. -/
theorem name_ne {flag : Flag κ} (hFlag : flag ∈ grammar.flags) {name : String}
    (hName : name ∈ flag.names) {n : Int} {part : String}
    (hPart : ∀ c ∈ part.toList, c ∈ (toString n).toList) : name ≠ part := by
  rintro rfl
  obtain ⟨c, hMem, hOther⟩ := List.any_eq_true.mp (hNames flag hFlag name hName)
  obtain ⟨hMinus, hDigit⟩ := Bool.and_eq_true_iff.mp hOther
  refine Decimal.not_mem_toString (of_decide_eq_true hMinus) ?_ (hPart c hMem)
  exact (Bool.not_eq_true' _).mp hDigit

theorem spelled?_toString (n : Int) : grammar.spelled? (toString n) = none := by
  have hFind : grammar.find? (toString n) = none := by
    refine List.find?_eq_none.mpr fun flag hFlag hContains => ?_
    exact name_ne hNames hFlag (List.contains_iff_mem.mp hContains) (fun _ => id) rfl
  rw [spelled?, hFind, splitEquals_toString]

theorem candidates_toString (n : Int) : grammar.candidates (toString n) = [] := by
  rw [candidates, isLong_toString, if_neg Bool.false_ne_true, List.map_eq_nil_iff,
    List.filter_eq_nil_iff]
  intro entry hEntry hStart
  obtain ⟨flag, hFlag, hEntry⟩ := List.mem_flatMap.mp hEntry
  obtain ⟨name, hName, rfl⟩ := List.mem_map.mp hEntry
  have hPart : ∀ c ∈ (String.ofList ((toString n).toList.take 2)).toList,
      c ∈ (toString n).toList := by
    intro c hc
    rw [String.toList_ofList] at hc
    exact List.mem_of_mem_take hc
  exact name_ne hNames hFlag hName hPart (of_decide_eq_true hStart)

/-- A number is an argument of its own, though it may start with a dash. -/
theorem classify_toString (n : Int) :
    grammar.classify (toString n) = .ok (.plain (toString n)) := by
  rw [classify]
  split
  · rfl
  · rename_i hDash
    have hHead : (toString n).toList.head? = some '-' := not_not.mp fun h => hDash (.inl h)
    have hNegative : n < 0 := by
      by_contra hSign
      rw [Decimal.toList_toString, if_neg hSign, List.nil_append] at hHead
      exact absurd (Decimal.isDigit_of_mem_toDigits (List.mem_of_mem_head? hHead)) (by decide)
    rw [spelled?_toString hNames, candidates_toString hNames, isNegativeNumber_toString hNegative]
    rfl

end Grammar

namespace Generate

/-- A seed and a count that are written in decimal are asked for as such. -/
theorem request_toString {seed count : Int} (hSeed : Short seed) (hCount : Short count) :
    request ["--seed", toString seed, "--count", toString count] =
      .generate { seed, count } := by
  have hNames : ∀ flag ∈ grammar.flags, ∀ name ∈ flag.names,
      name.toList.any fun c => c ≠ '-' && !c.isDigit := by decide
  have hSeedFlag : grammar.classify "--seed" =
      .ok (.flag { key := .seed, names := seedNames, takesValue := true } "--seed" none) := rfl
  have hCountFlag : grammar.classify "--count" =
      .ok (.flag { key := .count, names := countNames, takesValue := true } "--count" none) := rfl
  have hTokens : grammar.tokens ["--seed", toString seed, "--count", toString count] =
      .ok [.flag { key := .seed, names := seedNames, takesValue := true } "--seed" none,
        .plain (toString seed),
        .flag { key := .count, names := countNames, takesValue := true } "--count" none,
        .plain (toString count)] := by
    have hSeed : "--seed" ≠ "--" := by decide
    have hCount : "--count" ≠ "--" := by decide
    simp only [Grammar.tokens, if_neg hSeed, if_neg hCount, if_neg (toString_ne_dashes _),
      hSeedFlag, hCountFlag, Grammar.classify_toString hNames, bind, Except.bind, pure, Except.pure]
  have hParse : grammar.parse ["--seed", toString seed, "--count", toString count] =
      { events := [.value .seed (toString seed), .value .count (toString count)],
        operands := .ok [] } := by
    have hValue : ∀ (flag : Flag Key) (n : Int), Grammar.valueEvent flag (toString n) =
        .value flag.key (toString n) := by
      intro flag n
      rw [Grammar.valueEvent, if_neg (toString_ne_dashes n)]
    rw [Grammar.parse, hTokens]
    simp only [grammar, Grammar.walk, Grammar.expand, Grammar.finish, hValue, Parsed.after,
      Operands.close, Operands.taken, if_true, List.nil_append, List.singleton_append,
      Option.isSome_none, Bool.false_eq_true, if_false, List.isEmpty_nil]
  rw [request, hParse]
  simp only [requestOf, Decimal.Numeral.read?_toString hSeed, Decimal.Numeral.read?_toString hCount]

end Generate
end ProtoSchema.CommandLine
