import ProtoSchema.Json.Printer
import ProtoSchema.Json.Reader

/-! Strings that were written are read back: every character comes back from its escapes. -/
namespace ProtoSchema.Json

theorem hexDigit?_hexDigit (n : Nat) : hexDigit? (Text.hexDigit n) = some (n % 16) := by
  have hSmall : ∀ d < 16, hexDigit? (Nat.digitChar d) = some d := by decide
  exact hSmall (n % 16) (Nat.mod_lt n (by decide))

theorem hexUnit?_hexDigits {unit : Nat} (h : unit < 0x10000) :
    ∃ a b c d, Text.hexDigits unit 4 = [a, b, c, d] ∧ hexUnit? a b c d = some unit := by
  refine ⟨_, _, _, _, rfl, ?_⟩
  simp only [hexUnit?, hexDigit?_hexDigit, Option.bind_eq_bind, Option.bind_some,
    Option.pure_def, Option.some.injEq]
  omega

section
variable (opening : List Char) (units : List Nat) {rest : List Char} (hRest : rest ≠ [])
include hRest

theorem scanUnits_unitEscape {unit : Nat} (h : unit < 0x10000) :
    scanUnits opening units (unitEscape unit ++ rest) = scanUnits opening (unit :: units) rest := by
  obtain ⟨next, after, rfl⟩ := List.exists_cons_of_ne_nil hRest
  obtain ⟨a, b, c, d, hDigits, hUnit⟩ := hexUnit?_hexDigits h
  simp only [unitEscape, hDigits, List.cons_append, List.nil_append]
  rw [scanUnits, hUnit]

theorem scanUnits_escaped {c e : Char} (h : escaped? c = some e) (hMark : c ≠ 'u') :
    scanUnits opening units (['\\', c] ++ rest) = scanUnits opening (e.toNat :: units) rest := by
  obtain ⟨next, after, rfl⟩ := List.exists_cons_of_ne_nil hRest
  simp only [List.cons_append, List.nil_append]
  rw [scanUnits, h]
  · intro _ _ _ _ _ _ hEq
    exact absurd hEq hMark
  · exact hMark

theorem scanUnits_self {c : Char} (hQuote : c ≠ '"') (hBackslash : c ≠ '\\')
    (h : ¬ c.toNat < 0x20) :
    scanUnits opening units ([c] ++ rest) = scanUnits opening (c.toNat :: units) rest := by
  obtain ⟨next, after, rfl⟩ := List.exists_cons_of_ne_nil hRest
  rw [List.singleton_append, scanUnits, if_neg h]
  · exact hQuote
  all_goals
    intros
    exact hBackslash ‹_›

theorem scanUnits_unitEscapes {added : List Nat} (h : ∀ unit ∈ added, unit < 0x10000) :
    scanUnits opening units (added.flatMap unitEscape ++ rest) =
      scanUnits opening (added.reverse ++ units) rest := by
  induction added generalizing units with
  | nil => rfl
  | cons unit added ih =>
    rw [List.forall_mem_cons] at h
    have hTail : added.flatMap unitEscape ++ rest ≠ [] := by simp [hRest]
    rw [List.flatMap_cons, List.append_assoc, scanUnits_unitEscape opening units hTail h.1,
      ih (unit :: units) h.2, List.reverse_cons, List.append_assoc, List.singleton_append]

/-- A character is read as its units, however it is written. -/
theorem scanUnits_escapedChar (c : Char) : scanUnits opening units (escapedChar c ++ rest) =
    scanUnits opening ((Text.Utf16.encodeChar c).reverse ++ units) rest := by
  unfold escapedChar
  split
  · exact scanUnits_escaped opening units hRest rfl (by decide)
  · exact scanUnits_escaped opening units hRest rfl (by decide)
  · exact scanUnits_escaped opening units hRest rfl (by decide)
  · exact scanUnits_escaped opening units hRest rfl (by decide)
  · exact scanUnits_escaped opening units hRest rfl (by decide)
  · exact scanUnits_escaped opening units hRest rfl (by decide)
  · exact scanUnits_escaped opening units hRest rfl (by decide)
  · split
    · rename_i hPrintable
      have hUnit : Text.Utf16.encodeChar c = [c.toNat] := by
        rw [Text.Utf16.encodeChar, if_pos (by omega)]
      rw [hUnit]
      exact scanUnits_self opening units hRest ‹_› ‹_› (by omega)
    · exact scanUnits_unitEscapes opening units hRest (Text.Utf16.lt_of_mem_encodeChar c)

end

/-- A string is read as its units up to its closing quote. -/
theorem scanUnits_writeString (opening : List Char) (units : List Nat) (text rest : List Char) :
    scanUnits opening units (text.flatMap escapedChar ++ '"' :: rest) =
      .ok (units.reverse ++ Text.Utf16.encode text, rest) := by
  induction text generalizing units with
  | nil => simp [scanUnits, Text.Utf16.encode]
  | cons c text ih =>
    rw [List.flatMap_cons, List.append_assoc, scanUnits_escapedChar opening units (by simp), ih]
    simp [Text.Utf16.encode]

theorem scanString_writeString (s : String) (rest : List Char) :
    scanString (s.toList.flatMap escapedChar ++ '"' :: rest) = .ok (s, rest) := by
  rw [scanString, scanUnits_writeString]
  simp only [List.reverse_nil, List.nil_append, bind, Except.bind, pure, Except.pure,
    Text.Utf16.decode?_encode, String.ofList_toList]

end ProtoSchema.Json
