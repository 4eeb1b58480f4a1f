/-! Code units of UTF-16: a character above U+FFFF is a pair of surrogates. -/
namespace ProtoSchema.Text.Utf16

/-- The first unit of a pair. -/
def isHigh (unit : Nat) : Bool := 0xd800 ≤ unit && unit ≤ 0xdbff

/-- The second unit of a pair. -/
def isLow (unit : Nat) : Bool := 0xdc00 ≤ unit && unit ≤ 0xdfff

def encodeChar (c : Char) : List Nat :=
  if c.toNat ≤ 0xffff then [c.toNat]
  else [0xd800 + (c.toNat - 0x10000) / 0x400, 0xdc00 + (c.toNat - 0x10000) % 0x400]

def encode (text : List Char) : List Nat := text.flatMap encodeChar

/-- A surrogate without its partner stands for no character. -/
def decodeUnit? (unit : Nat) : Option Char :=
  if isHigh unit || isLow unit then none else some (Char.ofNat unit)

/-- Joins each pair of surrogates; a unit above U+FFFF stands for the character of that number. -/
def decode? : List Nat → Option (List Char)
  | [] => some []
  | [unit] => do return [← decodeUnit? unit]
  | first :: second :: rest =>
    if isHigh first && isLow second then do
      let joined := Char.ofNat (0x10000 + (first - 0xd800) * 0x400 + (second - 0xdc00))
      return joined :: (← decode? rest)
    else do return (← decodeUnit? first) :: (← decode? (second :: rest))

/-- No character is a surrogate. -/
theorem not_surrogate (c : Char) : isHigh c.toNat = false ∧ isLow c.toNat = false := by
  have h := c.valid
  simp only [isHigh, isLow, Bool.and_eq_false_iff, decide_eq_false_iff_not]
  change (c.toNat < 0xd800 ∨ (0xdfff < c.toNat ∧ c.toNat < 0x110000)) at h
  omega

theorem toNat_lt (c : Char) : c.toNat < 0x110000 := by
  have h := c.valid
  change (c.toNat < 0xd800 ∨ (0xdfff < c.toNat ∧ c.toNat < 0x110000)) at h
  omega

theorem decode?_encodeChar_append (c : Char) (units : List Nat) :
    decode? (encodeChar c ++ units) = (decode? units).map (c :: ·) := by
  obtain ⟨hHigh, hLow⟩ := not_surrogate c
  unfold encodeChar
  split
  · have hUnit : decodeUnit? c.toNat = some c := by simp [decodeUnit?, hHigh, hLow]
    cases units with
    | nil => simp [decode?, hUnit]
    | cons next rest =>
      rw [List.singleton_append, decode?, hHigh, hUnit, Option.map_eq_bind]
      rfl
  · rename_i hBig
    have hMax := toNat_lt c
    have hFirst : isHigh (0xd800 + (c.toNat - 0x10000) / 0x400) = true := by
      simp only [isHigh, Bool.and_eq_true, decide_eq_true_eq]
      omega
    have hSecond : isLow (0xdc00 + (c.toNat - 0x10000) % 0x400) = true := by
      simp only [isLow, Bool.and_eq_true, decide_eq_true_eq]
      omega
    have hSum : 0x10000 + (0xd800 + (c.toNat - 0x10000) / 0x400 - 0xd800) * 0x400 +
        (0xdc00 + (c.toNat - 0x10000) % 0x400 - 0xdc00) = c.toNat := by omega
    simp only [List.cons_append, List.nil_append, decode?, hFirst, hSecond, Bool.and_self, if_true,
      hSum, Char.ofNat_toNat, Option.map_eq_bind, Function.comp_def]
    rfl

/-- Units have sixteen bits. -/
theorem lt_of_mem_encodeChar (c : Char) : ∀ unit ∈ encodeChar c, unit < 0x10000 := by
  have hMax := toNat_lt c
  unfold encodeChar
  split
  · rw [List.forall_mem_singleton]
    omega
  · rw [List.forall_mem_cons, List.forall_mem_singleton]
    omega

/-- Decoding undoes encoding. -/
theorem decode?_encode (text : List Char) : decode? (encode text) = some text := by
  induction text with
  | nil => rfl
  | cons c rest ih =>
    rw [encode, List.flatMap_cons, decode?_encodeChar_append, ← encode, ih]
    rfl

end ProtoSchema.Text.Utf16
