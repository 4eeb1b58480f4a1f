import ProtoSchema.Decimal.Literal

/-! Integers as people type them, with white space and decimal digits of all scripts. -/
namespace ProtoSchema

namespace Text

/-- The digits zero of the scripts of Unicode 14; each is followed by its digits one to nine. -/
def scriptZeros : List Nat := [
  0x30, 0x660, 0x6f0, 0x7c0, 0x966, 0x9e6, 0xa66, 0xae6, 0xb66, 0xbe6, 0xc66, 0xce6, 0xd66,
  0xde6, 0xe50, 0xed0, 0xf20, 0x1040, 0x1090, 0x17e0, 0x1810, 0x1946, 0x19d0, 0x1a80, 0x1a90,
  0x1b50, 0x1bb0, 0x1c40, 0x1c50, 0xa620, 0xa8d0, 0xa900, 0xa9d0, 0xa9f0, 0xaa50, 0xabf0,
  0xff10, 0x104a0, 0x10d30, 0x11066, 0x110f0, 0x11136, 0x111d0, 0x112f0, 0x11450, 0x114d0,
  0x11650, 0x116c0, 0x11730, 0x118e0, 0x11950, 0x11c50, 0x11d50, 0x11da0, 0x16a60, 0x16ac0,
  0x16b50, 0x1d7ce, 0x1d7d8, 0x1d7e2, 0x1d7ec, 0x1d7f6, 0x1e140, 0x1e2f0, 0x1e950, 0x1fbf0]

/-- Unicode's property `White_Space`. -/
def isWhiteSpace (c : Char) : Bool :=
  let n := c.toNat
  (0x9 ≤ n && n ≤ 0xd) || n = 0x20 || n = 0x85 || n = 0xa0 || n = 0x1680 ||
    (0x2000 ≤ n && n ≤ 0x200a) || n = 0x2028 || n = 0x2029 || n = 0x202f || n = 0x205f || n = 0x3000

/-- The value of a decimal digit of any script. -/
def digitValue? (c : Char) : Option Nat :=
  (scriptZeros.find? fun z => z ≤ c.toNat && c.toNat < z + 10).map (c.toNat - ·)

end Text

namespace Decimal.Numeral

/-- The digits of a row in which single underscores may separate digits. -/
def digitRow? : List Char → Option (List Nat)
  | [] => none
  | [c] => (Text.digitValue? c).map fun d => [d]
  | c :: '_' :: rest => do return (← Text.digitValue? c) :: (← digitRow? rest)
  | c :: rest => do return (← Text.digitValue? c) :: (← digitRow? rest)

def trim (text : List Char) : List Char :=
  ((text.dropWhile Text.isWhiteSpace).reverse.dropWhile Text.isWhiteSpace).reverse

/-- Reads an integer: white space around it, a sign, digits of any script. -/
def read? (text : String) : Option Int := do
  let (negative, row) :=
    match trim text.toList with
    | '-' :: row => (true, row)
    | '+' :: row => (false, row)
    | row => (false, row)
  let digits ← digitRow? row
  if maxDigits < digits.length then none
  else some (signed negative (digits.foldl (fun n d => 10 * n + d) 0))

end Decimal.Numeral
end ProtoSchema
