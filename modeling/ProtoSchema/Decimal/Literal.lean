/-! Decimal literals and the numbers that they stand for. -/
namespace ProtoSchema.Decimal

/-- The number that a row of digits writes. -/
def ofDigits (digits : List Char) : Nat :=
  digits.foldl (fun n c => 10 * n + (c.toNat - '0'.toNat)) 0

/-- A row of digits longer than this is no integer, and an integer that needs one has no text. -/
def maxDigits : Nat := 4300

/-- An integer that may be read and written: one with few enough digits. -/
def Short (n : Int) : Prop := (Nat.toDigits 10 n.natAbs).length ≤ maxDigits

instance : DecidablePred Short := fun _ => inferInstanceAs (Decidable (_ ≤ _))

/-- What is said about integers with too many digits; the details may tell how many. -/
def tooLong (details : String) : String :=
  "Exceeds the limit (" ++ toString maxDigits ++ " digits) for integer string conversion" ++
    details ++ "; use sys.set_int_max_str_digits() to increase the limit"

def signed (negative : Bool) (magnitude : Nat) : Int :=
  if negative then -magnitude else magnitude

/-- The float nearest to `mantissa · 10 ^ exponent`. Decimal exponents that are out of reach of
every float are settled before a power is taken. -/
def nearestFloat (negative : Bool) (mantissa : Nat) (exponent : Int) : Float :=
  let magnitude : Float :=
    if mantissa = 0 then 0
    else
      let leading := exponent + (Nat.toDigits 10 mantissa).length
      if 310 < leading then 1 / 0
      else if leading < -330 then 0
      else Float.ofScientific mantissa (exponent < 0) exponent.natAbs
  if negative then -magnitude else magnitude

/-- Digits before the point, digits after it if there is one, and an exponent if there is one. -/
structure Literal where
  negative : Bool
  whole : List Char
  fraction : List Char := []
  exponent : Option Int := none

namespace Literal

/-- Without a fraction and an exponent a literal is an integer. -/
def isInteger (literal : Literal) : Bool :=
  literal.fraction.isEmpty && literal.exponent.isNone

def toInt (literal : Literal) : Int := signed literal.negative (ofDigits literal.whole)

def toFloat (literal : Literal) : Float :=
  nearestFloat literal.negative (ofDigits (literal.whole ++ literal.fraction))
    (literal.exponent.getD 0 - literal.fraction.length)

/-- Reads `.` and at least one digit. -/
def takeFraction : List Char → List Char × List Char
  | '.' :: rest =>
    match rest.span Char.isDigit with
    | ([], _) => ([], '.' :: rest)
    | (digits, after) => (digits, after)
  | rest => ([], rest)

/-- Reads `e` or `E`, a sign if there is one, and at least one digit. -/
def takeExponent (text : List Char) : Option Int × List Char :=
  match text with
  | mark :: rest =>
    if mark = 'e' || mark = 'E' then
      let (negative, tail) :=
        match rest with
        | '-' :: tail => (true, tail)
        | '+' :: tail => (false, tail)
        | tail => (false, tail)
      match tail.span Char.isDigit with
      | ([], _) => (none, text)
      | (digits, after) => (some (signed negative (ofDigits digits)), after)
    else (none, text)
  | [] => (none, [])

/-- Reads the digits before the point: a zero stands alone. -/
def takeWhole : List Char → Option (List Char × List Char)
  | '0' :: rest => some (['0'], rest)
  | text =>
    match text.span Char.isDigit with
    | ([], _) => none
    | (digits, after) => some (digits, after)

/-- Reads the longest literal that the text starts with. -/
def take? (text : List Char) : Option (Literal × List Char) := do
  let (negative, unsigned) :=
    match text with
    | '-' :: rest => (true, rest)
    | rest => (false, rest)
  let (whole, afterWhole) ← takeWhole unsigned
  let (fraction, afterFraction) := takeFraction afterWhole
  let (exponent, rest) := takeExponent afterFraction
  some ({ negative, whole, fraction, exponent }, rest)

end Literal
end ProtoSchema.Decimal
