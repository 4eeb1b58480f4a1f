/-! The shortest decimals that read back as a given float. -/
namespace ProtoSchema.Decimal
open Float.Model (UnpackedFloat)

/-- The quotient `mantissa · base ^ exponent`, as a numerator and a denominator. -/
def power (mantissa base : Nat) (exponent : Int) : Nat × Nat :=
  if exponent < 0 then (mantissa, base.pow exponent.natAbs)
  else (mantissa * base.pow exponent.natAbs, 1)

/-- The decimal `digits · 10 ^ exponent`. -/
structure Scaled where
  digits : Nat
  exponent : Int
  deriving DecidableEq

namespace Scaled

def toFloat (decimal : Scaled) : Float :=
  Float.ofScientific decimal.digits (decimal.exponent < 0) decimal.exponent.natAbs

/-- How far a decimal lies from `num / den`, as a numerator and a denominator. -/
def distance (decimal : Scaled) (num den : Nat) : Nat × Nat :=
  let (n, d) := power decimal.digits 10 decimal.exponent
  ((n * den - num * d) + (num * d - n * den), d * den)

/-- The one of two decimals that is nearer to `num / den`. Of two equally near ones it is the one
with an even last digit. -/
def nearer (a b : Scaled) (num den : Nat) : Scaled :=
  let (an, ad) := a.distance num den
  let (bn, bd) := b.distance num den
  if an * bd < bn * ad then a
  else if bn * ad < an * bd then b
  else if a.digits % 2 = 0 then a else b

end Scaled

/-- The exponent of the first digit of `num / den`. -/
def leadingExponent (num den : Nat) : Int :=
  let guess : Int := (Nat.toDigits 10 num).length - (Nat.toDigits 10 den).length
  let (n, d) := power 1 10 guess
  if n * den ≤ num * d then guess else guess - 1

/-- The neighbours of `num / den` among the multiples of `10 ^ exponent`. -/
def neighbours (num den : Nat) (exponent : Int) : Scaled × Scaled :=
  let (n, d) := power 1 10 exponent
  let below := num * d / (den * n)
  (⟨below, exponent⟩, ⟨below + 1, exponent⟩)

/-- Searches the decimals of `count` digits, then of one digit more, for one that reads back as
`x`, whose value is `num / den` and whose first digit has the exponent `leading`. -/
def searchGrids (x : Float) (num den : Nat) (leading : Int) : Nat → Nat → Scaled
  | 0, count => (neighbours num den (leading - count + 1)).1
  | fuel + 1, count =>
    let (a, b) := neighbours num den (leading - count + 1)
    if a.toFloat = x then
      if b.toFloat = x then a.nearer b num den else a
    else if b.toFloat = x then b
    else searchGrids x num den leading fuel (count + 1)

/-- Digits without a zero at the end, and the exponent of the first. -/
structure Digits where
  digits : List Char
  exponent : Int

def Scaled.toDigits (decimal : Scaled) : Digits :=
  let digits := Nat.toDigits 10 decimal.digits
  { digits := (digits.reverse.dropWhile (· = '0')).reverse
    exponent := decimal.exponent + digits.length - 1 }

/-- The fewest digits that read back as the positive float `x = mantissa · 2 ^ exponent`, and of
those the nearest. Seventeen digits always suffice. -/
def shortest (x : Float) (mantissa : Nat) (exponent : Int) : Digits :=
  let (num, den) := power mantissa 2 exponent
  (searchGrids x num den (leadingExponent num den) 17 1).toDigits

/-- What a float is, for the eye. -/
inductive Reading where
  | nan
  | infinity (negative : Bool)
  | finite (negative : Bool) (digits : Digits)

def isNegative : UnpackedFloat.Sign → Bool
  | .negative => true
  | .positive => false

def Reading.ofFloat (x : Float) : Reading :=
  match x.toModel.unpack with
  | .notANumber => .nan
  | .infinity sign => .infinity (isNegative sign)
  | .zero sign => .finite (isNegative sign) ⟨['0'], 0⟩
  | .finite sign mantissa exponent _ =>
    .finite (isNegative sign) (shortest x.abs mantissa exponent)

end ProtoSchema.Decimal
