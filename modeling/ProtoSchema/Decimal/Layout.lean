import ProtoSchema.Decimal.Literal
import ProtoSchema.Decimal.Shortest

/-! Floats as text: their shortest digits, laid out with a point or with an exponent. -/
namespace ProtoSchema.Decimal

/-- The choices that a format makes for its floats. -/
structure Layout where
  infinity : String
  nan : String
  /-- The exponents of first digits that are written without an exponent. -/
  leastPositional : Int := -4
  endPositional : Int := 16
  /-- An exponent has at least this many digits. -/
  exponentWidth : Nat := 2

namespace Layout

/-- Floats in plain text. -/
def plain : Layout := { infinity := "inf", nan := "nan" }

/-- Digits around a point, at least one on each side. -/
def positional (digits : List Char) (exponent : Int) : List Char :=
  if exponent < 0 then
    '0' :: '.' :: (List.replicate (exponent.natAbs - 1) '0' ++ digits)
  else
    let whole := exponent.natAbs + 1
    let tail := digits.drop whole
    digits.take whole ++ List.replicate (whole - digits.length) '0' ++
      '.' :: (if tail.isEmpty then ['0'] else tail)

def padLeft (width : Nat) (digits : List Char) : List Char :=
  List.replicate (width - digits.length) '0' ++ digits

/-- One digit before the point, no point without digits after it, and a signed exponent. -/
def scientific (layout : Layout) (digits : List Char) (exponent : Int) : List Char :=
  let tail := digits.drop 1
  digits.take 1 ++ (if tail.isEmpty then [] else '.' :: tail) ++
    'e' :: (if exponent < 0 then '-' else '+') ::
      padLeft layout.exponentWidth (Nat.toDigits 10 exponent.natAbs)

def writeReading (layout : Layout) : Reading → List Char
  | .nan => layout.nan.toList
  | .infinity negative => (if negative then ['-'] else []) ++ layout.infinity.toList
  | .finite negative { digits, exponent } =>
    (if negative then ['-'] else []) ++
      if layout.leastPositional ≤ exponent ∧ exponent < layout.endPositional then
        positional digits exponent
      else layout.scientific digits exponent

def write (layout : Layout) (x : Float) : String :=
  String.ofList (layout.writeReading (Reading.ofFloat x))

/-- Reads a float in this layout, or spelled as any decimal literal. -/
def read? (layout : Layout) (text : String) : Option Float :=
  if text = layout.nan then some (0 / 0)
  else if text = layout.infinity then some (1 / 0)
  else if text = "-" ++ layout.infinity then some (-(1 / 0))
  else
    match Literal.take? text.toList with
    | some (literal, []) => some literal.toFloat
    | _ => none

end Layout
end ProtoSchema.Decimal
