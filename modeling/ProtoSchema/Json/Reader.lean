import ProtoSchema.Assoc
import ProtoSchema.Decimal.Literal
import ProtoSchema.Json.Basic
import ProtoSchema.Text.Utf16

/-! Reading JSON text. A failure keeps the text from its position on. -/
namespace ProtoSchema.Json

/-- What can be wrong with a text. -/
inductive Problem where
  | byteOrderMark
  | valueExpected
  | nameExpected
  | colonExpected
  | commaExpected
  | extraData
  | unterminatedString
  | controlCharacter
  | badEscape
  | badUnitEscape
  deriving DecidableEq

/-- Why a text has no value. No value here holds a string with half of a pair of surrogates. -/
inductive Failure where
  | malformed (problem : Problem) (rest : List Char)
  | longInteger (digits : Nat)
  | loneSurrogate
  deriving DecidableEq

def isBlank (c : Char) : Bool := c = ' ' || c = '\t' || c = '\n' || c = '\r'

def skipBlanks (text : List Char) : List Char := text.dropWhile isBlank

def hexDigit? (c : Char) : Option Nat :=
  if '0' ≤ c ∧ c ≤ '9' then some (c.toNat - '0'.toNat)
  else if 'a' ≤ c ∧ c ≤ 'f' then some (c.toNat - 'a'.toNat + 10)
  else if 'A' ≤ c ∧ c ≤ 'F' then some (c.toNat - 'A'.toNat + 10)
  else none

/-- The number that four hexadecimal digits write. -/
def hexUnit? (a b c d : Char) : Option Nat := do
  return (((← hexDigit? a) * 16 + (← hexDigit? b)) * 16 + (← hexDigit? c)) * 16 + (← hexDigit? d)

/-- The character that a backslash and this one stand for. -/
def escaped? : Char → Option Char
  | '"' => some '"'
  | '\\' => some '\\'
  | '/' => some '/'
  | 'b' => some '\x08'
  | 'f' => some '\x0c'
  | 'n' => some '\n'
  | 'r' => some '\r'
  | 't' => some '\t'
  | _ => none

/-- Reads the code units of a string up to its closing quote, after those read before, which are
given in reverse. The text from the opening quote on is `opening`. -/
def scanUnits (opening : List Char) (units : List Nat) :
    List Char → Except Failure (List Nat × List Char)
  | [] => .error (.malformed .unterminatedString opening)
  | '"' :: rest => .ok (units.reverse, rest)
  | ['\\'] => .error (.malformed .unterminatedString opening)
  | '\\' :: 'u' :: a :: b :: c :: d :: next :: rest =>
    match hexUnit? a b c d with
    | some unit => scanUnits opening (unit :: units) (next :: rest)
    | none => .error (.malformed .badUnitEscape ('u' :: a :: b :: c :: d :: next :: rest))
  | '\\' :: 'u' :: rest => .error (.malformed .badUnitEscape ('u' :: rest))
  | '\\' :: c :: rest =>
    match escaped? c with
    | some e => scanUnits opening (e.toNat :: units) rest
    | none => .error (.malformed .badEscape ('\\' :: c :: rest))
  | c :: rest =>
    if c.toNat < 0x20 then .error (.malformed .controlCharacter (c :: rest))
    else scanUnits opening (c.toNat :: units) rest

/-- Reads a string after its opening quote. -/
def scanString (text : List Char) : Except Failure (String × List Char) := do
  let (units, rest) ← scanUnits ('"' :: text) [] text
  match Text.Utf16.decode? units with
  | some characters => return (String.ofList characters, rest)
  | none => throw .loneSurrogate

/-- Reads a number: an integer of bounded length, or a float. -/
def scanNumber (text : List Char) : Except Failure (Json × List Char) :=
  match Decimal.Literal.take? text with
  | none => .error (.malformed .valueExpected text)
  | some (literal, rest) =>
    if literal.isInteger then
      if Decimal.maxDigits < literal.whole.length then .error (.longInteger literal.whole.length)
      else .ok (.int literal.toInt, rest)
    else .ok (.float literal.toFloat, rest)

/-- The values that are words. -/
def words : List (List Char × Json) :=
  [("null".toList, .null), ("true".toList, .bool true), ("false".toList, .bool false),
    ("NaN".toList, .float (0 / 0)), ("Infinity".toList, .float (1 / 0)),
    ("-Infinity".toList, .float (-(1 / 0)))]

/-- Reads a word or a number. -/
def scanAtom (text : List Char) : Except Failure (Json × List Char) :=
  match words.find? fun word => word.1.isPrefixOf text with
  | some (word, value) => .ok (value, text.drop word.length)
  | none => scanNumber text

/-- Reads the name of a field and the colon after it, up to the value. -/
def scanName : List Char → Except Failure (String × List Char)
  | '"' :: text => do
    let (name, rest) ← scanString text
    match skipBlanks rest with
    | ':' :: after => return (name, skipBlanks after)
    | start => .error (.malformed .colonExpected start)
  | start => .error (.malformed .nameExpected start)

mutual

/-- Reads a value that starts with the text's first character. -/
def scanValue : Nat → List Char → Except Failure (Json × List Char)
  | 0, text => .error (.malformed .valueExpected text)
  | _ + 1, '"' :: rest => do
    let (s, after) ← scanString rest
    return (.str s, after)
  | fuel + 1, '[' :: rest =>
    match skipBlanks rest with
    | ']' :: after => .ok (.arr [], after)
    | start => scanItems fuel [] start
  | fuel + 1, '{' :: rest =>
    match skipBlanks rest with
    | '}' :: after => .ok (.obj [], after)
    | start => scanFields fuel [] start
  | _ + 1, text => scanAtom text

/-- Reads the items of an array from the start of one on, after those read before, which are given
in reverse. -/
def scanItems : Nat → List Json → List Char → Except Failure (Json × List Char)
  | 0, _, text => .error (.malformed .valueExpected text)
  | fuel + 1, items, text =>
    match scanValue fuel text with
    | .error failure => .error failure
    | .ok (item, rest) =>
      match skipBlanks rest with
      | ']' :: after => .ok (.arr (item :: items).reverse, after)
      | ',' :: after => scanItems fuel (item :: items) (skipBlanks after)
      | start => .error (.malformed .commaExpected start)

/-- Reads the fields of an object from the start of one on, after those read before, which are
given in reverse. -/
def scanFields : Nat → List (String × Json) → List Char → Except Failure (Json × List Char)
  | 0, _, text => .error (.malformed .nameExpected text)
  | fuel + 1, fields, text =>
    match scanName text with
    | .error failure => .error failure
    | .ok (name, start) =>
      match scanValue fuel start with
      | .error failure => .error failure
      | .ok (value, rest) =>
        match skipBlanks rest with
        | '}' :: after => .ok (.obj (Assoc.ofList ((name, value) :: fields).reverse), after)
        | ',' :: after => scanFields fuel ((name, value) :: fields) (skipBlanks after)
        | start => .error (.malformed .commaExpected start)

end

/-- Reads a text that is one value between blanks. Each value or item read costs at least one
character, so twice the length of the text is fuel enough. -/
def read (text : List Char) : Except Failure Json :=
  match text with
  | '\ufeff' :: _ => .error (.malformed .byteOrderMark text)
  | _ => do
    let (value, rest) ← scanValue (2 * text.length + 1) (skipBlanks text)
    match skipBlanks rest with
    | [] => return value
    | extra => .error (.malformed .extraData extra)

end ProtoSchema.Json
