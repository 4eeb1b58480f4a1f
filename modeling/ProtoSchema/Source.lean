import ProtoSchema.Document.Reader
import ProtoSchema.Json.Reader
import ProtoSchema.Proto.Printer

/-! Schemas from JSON text. -/
namespace ProtoSchema

def Json.Problem.message : Json.Problem → String
  | byteOrderMark => "Unexpected UTF-8 BOM (decode using utf-8-sig)"
  | valueExpected => "Expecting value"
  | nameExpected => "Expecting property name enclosed in double quotes"
  | colonExpected => "Expecting ':' delimiter"
  | commaExpected => "Expecting ',' delimiter"
  | extraData => "Extra data"
  | unterminatedString => "Unterminated string starting at"
  | controlCharacter => "Invalid control character at"
  | badEscape => "Invalid \\escape"
  | badUnitEscape => "Invalid \\uXXXX escape"

namespace Source

/-- A place in a text; lines and columns are counted from one. -/
structure Position where
  line : Nat
  column : Nat
  deriving DecidableEq

/-- The place after this text. -/
def Position.after (text : List Char) : Position where
  line := text.count '\n' + 1
  column := (text.reverse.takeWhile (· ≠ '\n')).length + 1

/-- Why a text is no schema. -/
inductive Error where
  | malformed (file : String) (position : Position) (problem : Json.Problem)
  | longInteger (digits : Nat)
  | loneSurrogate
  | document (error : Document.Error)
  deriving DecidableEq

namespace Error

def ofFailure (file : String) (text : List Char) : Json.Failure → Error
  | .malformed problem rest =>
    malformed file (.after (text.take (text.length - rest.length))) problem
  | .longInteger digits => longInteger digits
  | .loneSurrogate => loneSurrogate

def text : Error → String
  | malformed file { line, column } problem =>
    let message := file ++ ":" ++ toString line ++ ":" ++ toString column ++ ": invalid JSON: " ++
      problem.message
    (Diagnostic.atPath "" message none).text
  | longInteger digits => Decimal.tooLong (": value has " ++ toString digits ++ " digits")
  | loneSurrogate => "surrogate without its partner"
  | document error => error.text ""

end Error

/-- The name of a text that is in no file. -/
def memory : String := "<memory>"

/-- Reads the text of `file` as JSON. -/
def readJson (file text : String) : Except Error Json :=
  (Json.read text.toList).mapError (Error.ofFailure file text.toList)

def load (file text : String) : Except Error Schema := do
  let document ← readJson file text
  (Document.readSchema document).mapError .document

theorem load_of_readJson {file text : String} {document : Json}
    (h : readJson file text = .ok document) :
    load file text = (Document.readSchema document).mapError .document := by
  rw [load, h]
  rfl

theorem load_of_readJson_error {file text : String} {error : Error}
    (h : readJson file text = .error error) : load file text = .error error := by
  rw [load, h]
  rfl

/-- The proto3 text of the schema that a JSON text holds. -/
def render (file text : String) : Except Error String := (load file text).map Proto.text

end Source
end ProtoSchema
