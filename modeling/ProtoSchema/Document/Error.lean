import ProtoSchema.Json.Display
import ProtoSchema.Schema.Basic
import ProtoSchema.Text.Message

/-! Places in a document, and what can be wrong with it. -/
namespace ProtoSchema.Document

/-- A step from a value to one of its parts. -/
inductive Step where
  | key (name : String)
  | index (i : Nat)
  deriving DecidableEq

/-- The steps from a value down to a part of a part. -/
abbrev Path := List Step

namespace Path

/-- Adds a step to the text of a path. A point separates a key from what precedes it. -/
def extend (base : String) : Step → String
  | .key name => if base = "" then name else base ++ "." ++ name
  | .index i => base ++ "[" ++ toString i ++ "]"

/-- The text of a path that starts at the place `base`. -/
def render (base : String) (path : Path) : String := path.foldl extend base

end Path
/-- What a place in a document has to hold. -/
inductive Wanted where
  | object | list | string | integer | boolean
  deriving DecidableEq

def Wanted.phrase : Wanted → String
  | object => "an object"
  | list => "a list"
  | string => "a string"
  | integer => "an integer"
  | boolean => "a boolean"

inductive Problem where
  | unexpected (wanted : Wanted) (found : Json.Kind)
  | packageNotString
  | unsupportedOption (found : Json.Kind)
  | unknownKind (shown : String)
  | emptyOneof
  | notField (kind : DeclKind)
  | notMethod (kind : DeclKind)
  | variantNotPair
  | mapNotPair
  | mapAsKey
  | invalidType
  | invalidReservation
  | invalidStreaming (shown : String)
  deriving DecidableEq

namespace Problem

def message : Problem → String
  | unexpected wanted found => "expected " ++ wanted.phrase ++ ", got " ++ found.name
  | packageNotString => "expected a string"
  | unsupportedOption found => "unsupported option value: " ++ found.name
  | unknownKind shown => "unknown declaration kind: " ++ shown
  | emptyOneof => "oneof must have at least one field"
  | notField kind => "oneof members must be fields, got " ++ Text.quoted kind.name
  | notMethod kind => "service operations must be methods, got " ++ Text.quoted kind.name
  | variantNotPair => "expected a [name, number] pair"
  | mapNotPair => "expected a [key, value] pair"
  | mapAsKey => "map keys cannot be maps"
  | invalidType => "invalid type"
  | invalidReservation => "invalid reservation"
  | invalidStreaming shown => "invalid streaming mode: " ++ shown

def hint? : Problem → Option String
  | unsupportedOption _ => some "option values must be strings, numbers or booleans"
  | unknownKind _ =>
    some ("kind must be one of: " ++ DeclKind.allNames)
  | invalidType =>
    some "use a type name such as \"string\" or \"foo.Bar\", or \x7b\"map\": [key, value]\x7d"
  | invalidReservation => some "use a number, a [start, end] range or a \"name\""
  | invalidStreaming _ => some "use \"none\", \"in\", \"out\", \"duplex\" or a bitmask from 0 to 3"
  | _ => none

end Problem

/-- What breaks reading off before there is a message with a path. The kind of a declaration is
looked up by value, which fails for a list or an object, and a message cannot show a value with an
integer that is too long. -/
inductive Breakdown where
  | compoundKind (found : Json.Kind)
  | longInteger
  deriving DecidableEq

def Breakdown.message : Breakdown → String
  | compoundKind found => "unhashable type: '" ++ found.name ++ "'"
  | longInteger => Decimal.tooLong ""

/-- Why a document, or a part of it, is no tree. -/
inductive Error where
  | located (path : Path) (problem : Problem)
  | broken (cause : Breakdown)
  deriving DecidableEq

namespace Error

/-- The error of a part, seen from the value one step above. -/
def under (step : Step) : Error → Error
  | located path problem => located (step :: path) problem
  | broken cause => broken cause

/-- What the error says when the document's own place is `base`. -/
def text (base : String) : Error → String
  | located path problem =>
    (Diagnostic.atPath (path.render base) problem.message problem.hint?).text
  | broken cause => cause.message

end Error
end ProtoSchema.Document
