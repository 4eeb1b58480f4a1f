import ProtoSchema.Decimal.Layout
import ProtoSchema.Json.Basic
import ProtoSchema.Text.Message
import ProtoSchema.Text.Utf16

/-! Writing JSON text in ASCII, on one line or with one item to a line. -/
namespace ProtoSchema.Json

def unitEscape (unit : Nat) : List Char := '\\' :: 'u' :: Text.hexDigits unit 4

def escapedChar : Char → List Char
  | '"' => ['\\', '"']
  | '\\' => ['\\', '\\']
  | '\x08' => ['\\', 'b']
  | '\x0c' => ['\\', 'f']
  | '\n' => ['\\', 'n']
  | '\r' => ['\\', 'r']
  | '\t' => ['\\', 't']
  | c =>
    if 0x20 ≤ c.toNat ∧ c.toNat ≤ 0x7e then [c]
    else (Text.Utf16.encodeChar c).flatMap unitEscape

def writeString (s : String) : List Char :=
  '"' :: s.toList.flatMap escapedChar ++ ['"']

def floatLayout : Decimal.Layout := { infinity := "Infinity", nan := "NaN" }

/-- The white space of a text: nothing, or lines indented by two per level. -/
inductive Spacing where
  | oneLine
  | indented
  deriving DecidableEq

def Spacing.newLine (spacing : Spacing) (depth : Nat) : List Char :=
  match spacing with
  | .oneLine => []
  | .indented => '\n' :: List.replicate (2 * depth) ' '

/-- What stands between two items. -/
def Spacing.separator (spacing : Spacing) (depth : Nat) : List Char :=
  match spacing with
  | .oneLine => [',', ' ']
  | .indented => ',' :: spacing.newLine depth

mutual

/-- A value at a depth of nesting. -/
def writeAt (spacing : Spacing) (depth : Nat) : Json → List Char
  | null => "null".toList
  | bool true => "true".toList
  | bool false => "false".toList
  | int n => (toString n).toList
  | float x => floatLayout.writeReading (.ofFloat x)
  | str s => writeString s
  | arr [] => ['[', ']']
  | arr (item :: items) =>
    '[' :: spacing.newLine (depth + 1) ++ writeAt spacing (depth + 1) item ++
      writeItems spacing (depth + 1) items ++ spacing.newLine depth ++ [']']
  | obj [] => ['{', '}']
  | obj ((name, value) :: fields) =>
    '{' :: spacing.newLine (depth + 1) ++ writeString name ++ ':' :: ' ' ::
      writeAt spacing (depth + 1) value ++ writeFields spacing (depth + 1) fields ++
      spacing.newLine depth ++ ['}']

/-- The items after the first, each after a separator. -/
def writeItems (spacing : Spacing) (depth : Nat) : List Json → List Char
  | [] => []
  | item :: items =>
    spacing.separator depth ++ writeAt spacing depth item ++ writeItems spacing depth items

/-- The fields after the first, each after a separator. -/
def writeFields (spacing : Spacing) (depth : Nat) : List (String × Json) → List Char
  | [] => []
  | (name, value) :: fields =>
    spacing.separator depth ++ writeString name ++ ':' :: ' ' ::
      writeAt spacing depth value ++ writeFields spacing depth fields

end

def write (spacing : Spacing) (value : Json) : String :=
  String.ofList (writeAt spacing 0 value)

end ProtoSchema.Json
