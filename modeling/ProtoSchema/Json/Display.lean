import ProtoSchema.Decimal.Layout
import ProtoSchema.Json.Basic
import ProtoSchema.Text.Message

/-! JSON values as messages show them. -/
namespace ProtoSchema.Json

/-- The name of a kind of value in messages. -/
def Kind.name : Kind → String
  | .null => "NoneType"
  | .bool => "bool"
  | .int => "int"
  | .float => "float"
  | .str => "str"
  | .arr => "list"
  | .obj => "dict"

mutual

/-- A value as a message shows it, unless an integer in it has too many digits. -/
def display? : Json → Option String
  | null => some "None"
  | bool true => some "True"
  | bool false => some "False"
  | int n => if Decimal.Short n then some (toString n) else none
  | float x => some (Decimal.Layout.plain.write x)
  | str s => some (Text.quoted s)
  | arr items => do return "[" ++ ", ".intercalate (← displayItems? items) ++ "]"
  | obj fields => do return "\x7b" ++ ", ".intercalate (← displayFields? fields) ++ "\x7d"

def displayItems? : List Json → Option (List String)
  | [] => some []
  | item :: items => do return (← display? item) :: (← displayItems? items)

def displayFields? : List (String × Json) → Option (List String)
  | [] => some []
  | (name, value) :: fields => do
    return (Text.quoted name ++ ": " ++ (← display? value)) :: (← displayFields? fields)

end

end ProtoSchema.Json
