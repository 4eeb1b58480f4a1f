import ProtoSchema.Decimal.Layout
import ProtoSchema.Proto.Lines
import ProtoSchema.Schema.Basic

/-! Schemas as proto3 text. A declaration is a list of lines. -/
namespace ProtoSchema.Proto

def typeText : TypeExpr → String
  | .scalar name => name
  | .ref name => name
  | .map key value => "map<" ++ typeText key ++ ", " ++ typeText value ++ ">"

/-- A text between double quotes, as it is. -/
def literal (text : String) : String := "\"" ++ text ++ "\""

def fieldLine (field : Field) : String :=
  (if field.repeated then "repeated " else "") ++ typeText field.type ++ " " ++ field.name ++
    " = " ++ toString field.index ++ ";"

def streamWord (streams : Bool) : String := if streams then "stream " else ""

def methodLine (method : Method) : String :=
  "rpc " ++ method.name ++ "(" ++ streamWord method.streaming.request ++ typeText method.input ++
    ") returns (" ++ streamWord method.streaming.response ++ typeText method.returns ++ ");"

def variantLine (variant : Variant) : String :=
  variant.name ++ " = " ++ toString variant.number ++ ";"

/-- The numbers and ranges of a list of reservations. -/
def reservedNumber? : Reservation → Option String
  | .number n => some (toString n)
  | .range first last _ => some (toString first ++ " to " ++ toString last)
  | .name _ => none

def reservedName? : Reservation → Option String
  | .name name => some (literal name)
  | _ => none

/-- One statement for all entries, none if there are none. -/
def reservedLine (entries : List String) : List String :=
  if entries.isEmpty then [] else ["reserved " ++ ", ".intercalate entries ++ ";"]

/-- Numbers come before names. An empty line follows them. -/
def reservationLines (reservations : List Reservation) : List String :=
  let numbers := reservations.filterMap reservedNumber?
  let names := reservations.filterMap reservedName?
  reservedLine numbers ++ reservedLine names ++
    if numbers.isEmpty && names.isEmpty then [] else [""]

def opening (keyword name : String) : String := keyword ++ " " ++ name ++ " \x7b"

def closing : String := "\x7d"

/-- A statement with a body on lines of its own. -/
def block (keyword name : String) (body : List String) : List String :=
  opening keyword name :: body ++ [closing]

/-- The option that lets variants share a number is the first line of an enum's body. -/
def aliasLines (enum : Enum) : List String :=
  if enum.allowAlias then
    "  option allow_alias = true;" :: if enum.variants.isEmpty then [] else [""]
  else []

def enumLines (enum : Enum) : List String :=
  block "enum" enum.name
    (aliasLines enum ++ Lines.indent 2 (enum.variants.map variantLine))

def serviceLines (name : String) (operations : List Method) : List String :=
  if operations.isEmpty then [opening "service" name ++ closing]
  else block "service" name (Lines.indent 2 (operations.map methodLine))

mutual

/-- The lines of a declaration. A message or a service without a body is one line. -/
def lines : Declaration → List String
  | .message name members reservations =>
    if members.isEmpty && reservations.isEmpty then [opening "message" name ++ closing]
    else
      block "message" name
        (Lines.indent 2 (reservationLines reservations) ++ Lines.indent 2 (memberLines members))
  | .field field => [fieldLine field]
  | .oneof name members => block "oneof" name (Lines.indent 2 (memberLines members))
  | .enum enum => enumLines enum
  | .method method => [methodLine method]
  | .service name operations => serviceLines name operations

/-- The lines of declarations, one after another. -/
def memberLines : List Declaration → List String
  | [] => []
  | decl :: decls => lines decl ++ memberLines decls

end

def optionText : OptionValue → String
  | .text s => literal s
  | .integer n => toString n
  | .float x => Decimal.Layout.plain.write x
  | .boolean true => "true"
  | .boolean false => "false"

def header : String := "/* Generated by protoemit */\n\nsyntax = \"proto3\";\n"

/-- An empty name is no package. -/
def packageText : Option String → String
  | none => ""
  | some name => if name = "" then "" else "\npackage " ++ name ++ ";\n"

/-- Statements on lines of their own after an empty line, nothing if there are none. -/
def statementsText (statements : List String) : String :=
  String.join (statements.map ("\n" ++ ·)) ++ if statements.isEmpty then "" else "\n"

def importStatement (path : String) : String := "import " ++ literal path ++ ";"

def optionStatement (name : String) (value : OptionValue) : String :=
  "option " ++ name ++ " = " ++ optionText value ++ ";"

def declarationText (decl : Declaration) : String :=
  "\n" ++ "\n".intercalate (lines decl) ++ "\n"

/-- The text of a file: a section for each part that is there, in a fixed order. -/
def text (schema : Schema) : String :=
  header ++ packageText schema.package ++
    statementsText (schema.imports.map importStatement) ++
    statementsText (schema.options.map fun (name, value) => optionStatement name value) ++
    String.join (schema.declarations.map declarationText)

end ProtoSchema.Proto
