import ProtoSchema.Decimal.Literal
import ProtoSchema.Proto.Printer
import ProtoSchema.Text.Message

/-!
Text of trees that may hold foreign values and integers of any length. Lines are put out one after
another until there is one that cannot be; the lines before it are lost when all of them are asked
for.
-/
namespace ProtoSchema

/-- A value that is no declaration, known by the name of its type. -/
structure Foreign where
  typeName : String
  deriving DecidableEq, Inhabited

def Foreign.diagnostic (value : Foreign) : Diagnostic where
  subject := value.typeName
  message := "not a declaration"
  hint := some ("declarations must be one of: " ++ DeclKind.allNames)

namespace Proto

/-- What keeps a tree from being written. -/
inductive Fault where
  | foreign (value : Foreign)
  | longInteger
  deriving DecidableEq

def Fault.text : Fault → String
  | foreign value => value.diagnostic.text
  | longInteger => Decimal.tooLong ""

/-- Lines that are put out one after another, and what ends them if something does. -/
structure Emission where
  lines : List String
  stop : Option Fault

namespace Emission

def of (lines : List String) : Emission := { lines, stop := none }

/-- Lines that show these integers. There are none if one of the integers is too long. -/
def holding (integers : List Int) (lines : List String) : Emission :=
  if ∀ n ∈ integers, Decimal.Short n then of lines else { lines := [], stop := some .longInteger }

/-- Nothing follows a stop. -/
def append (first second : Emission) : Emission :=
  match first.stop with
  | some _ => first
  | none => { lines := first.lines ++ second.lines, stop := second.stop }

instance : Append Emission := ⟨append⟩

def join (emissions : List Emission) : Emission := emissions.foldr append (of [])

def indent (depth : Int) (emission : Emission) : Emission :=
  { emission with lines := Lines.indent depth emission.lines }

/-- All lines, or what ended them. -/
def collect (emission : Emission) : Except Fault (List String) :=
  match emission.stop with
  | some fault => .error fault
  | none => .ok emission.lines

end Emission

/-- The reservations of a message are sorted before the first of them is put out. -/
def reservationEmission (reservations : List Reservation) : Emission :=
  .holding (reservations.flatMap Reservation.integers) (reservationLines reservations)

def variantEmission (variant : Variant) : Emission :=
  .holding [variant.number] [variantLine variant]

mutual

/-- A message without a body is one line. A foreign value has no line. -/
def emission : Decl Foreign → Emission
  | .message name members reservations =>
    if members.isEmpty && reservations.isEmpty then .of [opening "message" name ++ closing]
    else
      .of [opening "message" name] ++ (reservationEmission reservations).indent 2 ++
        (memberEmission members).indent 2 ++ .of [closing]
  | .field field => .holding [field.index] [fieldLine field]
  | .oneof name members =>
    .of [opening "oneof" name] ++ (memberEmission members).indent 2 ++ .of [closing]
  | .enum enum =>
    .of [opening "enum" enum.name] ++ .of (aliasLines enum) ++
      (Emission.join (enum.variants.map variantEmission)).indent 2 ++ .of [closing]
  | .method method => .of [methodLine method]
  | .service name operations => .of (serviceLines name operations)
  | .foreign value => { lines := [], stop := some (.foreign value) }

def memberEmission : List (Decl Foreign) → Emission
  | [] => .of []
  | decl :: decls => emission decl ++ memberEmission decls

end

def openLines (decl : Decl Foreign) : Except Fault (List String) := (emission decl).collect

/-- What stands before the declarations of a file. -/
def preamble {φ : Type} (file : SchemaFile φ) : String :=
  header ++ packageText file.package ++
    statementsText (file.imports.map importStatement) ++
    statementsText (file.options.map fun option => optionStatement option.1 option.2)

/-- What stands before the declarations, unless an option is an integer too long. -/
def openPreamble (file : SchemaFile Foreign) : Except Fault String :=
  if ∀ option ∈ file.options, ∀ n ∈ option.2.integers, Decimal.Short n then .ok (preamble file)
  else .error .longInteger

/-- The text so far with the sections of more declarations. -/
def openSections (result : String) : List (Decl Foreign) → Except Fault String
  | [] => .ok result
  | decl :: decls => do
    let lines ← openLines decl
    openSections (result ++ ("\n" ++ "\n".intercalate lines ++ "\n")) decls

def openText (file : SchemaFile Foreign) : Except Fault String := do
  openSections (← openPreamble file) file.declarations

end Proto
end ProtoSchema
