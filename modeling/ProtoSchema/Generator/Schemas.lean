import ProtoSchema.Generator.Names
import ProtoSchema.Schema.Basic

/-! Random schemas that are valid by construction. -/
namespace ProtoSchema.Generator
open Sampling (Gen)

def scalarChoices : List String :=
  ["int32", "int64", "uint32", "uint64", "sint32", "fixed64", "bool", "string", "bytes", "double"]

def mapKeyChoices : List String := ["int32", "int64", "uint32", "uint64", "bool", "string"]

def optionChoices : List String :=
  ["java_package", "java_outer_classname", "go_package", "objc_class_prefix"]

def scalarType : Gen TypeExpr := do return .scalar (← Gen.choice scalarChoices)

/-- A scalar type or, now and then, a map. -/
def fieldType : Gen TypeExpr := do
  if ← Gen.chance 0.15 then
    let key ← Gen.choice mapKeyChoices
    return .map (.scalar key) (← scalarType)
  else scalarType

/-- The field of number `i + 1`. Maps are not repeated. -/
def bodyField (i : Nat) : Gen Field := do
  let type ← fieldType
  let repeated ← if type.isMap then pure false else Gen.chance 0.25
  return { name := "f" ++ toString i, type, index := i + 1, repeated }

def bodyFields (i : Nat) : Nat → Gen (List Field)
  | 0 => return []
  | n + 1 => do
    let field ← bodyField i
    return field :: (← bodyFields (i + 1) n)

/-- Members of a oneof, the first of which has the number `index`. -/
def oneofFields (i index : Nat) : Nat → Gen (List Field)
  | 0 => return []
  | n + 1 => do
    let field : Field := { name := "o" ++ toString i, type := ← scalarType, index }
    return field :: (← oneofFields (i + 1) (index + 1) n)

/-- Variants with ascending numbers. Their names start with the name of the enum, because they
share the scope in which it stands. -/
def variants (scope : String) (i number : Nat) : Nat → Gen (List Variant)
  | 0 => return []
  | n + 1 => do
    let next := number + (← Gen.between 1 3)
    let variant : Variant := { name := scope ++ "_V" ++ toString i, number }
    return variant :: (← variants scope (i + 1) next n)

/-- A second name for the last variant. -/
def aliasVariant (scope : String) (variants : List Variant) : List Variant :=
  match variants.getLast? with
  | some last => [{ name := scope ++ "_ALIAS", number := last.number }]
  | none => []

/-- An enum allows aliases exactly if it has one. -/
def enum : Naming Enum := do
  let name ← freshName "E"
  let scope := name.toUpper
  let plain ← variants scope 0 0 (← Gen.between 1 6)
  let allowAlias ← Gen.chance 0.2
  return {
    name, allowAlias
    variants := plain ++ if allowAlias then aliasVariant scope plain else [] }

/-- A number that is not below `next`, now and then, and perhaps a range after it. -/
def reservedNumbers (next : Nat) : Gen (List Reservation) := do
  if ← Gen.chance 0.3 then
    let number := next + (← Gen.between 0 3)
    if ← Gen.chance 0.5 then
      let first := number + 1 + (← Gen.between 0 3)
      let last := first + (← Gen.between 0 5)
      return [.number number, .range first last]
    else return [.number number]
  else return []

def reservedNames : Gen (List Reservation) := do
  if ← Gen.chance 0.2 then return [.name ("old_" ++ (← identifier))] else return []

/-- Reservations for a message whose next free number is `next`, in any order. -/
def reservations (next : Nat) : Gen (List Reservation) := do
  let numbers ← reservedNumbers next
  let names ← reservedNames
  Gen.shuffle (numbers ++ names)

/-- A oneof, now and then, whose first member has the number `next`. -/
def oneofs (next : Nat) : Gen (List Declaration × Nat) := do
  if ← Gen.chance 0.25 then
    let fields ← oneofFields 0 next (← Gen.between 1 3)
    let name ← identifier
    return ([.oneof (name ++ "_choice") (fields.map .field)], next + fields.length)
  else return ([], next)

/-- A declaration, now and then. -/
def sometimes (gen : Naming Declaration) : Naming (List Declaration) := do
  if ← Gen.chance 0.2 then return [← gen] else return []

def enumDeclaration : Naming Declaration := return .enum (← enum)

/-- A message that holds, besides an enum now and then, the messages of a generator. -/
def messageAround (nested : Naming (List Declaration)) : Naming Declaration := do
  let name ← freshName "M"
  let fields ← bodyFields 0 (← Gen.between 0 6)
  let (choices, next) ← oneofs (fields.length + 1)
  let types := (← sometimes enumDeclaration) ++ (← nested)
  return .message name (fields.map .field ++ choices ++ types) (← reservations next)

/-- A message in which messages nest at most this many levels deep. -/
def message : Nat → Naming Declaration
  | 0 => messageAround (return [])
  | levels + 1 => messageAround (sometimes (message levels))

def method (messages : List String) (i : Nat) : Gen Method := do
  let input ← Gen.choice messages
  let returns ← Gen.choice messages
  match Streaming.ofInt? (← Gen.between 0 3) with
  | some streaming =>
    return {
      name := "Call" ++ toString i, input := .ref input, returns := .ref returns, streaming }
  | none => throw .emptyRange

def methods (messages : List String) (i : Nat) : Nat → Gen (List Method)
  | 0 => return []
  | n + 1 => do
    let m ← method messages i
    return m :: (← methods messages (i + 1) n)

/-- A service whose methods pass these messages. -/
def service (messages : List String) : Naming Declaration := do
  let operations ← methods messages 0 (← Gen.between 0 4)
  return .service (← freshName "S") operations

def messages : Nat → Naming (List Declaration)
  | 0 => return []
  | n + 1 => do
    let first ← message 2
    return first :: (← messages n)

/-- Puts so many enums at places of their own among declarations. -/
def scatterEnums (decls : List Declaration) : Nat → Naming (List Declaration)
  | 0 => return decls
  | n + 1 => do
    let i ← Gen.between 0 decls.length
    let inserted ← enumDeclaration
    scatterEnums (decls.insertIdx i inserted) n

def messageName? : Declaration → Option String
  | .message name _ _ => some name
  | _ => none

def declarations : Naming (List Declaration) := do
  let top ← messages (← Gen.between 1 3)
  let decls ← scatterEnums top (← Gen.between 0 2)
  if ← Gen.chance 0.5 then
    return decls ++ [← service (top.filterMap messageName?)]
  else return decls

def package : Gen (Option String) := do
  if ← Gen.chance 0.6 then
    return some (".".intercalate (← Gen.times identifier (← Gen.between 1 3)))
  else return none

def option (name : String) : Gen (String × OptionValue) := do
  return (name, .text (← identifier))

def options : Gen (List (String × OptionValue)) := do
  let count ← Gen.between 0 2
  (← Gen.sample optionChoices count).mapM option

def schema : Gen Schema := do
  let package ← package
  let imports ← Gen.times identifier (← Gen.between 0 2)
  let options ← options
  let (declarations, _) ← declarations.run 0
  return { package, imports := imports.map (· ++ ".proto"), options, declarations }

end ProtoSchema.Generator
