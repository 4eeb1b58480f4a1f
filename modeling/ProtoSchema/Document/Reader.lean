import ProtoSchema.Document.Error

/-! Reading schemas from documents. The first thing wrong is reported, with its path. -/
namespace ProtoSchema.Document

abbrev Result (α : Type) := Except Error α

variable {α : Type}

def fail (problem : Problem) : Result α := .error (.located [] problem)

/-- Fails with a problem that shows this value. -/
def failShowing (problem : String → Problem) (value : Json) : Result α :=
  match value.display? with
  | some shown => fail (problem shown)
  | none => .error (.broken .longInteger)

/-- The result of reading a part, seen from the value one step above. -/
def under (step : Step) (result : Result α) : Result α := result.mapError (Error.under step)

def expectString : Json → Result String
  | .str s => .ok s
  | v => fail (.unexpected .string v.kind)

def expectInt : Json → Result Int
  | .int n => .ok n
  | v => fail (.unexpected .integer v.kind)

def expectBool : Json → Result Bool
  | .bool b => .ok b
  | v => fail (.unexpected .boolean v.kind)

/-- Reads the items of a list, the first of which has the index `i`. -/
def readItems (read : Json → Result α) (i : Nat) : List Json → Result (List α)
  | [] => .ok []
  | item :: items => do
    let a ← under (.index i) (read item)
    return a :: (← readItems read (i + 1) items)

def readList (read : Json → Result α) : Json → Result (List α)
  | .arr items => readItems read 0 items
  | v => fail (.unexpected .list v.kind)

/-- Reads the attribute of this name, which is `absent` if it is not there. -/
def readAttribute (fields : List (String × Json)) (name : String) (absent : Json)
    (read : Json → Result α) : Result α :=
  under (.key name) (read ((fields.lookup name).getD absent))

/-- A name, or an object with the one key `map` and a list of the types of key and value. -/
def readType : Json → Result TypeExpr
  | .str name => .ok (.named name)
  | .obj [(name, types)] =>
    if name = "map" then
      match types with
      | .arr [k, v] => do
        let key ← under (.key "map") (under (.index 0) (readType k))
        if key.isMap then under (.key "map") (under (.index 0) (fail .mapAsKey))
        let value ← under (.key "map") (under (.index 1) (readType v))
        return .map key value
      | _ => under (.key "map") (fail .mapNotPair)
    else fail .invalidType
  | _ => fail .invalidType

def readReservation : Json → Result Reservation
  | .str name => .ok (.name name)
  | .int n => .ok (.number n)
  | .arr [first, last] => do return .range (← expectInt first) (← expectInt last)
  | _ => fail .invalidReservation

def readVariant : Json → Result Variant
  | .arr [name, number] => do
    let name ← expectString name
    let number ← expectInt number
    return { name, number }
  | _ => fail .variantNotPair

/-- A name, or the sum of one for the request and two for the response. -/
def streaming? : Json → Option Streaming
  | .str name => Streaming.ofName? name
  | .int n => Streaming.ofInt? n
  | _ => none

def readStreaming (value : Json) : Result Streaming :=
  match streaming? value with
  | some streaming => .ok streaming
  | none => failShowing .invalidStreaming value

def declKind? : Json → Option DeclKind
  | .str name => DeclKind.ofName? name
  | _ => none

def readKind (value : Json) : Result DeclKind :=
  if value.kind = .arr ∨ value.kind = .obj then .error (.broken (.compoundKind value.kind))
  else
    match declKind? value with
    | some kind => .ok kind
    | none => failShowing .unknownKind value

def readField (name : String) (fields : List (String × Json)) : Result Field := do
  let type ← readAttribute fields "type" .null readType
  let index ← readAttribute fields "index" .null expectInt
  let repeated ← readAttribute fields "repeated" (.bool false) expectBool
  return { name, type, index, repeated }

def readEnum (name : String) (fields : List (String × Json)) : Result Enum := do
  let variants ← readAttribute fields "variants" (.arr []) (readList readVariant)
  let allowAlias ← readAttribute fields "allow_alias" (.bool false) expectBool
  return { name, variants, allowAlias }

def readMethod (name : String) (fields : List (String × Json)) : Result Method := do
  let streaming ← readAttribute fields "stream" (.str "none") readStreaming
  let input ← readAttribute fields "input" .null readType
  let returns ← readAttribute fields "returns" .null readType
  return { name, input, returns, streaming }

/-- Where a declaration stands: in a file or a message, in a oneof, in a service. -/
inductive Place where
  | member
  | choice
  | operation

/-- What is wrong with a declaration in its place. -/
def Place.objection? : Place → Declaration → Option Problem
  | member, _ => none
  | choice, .field _ => none
  | choice, decl => some (.notField decl.kind)
  | operation, .method _ => none
  | operation, decl => some (.notMethod decl.kind)

def Place.check (place : Place) (decl : Declaration) : Result Declaration :=
  match place.objection? decl with
  | some problem => fail problem
  | none => .ok decl

/-- What no declarations at all are in their place. Only a oneof needs one. -/
def Place.empty : Place → Result (List Declaration)
  | choice => fail .emptyOneof
  | _ => .ok []

def methodOf? : Declaration → Option Method
  | .method m => some m
  | _ => none

mutual

def readDeclaration : Json → Result Declaration
  | .obj fields => do
    let kind ← readAttribute fields "kind" .null readKind
    let name ← readAttribute fields "name" .null expectString
    match kind with
    | .message =>
      let members ← under (.key "declarations") (readMembersIn .member "declarations" fields)
      let reservations ← readAttribute fields "reservations" (.arr []) (readList readReservation)
      return .message name members reservations
    | .field => return .field (← readField name fields)
    | .oneof =>
      let members ← under (.key "declarations") (readMembersIn .choice "declarations" fields)
      return .oneof name members
    | .enum => return .enum (← readEnum name fields)
    | .method => return .method (← readMethod name fields)
    | .service =>
      let operations ← under (.key "operations") (readMembersIn .operation "operations" fields)
      return .service name (operations.filterMap methodOf?)
  | v => fail (.unexpected .object v.kind)

/-- Reads the declarations in the attribute of this name. No attribute is an empty list. -/
def readMembersIn (place : Place) (name : String) :
    List (String × Json) → Result (List Declaration)
  | [] => place.empty
  | (key, value) :: fields =>
    if key = name then readMembers place value else readMembersIn place name fields

def readMembers (place : Place) : Json → Result (List Declaration)
  | .arr items => if items.isEmpty then place.empty else readMembersFrom place 0 items
  | v => fail (.unexpected .list v.kind)

def readMembersFrom (place : Place) (i : Nat) : List Json → Result (List Declaration)
  | [] => .ok []
  | item :: items => do
    let decl ← under (.index i) (do place.check (← readDeclaration item))
    return decl :: (← readMembersFrom place (i + 1) items)

end

def readOption : Json → Result OptionValue
  | .str s => .ok (.text s)
  | .int n => .ok (.integer n)
  | .float x => .ok (.float x)
  | .bool b => .ok (.boolean b)
  | v => fail (.unsupportedOption v.kind)

def readOptionFields : List (String × Json) → Result (List (String × OptionValue))
  | [] => .ok []
  | (name, value) :: fields => do
    let option ← under (.key name) (readOption value)
    return (name, option) :: (← readOptionFields fields)

def readOptions : Json → Result (List (String × OptionValue))
  | .obj fields => readOptionFields fields
  | v => fail (.unexpected .object v.kind)

def readPackage : Json → Result (Option String)
  | .null => .ok none
  | .str name => .ok (some name)
  | _ => fail .packageNotString

def readSchema : Json → Result Schema
  | .obj fields => do
    let package ← readAttribute fields "package" .null readPackage
    let imports ← readAttribute fields "imports" (.arr []) (readList expectString)
    let options ← readAttribute fields "options" (.obj []) readOptions
    let declarations ← under (.key "declarations") (readMembersIn .member "declarations" fields)
    return { package, imports, options, declarations }
  | v => fail (.unexpected .object v.kind)

end ProtoSchema.Document
