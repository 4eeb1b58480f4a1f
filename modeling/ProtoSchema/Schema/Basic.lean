import ProtoSchema.Assoc

/-! Schema files as trees of declarations. -/
namespace ProtoSchema

/-- A type of a field, of a request or of a response. -/
inductive TypeExpr where
  | scalar (name : String)
  | ref (name : String)
  | map (key value : TypeExpr)
  deriving DecidableEq, Inhabited

/-- The names of the scalar types. -/
def scalarNames : List String :=
  ["double", "float", "int32", "int64", "uint32", "uint64", "sint32", "sint64", "fixed32",
    "fixed64", "sfixed32", "sfixed64", "bool", "string", "bytes"]

namespace TypeExpr

/-- The type of this name that is no map. -/
def named (name : String) : TypeExpr :=
  if name ∈ scalarNames then .scalar name else .ref name

def isMap : TypeExpr → Bool
  | .map _ _ => true
  | _ => false

end TypeExpr

/-- Which sides of a method are streams. -/
structure Streaming where
  request : Bool := false
  response : Bool := false
  deriving DecidableEq, Inhabited

namespace Streaming

def all : List Streaming := [⟨false, false⟩, ⟨true, false⟩, ⟨false, true⟩, ⟨true, true⟩]

def name : Streaming → String
  | ⟨false, false⟩ => "none"
  | ⟨true, false⟩ => "in"
  | ⟨false, true⟩ => "out"
  | ⟨true, true⟩ => "duplex"

/-- The request counts one, the response two. -/
def toNat (streaming : Streaming) : Nat := streaming.request.toNat + 2 * streaming.response.toNat

def ofName? (name : String) : Option Streaming := all.find? fun s => s.name = name

def ofInt? (n : Int) : Option Streaming := all.find? fun s => (s.toNat : Int) = n

end Streaming

/-- How the two ends of a range are held. -/
inductive Ends where
  | pair
  | list
  deriving DecidableEq, Inhabited

/-- Numbers and names that the fields of a message may not take. A range held as a pair and one held
as a list are different values. -/
inductive Reservation where
  | number (n : Int)
  | range (first last : Int) (ends : Ends := .pair)
  | name (name : String)
  deriving DecidableEq, Inhabited

def Reservation.integers : Reservation → List Int
  | .number n => [n]
  | .range first last _ => [first, last]
  | .name _ => []

structure Variant where
  name : String
  number : Int
  deriving DecidableEq, Inhabited

structure Field where
  name : String
  type : TypeExpr
  index : Int
  repeated : Bool := false
  deriving DecidableEq, Inhabited

structure Enum where
  name : String
  variants : List Variant := []
  allowAlias : Bool := false
  deriving DecidableEq, Inhabited

structure Method where
  name : String
  input : TypeExpr
  returns : TypeExpr
  streaming : Streaming := {}
  deriving DecidableEq, Inhabited

/-- A declaration. Where `φ` is not empty, a value that is no declaration may take the place of a
declaration in a file, a message or a oneof. -/
inductive Decl (φ : Type) where
  | message (name : String) (members : List (Decl φ)) (reservations : List Reservation)
  | field (field : Field)
  | oneof (name : String) (members : List (Decl φ))
  | enum (enum : Enum)
  | method (method : Method)
  | service (name : String) (operations : List Method)
  | foreign (value : φ)

instance {φ : Type} : Inhabited (Decl φ) := ⟨.service "" []⟩

/-- A declaration that holds declarations only. -/
abbrev Declaration := Decl Empty

/-- The kinds of declarations. -/
inductive DeclKind where
  | enum | field | message | method | oneof | service
  deriving DecidableEq, Inhabited

namespace DeclKind

/-- The kinds in the order of their names. -/
def all : List DeclKind := [enum, field, message, method, oneof, service]

def name : DeclKind → String
  | enum => "enum"
  | field => "field"
  | message => "message"
  | method => "method"
  | oneof => "oneof"
  | service => "service"

def ofName? (name : String) : Option DeclKind := all.find? fun kind => kind.name = name

/-- The names of all kinds, for messages. -/
def allNames : String := ", ".intercalate (all.map name)

end DeclKind

def Decl.kind : Declaration → DeclKind
  | .message .. => .message
  | .field _ => .field
  | .oneof .. => .oneof
  | .enum _ => .enum
  | .method _ => .method
  | .service .. => .service

/-- The value of a file option. -/
inductive OptionValue where
  | text (value : String)
  | integer (value : Int)
  | float (value : Float)
  | boolean (value : Bool)
  deriving DecidableEq, Inhabited

def OptionValue.integers : OptionValue → List Int
  | .integer n => [n]
  | _ => []

/-- A schema file. Its options are written in the order in which they are held. -/
structure SchemaFile (φ : Type) where
  package : Option String := none
  imports : List String := []
  options : Assoc String OptionValue := []
  declarations : List (Decl φ) := []
  deriving Inhabited

/-- A file that holds declarations only. -/
abbrev Schema := SchemaFile Empty

end ProtoSchema
