import ProtoSchema.Proofs.Schema.Nodes

/-!
What makes a schema valid beyond its grammar: names and numbers that do not clash, enums that start
at zero, methods that pass messages of the same file, and messages that nest at most three deep.
-/
namespace ProtoSchema

/-- The numbers that a reservation takes, from the first to the last. -/
def Reservation.span? : Reservation → Option (Int × Int)
  | number n => some (n, n)
  | range first last _ => some (first, last)
  | name _ => none

namespace Decl

/-- The name of a declaration that types or services are known by. -/
def typeName? : Declaration → Option String
  | .message name _ _ => some name
  | .enum e => some e.name
  | .service name _ => some name
  | _ => none

def variantNames : Declaration → List String
  | .enum e => e.variants.map Variant.name
  | _ => []

/-- A field, or those of a oneof. -/
def fields : Declaration → List Field
  | .field f => [f]
  | .oneof _ choices => choices.filterMap fun
    | .field f => some f
    | _ => none
  | _ => []

mutual

/-- How many messages there are, each in the next, from a declaration down. -/
def messageDepth : Declaration → Nat
  | .message _ members _ => messageDepthIn members + 1
  | .oneof _ members => messageDepthIn members
  | _ => 0

def messageDepthIn : List Declaration → Nat
  | [] => 0
  | decl :: decls => max (messageDepth decl) (messageDepthIn decls)

end

theorem messageDepthIn_le_iff {decls : List Declaration} {depth : Nat} :
    messageDepthIn decls ≤ depth ↔ ∀ decl ∈ decls, decl.messageDepth ≤ depth := by
  induction decls with
  | nil => exact iff_of_true (Nat.zero_le depth) nofun
  | cons decl decls ih => rw [messageDepthIn, Nat.max_le, ih, List.forall_mem_cons]

end Decl

/-- The members of a message agree with each other and with its reservations. -/
structure ValidMessage (members : List Declaration) (reservations : List Reservation) : Prop where
  /-- The fields are numbered from one in the order in which they stand. -/
  numbers : (members.flatMap Decl.fields).map Field.index =
    (List.range' 1 (members.flatMap Decl.fields).length).map Int.ofNat
  names : ((members.flatMap Decl.fields).map Field.name).Nodup
  maps : ∀ field ∈ members.flatMap Decl.fields, field.type.isMap → field.repeated = false
  oneofs : ∀ name choices, .oneof name choices ∈ members → choices ≠ [] ∧
    ∀ choice ∈ choices, ∃ field, choice = .field field ∧ field.type.isMap = false
  spans : ∀ span ∈ reservations.filterMap Reservation.span?,
    (members.flatMap Decl.fields).length < span.1 ∧ span.1 ≤ span.2
  /-- No number is reserved twice. -/
  apart : (reservations.filterMap Reservation.span?).Pairwise fun span other =>
    span.2 < other.1 ∨ other.2 < span.1
  reservedNames : ∀ name, .name name ∈ reservations →
    name ∉ (members.flatMap Decl.fields).map Field.name

structure ValidEnum (enum : Enum) : Prop where
  first : enum.variants.head?.map Variant.number = some 0
  /-- Aliases are allowed exactly if there are some. -/
  aliases : enum.allowAlias = true ↔ ¬ (enum.variants.map Variant.number).Nodup

/-- Both sides of a method are messages, given by their names. -/
def ValidMethod (isMessage : String → Prop) (method : Method) : Prop :=
  ∃ input returns, method.input = .ref input ∧ method.returns = .ref returns ∧
    isMessage input ∧ isMessage returns

/-- A declaration is valid where these are the messages that methods may pass. -/
def Decl.Valid (isMessage : String → Prop) : Declaration → Prop
  | .message _ members reservations => ValidMessage members reservations
  | .enum e => ValidEnum e
  | .service _ operations => ∀ operation ∈ operations, ValidMethod isMessage operation
  | _ => True

theorem ValidMethod.mono {isMessage isOther : String → Prop} {method : Method}
    (h : ValidMethod isMessage method) (hMessages : ∀ name, isMessage name → isOther name) :
    ValidMethod isOther method := by
  obtain ⟨input, returns, hInput, hReturns, hIn, hOut⟩ := h
  exact ⟨input, returns, hInput, hReturns, hMessages input hIn, hMessages returns hOut⟩

theorem Decl.Valid.mono {isMessage isOther : String → Prop} {decl : Declaration}
    (h : decl.Valid isMessage) (hMessages : ∀ name, isMessage name → isOther name) :
    decl.Valid isOther := by
  cases decl with
  | service name operations => exact fun operation hMem => (h operation hMem).mono hMessages
  | message name members reservations => exact h
  | enum e => exact h
  | field f => exact h
  | oneof name members => exact h
  | method m => exact h
  | foreign value => exact h

/-- The name is that of a message among these declarations. -/
def IsMessageOf (decls : List Declaration) (name : String) : Prop :=
  ∃ members reservations, .message name members reservations ∈ decls

/-- Names of types and services do not clash in a file, nor do those of variants. -/
structure Schema.Valid (schema : Schema) : Prop where
  typeNames : (schema.nodes.filterMap Decl.typeName?).Nodup
  variantNames : (schema.nodes.flatMap Decl.variantNames).Nodup
  nodes : ∀ node ∈ schema.nodes, node.Valid (IsMessageOf schema.declarations)
  depth : ∀ decl ∈ schema.declarations, decl.messageDepth ≤ 3

end ProtoSchema
