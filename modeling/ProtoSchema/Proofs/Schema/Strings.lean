import ProtoSchema.Proofs.Proto.Worded

/-! The strings in a schema that stand in quotes in its text, the names that stand there as they
are, and the schema without the strings. -/
namespace ProtoSchema
variable {φ : Type}

namespace Reservation

def string? : Reservation → Option String
  | .name text => some text
  | _ => none

/-- The reservation with nothing in its quotes. -/
def blank : Reservation → Reservation
  | .name _ => .name ""
  | reservation => reservation

end Reservation

namespace OptionValue

def string? : OptionValue → Option String
  | .text value => some value
  | _ => none

/-- The value with nothing in its quotes. -/
def blank : OptionValue → OptionValue
  | .text _ => .text ""
  | value => value

end OptionValue

namespace Decl

/-- The reserved names of a declaration itself. -/
def reservedNames : Decl φ → List String
  | .message _ _ reservations => reservations.filterMap Reservation.string?
  | _ => []

/-- The names that a declaration itself introduces or mentions, except those that it reserves. -/
def names : Decl φ → List String
  | .message name _ _ => [name]
  | decl => decl.words

theorem mem_words_iff {decl : Decl φ} {word : String} :
    word ∈ decl.words ↔ word ∈ decl.names ∨ word ∈ decl.reservedNames := by
  cases decl with
  | message name members reservations =>
    have hReserved : ∀ r : Reservation, word ∈ r.words ↔ r.string? = some word := by
      intro r
      cases r <;> simp [Reservation.words, Reservation.string?, eq_comm]
    simp [words, names, reservedNames, hReserved]
  | _ => simp [names, reservedNames]

/-- The reserved names of a declaration at every depth. -/
def strings (decl : Decl φ) : List String := decl.nodes.flatMap reservedNames

mutual

/-- A declaration with nothing in the quotes of its text. -/
def blank : Decl φ → Decl φ
  | .message name members reservations =>
    .message name (blankIn members) (reservations.map Reservation.blank)
  | .field f => .field f
  | .oneof name members => .oneof name (blankIn members)
  | .enum e => .enum e
  | .method m => .method m
  | .service name operations => .service name operations
  | .foreign value => .foreign value

def blankIn : List (Decl φ) → List (Decl φ)
  | [] => []
  | decl :: decls => blank decl :: blankIn decls

end

theorem blankIn_eq_map (decls : List (Decl φ)) : blankIn decls = decls.map blank := by
  induction decls with
  | nil => rfl
  | cons decl decls ih => rw [blankIn, List.map_cons, ih]

theorem strings_eq (decl : Decl φ) :
    decl.strings = decl.reservedNames ++ decl.members.flatMap strings := by
  rw [strings, nodes_eq, List.flatMap_cons, List.flatMap_assoc]
  rfl

end Decl

namespace SchemaFile

/-- The strings in quotes, in the order of the text. -/
def strings (file : SchemaFile φ) : List String :=
  file.imports ++ (file.options.filterMap fun option => option.2.string?) ++
    file.nodes.flatMap Decl.reservedNames

/-- The names that stand in the text as they are. -/
def names (file : SchemaFile φ) : List String :=
  file.package.toList ++ file.options.map Prod.fst ++ file.nodes.flatMap Decl.names

/-- The file with nothing in the quotes of its text. -/
def blank (file : SchemaFile φ) : SchemaFile φ where
  package := file.package
  imports := file.imports.map fun _ => ""
  options := file.options.map fun option => (option.1, option.2.blank)
  declarations := file.declarations.map Decl.blank

end SchemaFile
end ProtoSchema
