import ProtoSchema.Decimal.Literal
import ProtoSchema.Schema.Basic

/-! The declarations of a tree at every depth, and induction over them. -/
namespace ProtoSchema

theorem DeclKind.ofName?_eq_some_iff {name : String} {kind : DeclKind} :
    ofName? name = some kind ↔ name = kind.name := by
  constructor
  · intro h
    have hName := List.find?_some h
    exact (of_decide_eq_true hName).symm
  · intro h
    rw [h]
    cases kind <;> decide

namespace Decl
variable {φ : Type}

/-- The declarations that stand directly in a declaration. -/
def members : Decl φ → List (Decl φ)
  | .message _ members _ => members
  | .oneof _ members => members
  | .service _ operations => operations.map .method
  | _ => []

mutual

/-- A declaration and, after it, those in it at any depth, from left to right. -/
def nodes : Decl φ → List (Decl φ)
  | .message name members reservations => .message name members reservations :: nodesIn members
  | .oneof name members => .oneof name members :: nodesIn members
  | .service name operations => .service name operations :: operations.map .method
  | .field f => [.field f]
  | .enum e => [.enum e]
  | .method m => [.method m]
  | .foreign value => [.foreign value]

def nodesIn : List (Decl φ) → List (Decl φ)
  | [] => []
  | decl :: decls => nodes decl ++ nodesIn decls

end

/-- The types that a declaration itself mentions. -/
def types : Decl φ → List TypeExpr
  | .field f => [f.type]
  | .method m => [m.input, m.returns]
  | _ => []

/-- The integers that a declaration itself holds. -/
def integers : Decl φ → List Int
  | .message _ _ reservations => reservations.flatMap Reservation.integers
  | .field f => [f.index]
  | .enum e => e.variants.map Variant.number
  | _ => []

/-- Declarations in messages and oneofs come with the hypothesis of the induction. -/
@[elab_as_elim]
theorem induct {P : Decl φ → Prop}
    (message : ∀ name members reservations, (∀ m ∈ members, P m) →
      P (.message name members reservations))
    (field : ∀ f, P (.field f))
    (oneof : ∀ name members, (∀ m ∈ members, P m) → P (.oneof name members))
    (enum : ∀ e, P (.enum e)) (method : ∀ m, P (.method m))
    (service : ∀ name operations, P (.service name operations))
    (foreign : ∀ value, P (.foreign value)) : ∀ decl, P decl
  | .message name members reservations => message name members reservations fun m _ =>
    induct message field oneof enum method service foreign m
  | .field f => field f
  | .oneof name members => oneof name members fun m _ =>
    induct message field oneof enum method service foreign m
  | .enum e => enum e
  | .method m => method m
  | .service name operations => service name operations
  | .foreign value => foreign value

theorem nodesIn_eq_flatMap (decls : List (Decl φ)) : nodesIn decls = decls.flatMap nodes := by
  induction decls with
  | nil => rw [nodesIn, List.flatMap_nil]
  | cons decl decls ih => rw [nodesIn, List.flatMap_cons, ih]

theorem nodes_eq (decl : Decl φ) : decl.nodes = decl :: decl.members.flatMap nodes := by
  cases decl with
  | service name operations =>
    have h : (operations.map (method (φ := φ))).flatMap nodes = operations.map method := by
      rw [List.flatMap_map]
      exact List.map_eq_flatMap.symm
    rw [members, h, nodes]
  | _ => simp only [nodes, members, nodesIn_eq_flatMap, List.flatMap_nil]

theorem forall_mem_nodes (P : Decl φ → Prop) (decl : Decl φ) :
    (∀ node ∈ decl.nodes, P node) ↔ P decl ∧ ∀ m ∈ decl.members, ∀ node ∈ m.nodes, P node := by
  rw [nodes_eq, List.forall_mem_cons, List.forall_mem_flatMap]

/-- At every depth, integers may be read and written. -/
def Portable (decl : Decl φ) : Prop := ∀ node ∈ decl.nodes, ∀ n ∈ node.integers, Decimal.Short n

instance : DecidablePred (Portable (φ := φ)) :=
  fun _ => inferInstanceAs (Decidable (∀ _ ∈ _, ∀ _ ∈ _, _))

theorem portable_iff (decl : Decl φ) :
    decl.Portable ↔ (∀ n ∈ decl.integers, Decimal.Short n) ∧ ∀ m ∈ decl.members, m.Portable :=
  forall_mem_nodes _ decl

end Decl

namespace SchemaFile
variable {φ : Type}

/-- The declarations of a file at every depth. -/
def nodes (file : SchemaFile φ) : List (Decl φ) := file.declarations.flatMap Decl.nodes

/-- The integers of a file: those of its options and, at every depth, those of declarations. -/
def integers (file : SchemaFile φ) : List Int :=
  file.options.flatMap (fun option => option.2.integers) ++ file.nodes.flatMap Decl.integers

theorem forall_mem_integers (P : Int → Prop) (file : SchemaFile φ) :
    (∀ n ∈ file.integers, P n) ↔ (∀ option ∈ file.options, ∀ n ∈ option.2.integers, P n) ∧
      ∀ decl ∈ file.declarations, ∀ node ∈ decl.nodes, ∀ n ∈ node.integers, P n := by
  simp only [integers, nodes, List.forall_mem_append, List.forall_mem_flatMap]

end SchemaFile

end ProtoSchema
