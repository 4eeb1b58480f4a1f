import ProtoSchema.Proofs.Schema.Nodes

/-!
The types in a tree, with their tags and the keys of maps, and the reservations. Both are rewritten
throughout a tree.
-/
namespace ProtoSchema
variable {φ : Type}

private theorem map_eq_self_iff {α : Type} {f : α → α} {as : List α} :
    as.map f = as ↔ ∀ a ∈ as, f a = a := by
  have h : as.map f = as.map id ↔ ∀ a ∈ as, f a = id a := List.map_inj_left
  rwa [List.map_id] at h

namespace TypeExpr

/-- The type whose leaves are tagged by their names. -/
def retag : TypeExpr → TypeExpr
  | .scalar name => named name
  | .ref name => named name
  | .map key value => .map key.retag value.retag

/-- A leaf is a scalar exactly if its name is that of a scalar type. -/
def Tagged : TypeExpr → Prop
  | .scalar name => name ∈ scalarNames
  | .ref name => name ∉ scalarNames
  | .map key value => key.Tagged ∧ value.Tagged

/-- No map has a map as its key. -/
def KeysFlat : TypeExpr → Prop
  | .map key value => key.isMap = false ∧ key.KeysFlat ∧ value.KeysFlat
  | _ => True

theorem isMap_named (name : String) : (named name).isMap = false := by
  unfold named
  split <;> rfl

theorem isMap_retag (type : TypeExpr) : type.retag.isMap = type.isMap := by
  cases type with
  | scalar name => exact isMap_named name
  | ref name => exact isMap_named name
  | map key value => rfl

theorem retag_eq_self_iff (type : TypeExpr) : type.retag = type ↔ type.Tagged := by
  induction type with
  | scalar name => by_cases h : name ∈ scalarNames <;> simp [retag, named, Tagged, h]
  | ref name => by_cases h : name ∈ scalarNames <;> simp [retag, named, Tagged, h]
  | map key value hKey hValue => rw [retag, map.injEq, hKey, hValue, Tagged]

end TypeExpr

namespace Reservation

/-- The same reservation; a range is held as a pair. -/
def paired : Reservation → Reservation
  | .range first last _ => .range first last
  | reservation => reservation

def Paired : Reservation → Prop
  | .range _ _ ends => ends = .pair
  | _ => True

theorem paired_eq_self_iff (reservation : Reservation) :
    reservation.paired = reservation ↔ reservation.Paired := by
  cases reservation <;> simp [paired, Paired, eq_comm]

end Reservation

def Field.mapType (g : TypeExpr → TypeExpr) (field : Field) : Field :=
  { field with type := g field.type }

def Method.mapTypes (g : TypeExpr → TypeExpr) (method : Method) : Method :=
  { method with input := g method.input, returns := g method.returns }

theorem Method.mapTypes_eq_self_iff (g : TypeExpr → TypeExpr) (method : Method) :
    method.mapTypes g = method ↔
      g method.input = method.input ∧ g method.returns = method.returns := by
  obtain ⟨name, input, returns, streaming⟩ := method
  simp [mapTypes]

namespace Decl

/-- The reservations of a declaration itself. -/
def reservations : Decl φ → List Reservation
  | .message _ _ reservations => reservations
  | _ => []

section
variable (g : TypeExpr → TypeExpr) (h : Reservation → Reservation)

mutual

/-- Rewrites the types and the reservations in a tree. -/
def rewrite : Decl φ → Decl φ
  | .message name members reservations =>
    .message name (rewriteIn members) (reservations.map h)
  | .field f => .field (f.mapType g)
  | .oneof name members => .oneof name (rewriteIn members)
  | .enum e => .enum e
  | .method m => .method (m.mapTypes g)
  | .service name operations => .service name (operations.map (Method.mapTypes g))
  | .foreign value => .foreign value

def rewriteIn : List (Decl φ) → List (Decl φ)
  | [] => []
  | decl :: decls => rewrite decl :: rewriteIn decls

end

/-- Rewriting leaves the types and the reservations of a declaration itself as they are. -/
def FixedBy (decl : Decl φ) : Prop :=
  (∀ type ∈ decl.types, g type = type) ∧ ∀ r ∈ decl.reservations, h r = r

theorem rewriteIn_eq_map (decls : List (Decl φ)) :
    rewriteIn g h decls = decls.map (rewrite g h) := by
  induction decls with
  | nil => rfl
  | cons decl decls ih => rw [rewriteIn, List.map_cons, ih]

variable {g h}

private theorem map_rewrite_eq_self_iff {decls : List (Decl φ)}
    (ih : ∀ m ∈ decls, m.rewrite g h = m ↔ ∀ node ∈ m.nodes, node.FixedBy g h) :
    decls.map (rewrite g h) = decls ↔ ∀ node ∈ decls.flatMap nodes, node.FixedBy g h := by
  rw [List.forall_mem_flatMap, map_eq_self_iff]
  exact forall₂_congr ih

theorem rewrite_eq_self_iff (decl : Decl φ) :
    decl.rewrite g h = decl ↔ ∀ node ∈ decl.nodes, node.FixedBy g h := by
  induction decl using induct with
  | message name members reservations ih =>
    rw [rewrite, rewriteIn_eq_map, nodes_eq, Decl.members, List.forall_mem_cons, message.injEq,
      map_rewrite_eq_self_iff ih, map_eq_self_iff]
    simp [FixedBy, types, Decl.reservations, and_comm]
  | oneof name members ih =>
    rw [rewrite, rewriteIn_eq_map, nodes_eq, Decl.members]
    simp [map_rewrite_eq_self_iff ih, FixedBy, types, Decl.reservations]
  | field f =>
    obtain ⟨name, type, index, repeated⟩ := f
    simp [rewrite, Field.mapType, nodes, FixedBy, types, Decl.reservations]
  | enum e => simp [rewrite, nodes, FixedBy, types, Decl.reservations]
  | method m =>
    simp [rewrite, Method.mapTypes_eq_self_iff, nodes, FixedBy, types, Decl.reservations]
  | service name operations =>
    simp [rewrite, Method.mapTypes_eq_self_iff, map_eq_self_iff, nodes, FixedBy, types,
      Decl.reservations]
  | foreign value => simp [rewrite, nodes, FixedBy, types, Decl.reservations]

end

/-- Types carry the tags that their names ask for, and ranges are held as pairs. -/
def Settled (decl : Decl φ) : Prop :=
  (∀ type ∈ decl.types, type.Tagged) ∧ ∀ r ∈ decl.reservations, r.Paired

theorem fixedBy_iff_settled (decl : Decl φ) :
    decl.FixedBy TypeExpr.retag Reservation.paired ↔ decl.Settled := by
  simp only [FixedBy, Settled, TypeExpr.retag_eq_self_iff, Reservation.paired_eq_self_iff]

end Decl

namespace SchemaFile

def rewrite (g : TypeExpr → TypeExpr) (h : Reservation → Reservation) (file : SchemaFile φ) :
    SchemaFile φ :=
  { file with declarations := file.declarations.map (Decl.rewrite g h) }

/-- The file with its types tagged by their names and its ranges held as pairs. -/
def settled (file : SchemaFile φ) : SchemaFile φ :=
  file.rewrite TypeExpr.retag Reservation.paired

/-- At every depth, types carry the tags that their names ask for, and ranges are held as pairs. -/
def Settled (file : SchemaFile φ) : Prop := ∀ node ∈ file.nodes, node.Settled

theorem settled_eq_self_iff (file : SchemaFile φ) : file.settled = file ↔ file.Settled := by
  obtain ⟨package, imports, options, declarations⟩ := file
  have h : declarations.map (Decl.rewrite TypeExpr.retag Reservation.paired) = declarations ↔
      ∀ decl ∈ declarations, ∀ node ∈ decl.nodes, node.Settled := by
    rw [map_eq_self_iff]
    simp only [Decl.rewrite_eq_self_iff, Decl.fixedBy_iff_settled]
  rw [Settled, nodes, List.forall_mem_flatMap, ← h, settled, rewrite]
  simp

/-- A file whose one message holds nothing but reservations. -/
def reserving (reservations : List Reservation) : Schema where
  declarations := [.message "M" [] reservations]

end SchemaFile
end ProtoSchema
