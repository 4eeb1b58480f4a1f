import ProtoSchema.Proofs.Proto.Words
import ProtoSchema.Proofs.Schema.Nodes

/-! Trees whose names are all words. -/
namespace ProtoSchema

def Field.words (field : Field) : List String := field.name :: field.type.leaves

def Method.words (method : Method) : List String :=
  method.name :: (method.input.leaves ++ method.returns.leaves)

def Reservation.words : Reservation → List String
  | .name word => [word]
  | _ => []

namespace Decl
variable {φ : Type}

/-- The names that a declaration itself introduces or mentions. -/
def words : Decl φ → List String
  | .message name _ reservations => name :: reservations.flatMap Reservation.words
  | .field f => f.words
  | .oneof name _ => [name]
  | .enum e => e.name :: e.variants.map Variant.name
  | .method m => m.words
  | .service name _ => [name]
  | .foreign _ => []

/-- At every depth, names are words. -/
def Worded (decl : Decl φ) : Prop := ∀ node ∈ decl.nodes, ∀ word ∈ node.words, Proto.IsWord word

instance : DecidablePred (Worded (φ := φ)) :=
  fun _ => inferInstanceAs (Decidable (∀ _ ∈ _, ∀ _ ∈ _, _))

theorem worded_iff (decl : Decl φ) :
    decl.Worded ↔ (∀ word ∈ decl.words, Proto.IsWord word) ∧ ∀ m ∈ decl.members, m.Worded :=
  forall_mem_nodes _ decl

theorem worded_message (name : String) (ms : List (Decl φ)) (reservations : List Reservation) :
    (message name ms reservations).Worded ↔ Proto.IsWord name ∧
      (∀ r ∈ reservations, ∀ word ∈ r.words, Proto.IsWord word) ∧ ∀ m ∈ ms, m.Worded := by
  rw [worded_iff, words, List.forall_mem_cons, List.forall_mem_flatMap, and_assoc]
  rfl

theorem worded_field (f : Field) :
    (field f : Decl φ).Worded ↔ ∀ word ∈ f.words, Proto.IsWord word := by
  rw [worded_iff]
  simp [words, members]

theorem worded_oneof (name : String) (ms : List (Decl φ)) :
    (oneof name ms).Worded ↔ Proto.IsWord name ∧ ∀ m ∈ ms, m.Worded := by
  rw [worded_iff, words, List.forall_mem_singleton]
  rfl

theorem worded_enum (e : Enum) :
    (enum e : Decl φ).Worded ↔ Proto.IsWord e.name ∧ ∀ v ∈ e.variants, Proto.IsWord v.name := by
  rw [worded_iff, words, List.forall_mem_cons, List.forall_mem_map]
  simp [members]

theorem worded_method (m : Method) :
    (method m : Decl φ).Worded ↔ ∀ word ∈ m.words, Proto.IsWord word := by
  rw [worded_iff]
  simp [words, members]

theorem worded_service (name : String) (operations : List Method) :
    (service name operations : Decl φ).Worded ↔
      Proto.IsWord name ∧ ∀ m ∈ operations, ∀ word ∈ m.words, Proto.IsWord word := by
  rw [worded_iff, words, members, List.forall_mem_singleton, List.forall_mem_map]
  simp only [worded_method]

end Decl
end ProtoSchema
