import ProtoSchema.Proofs.Schema.Types

/-! Trees that have a document: oneofs of fields, and maps whose keys are no maps. -/
namespace ProtoSchema
variable {φ : Type}

namespace Decl

def isField : Decl φ → Bool
  | .field _ => true
  | _ => false

/-- A oneof has members, and they are fields. -/
def ChoiceFits : Decl φ → Prop
  | .oneof _ members => members ≠ [] ∧ ∀ m ∈ members, m.isField = true
  | _ => True

/-- At every depth, oneofs have only fields, at least one, and keys of maps are no maps. -/
def Readable (decl : Decl φ) : Prop :=
  ∀ node ∈ decl.nodes, node.ChoiceFits ∧ ∀ type ∈ node.types, type.KeysFlat

theorem readable_iff (decl : Decl φ) :
    decl.Readable ↔ (decl.ChoiceFits ∧ ∀ type ∈ decl.types, type.KeysFlat) ∧
      ∀ m ∈ decl.members, m.Readable :=
  forall_mem_nodes _ decl

theorem readable_field (f : Field) : (field f : Decl φ).Readable ↔ f.type.KeysFlat := by
  rw [readable_iff]
  simp [ChoiceFits, types, members]

theorem readable_method (m : Method) :
    (method m : Decl φ).Readable ↔ m.input.KeysFlat ∧ m.returns.KeysFlat := by
  rw [readable_iff]
  simp [ChoiceFits, types, members]

theorem readable_enum (e : Enum) : (enum e : Decl φ).Readable := by
  rw [readable_iff]
  simp [ChoiceFits, types, members]

theorem readable_message (name : String) (ms : List (Decl φ)) (reservations : List Reservation) :
    (message name ms reservations).Readable ↔ ∀ m ∈ ms, m.Readable := by
  rw [readable_iff]
  simp [ChoiceFits, types, members]

theorem readable_oneof (name : String) (ms : List (Decl φ)) :
    (oneof name ms).Readable ↔ ms ≠ [] ∧ ∀ m ∈ ms, m.Readable ∧ m.isField = true := by
  rw [readable_iff]
  simp only [ChoiceFits, types, members, List.not_mem_nil, false_implies, implies_true, and_true]
  constructor
  · intro h
    obtain ⟨⟨hne, hFields⟩, hReadable⟩ := h
    exact ⟨hne, fun m hm => ⟨hReadable m hm, hFields m hm⟩⟩
  · intro hMembers
    obtain ⟨hne, h⟩ := hMembers
    exact ⟨⟨hne, fun m hm => (h m hm).2⟩, fun m hm => (h m hm).1⟩

theorem readable_service (name : String) (operations : List Method) :
    (service name operations : Decl φ).Readable ↔
      ∀ m ∈ operations, (method m : Decl φ).Readable := by
  rw [readable_iff]
  simp [ChoiceFits, types, members]

end Decl

/-- At every depth, oneofs have only fields, at least one, and keys of maps are no maps. -/
def SchemaFile.Readable (file : SchemaFile φ) : Prop :=
  ∀ node ∈ file.nodes, node.ChoiceFits ∧ ∀ type ∈ node.types, type.KeysFlat

theorem SchemaFile.readable_iff (file : SchemaFile φ) :
    file.Readable ↔ ∀ decl ∈ file.declarations, decl.Readable :=
  List.forall_mem_flatMap

end ProtoSchema
