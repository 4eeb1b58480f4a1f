import ProtoSchema.Schema.Basic

/-! Equality of declarations and of schema files is decidable. -/
namespace ProtoSchema.Decl
variable {φ : Type} [DecidableEq φ]

mutual

def beq : Decl φ → Decl φ → Bool
  | .message a ms rs, .message b ns ss => a = b && beqList ms ns && rs = ss
  | .field a, .field b => a = b
  | .oneof a ms, .oneof b ns => a = b && beqList ms ns
  | .enum a, .enum b => a = b
  | .method a, .method b => a = b
  | .service a ms, .service b ns => a = b && ms = ns
  | .foreign a, .foreign b => a = b
  | _, _ => false

def beqList : List (Decl φ) → List (Decl φ) → Bool
  | [], [] => true
  | d :: ds, e :: es => beq d e && beqList ds es
  | _, _ => false

end

mutual

theorem beq_iff_eq : (a b : Decl φ) → (beq a b = true ↔ a = b)
  | .message _ ms _, b => by
    cases b <;> simp [beq, beqList_iff_eq ms, and_assoc]
  | .field _, b => by cases b <;> simp [beq]
  | .oneof _ ms, b => by cases b <;> simp [beq, beqList_iff_eq ms]
  | .enum _, b => by cases b <;> simp [beq]
  | .method _, b => by cases b <;> simp [beq]
  | .service _ _, b => by cases b <;> simp [beq]
  | .foreign _, b => by cases b <;> simp [beq]

theorem beqList_iff_eq : (as bs : List (Decl φ)) → (beqList as bs = true ↔ as = bs)
  | [], bs => by cases bs <;> simp [beqList]
  | a :: as, bs => by
    cases bs with
    | nil => simp [beqList]
    | cons b bs => simp [beqList, beq_iff_eq a b, beqList_iff_eq as bs]

end

instance : DecidableEq (Decl φ) := fun a b => decidable_of_iff _ (beq_iff_eq a b)

end ProtoSchema.Decl

namespace ProtoSchema
deriving instance DecidableEq for SchemaFile
end ProtoSchema
