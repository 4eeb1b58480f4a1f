import ProtoSchema.Sampling.Gen

/-! Names for generated schemas. -/
namespace ProtoSchema.Generator
open Sampling (Gen)

def letters : List Char := "abcdefghijklmnopqrstuvwxyz".toList

def digits : List Char := "0123456789".toList

/-- A letter and at most eight letters or digits. -/
def identifier : Gen String := do
  let first ← Gen.choice letters
  let tail ← Gen.times (Gen.choice (letters ++ digits)) (← Gen.between 0 8)
  return String.ofList (first :: tail)

/-- Generation with a count of the names handed out in a file. -/
abbrev Naming (α : Type) := StateT Nat Gen α

def capitalize : List Char → List Char
  | [] => []
  | c :: rest => c.toUpper :: rest

/-- A name made of a letter for its kind, its number in the file, and letters. -/
def freshName (kind : String) : Naming String := do
  let number := (← get) + 1
  set number
  let tail ← Gen.times (Gen.choice letters) (← Gen.between 0 6)
  return kind ++ toString number ++ String.ofList (capitalize tail)

end ProtoSchema.Generator
