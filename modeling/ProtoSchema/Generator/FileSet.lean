import ProtoSchema.Generator.Schemas
import ProtoSchema.Proto.Printer

/-! Sets of generated files, each of which may import earlier ones. -/
namespace ProtoSchema.Generator
open Sampling (Gen Fault MersenneTwister)

def fileName (i : Nat) : String :=
  let digits := toString i
  "case_" ++ "".pushn '0' (6 - digits.length) ++ digits ++ ".proto"

/-- The names of a set without repeats, in ascending order. -/
def sortedSet (names : List String) : List String :=
  names.eraseDups.mergeSort fun a b => a ≤ b

/-- Names of files before the file `i`, drawn so many times. The first file imports nothing. -/
def earlierFiles (i draws : Nat) : Gen (List String) := do
  if i = 0 then return []
  else return sortedSet (← Gen.times (return fileName (← Gen.below i)) draws)

structure Entry where
  path : String
  schema : Schema

/-- The file `i` of a set. Its package keeps its names apart from those of other files. -/
def entry (i : Nat) : Gen Entry := do
  let tree ← schema
  let imports ← earlierFiles i tree.imports.length
  return {
    path := fileName i
    schema := { tree with package := some ("corpus.case" ++ toString i), imports } }

def entriesFrom (i : Nat) : Nat → Gen (List Entry)
  | 0 => return []
  | n + 1 => do
    let first ← entry i
    return first :: (← entriesFrom (i + 1) n)

def generate {α : Type} (seed : Int) (gen : Gen α) : Except Fault α :=
  (gen.run (MersenneTwister.ofSeed seed)).map Prod.fst

/-- Schemas that do not depend on each other. A negative count is none. -/
def schemas (seed count : Int) : Except Fault (List Schema) :=
  generate seed (Gen.times schema count.toNat)

/-- A set of files that a seed determines. -/
def entries (seed count : Int) : Except Fault (List Entry) :=
  generate seed (entriesFrom 0 count.toNat)

/-- The files of a set as text. -/
def files (seed count : Int) : Except Fault (List (String × String)) := do
  return (← entries seed count).map fun entry => (entry.path, Proto.text entry.schema)

end ProtoSchema.Generator
