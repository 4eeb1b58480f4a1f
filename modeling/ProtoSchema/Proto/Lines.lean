import ProtoSchema.Assoc
import ProtoSchema.Json.Basic

/-! Rows of lines and of other items: indentation, splicing, and sorting into buckets. -/
namespace ProtoSchema

namespace Lines

/-- Puts blanks before a line unless it is empty. A depth below zero puts none. -/
def indentLine (depth : Int) (line : String) : String :=
  if line = "" then line else "".pushn ' ' depth.toNat ++ line

def indent (depth : Int) (lines : List String) : List String := lines.map (indentLine depth)

end Lines

/-- What an item becomes in a row: one item, or any number of items. -/
inductive Splice (β : Type) where
  | one (item : β)
  | many (items : List β)

namespace Splice
variable {α β : Type}

def toList : Splice β → List β
  | one item => [item]
  | many items => items

/-- Puts what the items become into one row. -/
def flatMap (f : α → Splice β) (items : List α) : List β :=
  items.flatMap fun item => (f item).toList

theorem flatMap_one (f : α → β) (items : List α) :
    flatMap (fun item => one (f item)) items = items.map f :=
  List.map_eq_flatMap.symm

theorem flatMap_many (f : α → List β) (items : List α) :
    flatMap (fun item => many (f item)) items = items.flatMap f := rfl

/-- A list gives its items and an object its keys. Other values, texts too, are one item. -/
def ofJson : Json → Splice Json
  | .arr items => many items
  | .obj fields => many (fields.map fun field => .str field.1)
  | value => one value

/-- Splicing goes one level deep: lists among the items of a list stay lists. -/
theorem flatMap_ofJson_arr (rows : List (List Json)) :
    flatMap ofJson (rows.map .arr) = rows.flatten := by
  rw [flatMap, List.flatMap_map, ← List.flatMap_id]
  rfl

end Splice

namespace Buckets
variable {κ α β : Type} [DecidableEq κ]

/-- Puts an item behind the others in its bucket. -/
def put (key : κ) (item : β) : Assoc κ (List β) → Assoc κ (List β)
  | [] => []
  | (k, items) :: rest =>
    if k = key then (k, items ++ [item]) :: rest else (k, items) :: put key item rest

/-- Sorts items into buckets in which there may be some already. -/
def sortInto (select : α → κ) (convert : Assoc κ (α → β)) (buckets : Assoc κ (List β)) :
    List α → Except κ (Assoc κ (List β))
  | [] => .ok buckets
  | item :: items =>
    match convert.lookup (select item) with
    | none => .error (select item)
    | some f => sortInto select convert (put (select item) (f item) buckets) items

/-- Sorts items into the buckets that `select` names, each item as its bucket's `convert` makes it.
Every bucket is there, even if it stays empty, and keeps the items in their order. The error is the
first name that no bucket has. -/
def sort (select : α → κ) (convert : Assoc κ (α → β)) (items : List α) :
    Except κ (Assoc κ (List β)) :=
  sortInto select convert (convert.map fun bucket => (bucket.1, [])) items

end Buckets
end ProtoSchema
