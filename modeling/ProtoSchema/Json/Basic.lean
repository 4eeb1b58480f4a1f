/-! JSON values. Objects keep the order of their keys; integers and floats are told apart. -/
namespace ProtoSchema

inductive Json where
  | null
  | bool (value : Bool)
  | int (value : Int)
  | float (value : Float)
  | str (value : String)
  | arr (items : List Json)
  | obj (fields : List (String × Json))
  deriving Inhabited

namespace Json

/-- The kinds of values. -/
inductive Kind where
  | null | bool | int | float | str | arr | obj
  deriving DecidableEq

def kind : Json → Kind
  | null => .null
  | bool _ => .bool
  | int _ => .int
  | float _ => .float
  | str _ => .str
  | arr _ => .arr
  | obj _ => .obj

end Json
end ProtoSchema
