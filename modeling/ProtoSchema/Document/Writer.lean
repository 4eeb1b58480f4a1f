import ProtoSchema.Json.Basic
import ProtoSchema.Schema.Basic

/-! Writing schemas as documents. Every attribute is written except an absent package. -/
namespace ProtoSchema.Document

def ofType : TypeExpr → Json
  | .scalar name => .str name
  | .ref name => .str name
  | .map key value => .obj [("map", .arr [ofType key, ofType value])]

def ofReservation : Reservation → Json
  | .number n => .int n
  | .range first last _ => .arr [.int first, .int last]
  | .name name => .str name

def ofVariant (variant : Variant) : Json := .arr [.str variant.name, .int variant.number]

/-- An object that starts with the kind and the name of a declaration. -/
def tagged (kind : DeclKind) (name : String) (attributes : List (String × Json)) : Json :=
  .obj (("kind", .str kind.name) :: ("name", .str name) :: attributes)

def ofField (field : Field) : Json :=
  tagged .field field.name
    [("type", ofType field.type), ("index", .int field.index), ("repeated", .bool field.repeated)]

def ofEnum (enum : Enum) : Json :=
  tagged .enum enum.name
    [("variants", .arr (enum.variants.map ofVariant)), ("allow_alias", .bool enum.allowAlias)]

def ofMethod (method : Method) : Json :=
  tagged .method method.name
    [("input", ofType method.input), ("returns", ofType method.returns),
      ("stream", .str method.streaming.name)]

mutual

def ofDeclaration : Declaration → Json
  | .message name members reservations =>
    tagged .message name
      [("declarations", .arr (ofDeclarations members)),
        ("reservations", .arr (reservations.map ofReservation))]
  | .field field => ofField field
  | .oneof name members => tagged .oneof name [("declarations", .arr (ofDeclarations members))]
  | .enum enum => ofEnum enum
  | .method method => ofMethod method
  | .service name operations =>
    tagged .service name [("operations", .arr (operations.map ofMethod))]

def ofDeclarations : List Declaration → List Json
  | [] => []
  | decl :: decls => ofDeclaration decl :: ofDeclarations decls

end

def ofOption : OptionValue → Json
  | .text s => .str s
  | .integer n => .int n
  | .float x => .float x
  | .boolean b => .bool b

def ofSchema (schema : Schema) : Json :=
  .obj ((schema.package.map fun name => ("package", Json.str name)).toList ++
    [("imports", .arr (schema.imports.map .str)),
      ("options", .obj (schema.options.map fun (name, value) => (name, ofOption value))),
      ("declarations", .arr (ofDeclarations schema.declarations))])

end ProtoSchema.Document
