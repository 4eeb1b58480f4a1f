import ProtoSchema.Proofs.Proto.Reservations
import ProtoSchema.Proofs.Schema.Types

/-! Trees up to what their text does not show. -/
namespace ProtoSchema
open TypeExpr (untag)

namespace Decl
variable {φ : Type}

mutual

/-- A declaration without the tags of its types, with its ranges held as pairs, and with its
reservations in the order in which they are written. -/
def normal : Decl φ → Decl φ
  | .message name members reservations =>
    .message name (normalIn members) (Reservation.sorted (reservations.map .paired))
  | .field f => .field (f.mapType untag)
  | .oneof name members => .oneof name (normalIn members)
  | .enum e => .enum e
  | .method m => .method (m.mapTypes untag)
  | .service name operations => .service name (operations.map (Method.mapTypes untag))
  | .foreign value => .foreign value

def normalIn : List (Decl φ) → List (Decl φ)
  | [] => []
  | decl :: decls => normal decl :: normalIn decls

end

theorem normalIn_eq_map (decls : List (Decl φ)) : normalIn decls = decls.map normal := by
  induction decls with
  | nil => rfl
  | cons decl decls ih => rw [normalIn, List.map_cons, ih]

end Decl

/-- A file whose declarations are normal; an empty package is none. -/
def SchemaFile.normal {φ : Type} (file : SchemaFile φ) : SchemaFile φ :=
  { file with
    package := file.package.filter (· ≠ "")
    declarations := file.declarations.map Decl.normal }

namespace Proto

/-- Each member puts its lines into the row of its parent's. -/
theorem memberLines_eq_splice (decls : List Declaration) :
    memberLines decls = Splice.flatMap (fun decl => .many (lines decl)) decls := by
  rw [Splice.flatMap_many]
  induction decls with
  | nil => rw [memberLines, List.flatMap_nil]
  | cons decl decls ih => rw [memberLines, List.flatMap_cons, ih]

theorem memberLines_eq_flatMap (decls : List Declaration) :
    memberLines decls = decls.flatMap lines := by
  rw [memberLines_eq_splice, Splice.flatMap_many]

/-- An operation is one line in the row. -/
theorem serviceLines_eq_splice (name : String) (operations : List Method) :
    serviceLines name operations =
      if operations.isEmpty then [opening "service" name ++ closing]
      else
        block "service" name
          (Lines.indent 2 (Splice.flatMap (fun operation => .one (methodLine operation))
            operations)) := by
  rw [serviceLines, Splice.flatMap_one]

/-- A variant is one line in the row. -/
theorem enumLines_eq_splice (enum : Enum) :
    enumLines enum =
      block "enum" enum.name
        (aliasLines enum ++
          Lines.indent 2 (Splice.flatMap (fun variant => .one (variantLine variant))
            enum.variants)) := by
  rw [enumLines, Splice.flatMap_one]

theorem memberLines_map {g : Declaration → Declaration} {decls : List Declaration}
    (h : ∀ decl ∈ decls, lines (g decl) = lines decl) :
    memberLines (decls.map g) = memberLines decls := by
  induction decls with
  | nil => rfl
  | cons decl decls ih =>
    rw [List.forall_mem_cons] at h
    rw [List.map_cons, memberLines, memberLines, h.1, ih h.2]

theorem typeText_untag (type : TypeExpr) : typeText type.untag = typeText type := by
  induction type with
  | map key value hKey hValue => rw [untag, typeText, typeText, hKey, hValue]
  | _ => rfl

theorem entry_paired (reservation : Reservation) :
    entry reservation.paired = entry reservation := by
  cases reservation <;> rfl

/-- Reservations with the same entries may take each other's places. -/
theorem reservationLines_map {h : Reservation → Reservation}
    (hName : ∀ r, (h r).isName = r.isName) (hEntry : ∀ r, entry (h r) = entry r)
    (reservations : List Reservation) :
    reservationLines (reservations.map h) = reservationLines reservations := by
  rw [reservationLines_eq, reservationLines_eq, List.isEmpty_map]
  simp only [List.filter_map, List.map_map, Function.comp_def, hName, hEntry]

section
variable {g : TypeExpr → TypeExpr} (hText : ∀ type, typeText (g type) = typeText type)
include hText

theorem fieldLine_mapType (field : Field) : fieldLine (field.mapType g) = fieldLine field := by
  rw [fieldLine, Field.mapType, hText]
  rfl

theorem methodLines_mapTypes (methods : List Method) :
    (methods.map (Method.mapTypes g)).map methodLine = methods.map methodLine := by
  rw [List.map_map]
  refine List.map_congr_left fun method _ => ?_
  simp only [Function.comp, methodLine, Method.mapTypes, hText]

theorem serviceLines_mapTypes (name : String) (methods : List Method) :
    serviceLines name (methods.map (Method.mapTypes g)) = serviceLines name methods := by
  rw [serviceLines, methodLines_mapTypes hText, List.isEmpty_map, serviceLines]

section
variable {h : Reservation → Reservation} (hName : ∀ r, (h r).isName = r.isName)
  (hEntry : ∀ r, entry (h r) = entry r)
include hName hEntry

/-- Types with the same text and reservations with the same entries may take each other's places. -/
theorem lines_rewrite (decl : Declaration) : lines (decl.rewrite g h) = lines decl := by
  induction decl using Decl.induct with
  | message name members reservations ih =>
    rw [Decl.rewrite, Decl.rewriteIn_eq_map, lines, lines, memberLines_map ih, List.isEmpty_map,
      List.isEmpty_map, reservationLines_map hName hEntry]
  | field f => rw [Decl.rewrite, lines, lines, fieldLine_mapType hText]
  | oneof name members ih =>
    rw [Decl.rewrite, Decl.rewriteIn_eq_map, lines, lines, memberLines_map ih]
  | enum e => rw [Decl.rewrite]
  | method m =>
    have h := methodLines_mapTypes hText [m]
    rw [Decl.rewrite, lines, lines]
    exact h
  | service name operations => rw [Decl.rewrite, lines, lines, serviceLines_mapTypes hText]
  | foreign value => exact value.elim

theorem text_rewrite (schema : Schema) : text (schema.rewrite g h) = text schema := by
  have hDeclarations : (schema.declarations.map (Decl.rewrite g h)).map declarationText =
      schema.declarations.map declarationText := by
    rw [List.map_map]
    refine List.map_congr_left fun decl _ => ?_
    simp only [Function.comp, declarationText, lines_rewrite hText hName hEntry]
  rw [text, SchemaFile.rewrite, hDeclarations, text]

end

end

/-- Neither tags nor how ranges are held show in a text. -/
theorem text_settled (schema : Schema) : text schema.settled = text schema := by
  have hNamed : ∀ name, typeText (.named name) = name := by
    intro name
    unfold TypeExpr.named
    split <;> rfl
  have hText : ∀ type : TypeExpr, typeText type.retag = typeText type := by
    intro type
    induction type with
    | scalar name => exact hNamed name
    | ref name => exact hNamed name
    | map key value hKey hValue => rw [TypeExpr.retag, typeText, typeText, hKey, hValue]
  exact text_rewrite hText Reservation.isName_paired entry_paired schema

theorem lines_normal (decl : Declaration) : lines decl.normal = lines decl := by
  induction decl using Decl.induct with
  | message name members reservations ih =>
    have hEmpty : (Reservation.sorted (reservations.map .paired)).isEmpty =
        reservations.isEmpty := by
      rw [Reservation.isEmpty_sorted, List.isEmpty_map]
    rw [Decl.normal, Decl.normalIn_eq_map, lines, lines, memberLines_map ih, List.isEmpty_map,
      reservationLines_sorted, reservationLines_map Reservation.isName_paired entry_paired, hEmpty]
  | field f => rw [Decl.normal, lines, lines, fieldLine_mapType typeText_untag]
  | oneof name members ih =>
    rw [Decl.normal, Decl.normalIn_eq_map, lines, lines, memberLines_map ih]
  | enum e => rw [Decl.normal]
  | method m =>
    have h := methodLines_mapTypes typeText_untag [m]
    rw [Decl.normal, lines, lines]
    exact h
  | service name operations => rw [Decl.normal, lines, lines, serviceLines_mapTypes typeText_untag]
  | foreign value => exact value.elim

end Proto
end ProtoSchema
