import ProtoSchema.Proofs.Generator.Enums

/-!
Parts of a generated file. A part takes the numbers of its names from a range; parts with ranges
that follow each other go together.
-/
namespace ProtoSchema.Generator

/-- Declarations that are valid at every depth and take their names' numbers from a range. -/
structure Part (isMessage : String → Prop) (depth low high : Nat) (decls : List Declaration) :
    Prop where
  typeNames : Fresh low high ((decls.flatMap Decl.nodes).filterMap Decl.typeName?)
  variantNames : Fresh low high ((decls.flatMap Decl.nodes).flatMap Decl.variantNames)
  nodes : ∀ node ∈ decls.flatMap Decl.nodes, node.Valid isMessage
  depth_le : ∀ decl ∈ decls, decl.messageDepth ≤ depth

namespace Part
variable {isMessage : String → Prop} {depth low middle high n : Nat}
  {decls others : List Declaration}

theorem nil : Part isMessage depth n n [] := ⟨.nil n, .nil n, nofun, nofun⟩

theorem append (h : Part isMessage depth low middle decls)
    (hOthers : Part isMessage depth middle high others) :
    Part isMessage depth low high (decls ++ others) := by
  constructor
  · rw [List.flatMap_append, List.filterMap_append]
    exact h.typeNames.append hOthers.typeNames
  · rw [List.flatMap_append, List.flatMap_append]
    exact h.variantNames.append hOthers.variantNames
  · rw [List.flatMap_append]
    exact List.forall_mem_append.mpr ⟨h.nodes, hOthers.nodes⟩
  · exact List.forall_mem_append.mpr ⟨h.depth_le, hOthers.depth_le⟩

theorem perm (h : Part isMessage depth low high decls) (hPerm : decls.Perm others) :
    Part isMessage depth low high others := by
  have hNodes := hPerm.flatMap_right Decl.nodes
  constructor
  · exact h.typeNames.perm (hNodes.filterMap _)
  · exact h.variantNames.perm (hNodes.flatMap_right _)
  · exact fun node hNode => h.nodes node (hNodes.mem_iff.mpr hNode)
  · exact fun decl hDecl => h.depth_le decl (hPerm.mem_iff.mpr hDecl)

theorem mono {isOther : String → Prop} (h : Part isMessage depth low high decls)
    (hMessages : ∀ name, isMessage name → isOther name) : Part isOther depth low high decls := by
  refine ⟨h.typeNames, h.variantNames, fun node hNode => ?_, h.depth_le⟩
  exact (h.nodes node hNode).mono hMessages

/-- Declarations that take no number each take none together. -/
theorem of_forall (h : ∀ decl ∈ decls, Part isMessage depth n n [decl]) :
    Part isMessage depth n n decls := by
  induction decls with
  | nil => exact nil
  | cons decl decls ih =>
    obtain ⟨hDecl, hDecls⟩ := List.forall_mem_cons.mp h
    exact hDecl.append (ih hDecls)

/-- A declaration takes its own numbers before those of its members. -/
theorem of_members {inner : Nat} {decl : Declaration}
    (hName : Fresh low middle decl.typeName?.toList)
    (hVariants : Fresh low middle decl.variantNames) (hValid : decl.Valid isMessage)
    (hMembers : Part isMessage inner middle high decl.members)
    (hDepth : decl.messageDepth ≤ depth) :
    Part isMessage depth low high [decl] := by
  have hNodes : [decl].flatMap Decl.nodes = decl :: decl.members.flatMap Decl.nodes := by
    rw [List.flatMap_singleton, Decl.nodes_eq]
  constructor
  · have hTypeNames : (decl :: decl.members.flatMap Decl.nodes).filterMap Decl.typeName? =
        decl.typeName?.toList ++ (decl.members.flatMap Decl.nodes).filterMap Decl.typeName? := by
      rw [List.filterMap_cons]
      cases decl.typeName? <;> rfl
    rw [hNodes, hTypeNames]
    exact hName.append hMembers.typeNames
  · rw [hNodes, List.flatMap_cons]
    exact hVariants.append hMembers.variantNames
  · rw [hNodes]
    exact List.forall_mem_cons.mpr ⟨hValid, hMembers.nodes⟩
  · exact List.forall_mem_singleton.mpr hDepth

/-- A declaration without members is valid together with them if it is valid itself. -/
theorem of_leaf {decl : Declaration} (hMembers : decl.members = [])
    (hName : Fresh low high decl.typeName?.toList) (hVariants : Fresh low high decl.variantNames)
    (hValid : decl.Valid isMessage) (hDepth : decl.messageDepth ≤ depth) :
    Part isMessage depth low high [decl] := by
  have hInner : Part isMessage depth high high decl.members := by
    rw [hMembers]
    exact nil
  exact of_members hName hVariants hValid hInner hDepth

theorem field (f : Field) : Part isMessage depth n n [.field f] :=
  of_leaf rfl (.nil n) (.nil n) trivial (Nat.zero_le depth)

theorem method (m : Method) : Part isMessage depth n n [.method m] :=
  of_leaf rfl (.nil n) (.nil n) trivial (Nat.zero_le depth)

theorem enum {e : Enum} (h : FreshEnum n e) : Part isMessage depth n (n + 1) [.enum e] :=
  of_leaf rfl (.singleton h.name) h.variants h.valid (Nat.zero_le depth)

theorem fields (fields : List Field) : Part isMessage depth n n (fields.map .field) :=
  of_forall (List.forall_mem_map.mpr fun f _ => field f)

theorem oneof (name : String) (fields : List Field) :
    Part isMessage depth n n [.oneof name (fields.map .field)] := by
  have hFields : Part isMessage depth n n (fields.map .field) := .fields fields
  refine of_members (.nil n) (.nil n) trivial hFields ?_
  exact Decl.messageDepthIn_le_iff.mpr hFields.depth_le

theorem message {name : String} {members : List Declaration} {reservations : List Reservation}
    (hName : HasNumber (low + 1) name) (hMembers : Part isMessage depth (low + 1) high members)
    (hValid : ValidMessage members reservations) :
    Part isMessage (depth + 1) low high [.message name members reservations] := by
  refine of_members (.singleton hName) (.of_forall nofun .nil) hValid hMembers ?_
  rw [Decl.messageDepth]
  exact Nat.succ_le_succ (Decl.messageDepthIn_le_iff.mpr hMembers.depth_le)

theorem service {name : String} {operations : List Method} (hName : HasNumber (n + 1) name)
    (hOperations : ∀ operation ∈ operations, ValidMethod isMessage operation) :
    Part isMessage depth n (n + 1) [.service name operations] := by
  have hMethods : Part isMessage 0 (n + 1) (n + 1) (operations.map .method) :=
    of_forall (List.forall_mem_map.mpr fun m _ => method m)
  exact of_members (.singleton hName) (.of_forall nofun .nil) hOperations hMethods
    (Nat.zero_le depth)

end Part
end ProtoSchema.Generator
