import Mathlib.Data.List.Basic
import Mathlib.Data.Set.List
import ProtoSchema.Proofs.Schema.Nodes
import ProtoSchema.Proto.Open

/-!
What keeps a tree from being written: foreign values, and integers that are too long. A tree without
foreign values is one that holds declarations only.
-/
namespace ProtoSchema
open Decimal (Short)
open Proto (Fault)

/-- What is wrong with integers of which one is too long. -/
def longFault? (integers : List Int) : Option Fault :=
  if ∀ n ∈ integers, Short n then none else some .longInteger

theorem longFault?_eq_none_iff {integers : List Int} :
    longFault? integers = none ↔ ∀ n ∈ integers, Short n := by
  unfold longFault?
  split <;> simp_all

theorem longFault?_ne_foreign (integers : List Int) (value : Foreign) :
    longFault? integers ≠ some (.foreign value) := by
  unfold longFault?
  split <;> exact nofun

theorem longFault?_append (first second : List Int) :
    longFault? (first ++ second) = (longFault? first).or (longFault? second) := by
  by_cases hFirst : ∀ n ∈ first, Short n
  · have hBoth : (∀ n ∈ first ++ second, Short n) ↔ ∀ n ∈ second, Short n := by
      rw [List.forall_mem_append, and_iff_right hFirst]
    simp only [longFault?, hBoth, if_pos hFirst, Option.none_or]
  · have hBoth : ¬ ∀ n ∈ first ++ second, Short n :=
      fun h => hFirst (List.forall_mem_append.mp h).1
    simp only [longFault?, if_neg hBoth, if_neg hFirst, Option.some_or]

namespace Decl

def foreign? : Decl Foreign → Option Foreign
  | .foreign value => some value
  | _ => none

/-- What keeps a declaration itself from being written, whatever stands in it. -/
def fault? (decl : Decl Foreign) : Option Fault :=
  (decl.foreign?.map .foreign).or (longFault? decl.integers)

/-- The foreign values in a declaration, from left to right. -/
def foreigns (decl : Decl Foreign) : List Foreign := decl.nodes.filterMap foreign?

/-- What keeps a declaration and those in it from being written, each before what stands in it and
from left to right. -/
def faults (decl : Decl Foreign) : List Fault := decl.nodes.filterMap fault?

theorem filterMap_nodes_eq {α : Type} (f : Decl Foreign → Option α) (decl : Decl Foreign) :
    decl.nodes.filterMap f =
      (f decl).toList ++ decl.members.flatMap fun m => m.nodes.filterMap f := by
  rw [nodes_eq, List.filterMap_cons, List.filterMap_flatMap]
  cases f decl <;> rfl

theorem foreigns_eq (decl : Decl Foreign) :
    decl.foreigns = decl.foreign?.toList ++ decl.members.flatMap foreigns :=
  filterMap_nodes_eq foreign? decl

theorem faults_eq (decl : Decl Foreign) :
    decl.faults = decl.fault?.toList ++ decl.members.flatMap faults :=
  filterMap_nodes_eq fault? decl

/-- The first fault is that of the declaration itself, or else the first of those in it. -/
theorem head?_faults (decl : Decl Foreign) :
    decl.faults.head? = decl.fault?.or (decl.members.flatMap faults).head? := by
  rw [faults_eq, List.head?_append, Option.head?_toList]

/-- Where nothing stands in a declaration. -/
theorem head?_faults_of_members {decl : Decl Foreign} (h : decl.members = []) :
    decl.faults.head? = decl.fault? := by
  rw [head?_faults, h]
  exact Option.or_none

theorem head?_faults_service (name : String) (operations : List Method) :
    (faults (.service name operations)).head? = none := by
  have hNone : (operations.map Decl.method).flatMap faults = [] :=
    List.flatMap_eq_nil_iff.mpr (List.forall_mem_map.mpr fun _ _ => rfl)
  rw [head?_faults, members, hNone]
  rfl

theorem fault?_of_short {decl : Decl Foreign} (h : ∀ n ∈ decl.integers, Short n) :
    decl.fault? = decl.foreign?.map .foreign := by
  rw [fault?, longFault?_eq_none_iff.mpr h, Option.or_none]

theorem filterMap_fault?_of_short {decls : List (Decl Foreign)}
    (h : ∀ decl ∈ decls, ∀ n ∈ decl.integers, Short n) :
    decls.filterMap fault? = (decls.filterMap foreign?).map .foreign := by
  rw [List.map_filterMap]
  exact List.filterMap_congr fun decl hDecl => fault?_of_short (h decl hDecl)

theorem fault?_eq_none_iff {decl : Decl Foreign} :
    decl.fault? = none ↔ decl.foreign? = none ∧ ∀ n ∈ decl.integers, Short n := by
  rw [fault?, Option.or_eq_none_iff, Option.map_eq_none_iff, longFault?_eq_none_iff]

theorem filterMap_fault?_eq_nil_iff {decls : List (Decl Foreign)} :
    decls.filterMap fault? = [] ↔
      decls.filterMap foreign? = [] ∧ ∀ decl ∈ decls, ∀ n ∈ decl.integers, Short n := by
  simp only [List.filterMap_eq_nil_iff, fault?_eq_none_iff, forall_and]

/-- Nothing keeps a declaration from being written if no value is foreign and no integer too
long. -/
theorem faults_eq_nil_iff (decl : Decl Foreign) :
    decl.faults = [] ↔ decl.foreigns = [] ∧ decl.Portable := filterMap_fault?_eq_nil_iff

/-- Without integers that are too long the faults are the foreign values. -/
theorem faults_of_portable {decl : Decl Foreign} (h : decl.Portable) :
    decl.faults = decl.foreigns.map .foreign := filterMap_fault?_of_short h

mutual

/-- The same declaration as a tree in which foreign values might stand. -/
def widen : Declaration → Decl Foreign
  | .message name members reservations => .message name (widenAll members) reservations
  | .field f => .field f
  | .oneof name members => .oneof name (widenAll members)
  | .enum e => .enum e
  | .method m => .method m
  | .service name operations => .service name operations

def widenAll : List Declaration → List (Decl Foreign)
  | [] => []
  | decl :: decls => widen decl :: widenAll decls

end

theorem widenAll_eq_map (decls : List Declaration) : widenAll decls = decls.map widen := by
  induction decls with
  | nil => rw [widenAll, List.map_nil]
  | cons decl decls ih => rw [widenAll, List.map_cons, ih]

theorem foreigns_message (name : String) (members : List (Decl Foreign))
    (reservations : List Reservation) :
    foreigns (.message name members reservations) = members.flatMap foreigns := foreigns_eq _

theorem foreigns_oneof (name : String) (members : List (Decl Foreign)) :
    foreigns (.oneof name members) = members.flatMap foreigns := foreigns_eq _

theorem foreigns_service (name : String) (operations : List Method) :
    foreigns (.service name operations) = [] := by
  unfold foreigns
  rw [nodes, List.filterMap_cons, List.filterMap_map]
  exact List.filterMap_eq_nil_iff.mpr fun _ _ => rfl

theorem foreigns_widen (decl : Declaration) : decl.widen.foreigns = [] := by
  have hMembers : ∀ members : List Declaration, (∀ m ∈ members, m.widen.foreigns = []) →
      (widenAll members).flatMap foreigns = [] := by
    intro members ih
    rw [widenAll_eq_map, List.flatMap_map]
    exact List.flatMap_eq_nil_iff.mpr ih
  induction decl using Decl.induct with
  | message name members reservations ih => rw [widen, foreigns_message, hMembers members ih]
  | oneof name members ih => rw [widen, foreigns_oneof, hMembers members ih]
  | service name operations => rw [widen, foreigns_service]
  | foreign value => exact value.elim
  | _ => rfl

theorem exists_map_widen {decls : List (Decl Foreign)}
    (h : ∀ decl ∈ decls, ∃ closed : Declaration, closed.widen = decl) :
    ∃ closed : List Declaration, closed.map widen = decls := by
  have hRange : decls ∈ Set.range (List.map widen) := by
    rw [Set.range_list_map]
    exact h
  exact hRange

theorem exists_widen_of_foreigns {decl : Decl Foreign} (h : decl.foreigns = []) :
    ∃ closed : Declaration, closed.widen = decl := by
  have hMembers : ∀ members : List (Decl Foreign),
      (∀ m ∈ members, m.foreigns = [] → ∃ closed : Declaration, closed.widen = m) →
      members.flatMap foreigns = [] → ∃ decls, widenAll decls = members := by
    intro members ih hNone
    obtain ⟨decls, hDecls⟩ :=
      exists_map_widen fun m hm => ih m hm (List.flatMap_eq_nil_iff.mp hNone m hm)
    exact ⟨decls, by rw [widenAll_eq_map, hDecls]⟩
  induction decl using Decl.induct with
  | message name members reservations ih =>
    rw [foreigns_message] at h
    obtain ⟨decls, rfl⟩ := hMembers members ih h
    exact ⟨.message name decls reservations, rfl⟩
  | field f => exact ⟨.field f, rfl⟩
  | oneof name members ih =>
    rw [foreigns_oneof] at h
    obtain ⟨decls, rfl⟩ := hMembers members ih h
    exact ⟨.oneof name decls, rfl⟩
  | enum e => exact ⟨.enum e, rfl⟩
  | method m => exact ⟨.method m, rfl⟩
  | service name operations => exact ⟨.service name operations, rfl⟩
  | foreign value => cases h

theorem foreigns_eq_nil_iff {decl : Decl Foreign} :
    decl.foreigns = [] ↔ ∃ closed : Declaration, closed.widen = decl := by
  constructor
  · exact exists_widen_of_foreigns
  · rintro ⟨closed, rfl⟩
    exact foreigns_widen closed

end Decl

/-- A result that is there if there are no faults, and else the first of them. -/
structure AllOrNothing {α : Type} (faults : List Fault) (result : Except Fault α) : Prop where
  ok_iff : (∃ a, result = .ok a) ↔ faults = []
  error_iff (fault : Fault) : result = .error fault ↔ faults.head? = some fault

namespace AllOrNothing
variable {α β : Type} {faults more : List Fault} {result : Except Fault α}

theorem intro (hFirst : ∀ fault, faults.head? = some fault → result = .error fault)
    (hNone : faults = [] → ∃ a, result = .ok a) : AllOrNothing faults result := by
  cases faults with
  | nil =>
    obtain ⟨a, rfl⟩ := hNone rfl
    exact ⟨by simp, by simp⟩
  | cons first rest =>
    rw [hFirst first rfl]
    exact ⟨by simp, by simp⟩

/-- What is done with a result has its faults after those of the result. -/
theorem bind {f : α → Except Fault β} (h : AllOrNothing faults result)
    (hNext : ∀ a, AllOrNothing more (f a)) : AllOrNothing (faults ++ more) (result >>= f) := by
  cases hResult : result with
  | error fault =>
    have hHead := (h.error_iff fault).mp hResult
    refine intro (fun other hOther => ?_) fun hNone => ?_
    · rw [List.head?_append, hHead, Option.some_or] at hOther
      exact congrArg Except.error (Option.some.inj hOther)
    · rw [(List.append_eq_nil_iff.mp hNone).1] at hHead
      cases hHead
  | ok a =>
    rw [h.ok_iff.mp ⟨a, hResult⟩, List.nil_append]
    exact hNext a

end AllOrNothing

namespace SchemaFile

/-- The foreign values in a file, from left to right. -/
def foreigns (file : SchemaFile Foreign) : List Foreign := file.nodes.filterMap Decl.foreign?

/-- What keeps a file from being written: an option first, then what there is in declarations. -/
def faults (file : SchemaFile Foreign) : List Fault :=
  (longFault? (file.options.flatMap fun option => option.2.integers)).toList ++
    file.nodes.filterMap Decl.fault?

/-- The same file as one in which foreign values might stand. -/
def widen (schema : Schema) : SchemaFile Foreign :=
  { schema with declarations := schema.declarations.map Decl.widen }

theorem foreigns_eq_flatMap (file : SchemaFile Foreign) :
    file.foreigns = file.declarations.flatMap Decl.foreigns := List.filterMap_flatMap

theorem faults_eq (file : SchemaFile Foreign) :
    file.faults = (longFault? (file.options.flatMap fun option => option.2.integers)).toList ++
      file.declarations.flatMap Decl.faults :=
  congrArg (_ ++ ·) List.filterMap_flatMap

theorem foreigns_eq_nil_iff {file : SchemaFile Foreign} :
    file.foreigns = [] ↔ ∃ schema : Schema, schema.widen = file := by
  rw [foreigns_eq_flatMap, List.flatMap_eq_nil_iff]
  constructor
  · intro h
    obtain ⟨decls, hDecls⟩ :=
      Decl.exists_map_widen fun decl hDecl => Decl.foreigns_eq_nil_iff.mp (h decl hDecl)
    exact ⟨{ file with declarations := decls }, by rw [widen, hDecls]⟩
  · rintro ⟨schema, rfl⟩
    exact List.forall_mem_map.mpr fun decl _ => Decl.foreigns_widen decl

theorem short_integers_iff {file : SchemaFile Foreign} : (∀ n ∈ file.integers, Short n) ↔
    (∀ n ∈ file.options.flatMap fun option => option.2.integers, Short n) ∧
      ∀ node ∈ file.nodes, ∀ n ∈ node.integers, Short n := by
  rw [integers, List.forall_mem_append, List.forall_mem_flatMap (l := file.nodes)]

/-- Nothing keeps a file from being written if no value is foreign and no integer too long. -/
theorem faults_eq_nil_iff (file : SchemaFile Foreign) :
    file.faults = [] ↔ file.foreigns = [] ∧ ∀ n ∈ file.integers, Short n := by
  rw [faults, foreigns, List.append_eq_nil_iff, Option.toList_eq_nil_iff, longFault?_eq_none_iff,
    Decl.filterMap_fault?_eq_nil_iff, short_integers_iff]
  exact and_left_comm

/-- Without integers that are too long the faults are the foreign values. -/
theorem faults_of_short {file : SchemaFile Foreign} (h : ∀ n ∈ file.integers, Short n) :
    file.faults = file.foreigns.map .foreign := by
  obtain ⟨hOptions, hNodes⟩ := short_integers_iff.mp h
  rw [faults, foreigns, longFault?_eq_none_iff.mpr hOptions, Option.toList_none, List.nil_append,
    Decl.filterMap_fault?_of_short hNodes]

/-- A foreign value among the faults is one in the file. -/
theorem mem_foreigns_of_mem_faults {file : SchemaFile Foreign} {value : Foreign}
    (h : .foreign value ∈ file.faults) : value ∈ file.foreigns := by
  rw [faults, List.mem_append, Option.mem_toList] at h
  rcases h with hOption | hNode
  · exact absurd hOption (longFault?_ne_foreign _ value)
  · obtain ⟨node, hMem, hFault⟩ := List.mem_filterMap.mp hNode
    refine List.mem_filterMap.mpr ⟨node, hMem, ?_⟩
    rw [Decl.fault?, Option.or_eq_some_iff] at hFault
    rcases hFault with hForeign | ⟨-, hLong⟩
    · simpa using hForeign
    · exact absurd hLong (longFault?_ne_foreign _ value)

end SchemaFile
end ProtoSchema
