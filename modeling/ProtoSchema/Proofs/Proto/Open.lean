import ProtoSchema.Proofs.Document.Integers
import ProtoSchema.Proofs.Schema.Faults

/-!
Text of trees with foreign values and integers that may be too long. The first of them that is met
is all that comes of a tree that has one; any other tree has the text of its schema.
-/
namespace ProtoSchema.Proto
open Decimal (Short)

namespace Emission
variable {first second : Emission} {integers : List Int}

theorem of_append_of (as bs : List String) : of as ++ of bs = of (as ++ bs) := rfl

theorem indent_of (depth : Int) (lines : List String) :
    (of lines).indent depth = of (Lines.indent depth lines) := rfl

theorem join_cons (emission : Emission) (emissions : List Emission) :
    join (emission :: emissions) = emission ++ join emissions := rfl

theorem holding_of_short (h : ∀ n ∈ integers, Short n) (lines : List String) :
    holding integers lines = of lines := if_pos h

@[simp] theorem stop_of (lines : List String) : (of lines).stop = none := rfl

@[simp] theorem stop_indent (depth : Int) (emission : Emission) :
    (emission.indent depth).stop = emission.stop := rfl

@[simp] theorem stop_append : (first ++ second).stop = first.stop.or second.stop := by
  change (append first second).stop = _
  unfold append
  cases hStop : first.stop with
  | none => rfl
  | some fault => exact hStop

@[simp] theorem stop_holding (lines : List String) :
    (holding integers lines).stop = longFault? integers := by
  unfold holding longFault?
  split <;> rfl

/-- All lines are there if nothing ends them before. -/
theorem allOrNothing_collect {emission : Emission} {faults : List Fault}
    (h : emission.stop = faults.head?) : AllOrNothing faults emission.collect := by
  refine .intro (fun fault hFirst => ?_) fun hNone => ⟨emission.lines, ?_⟩
  · rw [collect, h, hFirst]
  · rw [collect, h, hNone]
    rfl

end Emission

theorem stop_variants (variants : List Variant) :
    (Emission.join (variants.map variantEmission)).stop =
      longFault? (variants.map Variant.number) := by
  induction variants with
  | nil => rfl
  | cons variant variants ih =>
    rw [List.map_cons, Emission.join_cons, Emission.stop_append, ih, variantEmission,
      Emission.stop_holding, ← longFault?_append]
    rfl

theorem stop_memberEmission {decls : List (Decl Foreign)}
    (h : ∀ decl ∈ decls, (emission decl).stop = decl.faults.head?) :
    (memberEmission decls).stop = (decls.flatMap Decl.faults).head? := by
  induction decls with
  | nil => rfl
  | cons decl decls ih =>
    obtain ⟨hDecl, hDecls⟩ := List.forall_mem_cons.mp h
    rw [memberEmission, Emission.stop_append, hDecl, ih hDecls, List.flatMap_cons,
      List.head?_append]

/-- The first fault ends the lines: that of the declaration itself comes before those in it. -/
theorem stop_emission (decl : Decl Foreign) : (emission decl).stop = decl.faults.head? := by
  induction decl using Decl.induct with
  | message name members reservations ih =>
    have hMembers := stop_memberEmission ih
    rw [Decl.head?_faults, emission]
    split
    · -- One line is put out for the whole message, which holds nothing.
      rename_i hEmpty
      obtain ⟨hNone, hFree⟩ := (Bool.and_eq_true _ _).mp hEmpty
      rw [List.isEmpty_iff.mp hNone, List.isEmpty_iff.mp hFree]
      rfl
    · simp only [Emission.stop_append, Emission.stop_of, Emission.stop_indent, hMembers,
        reservationEmission, Emission.stop_holding, Option.none_or, Option.or_none]
      rfl
  | field f =>
    rw [Decl.head?_faults_of_members rfl, emission, Emission.stop_holding]
    rfl
  | oneof name members ih =>
    have hMembers := stop_memberEmission ih
    rw [Decl.head?_faults, emission]
    simp only [Emission.stop_append, Emission.stop_of, Emission.stop_indent, hMembers,
      Option.none_or, Option.or_none]
    rfl
  | enum e =>
    rw [Decl.head?_faults_of_members rfl, emission]
    simp only [Emission.stop_append, Emission.stop_of, Emission.stop_indent, stop_variants,
      Option.none_or, Option.or_none]
    rfl
  | service name operations =>
    rw [Decl.head?_faults_service, emission]
    rfl
  | _ => rw [emission]; rfl

theorem allOrNothing_openLines (decl : Decl Foreign) :
    AllOrNothing decl.faults (openLines decl) :=
  Emission.allOrNothing_collect (stop_emission decl)

theorem allOrNothing_openSections (decls : List (Decl Foreign)) (result : String) :
    AllOrNothing (decls.flatMap Decl.faults) (openSections result decls) := by
  induction decls generalizing result with
  | nil => exact .intro nofun fun _ => ⟨result, rfl⟩
  | cons decl decls ih =>
    rw [List.flatMap_cons, openSections]
    exact (allOrNothing_openLines decl).bind fun lines => ih _

theorem allOrNothing_openPreamble (file : SchemaFile Foreign) :
    AllOrNothing (longFault? (file.options.flatMap fun option => option.2.integers)).toList
      (openPreamble file) := by
  refine .intro (fun fault hFirst => ?_) fun hNone => ?_
  · rw [Option.head?_toList, longFault?] at hFirst
    split at hFirst
    · cases hFirst
    · rename_i hLong
      cases hFirst
      exact if_neg (mt List.forall_mem_flatMap.mpr hLong)
  · have hShort := longFault?_eq_none_iff.mp (Option.toList_eq_nil_iff.mp hNone)
    exact ⟨preamble file, if_pos (List.forall_mem_flatMap.mp hShort)⟩

theorem allOrNothing_openText (file : SchemaFile Foreign) :
    AllOrNothing file.faults (openText file) := by
  rw [SchemaFile.faults_eq]
  exact (allOrNothing_openPreamble file).bind fun result =>
    allOrNothing_openSections file.declarations result

section
variable {decls : List Declaration}

theorem isEmpty_widenAll (decls : List Declaration) :
    (Decl.widenAll decls).isEmpty = decls.isEmpty := by
  rw [Decl.widenAll_eq_map, List.isEmpty_map]

theorem memberEmission_widenAll (h : ∀ decl ∈ decls, emission decl.widen = .of (lines decl)) :
    memberEmission (Decl.widenAll decls) = .of (memberLines decls) := by
  induction decls with
  | nil => rfl
  | cons decl decls ih =>
    obtain ⟨hDecl, hDecls⟩ := List.forall_mem_cons.mp h
    rw [Decl.widenAll, memberEmission, memberLines, hDecl, ih hDecls, Emission.of_append_of]

theorem join_variants {variants : List Variant} (h : ∀ n ∈ variants.map Variant.number, Short n) :
    Emission.join (variants.map variantEmission) = .of (variants.map variantLine) := by
  induction variants with
  | nil => rfl
  | cons variant variants ih =>
    obtain ⟨hVariant, hVariants⟩ := List.forall_mem_cons.mp h
    rw [List.map_cons, Emission.join_cons, ih hVariants, variantEmission,
      Emission.holding_of_short (List.forall_mem_singleton.mpr hVariant)]
    rfl

/-- Without faults nothing ends the lines before their end. -/
theorem emission_widen {decl : Declaration} (h : decl.Portable) :
    emission decl.widen = .of (lines decl) := by
  induction decl using Decl.induct with
  | message name members reservations ih =>
    obtain ⟨hIntegers, hMembers⟩ := (Decl.portable_iff _).mp h
    have hReservations : reservationEmission reservations = .of (reservationLines reservations) :=
      Emission.holding_of_short hIntegers _
    have hAll := memberEmission_widenAll fun m hm => ih m hm (hMembers m hm)
    rw [Decl.widen, emission, lines, isEmpty_widenAll, hAll, hReservations]
    split
    · rfl
    · simp only [Emission.indent_of, Emission.of_append_of, block, List.append_assoc,
        List.cons_append, List.nil_append]
  | field f =>
    rw [Decl.widen, emission, lines]
    exact Emission.holding_of_short ((Decl.portable_iff _).mp h).1 _
  | oneof name members ih =>
    obtain ⟨-, hMembers⟩ := (Decl.portable_iff _).mp h
    rw [Decl.widen, emission, lines,
      memberEmission_widenAll fun m hm => ih m hm (hMembers m hm)]
    rfl
  | enum e =>
    rw [Decl.widen, emission, lines, join_variants ((Decl.portable_iff _).mp h).1]
    simp only [Emission.indent_of, Emission.of_append_of, enumLines, block, List.append_assoc,
      List.cons_append, List.nil_append]
  | foreign value => exact value.elim
  | _ => rw [Decl.widen, emission, lines]

theorem openLines_widen {decl : Declaration} (h : decl.Portable) :
    openLines decl.widen = .ok (lines decl) := by
  rw [openLines, emission_widen h]
  rfl

theorem openSections_widen (h : ∀ decl ∈ decls, decl.Portable) (result : String) :
    openSections result (decls.map Decl.widen) =
      .ok (result ++ String.join (decls.map declarationText)) := by
  induction decls generalizing result with
  | nil => exact congrArg Except.ok String.append_empty.symm
  | cons decl decls ih =>
    obtain ⟨hDecl, hDecls⟩ := List.forall_mem_cons.mp h
    have hRest := ih hDecls (result ++ declarationText decl)
    rw [List.map_cons, openSections, openLines_widen hDecl]
    refine hRest.trans (congrArg Except.ok ?_)
    rw [List.map_cons, String.join_cons, String.append_assoc]

end

/-- The text of a schema whose integers are short is that of its parts. -/
theorem openText_widen {schema : Schema} (h : ∀ n ∈ schema.integers, Short n) :
    openText schema.widen = .ok (text schema) := by
  obtain ⟨hOptions, hDeclarations⟩ := (SchemaFile.forall_mem_integers Short schema).mp h
  have hPreamble : openPreamble schema.widen = .ok (preamble schema) := if_pos hOptions
  rw [openText, hPreamble]
  exact openSections_widen hDeclarations (preamble schema)

/-- A tree without foreign values has no other fault than an integer that is too long. -/
theorem openText_of_long {file : SchemaFile Foreign} (hForeign : file.foreigns = [])
    (hLong : ¬ ∀ n ∈ file.integers, Short n) : openText file = .error .longInteger := by
  rw [(allOrNothing_openText file).error_iff]
  cases hFaults : file.faults with
  | nil => exact absurd (file.faults_eq_nil_iff.mp hFaults).2 hLong
  | cons fault rest =>
    cases fault with
    | longInteger => rfl
    | foreign value =>
      have hMem : .foreign value ∈ file.faults := hFaults ▸ List.mem_cons_self
      have hNone := SchemaFile.mem_foreigns_of_mem_faults hMem
      rw [hForeign] at hNone
      cases hNone

/-- Text comes of a declaration or of a file exactly if nothing keeps it from being written, and the
first fault is reported otherwise. The faults are the foreign values, from left to right, unless an
integer is too long. No value in a schema is foreign, and nothing keeps a schema from being written
that comes from a text. -/
theorem written_whole :
    (∀ decl, AllOrNothing (Decl.faults decl) (openLines decl) ∧
      (decl.faults = [] ↔ decl.foreigns = [] ∧ decl.Portable) ∧
      (decl.Portable → decl.faults = decl.foreigns.map .foreign)) ∧
    (∀ file, AllOrNothing (SchemaFile.faults file) (openText file) ∧
      (file.faults = [] ↔ file.foreigns = [] ∧ ∀ n ∈ file.integers, Short n) ∧
      ((∀ n ∈ file.integers, Short n) → file.faults = file.foreigns.map .foreign)) ∧
    (∀ value : Foreign, value.diagnostic.subject = value.typeName) ∧
    (∀ schema : Schema, schema.widen.foreigns = [] ∧
      (∀ value, openText schema.widen ≠ .error (.foreign value)) ∧
      ((∀ n ∈ schema.integers, Short n) → openText schema.widen = .ok (text schema))) ∧
    ∀ name source, (∃ error, Source.load name source = .error error ∧
        Source.render name source = .error error) ∨
      ∃ schema written, Source.load name source = .ok schema ∧
        openText schema.widen = .ok written ∧ Source.render name source = .ok written := by
  have hWiden : ∀ schema : Schema, schema.widen.foreigns = [] :=
    fun schema => SchemaFile.foreigns_eq_nil_iff.mpr ⟨schema, rfl⟩
  refine ⟨fun decl => ?_, fun file => ?_, fun _ => rfl, fun schema => ?_, fun name source => ?_⟩
  · exact ⟨allOrNothing_openLines decl, decl.faults_eq_nil_iff, Decl.faults_of_portable⟩
  · exact ⟨allOrNothing_openText file, file.faults_eq_nil_iff, SchemaFile.faults_of_short⟩
  · refine ⟨hWiden schema, fun value hValue => ?_, openText_widen⟩
    have hFirst := ((allOrNothing_openText schema.widen).error_iff _).mp hValue
    have hMem := SchemaFile.mem_foreigns_of_mem_faults (List.mem_of_head? hFirst)
    rw [hWiden schema] at hMem
    cases hMem
  · unfold Source.render
    cases hLoad : Source.load name source with
    | error error => exact .inl ⟨error, rfl, rfl⟩
    | ok schema =>
      have hShort := Source.short_integers_of_load hLoad
      exact .inr ⟨schema, text schema, rfl, openText_widen hShort, rfl⟩

/-- The reservation and the first field are lost. -/
example : openText { declarations := [.message "M"
    [.field { name := "a", type := .scalar "bool", index := 1 },
      .oneof "o" [.foreign ⟨"NoneType"⟩, .foreign ⟨"int"⟩]] [.number 3]] } =
    .error (.foreign ⟨"NoneType"⟩) := by decide +kernel

/-- A file of one field of this index. -/
def indexedFile (n : Int) : SchemaFile Foreign where
  declarations := [.field ⟨"x", .scalar "bool", n, false⟩]

theorem mem_integers_indexedFile (n : Int) : n ∈ (indexedFile n).integers :=
  List.mem_singleton.mpr rfl

/-- The least integer that is too long cannot be written. -/
theorem openText_indexedFile :
    (indexedFile (10 ^ Decimal.maxDigits)).foreigns = [] ∧
      openText (indexedFile (10 ^ Decimal.maxDigits)) = .error .longInteger := by
  have hAbs : ∀ k : Nat, ¬ ((10 : Int) ^ k).natAbs < 10 ^ k := by
    intro k
    rw [Int.natAbs_pow]
    exact Nat.lt_irrefl _
  refine ⟨rfl, openText_of_long rfl fun hShort => ?_⟩
  exact hAbs _ ((Decimal.short_iff _).mp (hShort _ (mem_integers_indexedFile _)))

end ProtoSchema.Proto
