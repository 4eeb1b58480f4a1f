import ProtoSchema.Proofs.Document.Portable
import ProtoSchema.Proofs.Generator.Valid

/-!
Generated schemas can be written as text and read back: keys of maps are no maps, oneofs are not
empty, numbers are small, and options are distinct and hold texts.
-/
namespace ProtoSchema
open Decimal (Short)

/-- A declaration whose document can be written as text and read back. -/
def Decl.Writable (decl : Declaration) : Prop := decl.Readable ∧ decl.Portable

structure SchemaFile.Writable (schema : Schema) : Prop where
  readable : schema.Readable
  portable : schema.Portable

namespace Decl

theorem writable_field {f : Field} (hType : f.type.KeysFlat) (hIndex : Short f.index) :
    Writable (.field f) := by
  refine ⟨(readable_field f).mpr hType, (portable_iff _).mpr ⟨?_, nofun⟩⟩
  exact List.forall_mem_singleton.mpr hIndex

theorem writable_oneof {fields : List Field} (name : String) (hNil : fields ≠ [])
    (h : ∀ f ∈ fields, Writable (.field f)) : Writable (.oneof name (fields.map .field)) := by
  refine ⟨(readable_oneof _ _).mpr ⟨?_, ?_⟩, (portable_iff _).mpr ⟨nofun, ?_⟩⟩
  · exact fun hMap => hNil (List.map_eq_nil_iff.mp hMap)
  · exact List.forall_mem_map.mpr fun f hf => ⟨(h f hf).1, rfl⟩
  · exact List.forall_mem_map.mpr fun f hf => (h f hf).2

theorem writable_enum {e : Enum} (h : ∀ variant ∈ e.variants, Short variant.number) :
    Writable (.enum e) := by
  refine ⟨readable_enum e, (portable_iff _).mpr ⟨?_, nofun⟩⟩
  exact List.forall_mem_map.mpr h

theorem writable_message {members : List Declaration} {reservations : List Reservation}
    (name : String) (hMembers : ∀ m ∈ members, m.Writable)
    (h : ∀ reservation ∈ reservations, ∀ n ∈ reservation.integers, Short n) :
    Writable (.message name members reservations) := by
  refine ⟨(readable_message _ _ _).mpr fun m hm => (hMembers m hm).1, (portable_iff _).mpr ⟨?_, ?_⟩⟩
  · exact List.forall_mem_flatMap.mpr h
  · exact fun m hm => (hMembers m hm).2

theorem writable_service {operations : List Method} (name : String)
    (h : ∀ m ∈ operations, m.input.KeysFlat ∧ m.returns.KeysFlat) :
    Writable (.service name operations) := by
  refine ⟨(readable_service _ _).mpr fun m hm => (readable_method m).mpr (h m hm),
    (portable_iff _).mpr ⟨nofun, ?_⟩⟩
  exact List.forall_mem_map.mpr fun m _ => (portable_iff _).mpr ⟨nofun, nofun⟩

end Decl

namespace Generator
open Sampling (Gen)

theorem keysFlat_scalarType : Gen.Ensures scalarType TypeExpr.KeysFlat :=
  (Gen.ensures_choice (by decide)).bind fun _ _ => .pure trivial

theorem keysFlat_fieldType : Gen.Ensures fieldType TypeExpr.KeysFlat := by
  refine (Gen.ensures_chance _).bind fun isMap _ => ?_
  split
  · have hKey : Gen.Ensures (Gen.choice mapKeyChoices) (· ∈ mapKeyChoices) :=
      Gen.ensures_choice (by decide)
    exact hKey.bind fun _ _ => keysFlat_scalarType.bind fun _ hValue => .pure ⟨rfl, trivial, hValue⟩
  · exact keysFlat_scalarType

theorem writable_bodyField {i : Nat} (h : i < 100) :
    Gen.Ensures (bodyField i) fun field => Decl.Writable (.field field) := by
  have hField : ∀ (type : TypeExpr) (repeated : Bool), type.KeysFlat →
      Decl.Writable (.field { name := "f" ++ toString i, type, index := i + 1, repeated }) :=
    fun type repeated hType => Decl.writable_field hType (Decimal.short_of_le h)
  refine keysFlat_fieldType.bind fun type hType => ?_
  dsimp only
  split
  · have hFalse : Gen.Ensures (pure false) fun _ => True := .pure trivial
    exact hFalse.bind fun repeated _ => .pure (hField type repeated hType)
  · exact (Gen.ensures_chance _).bind fun repeated _ => .pure (hField type repeated hType)

theorem writable_bodyFields {i n : Nat} (h : i + n ≤ 100) :
    Gen.Ensures (bodyFields i n) fun fields => fields.length = n ∧
      ∀ field ∈ fields, Decl.Writable (.field field) := by
  induction n generalizing i with
  | zero => exact .pure ⟨rfl, nofun⟩
  | succ n ih =>
    refine (writable_bodyField (by omega)).bind fun field hField => ?_
    refine (ih (by omega)).bind fun fields hFields => .pure ?_
    exact ⟨congrArg Nat.succ hFields.1, List.forall_mem_cons.mpr ⟨hField, hFields.2⟩⟩

theorem writable_oneofFields (i : Nat) {index n : Nat} (h : index + n ≤ 100) :
    Gen.Ensures (oneofFields i index n) fun fields => fields.length = n ∧
      ∀ field ∈ fields, Decl.Writable (.field field) := by
  induction n generalizing i index with
  | zero => exact .pure ⟨rfl, nofun⟩
  | succ n ih =>
    refine keysFlat_scalarType.bind fun type hType => ?_
    refine (ih (i + 1) (by omega)).bind fun fields hFields => .pure ?_
    have hField : Decl.Writable (.field { name := "o" ++ toString i, type, index }) :=
      Decl.writable_field hType (Decimal.short_of_le (by omega))
    exact ⟨congrArg Nat.succ hFields.1, List.forall_mem_cons.mpr ⟨hField, hFields.2⟩⟩

/-- A oneof has at most three members. -/
theorem writable_oneofs {next : Nat} (h : next + 3 ≤ 100) :
    Gen.Ensures (oneofs next) fun result => result.2 ≤ next + 3 ∧
      ∀ decl ∈ result.1, decl.Writable := by
  refine (Gen.ensures_chance _).bind fun isThere _ => ?_
  split
  · refine (Gen.ensures_between (by decide)).bind fun n hn => ?_
    refine (writable_oneofFields 0 (by omega)).bind fun fields hFields => ?_
    refine ensures_identifier.bind fun name _ => .pure ?_
    obtain ⟨hLength, hFields⟩ := hFields
    have hNil : fields ≠ [] := List.ne_nil_of_length_pos (by omega)
    refine ⟨?_, List.forall_mem_singleton.mpr (Decl.writable_oneof _ hNil hFields)⟩
    dsimp only
    omega
  · exact .pure ⟨Nat.le_add_right next 3, nofun⟩

theorem short_reservedNumbers {next : Nat} (h : next ≤ 80) :
    Gen.Ensures (reservedNumbers next) fun numbers =>
      ∀ reservation ∈ numbers, ∀ n ∈ reservation.integers, Short n := by
  refine (Gen.ensures_chance _).bind fun isThere _ => ?_
  split
  · refine (Gen.ensures_between (by decide)).bind fun i hi => ?_
    have hNumber : ∀ n ∈ (Reservation.number (next + i : Nat)).integers, Short n :=
      List.forall_mem_singleton.mpr (Decimal.short_of_le (by omega))
    refine (Gen.ensures_chance _).bind fun isFollowed _ => ?_
    split
    · refine (Gen.ensures_between (by decide)).bind fun j hj => ?_
      refine (Gen.ensures_between (by decide)).bind fun k hk => .pure ?_
      refine List.forall_mem_cons.mpr ⟨hNumber, List.forall_mem_singleton.mpr ?_⟩
      exact List.forall_mem_cons.mpr ⟨Decimal.short_of_le (by omega),
        List.forall_mem_singleton.mpr (Decimal.short_of_le (by omega))⟩
    · exact .pure (List.forall_mem_singleton.mpr hNumber)
  · exact .pure nofun

theorem short_reservations {next : Nat} (h : next ≤ 80) :
    Gen.Ensures (reservations next) fun reservations =>
      ∀ reservation ∈ reservations, ∀ n ∈ reservation.integers, Short n := by
  have hNames : Gen.Ensures reservedNames fun names =>
      ∀ reservation ∈ names, ∀ n ∈ reservation.integers, Short n := by
    refine (Gen.ensures_chance _).bind fun isThere _ => ?_
    split
    · exact ensures_identifier.bind fun name _ => .pure (List.forall_mem_singleton.mpr nofun)
    · exact .pure nofun
  refine (short_reservedNumbers h).bind fun numbers hNumbers => hNames.bind fun names hNames => ?_
  refine (Gen.ensures_shuffle _).mono fun reservations hPerm reservation hReservation => ?_
  exact List.forall_mem_append.mpr ⟨hNumbers, hNames⟩ reservation (hPerm.mem_iff.mp hReservation)

theorem short_variants (scope : String) (i : Nat) {number n : Nat} (h : number + 3 * n ≤ 100) :
    Gen.Ensures (variants scope i number n) fun variants =>
      ∀ variant ∈ variants, Short variant.number := by
  induction n generalizing i number with
  | zero => exact .pure nofun
  | succ n ih =>
    refine (Gen.ensures_between (by decide)).bind fun gap hGap => ?_
    refine (ih (i + 1) (by omega)).bind fun variants hVariants => .pure ?_
    exact List.forall_mem_cons.mpr ⟨Decimal.short_of_le (by omega), hVariants⟩

theorem short_aliasVariant {scope : String} {variants : List Variant}
    (h : ∀ variant ∈ variants, Short variant.number) :
    ∀ variant ∈ aliasVariant scope variants, Short variant.number := by
  unfold aliasVariant
  split
  · rename_i last hLast
    exact List.forall_mem_singleton.mpr (h last (List.mem_of_getLast? hLast))
  · exact nofun

theorem always_freshName {kind : String} {first : Char} (h : kind.toList = [first]) :
    Naming.Always (freshName kind) fun _ => True :=
  fun n => (ensures_freshName h n).mono fun _ _ _ => trivial

theorem writable_enum : Naming.Always enum fun e => Decl.Writable (.enum e) := by
  refine (always_freshName rfl).bind fun name _ => ?_
  refine (Naming.Always.lift (Gen.ensures_between (by decide))).bind fun count hCount => ?_
  refine (Naming.Always.lift (short_variants name.toUpper 0 (by omega))).bind fun plain hPlain => ?_
  refine (Naming.Always.lift (Gen.ensures_chance _)).bind fun allowAlias _ => .pure ?_
  refine Decl.writable_enum (List.forall_mem_append.mpr ⟨hPlain, ?_⟩)
  split
  · exact short_aliasVariant hPlain
  · exact nofun

theorem writable_sometimes {gen : Naming Declaration} (h : Naming.Always gen Decl.Writable) :
    Naming.Always (sometimes gen) fun decls => ∀ decl ∈ decls, decl.Writable := by
  refine (Naming.Always.lift (Gen.ensures_chance _)).bind fun isThere _ => ?_
  split
  · exact h.bind fun decl hDecl => .pure (List.forall_mem_singleton.mpr hDecl)
  · exact .pure nofun

theorem writable_enumDeclaration : Naming.Always enumDeclaration Decl.Writable :=
  writable_enum.bind fun _ hEnum => .pure hEnum

theorem writable_messageAround {nested : Naming (List Declaration)}
    (hNested : Naming.Always nested fun decls => ∀ decl ∈ decls, decl.Writable) :
    Naming.Always (messageAround nested) Decl.Writable := by
  refine (always_freshName rfl).bind fun name _ => ?_
  refine (Naming.Always.lift (Gen.ensures_between (by decide))).bind fun count hCount => ?_
  refine (Naming.Always.lift (writable_bodyFields (by omega))).bind fun fields hFields => ?_
  obtain ⟨hLength, hFields⟩ := hFields
  refine (Naming.Always.lift (writable_oneofs (by omega))).bind fun result hChoices => ?_
  obtain ⟨hNext, hChoices⟩ := hChoices
  refine (writable_sometimes writable_enumDeclaration).bind fun enums hEnums => ?_
  refine hNested.bind fun nested hNested => ?_
  refine (Naming.Always.lift (short_reservations (by omega))).bind fun reservations hReservations =>
    .pure ?_
  refine Decl.writable_message name ?_ hReservations
  exact List.forall_mem_append.mpr ⟨List.forall_mem_append.mpr ⟨List.forall_mem_map.mpr hFields,
    hChoices⟩, List.forall_mem_append.mpr ⟨hEnums, hNested⟩⟩

theorem writable_message (levels : Nat) : Naming.Always (message levels) Decl.Writable := by
  induction levels with
  | zero =>
    rw [message]
    exact writable_messageAround (.pure (List.forall_mem_nil _))
  | succ levels ih =>
    rw [message]
    exact writable_messageAround (writable_sometimes ih)

theorem writable_messages (count : Nat) :
    Naming.Always (messages count) fun decls => ∀ decl ∈ decls, decl.Writable := by
  induction count with
  | zero => exact .pure nofun
  | succ count ih =>
    exact (writable_message 2).bind fun first hFirst => ih.bind fun rest hRest =>
      .pure (List.forall_mem_cons.mpr ⟨hFirst, hRest⟩)

theorem writable_scatterEnums {decls : List Declaration} (h : ∀ decl ∈ decls, decl.Writable)
    (count : Nat) :
    Naming.Always (scatterEnums decls count) fun decls => ∀ decl ∈ decls, decl.Writable := by
  induction count generalizing decls with
  | zero => exact .pure h
  | succ count ih =>
    refine (Naming.Always.lift (Gen.ensures_between (Nat.zero_le _))).bind fun i _ => ?_
    refine writable_enumDeclaration.bind fun inserted hInserted => ih fun decl hDecl => ?_
    rcases List.eq_or_mem_of_mem_insertIdx hDecl with rfl | hMem
    · exact hInserted
    · exact h decl hMem

theorem writable_service {messages : List String} (h : messages ≠ []) :
    Naming.Always (service messages) Decl.Writable := by
  refine (Naming.Always.lift (Gen.ensures_between (by decide))).bind fun count _ => ?_
  refine (Naming.Always.lift (ensures_methods h 0 count)).bind fun operations hOperations => ?_
  refine (always_freshName rfl).bind fun name _ => .pure (Decl.writable_service name ?_)
  intro m hm
  obtain ⟨input, returns, hInput, hReturns, -, -⟩ := hOperations m hm
  rw [hInput, hReturns]
  exact ⟨trivial, trivial⟩

theorem writable_declarations :
    Naming.Always declarations fun decls => ∀ decl ∈ decls, decl.Writable := by
  have hMessages : ∀ count, Naming.Always (messages count) fun decls => decls.length = count ∧
      ∀ decl ∈ decls, ∃ name members reservations, decl = .message name members reservations :=
    fun count n => (ensures_messages (fun _ => False) count n).mono fun _ _ h => h.2
  refine (Naming.Always.lift (Gen.ensures_between (by decide))).bind fun count hCount => ?_
  refine ((writable_messages count).and (hMessages count)).bind fun top hTop => ?_
  obtain ⟨hTop, hLength, hMessages⟩ := hTop
  have hNames := messageNames_ne_nil (by omega) hMessages
  refine (Naming.Always.lift (Gen.ensures_between (by decide))).bind fun enums _ => ?_
  refine (writable_scatterEnums hTop enums).bind fun decls hDecls => ?_
  refine (Naming.Always.lift (Gen.ensures_chance _)).bind fun isThere _ => ?_
  split
  · exact (writable_service hNames).bind fun service hService =>
      .pure (List.forall_mem_append.mpr ⟨hDecls, List.forall_mem_singleton.mpr hService⟩)
  · exact .pure hDecls

/-- Options have the names that they were drawn for, and texts as their values. -/
theorem ensures_mapM_option (names : List String) :
    Gen.Ensures (names.mapM option) fun options => options.map Prod.fst = names ∧
      ∀ option ∈ options, ∃ text, option.2 = .text text := by
  induction names with
  | nil =>
    rw [List.mapM_nil]
    exact .pure ⟨rfl, nofun⟩
  | cons name names ih =>
    have hOption : Gen.Ensures (option name) fun option =>
        option.1 = name ∧ ∃ text, option.2 = .text text :=
      ensures_identifier.bind fun text _ => .pure ⟨rfl, text, rfl⟩
    rw [List.mapM_cons]
    refine hOption.bind fun first hFirst => ih.bind fun rest hRest => .pure ⟨?_, ?_⟩
    · rw [List.map_cons, hFirst.1, hRest.1]
    · exact List.forall_mem_cons.mpr ⟨hFirst.2, hRest.2⟩

theorem portable_options : Gen.Ensures options fun options => (options.map Prod.fst).Nodup ∧
    ∀ option ∈ options, ∃ text, option.2 = .text text := by
  have hPool : optionChoices.Nodup := by decide
  refine (Gen.ensures_between (Nat.zero_le 2)).bind fun count hCount => ?_
  refine (Gen.ensures_sample_nodup hPool (Nat.le_trans hCount.2 (by decide))).bind
    fun names hNames => (ensures_mapM_option names).mono fun options hOptions => ?_
  rw [hOptions.1]
  exact ⟨hNames.1, hOptions.2⟩

theorem writable_schema : Gen.Ensures schema SchemaFile.Writable := by
  refine ensures_package.bind fun package _ => ?_
  refine (Gen.ensures_between (Nat.zero_le 2)).bind fun count _ => ?_
  refine (Gen.ensures_times ensures_identifier count).bind fun imports _ => ?_
  refine portable_options.bind fun options hOptions => ?_
  obtain ⟨hNames, hTexts⟩ := hOptions
  refine Gen.Ensures.bind (writable_declarations 0) fun result hDecls => .pure ?_
  constructor
  case readable => exact (SchemaFile.readable_iff _).mpr fun decl hDecl => (hDecls decl hDecl).1
  case portable =>
    constructor
    case optionNames => exact hNames
    case optionFloats =>
      intro option hOption x hFloat
      obtain ⟨text, hText⟩ := hTexts option hOption
      rw [hText] at hFloat
      cases hFloat
    case optionIntegers =>
      intro option hOption
      obtain ⟨text, hText⟩ := hTexts option hOption
      rw [hText]
      exact nofun
    case declarations => exact fun decl hDecl => (hDecls decl hDecl).2

end Generator
end ProtoSchema
