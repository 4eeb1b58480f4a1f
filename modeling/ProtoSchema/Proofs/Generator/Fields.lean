import ProtoSchema.Generator.Schemas
import ProtoSchema.Proofs.Generator.Names
import ProtoSchema.Proofs.Schema.Valid

/-! The fields, oneofs and reservations of generated messages. -/
namespace ProtoSchema.Generator
open Sampling (Gen)

theorem append_toString_injective (start : String) :
    Function.Injective fun k : Nat => start ++ toString k := by
  intro j k h
  have hList := congrArg String.toList h
  simp only [String.toList_append] at hList
  have hDigits : Nat.toDigits 10 j = Nat.toDigits 10 k := by
    rw [← Nat.toList_repr, ← Nat.toList_repr]
    exact List.append_cancel_left hList
  rw [← Decimal.ofDigits_toDigits j, hDigits, Decimal.ofDigits_toDigits]

/-- The names of the fields are a letter and numbers from `i` on, and their own numbers run from
`index` on. -/
structure Row (letter : String) (i index : Nat) (fields : List Field) : Prop where
  names : fields.map Field.name =
    (List.range' i fields.length).map fun k => letter ++ toString k
  indices : fields.map Field.index = (List.range' index fields.length).map Int.ofNat

namespace Row
variable {letter : String} {i index : Nat} {fields : List Field}

theorem nil (letter : String) (i index : Nat) : Row letter i index [] := ⟨rfl, rfl⟩

theorem cons {field : Field} (hName : field.name = letter ++ toString i)
    (hIndex : field.index = Int.ofNat index) (h : Row letter (i + 1) (index + 1) fields) :
    Row letter i index (field :: fields) := by
  constructor
  · rw [List.map_cons, List.length_cons, List.range'_succ, List.map_cons, hName, h.names]
  · rw [List.map_cons, List.length_cons, List.range'_succ, List.map_cons, hIndex, h.indices]

theorem nodup (h : Row letter i index fields) : (fields.map Field.name).Nodup := by
  rw [h.names]
  exact List.Nodup.map (append_toString_injective letter) List.nodup_range'

theorem exists_number (h : Row letter i index fields) {name : String}
    (hName : name ∈ fields.map Field.name) : ∃ k : Nat, name = letter ++ toString k := by
  rw [h.names] at hName
  obtain ⟨k, -, hk⟩ := List.mem_map.mp hName
  exact ⟨k, hk.symm⟩

end Row

theorem ensures_scalarType : Gen.Ensures scalarType fun type => type.isMap = false :=
  (Gen.ensures_choice (by decide)).bind fun _ _ => .pure rfl

theorem ensures_fieldType : Gen.Ensures fieldType fun _ => True := by
  refine (Gen.ensures_chance _).bind fun isMap _ => ?_
  split
  · have hKey : Gen.Ensures (Gen.choice mapKeyChoices) (· ∈ mapKeyChoices) :=
      Gen.ensures_choice (by decide)
    exact hKey.bind fun _ _ => ensures_scalarType.bind fun _ _ => .pure trivial
  · exact ensures_scalarType.mono fun _ _ => trivial

theorem ensures_bodyField (i : Nat) : Gen.Ensures (bodyField i) fun field =>
    field.name = "f" ++ toString i ∧ field.index = Int.ofNat (i + 1) ∧
      (field.type.isMap → field.repeated = false) := by
  refine ensures_fieldType.bind fun type _ => ?_
  dsimp only
  split
  · have hFalse : Gen.Ensures (pure false) fun repeated => repeated = false := .pure rfl
    exact hFalse.bind fun repeated hRepeated => .pure ⟨rfl, rfl, fun _ => hRepeated⟩
  · rename_i hMap
    exact (Gen.ensures_chance _).bind fun repeated _ =>
      .pure ⟨rfl, rfl, fun hIsMap => absurd hIsMap hMap⟩

/-- Fields that stand in a message directly. -/
theorem ensures_bodyFields (i n : Nat) : Gen.Ensures (bodyFields i n) fun fields =>
    Row "f" i (i + 1) fields ∧ ∀ field ∈ fields, field.type.isMap → field.repeated = false := by
  induction n generalizing i with
  | zero => exact .pure ⟨.nil .., nofun⟩
  | succ n ih =>
    refine (ensures_bodyField i).bind fun field hField => (ih (i + 1)).bind fun fields hFields => ?_
    obtain ⟨hName, hIndex, hMap⟩ := hField
    exact .pure ⟨.cons hName hIndex hFields.1, List.forall_mem_cons.mpr ⟨hMap, hFields.2⟩⟩

theorem ensures_oneofFields (i index n : Nat) :
    Gen.Ensures (oneofFields i index n) fun fields => Row "o" i index fields ∧
      fields.length = n ∧ ∀ field ∈ fields, field.type.isMap = false ∧ field.repeated = false := by
  induction n generalizing i index with
  | zero => exact .pure ⟨.nil .., rfl, nofun⟩
  | succ n ih =>
    refine ensures_scalarType.bind fun type hType => ?_
    refine (ih (i + 1) (index + 1)).bind fun fields hFields => .pure ?_
    obtain ⟨hRow, hLength, hMap⟩ := hFields
    exact ⟨.cons rfl rfl hRow, congrArg Nat.succ hLength,
      List.forall_mem_cons.mpr ⟨⟨hType, rfl⟩, hMap⟩⟩

theorem ensures_identifier : Gen.Ensures identifier fun _ => True := by
  have hTail : ∀ k, Gen.Ensures (Gen.times (Gen.choice (letters ++ digits)) k) fun tail =>
      tail.length = k ∧ ∀ c ∈ tail, c ∈ letters ++ digits :=
    Gen.ensures_times (Gen.ensures_choice (by decide))
  refine (Gen.ensures_choice (by decide)).bind fun first _ => ?_
  refine (Gen.ensures_between (Nat.zero_le 8)).bind fun k _ => ?_
  exact (hTail k).bind fun tail _ => .pure trivial

/-- Oneofs that are not empty and hold fields without maps, numbered from `next` on. -/
structure Choices (next after : Nat) (decls : List Declaration) : Prop where
  row : Row "o" 0 next (decls.flatMap Decl.fields)
  after_eq : after = next + (decls.flatMap Decl.fields).length
  oneof : ∀ decl ∈ decls, ∃ (name : String) (fields : List Field),
    decl = .oneof name (fields.map .field) ∧ fields ≠ [] ∧
    ∀ field ∈ fields, field.type.isMap = false ∧ field.repeated = false

theorem fields_oneof (name : String) (fields : List Field) :
    Decl.fields (.oneof name (fields.map .field)) = fields := by
  rw [Decl.fields, List.filterMap_map]
  exact List.filterMap_some

theorem ensures_oneofs (next : Nat) :
    Gen.Ensures (oneofs next) fun result => Choices next result.2 result.1 := by
  refine (Gen.ensures_chance _).bind fun isThere _ => ?_
  split
  · refine (Gen.ensures_between (by decide)).bind fun n hn => ?_
    refine (ensures_oneofFields 0 next n).bind fun fields hFields => ?_
    refine ensures_identifier.bind fun name _ => .pure ?_
    obtain ⟨hRow, hLength, hMap⟩ := hFields
    have hAll :
        [Decl.oneof (name ++ "_choice") (fields.map .field)].flatMap Decl.fields = fields := by
      rw [List.flatMap_singleton, fields_oneof]
    constructor
    · rw [hAll]
      exact hRow
    · rw [hAll]
    · intro decl hDecl
      have hNil : fields ≠ [] := List.ne_nil_of_length_pos (by omega)
      exact ⟨_, fields, List.mem_singleton.mp hDecl, hNil, hMap⟩
  · exact .pure ⟨.nil .., rfl, nofun⟩

/-- Reservations of numbers from `next` on, none of them twice, and of names that are no numbered
letters. -/
structure Reserved (next : Nat) (reservations : List Reservation) : Prop where
  spans : ∀ span ∈ reservations.filterMap Reservation.span?,
    (next : Int) ≤ span.1 ∧ span.1 ≤ span.2
  apart : (reservations.filterMap Reservation.span?).Pairwise fun span other =>
    span.2 < other.1 ∨ other.2 < span.1
  names : ∀ name, .name name ∈ reservations → ∃ rest, name = "old_" ++ rest

theorem Reserved.perm {next : Nat} {reservations others : List Reservation}
    (h : Reserved next reservations) (hPerm : reservations.Perm others) : Reserved next others := by
  have hSpans := hPerm.filterMap Reservation.span?
  constructor
  · exact fun span hSpan => h.spans span (hSpans.mem_iff.mpr hSpan)
  · exact (hSpans.pairwise_iff Or.symm).mp h.apart
  · exact fun name hName => h.names name (hPerm.mem_iff.mpr hName)

theorem ensures_reservedNumbers (next : Nat) :
    Gen.Ensures (reservedNumbers next) fun numbers =>
      Reserved next numbers ∧ ∀ name, .name name ∉ numbers := by
  refine (Gen.ensures_chance _).bind fun isThere _ => ?_
  split
  · refine (Gen.ensures_between (by decide)).bind fun i _ => ?_
    have hNumber : (next : Int) ≤ (next + i : Nat) := Int.ofNat_le.mpr (Nat.le_add_right next i)
    refine (Gen.ensures_chance _).bind fun isFollowed _ => ?_
    split
    · refine (Gen.ensures_between (by decide)).bind fun j _ => ?_
      refine (Gen.ensures_between (by decide)).bind fun k _ => .pure ⟨⟨?_, ?_, nofun⟩, nofun⟩
      · have hRange : (next : Int) ≤ (next + i + 1 + j : Nat) := by omega
        have hOrder : ((next + i + 1 + j : Nat) : Int) ≤ (next + i + 1 + j + k : Nat) := by omega
        exact List.forall_mem_cons.mpr
          ⟨⟨hNumber, Int.le_refl _⟩, List.forall_mem_singleton.mpr ⟨hRange, hOrder⟩⟩
      · have hApart : ((next + i : Nat) : Int) < (next + i + 1 + j : Nat) := by omega
        exact List.pairwise_pair.mpr (.inl hApart)
    · refine .pure ⟨⟨?_, List.pairwise_singleton _ _, nofun⟩, nofun⟩
      exact List.forall_mem_singleton.mpr ⟨hNumber, Int.le_refl _⟩
  · exact .pure ⟨⟨nofun, .nil, nofun⟩, nofun⟩

theorem ensures_reservedNames : Gen.Ensures reservedNames fun names =>
    names.filterMap Reservation.span? = [] ∧
      ∀ name, .name name ∈ names → ∃ rest, name = "old_" ++ rest := by
  refine (Gen.ensures_chance _).bind fun isThere _ => ?_
  split
  · refine ensures_identifier.bind fun rest _ => .pure ⟨rfl, fun name hName => ⟨rest, ?_⟩⟩
    exact (Reservation.name.inj (List.mem_singleton.mp hName))
  · exact .pure ⟨rfl, nofun⟩

theorem ensures_reservations (next : Nat) :
    Gen.Ensures (reservations next) fun reservations => Reserved next reservations := by
  refine (ensures_reservedNumbers next).bind fun numbers hNumbers => ?_
  refine ensures_reservedNames.bind fun names hNames => ?_
  refine (Gen.ensures_shuffle _).mono fun reservations hPerm => .perm ?_ hPerm.symm
  obtain ⟨hReserved, hNoName⟩ := hNumbers
  have hSpans : (numbers ++ names).filterMap Reservation.span? =
      numbers.filterMap Reservation.span? := by
    rw [List.filterMap_append, hNames.1, List.append_nil]
  constructor
  · rw [hSpans]
    exact hReserved.spans
  · rw [hSpans]
    exact hReserved.apart
  · intro name hName
    rcases List.mem_append.mp hName with hMem | hMem
    · exact absurd hMem (hNoName name)
    · exact hNames.2 name hMem

end ProtoSchema.Generator
