import ProtoSchema.Proofs.Json.LongIntegers
import ProtoSchema.Source

/-! What holds of the values that are read from a text: objects name each of their fields once, and
no integer is too long. -/
namespace ProtoSchema

namespace Json
open Decimal (Short)

/-- Objects name each field once, at every depth. -/
inductive KeysDistinct : Json → Prop where
  | leaf {value : Json} (h : value.kind ≠ .arr ∧ value.kind ≠ .obj) : KeysDistinct value
  | arr {items : List Json} (h : ∀ item ∈ items, KeysDistinct item) : KeysDistinct (.arr items)
  | obj {fields : List (String × Json)} (hKeys : (fields.map Prod.fst).Nodup)
    (h : ∀ field ∈ fields, KeysDistinct field.2) : KeysDistinct (.obj fields)

theorem KeysDistinct.nodup {fields : List (String × Json)} (h : KeysDistinct (.obj fields)) :
    (fields.map Prod.fst).Nodup := by
  cases h with
  | leaf hKind => exact absurd rfl hKind.2
  | obj hKeys _ => exact hKeys

theorem KeysDistinct.of_lookup {fields : List (String × Json)} {name : String} {value : Json}
    (h : KeysDistinct (.obj fields)) (hValue : fields.lookup name = some value) :
    value.KeysDistinct := by
  obtain ⟨before, after, rfl, -⟩ := List.lookup_eq_some_iff.mp hValue
  cases h with
  | leaf hKind => exact absurd rfl hKind.2
  | obj _ hFields => exact hFields (name, value) (by simp)

/-- An integer in the value, at some depth, is too long. -/
inductive HoldsLong : Json → Prop where
  | here {n : Int} (long : ¬ Short n) : HoldsLong (.int n)
  | item {items : List Json} {item : Json} (mem : item ∈ items) (holds : HoldsLong item) :
    HoldsLong (.arr items)
  | field {fields : List (String × Json)} {field : String × Json} (mem : field ∈ fields)
    (holds : HoldsLong field.2) : HoldsLong (.obj fields)

section
variable {items : List Json} {fields : List (String × Json)}

theorem HoldsLong.of_lookup {name : String} {value : Json} (h : value.HoldsLong)
    (hLookup : fields.lookup name = some value) : HoldsLong (.obj fields) := by
  obtain ⟨before, after, rfl, -⟩ := List.lookup_eq_some_iff.mp hLookup
  have hMem : (name, value) ∈ before ++ (name, value) :: after := by simp
  exact .field hMem h

theorem holdsLong_int_iff {n : Int} : HoldsLong (.int n) ↔ ¬ Short n := by
  refine ⟨fun h => ?_, .here⟩
  cases h with
  | here long => exact long

theorem holdsLong_arr_iff : HoldsLong (.arr items) ↔ ∃ item ∈ items, HoldsLong item := by
  refine ⟨fun h => ?_, fun ⟨_, hMem, hHolds⟩ => .item hMem hHolds⟩
  cases h with
  | item mem holds => exact ⟨_, mem, holds⟩

theorem holdsLong_obj_iff : HoldsLong (.obj fields) ↔ ∃ field ∈ fields, HoldsLong field.2 := by
  refine ⟨fun h => ?_, fun ⟨_, hMem, hHolds⟩ => .field hMem hHolds⟩
  cases h with
  | field mem holds => exact ⟨_, mem, holds⟩

theorem not_holdsLong_of_kind {value : Json} (hInt : value.kind ≠ .int) (hArr : value.kind ≠ .arr)
    (hObj : value.kind ≠ .obj) : ¬ value.HoldsLong := by
  intro h
  cases h with
  | here => exact hInt rfl
  | item => exact hArr rfl
  | field => exact hObj rfl

end

mutual

/-- A message can show a value unless an integer in it is too long. -/
theorem display?_eq_none_iff : (value : Json) → (value.display? = none ↔ value.HoldsLong)
  | .int n => by
    rw [display?, holdsLong_int_iff]
    split <;> simp_all
  | .arr items => by
    rw [display?, holdsLong_arr_iff, ← displayItems?_eq_none_iff items]
    cases displayItems? items <;> simp
  | .obj fields => by
    rw [display?, holdsLong_obj_iff, ← displayFields?_eq_none_iff fields]
    cases displayFields? fields <;> simp
  | .null => iff_of_false nofun nofun
  | .bool true => iff_of_false nofun nofun
  | .bool false => iff_of_false nofun nofun
  | .float _ => iff_of_false nofun nofun
  | .str _ => iff_of_false nofun nofun

theorem displayItems?_eq_none_iff :
    (items : List Json) → (displayItems? items = none ↔ ∃ item ∈ items, item.HoldsLong)
  | [] => iff_of_false nofun nofun
  | item :: items => by
    simp only [List.exists_mem_cons_iff, ← display?_eq_none_iff item,
      ← displayItems?_eq_none_iff items, displayItems?]
    cases item.display? <;> cases displayItems? items <;> simp

theorem displayFields?_eq_none_iff : (fields : List (String × Json)) →
    (displayFields? fields = none ↔ ∃ field ∈ fields, field.2.HoldsLong)
  | [] => iff_of_false nofun nofun
  | (name, value) :: fields => by
    simp only [List.exists_mem_cons_iff, ← display?_eq_none_iff value,
      ← displayFields?_eq_none_iff fields, displayFields?]
    cases value.display? <;> cases displayFields? fields <;> simp

end

/-- What a value that was read from a text is like. -/
structure Scanned (value : Json) : Prop where
  keys : value.KeysDistinct
  short : ¬ value.HoldsLong

/-- A value that was read, if one was, is like this. -/
def Scans (result : Except Failure (Json × List Char)) : Prop :=
  ∀ value rest, result = .ok (value, rest) → value.Scanned

theorem scans_ok {value : Json} (h : value.Scanned) (rest : List Char) :
    Scans (.ok (value, rest)) := by
  intro found after hOk
  cases hOk
  exact h

theorem scans_error (failure : Failure) : Scans (.error failure) := by
  intro found after hOk
  cases hOk

namespace Scanned

theorem of_kind {value : Json} (hInt : value.kind ≠ .int) (hArr : value.kind ≠ .arr)
    (hObj : value.kind ≠ .obj) : value.Scanned :=
  ⟨.leaf ⟨hArr, hObj⟩, not_holdsLong_of_kind hInt hArr hObj⟩

theorem str (s : String) : Scanned (.str s) := of_kind nofun nofun nofun

theorem int {n : Int} (h : Short n) : Scanned (.int n) :=
  ⟨.leaf ⟨nofun, nofun⟩, fun hLong => holdsLong_int_iff.mp hLong h⟩

theorem arr {items : List Json} (h : ∀ item ∈ items, item.Scanned) : Scanned (.arr items) where
  keys := .arr fun item hItem => (h item hItem).keys
  short := by
    rw [holdsLong_arr_iff]
    rintro ⟨item, hItem, hLong⟩
    exact (h item hItem).short hLong

theorem obj {fields : List (String × Json)} (hKeys : (fields.map Prod.fst).Nodup)
    (h : ∀ field ∈ fields, field.2.Scanned) : Scanned (.obj fields) where
  keys := .obj hKeys fun field hField => (h field hField).keys
  short := by
    rw [holdsLong_obj_iff]
    rintro ⟨field, hField, hLong⟩
    exact (h field hField).short hLong

end Scanned

theorem scans_scanNumber (text : List Char) : Scans (scanNumber text) := by
  unfold scanNumber
  split
  · exact scans_error _
  · rename_i literal rest hLiteral
    obtain ⟨-, -, hDigits⟩ := Decimal.Literal.take?_eq_some hLiteral
    split
    · split
      · exact scans_error _
      · rename_i hLength
        exact scans_ok (.int (Decimal.short_signed hDigits (Nat.not_lt.mp hLength) _)) _
    · have hFloat : Scanned (.float literal.toFloat) := .of_kind nofun nofun nofun
      exact scans_ok hFloat _

theorem scans_scanAtom (text : List Char) : Scans (scanAtom text) := by
  have hWords : ∀ word ∈ words,
      word.2.kind ≠ .int ∧ word.2.kind ≠ .arr ∧ word.2.kind ≠ .obj := by
    simp [words, kind]
  unfold scanAtom
  split
  · rename_i word value hFind
    obtain ⟨hInt, hArr, hObj⟩ := hWords _ (List.mem_of_find?_eq_some hFind)
    exact scans_ok (.of_kind hInt hArr hObj) _
  · exact scans_scanNumber text

/-- By induction on the fuel, for the items and the fields read so far as well. -/
theorem scans_scan (fuel : Nat) : (∀ text, Scans (scanValue fuel text)) ∧
    (∀ items text, (∀ item ∈ items, item.Scanned) → Scans (scanItems fuel items text)) ∧
    ∀ fields text, (∀ field ∈ fields, field.2.Scanned) → Scans (scanFields fuel fields text) := by
  induction fuel with
  | zero =>
    exact ⟨fun _ => scans_error _, fun _ _ _ => scans_error _, fun _ _ _ => scans_error _⟩
  | succ fuel ih =>
    obtain ⟨hValue, hItems, hFields⟩ := ih
    refine ⟨fun text => ?_, fun items text hRead => ?_, fun fields text hRead => ?_⟩
    · unfold scanValue
      split
      · exact scans_error _
      · rename_i rest _
        cases scanString rest with
        | error failure => exact scans_error _
        | ok result => exact scans_ok (.str result.1) _
      · rename_i hFuel
        cases hFuel
        split
        · exact scans_ok (.arr (List.forall_mem_nil _)) _
        · exact hItems _ _ (List.forall_mem_nil _)
      · rename_i hFuel
        cases hFuel
        split
        · have hNone : Scanned (.obj []) := .obj List.nodup_nil (List.forall_mem_nil _)
          exact scans_ok hNone _
        · exact hFields _ _ (List.forall_mem_nil _)
      · exact scans_scanAtom _
    · unfold scanItems
      split
      · exact scans_error _
      · rename_i item rest hItem
        have hAll : ∀ read ∈ item :: items, read.Scanned :=
          List.forall_mem_cons.mpr ⟨hValue text item rest hItem, hRead⟩
        split
        · exact scans_ok (.arr fun read hMem => hAll read (List.mem_reverse.mp hMem)) _
        · exact hItems _ _ hAll
        · exact scans_error _
    · unfold scanFields
      split
      · exact scans_error _
      · rename_i name start _
        split
        · exact scans_error _
        · rename_i value rest hField
          have hAll : ∀ field ∈ (name, value) :: fields, field.2.Scanned :=
            List.forall_mem_cons.mpr ⟨hValue start value rest hField, hRead⟩
          split
          · refine scans_ok (.obj (Assoc.nodup_ofList _) fun field hMem => ?_) _
            exact hAll field (List.mem_reverse.mp (Assoc.mem_of_mem_ofList hMem))
          · exact hFields _ _ hAll
          · exact scans_error _

theorem scanned_of_read {text : List Char} {value : Json} (h : read text = .ok value) :
    value.Scanned := by
  unfold read at h
  split at h
  · cases h
  · have hScan := (scans_scan (2 * text.length + 1)).1 (skipBlanks text)
    cases hResult : scanValue (2 * text.length + 1) (skipBlanks text) with
    | error failure =>
      rw [hResult] at h
      cases h
    | ok result =>
      obtain ⟨found, rest⟩ := result
      rw [hResult] at h
      simp only [bind, Except.bind] at h
      split at h
      · cases h
        exact hScan value rest hResult
      · cases h

end Json

theorem Source.scanned_of_readJson {file text : String} {document : Json}
    (h : readJson file text = .ok document) : document.Scanned := by
  unfold readJson at h
  cases hRead : Json.read text.toList with
  | error failure =>
    rw [hRead] at h
    cases h
  | ok value =>
    rw [hRead] at h
    cases h
    exact Json.scanned_of_read hRead

end ProtoSchema
