import ProtoSchema.Proofs.Document.Items

/-!
Where the errors of reading lead. A path leads to a value in the document or to a field that an
object does not have, and an error about the kind of a value says what was found there.
-/
namespace ProtoSchema.Document
open Grammar

/-- The part of a value that is one step below it. -/
def Step.follow : Step → Json → Option Json
  | .key name, .obj fields => fields.lookup name
  | .index i, .arr items => items[i]?
  | _, _ => none

/-- What a path leads to: a value, or nothing where its last step asks an object for a field that it
does not have. -/
inductive PointsAt : Path → Json → Option Json → Prop where
  | here (value : Json) : PointsAt [] value (some value)
  | missing {name : String} {fields : List (String × Json)} (absent : fields.lookup name = none) :
    PointsAt [.key name] (.obj fields) none
  | inside {step : Step} {path : Path} {value inner : Json} {found? : Option Json}
    (follow : step.follow value = some inner) (rest : PointsAt path inner found?) :
    PointsAt (step :: path) value found?

/-- The path leads to one of the reservations of a message or of the variants of an enum. -/
inductive EntryPath : Path → Json → Prop where
  | reservation {fields : List (String × Json)} (kind : HasKind "message" (.obj fields)) (i : Nat) :
    EntryPath [.key "reservations", .index i] (.obj fields)
  | variant {fields : List (String × Json)} (kind : HasKind "enum" (.obj fields)) (i : Nat) :
    EntryPath [.key "variants", .index i] (.obj fields)
  | inside {step : Step} {path : Path} {value inner : Json}
    (follow : step.follow value = some inner) (rest : EntryPath path inner) :
    EntryPath (step :: path) value

/-- Where another kind of value is wanted, the kind is that of what was found or, if this is an
entry, of one of the two values of a pair. A missing value counts as null. -/
def Explains (entry : Prop) : Problem → Option Json → Prop
  | .unexpected _ kind, found? => kind = (found?.getD .null).kind ∨
      entry ∧ ∃ first second, found? = some (.arr [first, second]) ∧
        (kind = first.kind ∨ kind = second.kind)
  | _, _ => True

theorem Explains.mono {entry entry' : Prop} {problem : Problem} {found? : Option Json}
    (h : Explains entry problem found?) (hEntry : entry → entry') :
    Explains entry' problem found? := by
  cases problem with
  | unexpected wanted kind => exact h.imp_right fun hPair => ⟨hEntry hPair.1, hPair.2⟩
  | _ => trivial

/-- The error is about something in this value, or it is one of those without a path. -/
def About (pathless : Breakdown → Prop) (value : Json) : Error → Prop
  | .located path problem =>
    ∃ found?, PointsAt path value found? ∧ Explains (EntryPath path value) problem found?
  | .broken cause => pathless cause

/-- The error is about this entry itself. -/
def AboutEntry (entry : Json) (error : Error) : Prop :=
  ∃ problem, error = .located [] problem ∧ Explains True problem (some entry)

/-- Every error that the result can be obeys a rule. -/
def Errs {α : Type} (rule : Error → Prop) (result : Result α) : Prop :=
  ∀ error, result = .error error → rule error

section
variable {α β : Type} {rule : Error → Prop}

theorem errs_ok (a : α) : Errs rule (.ok a : Result α) := nofun

theorem errs_error {error : Error} (h : rule error) : Errs rule (.error error : Result α) := by
  rintro _ ⟨⟩
  exact h

theorem Errs.bind {result : Result α} {f : α → Result β} (h : Errs rule result)
    (hNext : ∀ a, result = .ok a → Errs rule (f a)) : Errs rule (result >>= f) := by
  cases hResult : result with
  | error error =>
    rw [hResult] at h
    exact errs_error (h error rfl)
  | ok a => exact hNext a hResult

theorem Errs.map {result : Result α} (h : Errs rule result) (f : α → β) :
    Errs rule (result >>= fun a => pure (f a)) :=
  h.bind fun a _ => errs_ok (f a)

end

section
variable {α : Type} {pathless : Breakdown → Prop} {value : Json}

theorem errs_fail {problem : Problem} (h : Explains False problem (some value)) :
    Errs (About pathless value) (fail problem : Result α) :=
  errs_error ⟨_, .here value, h.mono False.elim⟩

/-- An error about a part is one about the whole. -/
theorem About.under {step : Step} {inner : Json} {error : Error} (h : About pathless inner error)
    (hStep : step.follow value = some inner) : About pathless value (error.under step) := by
  cases error with
  | broken cause => exact h
  | located path problem =>
    obtain ⟨found?, hPoints, hExplains⟩ := h
    exact ⟨found?, .inside hStep hPoints, hExplains.mono (.inside hStep)⟩

theorem Errs.under {step : Step} {inner : Json} {result : Result α}
    (h : Errs (About pathless inner) result) (hStep : step.follow value = some inner) :
    Errs (About pathless value) (Document.under step result) := by
  intro error hError
  obtain ⟨part, hPart, rfl⟩ := under_eq_error_iff.mp hError
  exact (h part hPart).under hStep

/-- An error about an attribute that is not there is about the object that does not have it. -/
theorem errs_readAttribute {fields : List (String × Json)} {name : String} {absent : Json}
    {read : Json → Result α}
    (hRead : ∀ value, fields.lookup name = some value → Errs (About pathless value) (read value))
    (hAbsent : ∀ error, read absent = .error error →
      ∃ problem, error = .located [] problem ∧ Explains False problem none) :
    Errs (About pathless (.obj fields)) (readAttribute fields name absent read) := by
  rw [readAttribute]
  cases hLookup : fields.lookup name with
  | some value => exact (hRead value hLookup).under hLookup
  | none =>
    rw [Option.getD_none]
    cases hResult : read absent with
    | ok a => exact errs_ok a
    | error error =>
      obtain ⟨problem, rfl, hExplains⟩ := hAbsent error hResult
      exact errs_error ⟨none, .missing hLookup, hExplains.mono False.elim⟩

theorem errs_readItems {read : Json → Result α} {items : List Json}
    (h : ∀ item ∈ items, Errs (About pathless item) (read item)) :
    Errs (About pathless (.arr items)) (readItems read 0 items) := by
  intro error hError
  obtain ⟨k, inner, hFirst, rfl⟩ := readItems_eq_error_iff.mp hError
  obtain ⟨item, hItem, hInner⟩ := hFirst.fails
  have hMem : item ∈ items := List.mem_of_getElem? hItem
  rw [Nat.zero_add]
  exact (h item hMem inner hInner).under hItem

theorem errs_readList {read : Json → Result α}
    (h : ∀ items, value = .arr items → ∀ item ∈ items, Errs (About pathless item) (read item)) :
    Errs (About pathless value) (readList read value) := by
  cases value with
  | arr items => exact errs_readItems (h items rfl)
  | _ => exact errs_fail (.inl rfl)

theorem errs_expectString (value : Json) : Errs (About pathless value) (expectString value) := by
  cases value with
  | str s => exact errs_ok s
  | _ => exact errs_fail (.inl rfl)

theorem errs_expectInt (value : Json) : Errs (About pathless value) (expectInt value) := by
  cases value with
  | int n => exact errs_ok n
  | _ => exact errs_fail (.inl rfl)

theorem errs_expectBool (value : Json) : Errs (About pathless value) (expectBool value) := by
  cases value with
  | bool b => exact errs_ok b
  | _ => exact errs_fail (.inl rfl)

section
variable {first second item : Json}

/-- An error about one of a pair is reported as one about the pair. -/
theorem errs_fail_of_mem {wanted : Wanted} (h : item ∈ [first, second]) :
    Errs (AboutEntry (.arr [first, second]))
      (fail (.unexpected wanted item.kind) : Result α) := by
  have hKind : item.kind = first.kind ∨ item.kind = second.kind := by
    rcases List.mem_pair.mp h with rfl | rfl
    · exact .inl rfl
    · exact .inr rfl
  exact errs_error ⟨_, rfl, .inr ⟨trivial, first, second, rfl, hKind⟩⟩

theorem errs_expectInt_of_mem (h : item ∈ [first, second]) :
    Errs (AboutEntry (.arr [first, second])) (expectInt item) := by
  cases item with
  | int n => exact errs_ok n
  | _ => exact errs_fail_of_mem h

theorem errs_expectString_of_mem (h : item ∈ [first, second]) :
    Errs (AboutEntry (.arr [first, second])) (expectString item) := by
  cases item with
  | str s => exact errs_ok s
  | _ => exact errs_fail_of_mem h

end

theorem errs_readReservation (value : Json) : Errs (AboutEntry value) (readReservation value) := by
  unfold readReservation
  split
  · exact errs_ok _
  · exact errs_ok _
  · exact (errs_expectInt_of_mem (by simp)).bind fun _ _ =>
      (errs_expectInt_of_mem (by simp)).map _
  · exact errs_error ⟨_, rfl, trivial⟩

theorem errs_readVariant (value : Json) : Errs (AboutEntry value) (readVariant value) := by
  unfold readVariant
  split
  · exact (errs_expectString_of_mem (by simp)).bind fun _ _ =>
      (errs_expectInt_of_mem (by simp)).map _
  · exact errs_error ⟨_, rfl, trivial⟩

theorem errs_readType (value : Json) : Errs (About pathless value) (readType value) := by
  induction value using readType.induct with
  | case1 name =>
    rw [readType]
    exact errs_ok _
  | case2 k v hKey hValue =>
    have hList : (Step.key "map").follow (.obj [("map", .arr [k, v])]) = some (.arr [k, v]) := rfl
    have hFirst : (Step.index 0).follow (.arr [k, v]) = some k := rfl
    have hSecond : (Step.index 1).follow (.arr [k, v]) = some v := rfl
    rw [readType, if_pos rfl]
    refine ((hKey.under hFirst).under hList).bind fun key _ => ?_
    cases hMap : key.isMap with
    | true =>
      have hFail : Errs (About pathless (.obj [("map", .arr [k, v])]))
          (under (.key "map") (under (.index 0) (fail .mapAsKey)) : Result TypeExpr) :=
        Errs.under (Errs.under (errs_fail trivial) hFirst) hList
      rw [if_pos rfl]
      exact hFail
    | false =>
      rw [if_neg Bool.false_ne_true]
      exact ((hValue.under hSecond).under hList).map _
  | case3 types hPair =>
    have hTypes : (Step.key "map").follow (.obj [("map", types)]) = some types := rfl
    rw [readType, if_pos rfl]
    · exact Errs.under (errs_fail trivial) hTypes
    · exact hPair
  | case4 name types hName =>
    unfold readType
    dsimp only
    rw [if_neg hName]
    exact errs_fail trivial
  | case5 value hString hMap =>
    rw [readType]
    · exact errs_fail trivial
    · exact hString
    · exact hMap

theorem errs_readPackage (value : Json) : Errs (About pathless value) (readPackage value) := by
  cases value with
  | null => exact errs_ok _
  | str name => exact errs_ok _
  | _ => exact errs_fail trivial

/-- What is wrong with an option does not depend on what is found under its name, so that the name
may be there twice. -/
theorem errs_readOption (found value : Json) : Errs (About pathless found) (readOption value) := by
  cases value with
  | null => exact errs_fail trivial
  | arr items => exact errs_fail trivial
  | obj fields => exact errs_fail trivial
  | _ => exact errs_ok _

theorem errs_readOptionFields {fields entries : List (String × Json)}
    (h : ∀ entry ∈ entries, ∃ found, fields.lookup entry.1 = some found) :
    Errs (About pathless (.obj fields)) (readOptionFields entries) := by
  induction entries with
  | nil => exact errs_ok []
  | cons entry entries ih =>
    obtain ⟨⟨found, hFound⟩, hEntries⟩ := List.forall_mem_cons.mp h
    obtain ⟨name, value⟩ := entry
    have hStep : (Step.key name).follow (.obj fields) = some found := hFound
    exact ((errs_readOption found value).under hStep).bind fun _ _ => (ih hEntries).map _

theorem errs_readOptions (value : Json) : Errs (About pathless value) (readOptions value) := by
  cases value with
  | obj fields =>
    refine errs_readOptionFields fun entry hEntry => ?_
    cases hLookup : fields.lookup entry.1 with
    | some found => exact ⟨found, rfl⟩
    | none => exact absurd (List.lookup_eq_none_iff.mp hLookup entry hEntry) (by simp)
  | _ => exact errs_fail (.inl rfl)

theorem errs_check (value : Json) (place : Place) (decl : Declaration) :
    Errs (About pathless value) (place.check decl) := by
  rw [Place.check]
  cases h : place.objection? decl with
  | none => exact errs_ok decl
  | some problem =>
    refine errs_fail ?_
    cases place <;> cases decl <;> cases h <;> trivial

/-- A list of declarations has errors about itself and about those that are listed. -/
theorem errs_readMembers {fields : List (String × Json)} {name : String} {place : Place}
    (ih : ∀ item ∈ listed name fields, Errs (About pathless item) (readDeclaration item)) :
    Errs (About pathless (.obj fields))
      (readAttribute fields name (.arr []) (readMembers place)) := by
  refine errs_readAttribute (fun value hLookup => ?_) fun error hError => ?_
  · by_cases hValue : value = .arr []
    · rw [hValue, readMembers_nil]
      cases place with
      | choice => exact errs_fail trivial
      | _ => exact errs_ok []
    · rw [readMembers_of_ne_nil place hValue]
      refine errs_readList fun items hItems item hItem => ?_
      have hListed : item ∈ listed name fields := by
        rwa [listed, hLookup, hItems]
      exact (ih item hListed).bind fun decl _ => errs_check item place decl
  · rw [readMembers_nil] at hError
    cases place with
    | choice =>
      cases hError
      exact ⟨_, rfl, trivial⟩
    | _ => cases hError

section
variable {fields : List (String × Json)} {name : String}

/-- A required attribute stands for null if it is not there, which its reader refuses. -/
theorem errs_required {read : Json → Result α}
    (hRead : ∀ value, Errs (About pathless value) (read value))
    (hAbsent : ∃ problem, read .null = fail problem ∧ Explains False problem none) :
    Errs (About pathless (.obj fields)) (readAttribute fields name .null read) := by
  refine errs_readAttribute (fun value _ => hRead value) fun error hError => ?_
  obtain ⟨problem, hFail, hExplains⟩ := hAbsent
  rw [hFail] at hError
  cases hError
  exact ⟨problem, rfl, hExplains⟩

/-- An optional attribute stands for a value that its reader takes if it is not there. -/
theorem errs_optional {read : Json → Result α} {absent : Json}
    (hRead : ∀ value, Errs (About pathless value) (read value))
    (hAbsent : Succeeds (read absent)) :
    Errs (About pathless (.obj fields)) (readAttribute fields name absent read) := by
  refine errs_readAttribute (fun value _ => hRead value) fun error hError => ?_
  obtain ⟨a, hOk⟩ := hAbsent
  rw [hOk] at hError
  cases hError

theorem errs_name :
    Errs (About pathless (.obj fields)) (readAttribute fields name .null expectString) :=
  errs_required errs_expectString ⟨_, rfl, .inl rfl⟩

theorem errs_integer :
    Errs (About pathless (.obj fields)) (readAttribute fields name .null expectInt) :=
  errs_required errs_expectInt ⟨_, rfl, .inl rfl⟩

theorem errs_type :
    Errs (About pathless (.obj fields)) (readAttribute fields name .null readType) :=
  errs_required errs_readType ⟨.invalidType, rfl, trivial⟩

theorem errs_boolean :
    Errs (About pathless (.obj fields)) (readAttribute fields name (.bool false) expectBool) :=
  errs_optional errs_expectBool ⟨false, rfl⟩

theorem errs_list {read : Json → Result α}
    (hRead : ∀ value, Errs (About pathless value) (read value)) :
    Errs (About pathless (.obj fields)) (readAttribute fields name (.arr []) (readList read)) :=
  errs_optional (fun _ => errs_readList fun _ _ item _ => hRead item) ⟨[], rfl⟩

/-- A list of entries has errors about itself and about single entries. -/
theorem errs_entries {read : Json → Result α}
    (hRead : ∀ value, Errs (AboutEntry value) (read value))
    (hPath : ∀ i, EntryPath [.key name, .index i] (.obj fields)) :
    Errs (About pathless (.obj fields)) (readAttribute fields name (.arr []) (readList read)) := by
  intro error hError
  obtain ⟨inner, hInner, rfl⟩ := under_eq_error_iff.mp hError
  cases hLookup : fields.lookup name with
  | none =>
    rw [hLookup] at hInner
    cases hInner
  | some value =>
    rw [hLookup, Option.getD_some] at hInner
    cases value with
    | arr items =>
      obtain ⟨i, _, hFirst, rfl⟩ := readItems_eq_error_iff.mp hInner
      obtain ⟨item, hItem, hEntry⟩ := hFirst.fails
      obtain ⟨problem, rfl, hExplains⟩ := hRead item _ hEntry
      rw [Nat.zero_add]
      have hPoints : PointsAt [.key name, .index i] (.obj fields) (some item) :=
        .inside hLookup (.inside hItem (.here item))
      exact ⟨some item, hPoints, hExplains.mono fun _ => hPath i⟩
    | _ =>
      cases hInner
      exact ⟨_, .inside hLookup (.here _), .inl rfl⟩

theorem errs_readField : Errs (About pathless (.obj fields)) (readField name fields) :=
  errs_type.bind fun _ _ => errs_integer.bind fun _ _ => errs_boolean.map _

theorem errs_readEnum (hKind : HasKind "enum" (.obj fields)) :
    Errs (About pathless (.obj fields)) (readEnum name fields) :=
  (errs_entries errs_readVariant (.variant hKind)).bind fun _ _ => errs_boolean.map _

/-- The types of a method are read after its streams. -/
theorem errs_methodTypes {α : Type} (f : TypeExpr → TypeExpr → α) :
    Errs (About pathless (.obj fields)) (do
      let input ← readAttribute fields "input" .null readType
      let returns ← readAttribute fields "returns" .null readType
      return f input returns) :=
  errs_type.bind fun _ _ => errs_type.map _

end

section
variable (h : ∀ cause, pathless cause)
include h

theorem errs_failShowing {problem : String → Problem}
    (hProblem : ∀ shown, Explains False (problem shown) (some value)) :
    Errs (About pathless value) (failShowing problem value : Result α) := by
  unfold failShowing
  cases value.display? with
  | some shown => exact errs_fail (hProblem shown)
  | none => exact errs_error (h _)

theorem errs_readStreaming (value : Json) :
    Errs (About pathless value) (readStreaming value) := by
  rw [readStreaming]
  cases streaming? value with
  | some streaming => exact errs_ok streaming
  | none => exact errs_failShowing h fun _ => trivial

section
variable {fields : List (String × Json)} {name : String}

theorem errs_readMethod : Errs (About pathless (.obj fields)) (readMethod name fields) := by
  have hNone : Succeeds (readStreaming (.str "none")) :=
    (succeeds_readStreaming_iff _).mpr (.inl ⟨"none", by simp, rfl⟩)
  exact (errs_optional (errs_readStreaming h) hNone).bind fun _ _ => errs_methodTypes _

theorem errs_readDeclarationOf {kind : DeclKind} (hKind : HasKind kind.name (.obj fields))
    (ih : ∀ name, ∀ item ∈ listed name fields, Errs (About pathless item) (readDeclaration item)) :
    Errs (About pathless (.obj fields)) (readDeclarationOf name fields kind) := by
  cases kind with
  | message =>
    exact (errs_readMembers (ih _)).bind fun _ _ =>
      (errs_entries errs_readReservation (.reservation hKind)).map _
  | field => exact errs_readField.map _
  | oneof => exact (errs_readMembers (ih _)).map _
  | enum => exact (errs_readEnum hKind).map _
  | method => exact (errs_readMethod h).map _
  | service => exact (errs_readMembers (ih _)).map _

end

theorem errs_readKind (value : Json) : Errs (About pathless value) (readKind value) := by
  rw [readKind]
  split
  · exact errs_error (h _)
  · cases declKind? value with
    | some kind => exact errs_ok kind
    | none => exact errs_failShowing h fun _ => trivial

theorem errs_readDeclaration (value : Json) :
    Errs (About pathless value) (readDeclaration value) := by
  induction value using induct with
  | other value hKind =>
    cases value with
    | obj fields => exact absurd rfl hKind
    | _ =>
      rw [readDeclaration]
      · exact errs_fail (.inl rfl)
      · intro _ h
        cases h
  | obj fields ih =>
    rw [readDeclaration_obj]
    refine (errs_required (errs_readKind h) ⟨_, rfl, trivial⟩).bind fun kind hKind => ?_
    have hKind := readAttribute_kind_eq_ok_iff.mp hKind
    exact errs_name.bind fun _ _ => errs_readDeclarationOf h hKind ih

/-- Every error of reading a document is about something in it. -/
theorem errs_readSchema (document : Json) :
    Errs (About pathless document) (readSchema document) := by
  cases document with
  | obj fields =>
    rw [readSchema_obj]
    exact (errs_optional errs_readPackage ⟨none, rfl⟩).bind fun _ _ =>
      (errs_list errs_expectString).bind fun _ _ =>
      (errs_optional errs_readOptions ⟨[], rfl⟩).bind fun _ _ =>
      (errs_readMembers fun item _ => errs_readDeclaration h item).map _
  | _ => exact errs_fail (.inl rfl)

end

end

end ProtoSchema.Document
