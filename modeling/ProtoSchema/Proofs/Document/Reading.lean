import ProtoSchema.Proofs.Document.Outcome
import ProtoSchema.Proofs.Schema.Nodes

/-! Reading a declaration, attribute by attribute: lists of declarations are read like other lists.
What a declaration that was read says about its document, and induction over documents. -/
namespace ProtoSchema.Document

/-- Reads a declaration and checks it in its place. -/
def readMember (place : Place) (value : Json) : Result Declaration := do
  place.check (← readDeclaration value)

/-- Reads the attributes of a declaration of this kind and name. -/
def readDeclarationOf (name : String) (fields : List (String × Json)) :
    DeclKind → Result Declaration
  | .message => do
    let members ← readAttribute fields "declarations" (.arr []) (readMembers .member)
    let reservations ← readAttribute fields "reservations" (.arr []) (readList readReservation)
    return .message name members reservations
  | .field => do return .field (← readField name fields)
  | .oneof => do
    let members ← readAttribute fields "declarations" (.arr []) (readMembers .choice)
    return .oneof name members
  | .enum => do return .enum (← readEnum name fields)
  | .method => do return .method (← readMethod name fields)
  | .service => do
    let operations ← readAttribute fields "operations" (.arr []) (readMembers .operation)
    return .service name (operations.filterMap methodOf?)

theorem readMembersFrom_eq (place : Place) (i : Nat) (items : List Json) :
    readMembersFrom place i items = readItems (readMember place) i items := by
  induction items generalizing i with
  | nil => rw [readMembersFrom, readItems]
  | cons item items ih => simp only [readMembersFrom, readItems, readMember, ih]

theorem readMembers_nil (place : Place) : readMembers place (.arr []) = place.empty := by
  rw [readMembers]
  rfl

theorem readMembers_of_ne_nil (place : Place) {value : Json} (h : value ≠ .arr []) :
    readMembers place value = readList (readMember place) value := by
  unfold readMembers readList
  split
  · rename_i items
    have hItems : items.isEmpty = false := by
      cases items with
      | nil => exact absurd rfl h
      | cons item items => rfl
    rw [hItems, readMembersFrom_eq]
    rfl
  · rfl

theorem readMembers_eq_readList {place : Place} (h : place.empty = .ok []) :
    readMembers place = readList (readMember place) := by
  funext value
  by_cases hValue : value = .arr []
  · rw [hValue, readMembers_nil, h]
    rfl
  · exact readMembers_of_ne_nil place hValue

theorem under_readMembersIn (place : Place) (name : String) (fields : List (String × Json)) :
    under (.key name) (readMembersIn place name fields) =
      readAttribute fields name (.arr []) (readMembers place) := by
  unfold readAttribute
  congr 1
  induction fields with
  | nil => rw [readMembersIn, List.lookup_nil, Option.getD_none, readMembers_nil]
  | cons field fields ih =>
    obtain ⟨key, value⟩ := field
    rw [readMembersIn, List.lookup_cons]
    by_cases h : key = name
    · rw [if_pos h, h, beq_self_eq_true]
      rfl
    · rw [if_neg h, ih, beq_false_of_ne (Ne.symm h)]

theorem readDeclaration_obj (fields : List (String × Json)) :
    readDeclaration (.obj fields) = (do
      let kind ← readAttribute fields "kind" .null readKind
      let name ← readAttribute fields "name" .null expectString
      readDeclarationOf name fields kind) := by
  rw [readDeclaration]
  simp only [under_readMembersIn]
  rfl

theorem readSchema_obj (fields : List (String × Json)) :
    readSchema (.obj fields) = (do
      let package ← readAttribute fields "package" .null readPackage
      let imports ← readAttribute fields "imports" (.arr []) (readList expectString)
      let options ← readAttribute fields "options" (.obj []) readOptions
      let declarations ← readAttribute fields "declarations" (.arr []) (readMembers .member)
      return { package, imports, options, declarations }) := by
  rw [readSchema, under_readMembersIn]

theorem readType_map_eq_ok_iff {k v : Json} {type : TypeExpr} :
    readType (.obj [("map", .arr [k, v])]) = .ok type ↔ ∃ key value, readType k = .ok key ∧
      key.isMap = false ∧ readType v = .ok value ∧ type = .map key value := by
  rw [readType, if_pos rfl, bind_eq_ok_iff]
  constructor
  · intro hRead
    obtain ⟨key, hKey, h⟩ := hRead
    cases hMap : key.isMap with
    | true =>
      rw [if_pos hMap] at h
      cases h
    | false =>
      rw [if_neg (by simp [hMap])] at h
      obtain ⟨value, hValue, h⟩ := bind_eq_ok_iff.mp h
      refine ⟨key, value, ?_, hMap, ?_, (Except.ok.inj h).symm⟩
      · exact under_eq_ok_iff.mp (under_eq_ok_iff.mp hKey)
      · exact under_eq_ok_iff.mp (under_eq_ok_iff.mp hValue)
  · intro h
    obtain ⟨key, value, hKey, hMap, hValue, rfl⟩ := h
    refine ⟨key, under_eq_ok_iff.mpr (under_eq_ok_iff.mpr hKey), ?_⟩
    rw [if_neg (by simp [hMap])]
    exact bind_eq_ok_iff.mpr ⟨value, under_eq_ok_iff.mpr (under_eq_ok_iff.mpr hValue), rfl⟩

theorem readType_eq_ok_iff {value : Json} {type : TypeExpr} :
    readType value = .ok type ↔ (∃ name, value = .str name ∧ type = .named name) ∨
      ∃ k v key valueType, value = .obj [("map", .arr [k, v])] ∧ readType k = .ok key ∧
        key.isMap = false ∧ readType v = .ok valueType ∧ type = .map key valueType := by
  constructor
  · intro h
    unfold readType at h
    split at h
    · exact .inl ⟨_, rfl, (Except.ok.inj h).symm⟩
    · split at h
      · subst_vars
        split at h
        · rename_i k v
          have hMap : readType (.obj [("map", .arr [k, v])]) = .ok type := by
            rw [readType, if_pos rfl]
            exact h
          obtain ⟨key, valueType, h⟩ := readType_map_eq_ok_iff.mp hMap
          exact .inr ⟨k, v, key, valueType, rfl, h⟩
        · cases h
      · cases h
    · cases h
  · rintro (⟨name, rfl, rfl⟩ | ⟨k, v, key, valueType, rfl, h⟩)
    · rw [readType]
    · exact readType_map_eq_ok_iff.mpr ⟨key, valueType, h⟩

theorem readKind_eq_ok_iff {value : Json} {kind : DeclKind} :
    readKind value = .ok kind ↔ value = .str kind.name := by
  have hKnown : declKind? value = some kind ↔ value = .str kind.name := by
    cases value with
    | str name => rw [Json.str.injEq, ← DeclKind.ofName?_eq_some_iff, declKind?]
    | _ => exact iff_of_false nofun nofun
  rw [readKind]
  split
  · rename_i hCompound
    refine iff_of_false nofun ?_
    rintro rfl
    exact hCompound.elim nofun nofun
  · rw [← hKnown]
    cases declKind? value with
    | none => simp [failShowing_ne_ok]
    | some found => simp

theorem expectString_eq_ok_iff {value : Json} {s : String} :
    expectString value = .ok s ↔ value = .str s := by
  cases value <;> simp [expectString, fail]

/-- Where the value that stands for no attribute is refused, the attribute is there. -/
theorem readAttribute_eq_ok_iff {α : Type} {fields : List (String × Json)} {name : String}
    {absent : Json} {read : Json → Result α} {a : α} (h : read absent ≠ .ok a) :
    readAttribute fields name absent read = .ok a ↔
      ∃ value, fields.lookup name = some value ∧ read value = .ok a := by
  rw [readAttribute, under_eq_ok_iff]
  cases fields.lookup name with
  | none => simp [h]
  | some value => simp

theorem readKind_null_ne_ok (kind : DeclKind) : readKind .null ≠ .ok kind := by
  simp [readKind, declKind?, Json.kind, failShowing_ne_ok]

theorem kind_of_readDeclarationOf {name : String} {fields : List (String × Json)}
    {kind : DeclKind} {decl : Declaration} (h : readDeclarationOf name fields kind = .ok decl) :
    decl.kind = kind := by
  cases kind <;> unfold readDeclarationOf at h <;> simp only [bind_eq_ok_iff] at h
  case message => obtain ⟨_, _, _, _, h⟩ := h; cases h; rfl
  all_goals obtain ⟨_, _, h⟩ := h; cases h; rfl

/-- A declaration was read from an object that gives its kind and its name. -/
theorem readDeclaration_eq_ok_iff {value : Json} {decl : Declaration} :
    readDeclaration value = .ok decl ↔ ∃ fields name, value = .obj fields ∧
      fields.lookup "kind" = some (.str decl.kind.name) ∧
      fields.lookup "name" = some (.str name) ∧
      readDeclarationOf name fields decl.kind = .ok decl := by
  constructor
  · intro h
    cases value with
    | obj fields =>
      rw [readDeclaration_obj, bind_eq_ok_iff] at h
      obtain ⟨kind, hKind, h⟩ := h
      obtain ⟨name, hName, h⟩ := bind_eq_ok_iff.mp h
      obtain ⟨_, hLookupKind, hKind⟩ :=
        (readAttribute_eq_ok_iff (readKind_null_ne_ok kind)).mp hKind
      obtain ⟨_, hLookupName, hName⟩ :=
        (readAttribute_eq_ok_iff (by simp [expectString, fail])).mp hName
      rw [readKind_eq_ok_iff.mp hKind] at hLookupKind
      rw [expectString_eq_ok_iff.mp hName] at hLookupName
      obtain rfl := kind_of_readDeclarationOf h
      exact ⟨fields, name, rfl, hLookupKind, hLookupName, h⟩
    | _ => simp [readDeclaration, fail] at h
  · intro hRead
    obtain ⟨fields, name, rfl, hKind, hName, h⟩ := hRead
    rw [readDeclaration_obj, bind_eq_ok_iff]
    refine ⟨decl.kind, ?_, bind_eq_ok_iff.mpr ⟨name, ?_, h⟩⟩
    · exact (readAttribute_eq_ok_iff (readKind_null_ne_ok _)).mpr
        ⟨_, hKind, readKind_eq_ok_iff.mpr rfl⟩
    · exact (readAttribute_eq_ok_iff (by simp [expectString, fail])).mpr
        ⟨_, hName, expectString_eq_ok_iff.mpr rfl⟩

/-- The values in the list that an object holds under this name. -/
def listed (name : String) (fields : List (String × Json)) : List Json :=
  match fields.lookup name with
  | some (.arr items) => items
  | _ => []

theorem sizeOf_of_mem_listed {name : String} {fields : List (String × Json)} {item : Json}
    (h : item ∈ listed name fields) : sizeOf item < sizeOf (Json.obj fields) := by
  unfold listed at h
  split at h
  · rename_i items hLookup
    obtain ⟨before, after, rfl, -⟩ := List.lookup_eq_some_iff.mp hLookup
    have hItem := List.sizeOf_lt_of_mem h
    have hEntry : sizeOf (name, Json.arr items) < sizeOf (before ++ (name, .arr items) :: after) :=
      List.sizeOf_lt_of_mem (by simp)
    simp only [Prod.mk.sizeOf_spec, Json.arr.sizeOf_spec] at hEntry
    simp only [Json.obj.sizeOf_spec]
    omega
  · cases h

/-- Induction over a document: from the objects listed in an object to the object. -/
@[elab_as_elim]
theorem induct {P : Json → Prop}
    (obj : ∀ fields, (∀ name, ∀ item ∈ listed name fields, P item) → P (.obj fields))
    (other : ∀ value, value.kind ≠ .obj → P value) : ∀ value, P value
  | .obj fields => obj fields fun _ item _ => induct obj other item
  | .null => other _ (by simp [Json.kind])
  | .bool _ => other _ (by simp [Json.kind])
  | .int _ => other _ (by simp [Json.kind])
  | .float _ => other _ (by simp [Json.kind])
  | .str _ => other _ (by simp [Json.kind])
  | .arr _ => other _ (by simp [Json.kind])
termination_by value => sizeOf value
decreasing_by exact sizeOf_of_mem_listed ‹_›

end ProtoSchema.Document
