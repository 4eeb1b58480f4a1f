import ProtoSchema.Proofs.Document.Reading
import ProtoSchema.Proofs.Schema.Types

/-! The documents that have a schema, by rules that do not mention reading, and that reading
succeeds on exactly these. -/
namespace ProtoSchema.Document

namespace Grammar

def IsString (value : Json) : Prop := value.kind = .str

def IsInteger (value : Json) : Prop := value.kind = .int

def IsBoolean (value : Json) : Prop := value.kind = .bool

def IsList (value : Json) : Prop := value.kind = .arr

/-- A list whose items all obey a rule. -/
def IsListOf (rule : Json → Prop) (value : Json) : Prop :=
  ∃ items, value = .arr items ∧ ∀ item ∈ items, rule item

/-- A list of two items, each of which obeys a rule of its own. -/
def IsPair (first second : Json → Prop) (value : Json) : Prop :=
  ∃ a b, value = .arr [a, b] ∧ first a ∧ second b

/-- The attribute is there and obeys a rule. -/
def Required (rule : Json → Prop) (name : String) (fields : List (String × Json)) : Prop :=
  ∃ value, fields.lookup name = some value ∧ rule value

/-- The attribute is absent or obeys a rule. -/
def Optional (rule : Json → Prop) (name : String) (fields : List (String × Json)) : Prop :=
  ∀ value, fields.lookup name = some value → rule value

/-- A name, or an object with the one key `map` that holds a name and a type. -/
inductive IsType : Json → Prop where
  | name (name : String) : IsType (.str name)
  | map (key : String) {value : Json} (valueType : IsType value) :
    IsType (.obj [("map", .arr [.str key, value])])

def IsReservation (value : Json) : Prop :=
  IsString value ∨ IsInteger value ∨ IsPair IsInteger IsInteger value

def IsVariant (value : Json) : Prop := IsPair IsString IsInteger value

/-- One of four names, or an integer from zero to three. -/
def IsStreaming (value : Json) : Prop :=
  (∃ name ∈ ["none", "in", "out", "duplex"], value = .str name) ∨
    ∃ n : Int, value = .int n ∧ 0 ≤ n ∧ n ≤ 3

/-- An object that says that it is a declaration of this kind. -/
def HasKind (kind : String) (value : Json) : Prop :=
  ∃ fields, value = .obj fields ∧ fields.lookup "kind" = some (.str kind)

/-- A declaration of one of six kinds. Attributes that no rule mentions may hold anything. -/
inductive IsDeclaration : Json → Prop where
  | message {fields : List (String × Json)} (kind : HasKind "message" (.obj fields))
    (name : Required IsString "name" fields)
    (list : Optional IsList "declarations" fields)
    (members : ∀ item ∈ listed "declarations" fields, IsDeclaration item)
    (reservations : Optional (IsListOf IsReservation) "reservations" fields) :
    IsDeclaration (.obj fields)
  | field {fields : List (String × Json)} (kind : HasKind "field" (.obj fields))
    (name : Required IsString "name" fields) (type : Required IsType "type" fields)
    (index : Required IsInteger "index" fields) (repeated : Optional IsBoolean "repeated" fields) :
    IsDeclaration (.obj fields)
  | oneof {fields : List (String × Json)} (kind : HasKind "oneof" (.obj fields))
    (name : Required IsString "name" fields) (nonempty : listed "declarations" fields ≠ [])
    (members : ∀ item ∈ listed "declarations" fields, IsDeclaration item)
    (fieldsOnly : ∀ item ∈ listed "declarations" fields, HasKind "field" item) :
    IsDeclaration (.obj fields)
  | enum {fields : List (String × Json)} (kind : HasKind "enum" (.obj fields))
    (name : Required IsString "name" fields)
    (variants : Optional (IsListOf IsVariant) "variants" fields)
    (allowAlias : Optional IsBoolean "allow_alias" fields) :
    IsDeclaration (.obj fields)
  | method {fields : List (String × Json)} (kind : HasKind "method" (.obj fields))
    (name : Required IsString "name" fields) (input : Required IsType "input" fields)
    (returns : Required IsType "returns" fields) (stream : Optional IsStreaming "stream" fields) :
    IsDeclaration (.obj fields)
  | service {fields : List (String × Json)} (kind : HasKind "service" (.obj fields))
    (name : Required IsString "name" fields) (list : Optional IsList "operations" fields)
    (operations : ∀ item ∈ listed "operations" fields, IsDeclaration item)
    (methodsOnly : ∀ item ∈ listed "operations" fields, HasKind "method" item) :
    IsDeclaration (.obj fields)

/-- A package may also be null. -/
def IsPackage (value : Json) : Prop := value.kind = .null ∨ value.kind = .str

def IsOption (value : Json) : Prop := value.kind ∈ [.str, .int, .float, .bool]

/-- An object whose values are all texts, numbers or truth values. -/
def IsOptions (value : Json) : Prop :=
  ∃ entries, value = .obj entries ∧ ∀ entry ∈ entries, IsOption entry.2

inductive IsSchema : Json → Prop where
  | file {fields : List (String × Json)} (package : Optional IsPackage "package" fields)
    (imports : Optional (IsListOf IsString) "imports" fields)
    (options : Optional IsOptions "options" fields)
    (declarations : Optional (IsListOf IsDeclaration) "declarations" fields) :
    IsSchema (.obj fields)

end Grammar
open Grammar

variable {α : Type}

theorem succeeds_expectString_iff (value : Json) :
    Succeeds (expectString value) ↔ IsString value := by
  cases value <;> simp [Succeeds, expectString, fail, IsString, Json.kind]

theorem succeeds_expectInt_iff (value : Json) :
    Succeeds (expectInt value) ↔ IsInteger value := by
  cases value <;> simp [Succeeds, expectInt, fail, IsInteger, Json.kind]

theorem succeeds_expectBool_iff (value : Json) :
    Succeeds (expectBool value) ↔ IsBoolean value := by
  cases value <;> simp [Succeeds, expectBool, fail, IsBoolean, Json.kind]

theorem succeeds_readPackage_iff (value : Json) :
    Succeeds (readPackage value) ↔ IsPackage value := by
  cases value <;> simp [Succeeds, readPackage, fail, IsPackage, Json.kind]

theorem succeeds_readOption_iff (value : Json) :
    Succeeds (readOption value) ↔ IsOption value := by
  cases value <;> simp [Succeeds, readOption, fail, IsOption, Json.kind]

section
variable {read : Json → Result α} {rule : Json → Prop}

theorem succeeds_readItems_iff (h : ∀ value, Succeeds (read value) ↔ rule value) (i : Nat)
    (items : List Json) : Succeeds (readItems read i items) ↔ ∀ item ∈ items, rule item := by
  induction items generalizing i with
  | nil => simp [readItems, succeeds_ok]
  | cons item items ih =>
    rw [readItems, succeeds_bind_iff fun _ _ => succeeds_map_iff, succeeds_under_iff, h, ih,
      List.forall_mem_cons]

theorem succeeds_readList_iff (h : ∀ value, Succeeds (read value) ↔ rule value) (value : Json) :
    Succeeds (readList read value) ↔ IsListOf rule value := by
  cases value with
  | arr items => simp [readList, succeeds_readItems_iff h, IsListOf]
  | _ => simp [readList, not_succeeds_fail, IsListOf]

variable {fields : List (String × Json)} {name : String} {absent : Json}

theorem succeeds_optional_iff (h : ∀ value, Succeeds (read value) ↔ rule value)
    (hAbsent : Succeeds (read absent)) :
    Succeeds (readAttribute fields name absent read) ↔ Optional rule name fields := by
  rw [readAttribute, succeeds_under_iff, Optional]
  cases fields.lookup name with
  | none => simp [hAbsent]
  | some value => simp [h]

theorem succeeds_required_iff (h : ∀ value, Succeeds (read value) ↔ rule value)
    (hAbsent : ¬ Succeeds (read absent)) :
    Succeeds (readAttribute fields name absent read) ↔ Required rule name fields := by
  rw [readAttribute, succeeds_under_iff, Required]
  cases fields.lookup name with
  | none => simp [hAbsent]
  | some value => simp [h]

end

theorem isType_of_readType {value : Json} {type : TypeExpr} (h : readType value = .ok type) :
    IsType value := by
  induction type generalizing value with
  | map key valueType hKey hValue =>
    obtain ⟨name, rfl, hType⟩ | ⟨k, v, _, _, rfl, hk, hMap, hv, hType⟩ := readType_eq_ok_iff.mp h
    · exact .name name
    · cases hType
      -- A key that is no map was read from a name.
      obtain ⟨name, rfl, -⟩ | ⟨_, _, _, _, -, -, -, -, rfl⟩ := readType_eq_ok_iff.mp hk
      · exact .map name (hValue hv)
      · cases hMap
  | _ =>
    obtain ⟨name, rfl, -⟩ | ⟨_, _, _, _, -, -, -, -, hType⟩ := readType_eq_ok_iff.mp h
    · exact .name name
    · cases hType

theorem succeeds_readType_iff (value : Json) : Succeeds (readType value) ↔ IsType value := by
  constructor
  · intro hOk
    obtain ⟨type, h⟩ := hOk
    exact isType_of_readType h
  · intro h
    induction h with
    | name name => exact ⟨_, by rw [readType]⟩
    | map key _ ih =>
      obtain ⟨type, hValue⟩ := ih
      have hKey : readType (.str key) = .ok (.named key) := by rw [readType]
      exact ⟨.map (.named key) type, readType_map_eq_ok_iff.mpr
        ⟨_, _, hKey, TypeExpr.isMap_named key, hValue, rfl⟩⟩

theorem isPair_arr_iff {first second : Json → Prop} {a b : Json} :
    IsPair first second (.arr [a, b]) ↔ first a ∧ second b := by
  constructor
  · rintro ⟨_, _, h, hFirst, hSecond⟩
    cases h
    exact ⟨hFirst, hSecond⟩
  · intro h
    exact ⟨a, b, rfl, h⟩

theorem succeeds_readReservation_iff (value : Json) :
    Succeeds (readReservation value) ↔ IsReservation value := by
  unfold readReservation
  split
  · simp [succeeds_ok, IsReservation, IsString, Json.kind]
  · simp [succeeds_ok, IsReservation, IsInteger, Json.kind]
  · rename_i first last
    have hString : ¬ IsString (.arr [first, last]) := by simp [IsString, Json.kind]
    have hInt : ¬ IsInteger (.arr [first, last]) := by simp [IsInteger, Json.kind]
    rw [succeeds_bind_iff fun _ _ => succeeds_map_iff, succeeds_expectInt_iff,
      succeeds_expectInt_iff]
    simp only [IsReservation, isPair_arr_iff, hString, hInt, false_or]
  · rename_i hString hInt hPair
    refine iff_of_false (not_succeeds_fail _) ?_
    rintro (h | h | ⟨a, b, rfl, -⟩)
    · cases value <;> simp_all [IsString, Json.kind]
    · cases value <;> simp_all [IsInteger, Json.kind]
    · exact hPair a b rfl

theorem succeeds_readVariant_iff (value : Json) :
    Succeeds (readVariant value) ↔ IsVariant value := by
  unfold readVariant
  split
  · rw [succeeds_bind_iff fun _ _ => succeeds_map_iff, succeeds_expectString_iff,
      succeeds_expectInt_iff, IsVariant, isPair_arr_iff]
  · rename_i hPair
    refine iff_of_false (not_succeeds_fail _) ?_
    rintro ⟨a, b, rfl, -⟩
    exact hPair a b rfl

theorem isSome_ofName?_iff (name : String) :
    (Streaming.ofName? name).isSome ↔ name ∈ ["none", "in", "out", "duplex"] := by
  rw [Streaming.ofName?, List.find?_isSome]
  simp [Streaming.all, Streaming.name, eq_comm]

theorem isSome_ofInt?_iff (n : Int) : (Streaming.ofInt? n).isSome ↔ 0 ≤ n ∧ n ≤ 3 := by
  rw [Streaming.ofInt?, List.find?_isSome]
  simp [Streaming.all, Streaming.toNat]
  omega

theorem isSome_streaming?_iff (value : Json) : (streaming? value).isSome ↔ IsStreaming value := by
  cases value with
  | str name => exact (isSome_ofName?_iff name).trans (by simp [IsStreaming])
  | int n => exact (isSome_ofInt?_iff n).trans (by simp [IsStreaming])
  | _ => exact iff_of_false nofun (by simp [IsStreaming])

theorem succeeds_readStreaming_iff (value : Json) :
    Succeeds (readStreaming value) ↔ IsStreaming value := by
  rw [← isSome_streaming?_iff, readStreaming]
  cases streaming? value with
  | none => simp [not_succeeds_failShowing]
  | some streaming => simp [succeeds_ok]

theorem succeeds_readOptions_iff (value : Json) :
    Succeeds (readOptions value) ↔ IsOptions value := by
  cases value with
  | obj entries =>
    have hEntries : Succeeds (readOptionFields entries) ↔ ∀ entry ∈ entries, IsOption entry.2 := by
      induction entries with
      | nil => simp [readOptionFields, succeeds_ok]
      | cons entry entries ih =>
        obtain ⟨name, value⟩ := entry
        rw [readOptionFields, succeeds_bind_iff fun _ _ => succeeds_map_iff, succeeds_under_iff,
          succeeds_readOption_iff, ih, List.forall_mem_cons]
    simp [readOptions, hEntries, IsOptions]
  | _ => simp [readOptions, not_succeeds_fail, IsOptions]

section
variable {fields : List (String × Json)} {name : String} {place : Place}

theorem succeeds_members_iff (h : place.empty = .ok []) :
    Succeeds (readAttribute fields name (.arr []) (readMembers place)) ↔
      Optional IsList name fields ∧
        ∀ item ∈ listed name fields, Succeeds (readMember place item) := by
  rw [readMembers_eq_readList h, succeeds_optional_iff (succeeds_readList_iff fun _ => Iff.rfl)
    ⟨[], rfl⟩, Optional, Optional, listed]
  cases fields.lookup name with
  | none => simp
  | some value => cases value <;> simp [IsListOf, IsList, Json.kind]

theorem succeeds_choices_iff :
    Succeeds (readAttribute fields name (.arr []) (readMembers .choice)) ↔
      listed name fields ≠ [] ∧
        ∀ item ∈ listed name fields, Succeeds (readMember .choice item) := by
  have hEmpty : ¬ Succeeds (readMembers .choice (.arr [])) := by
    rw [readMembers_nil]
    exact not_succeeds_fail _
  rw [readAttribute, succeeds_under_iff, listed]
  cases fields.lookup name with
  | none => simp [hEmpty]
  | some value =>
    rw [Option.getD_some]
    by_cases hValue : value = .arr []
    · simp [hValue, hEmpty]
    · rw [readMembers_of_ne_nil _ hValue, succeeds_readList_iff fun _ => Iff.rfl]
      cases value <;> simp_all [IsListOf]

end

/-- The kind that a place asks for. -/
def Place.Admits : Place → DeclKind → Prop
  | member, _ => True
  | choice, kind => kind = .field
  | operation, kind => kind = .method

theorem objection?_eq_none_iff (place : Place) (decl : Declaration) :
    place.objection? decl = none ↔ place.Admits decl.kind := by
  cases decl with
  | foreign value => exact value.elim
  | _ => cases place <;> simp [Place.objection?, Place.Admits, Decl.kind]

theorem readMember_eq_ok_iff {place : Place} {value : Json} {decl : Declaration} :
    readMember place value = .ok decl ↔
      readDeclaration value = .ok decl ∧ place.Admits decl.kind := by
  have hCheck : ∀ d : Declaration, place.check d = .ok decl ↔ d = decl ∧ place.Admits d.kind := by
    intro d
    rw [← objection?_eq_none_iff, Place.check]
    cases place.objection? d with
    | none => simp
    | some problem => simp [fail]
  rw [readMember, bind_eq_ok_iff]
  simp only [hCheck]
  constructor
  · intro h
    obtain ⟨d, hd, rfl, hAdmits⟩ := h
    exact ⟨hd, hAdmits⟩
  · intro h
    obtain ⟨hd, hAdmits⟩ := h
    exact ⟨decl, hd, rfl, hAdmits⟩

theorem readAttribute_kind_eq_ok_iff {fields : List (String × Json)} {kind : DeclKind} :
    readAttribute fields "kind" .null readKind = .ok kind ↔ HasKind kind.name (.obj fields) := by
  rw [readAttribute_eq_ok_iff (readKind_null_ne_ok _)]
  simp [readKind_eq_ok_iff, HasKind]

theorem hasKind_of_readDeclaration {value : Json} {decl : Declaration}
    (h : readDeclaration value = .ok decl) (kind : DeclKind) :
    HasKind kind.name value ↔ decl.kind = kind := by
  obtain ⟨fields, name, rfl, hKind, -⟩ := readDeclaration_eq_ok_iff.mp h
  have hName : ∀ a b : DeclKind, a.name = b.name ↔ a = b := by
    intro a b
    cases a <;> cases b <;> decide
  simp [HasKind, hKind, hName]

theorem succeeds_readMember_member_iff (value : Json) :
    Succeeds (readMember .member value) ↔ Succeeds (readDeclaration value) := by
  simp [Succeeds, readMember_eq_ok_iff, Place.Admits]

theorem succeeds_readMember_iff {place : Place} {kind : DeclKind}
    (h : ∀ k, place.Admits k ↔ k = kind) (value : Json) :
    Succeeds (readMember place value) ↔
      Succeeds (readDeclaration value) ∧ HasKind kind.name value := by
  simp only [Succeeds, readMember_eq_ok_iff, h]
  constructor
  · intro h
    obtain ⟨decl, hDecl, hKind⟩ := h
    exact ⟨⟨decl, hDecl⟩, (hasKind_of_readDeclaration hDecl kind).mpr hKind⟩
  · intro h
    obtain ⟨⟨decl, hDecl⟩, hKind⟩ := h
    exact ⟨decl, hDecl, (hasKind_of_readDeclaration hDecl kind).mp hKind⟩

section
variable {fields : List (String × Json)}

theorem succeeds_name_iff : Succeeds (readAttribute fields "name" .null expectString) ↔
    Required IsString "name" fields :=
  succeeds_required_iff succeeds_expectString_iff (not_succeeds_fail _)

theorem succeeds_reservations_iff :
    Succeeds (readAttribute fields "reservations" (.arr []) (readList readReservation)) ↔
      Optional (IsListOf IsReservation) "reservations" fields :=
  succeeds_optional_iff (succeeds_readList_iff succeeds_readReservation_iff) ⟨[], rfl⟩

theorem succeeds_package_iff : Succeeds (readAttribute fields "package" .null readPackage) ↔
    Optional IsPackage "package" fields :=
  succeeds_optional_iff succeeds_readPackage_iff ⟨none, rfl⟩

theorem succeeds_imports_iff :
    Succeeds (readAttribute fields "imports" (.arr []) (readList expectString)) ↔
      Optional (IsListOf IsString) "imports" fields :=
  succeeds_optional_iff (succeeds_readList_iff succeeds_expectString_iff) ⟨[], rfl⟩

theorem succeeds_options_iff : Succeeds (readAttribute fields "options" (.obj []) readOptions) ↔
    Optional IsOptions "options" fields :=
  succeeds_optional_iff succeeds_readOptions_iff ⟨[], rfl⟩

end

theorem not_succeeds_readType_null : ¬ Succeeds (readType .null) := by
  rw [succeeds_readType_iff]
  rintro ⟨⟩

section
variable {fields : List (String × Json)} {name : String}

theorem succeeds_message_iff : Succeeds (readDeclarationOf name fields .message) ↔
    (Optional IsList "declarations" fields ∧
      ∀ item ∈ listed "declarations" fields, Succeeds (readDeclaration item)) ∧
      Optional (IsListOf IsReservation) "reservations" fields := by
  rw [readDeclarationOf, succeeds_bind_iff fun _ _ => succeeds_map_iff, succeeds_members_iff rfl,
    succeeds_reservations_iff]
  simp only [succeeds_readMember_member_iff]

theorem succeeds_field_iff : Succeeds (readDeclarationOf name fields .field) ↔
    Required IsType "type" fields ∧ Required IsInteger "index" fields ∧
      Optional IsBoolean "repeated" fields := by
  have hNull : ¬ Succeeds (expectInt .null) := not_succeeds_fail _
  rw [readDeclarationOf, succeeds_map_iff, readField,
    succeeds_bind_iff fun _ _ => succeeds_bind_iff fun _ _ => succeeds_map_iff,
    succeeds_required_iff succeeds_readType_iff not_succeeds_readType_null,
    succeeds_required_iff succeeds_expectInt_iff hNull,
    succeeds_optional_iff succeeds_expectBool_iff ⟨false, rfl⟩]

theorem succeeds_oneof_iff : Succeeds (readDeclarationOf name fields .oneof) ↔
    listed "declarations" fields ≠ [] ∧ ∀ item ∈ listed "declarations" fields,
      Succeeds (readDeclaration item) ∧ HasKind "field" item := by
  rw [readDeclarationOf, succeeds_map_iff, succeeds_choices_iff]
  simp only [succeeds_readMember_iff (fun _ => Iff.rfl : ∀ k, Place.choice.Admits k ↔ k = .field)]
  rfl

theorem succeeds_enum_iff : Succeeds (readDeclarationOf name fields .enum) ↔
    Optional (IsListOf IsVariant) "variants" fields ∧ Optional IsBoolean "allow_alias" fields := by
  have hVariants := succeeds_readList_iff succeeds_readVariant_iff
  rw [readDeclarationOf, succeeds_map_iff, readEnum,
    succeeds_bind_iff fun _ _ => succeeds_map_iff,
    succeeds_optional_iff hVariants ⟨[], rfl⟩,
    succeeds_optional_iff succeeds_expectBool_iff ⟨false, rfl⟩]

theorem succeeds_method_iff : Succeeds (readDeclarationOf name fields .method) ↔
    Optional IsStreaming "stream" fields ∧ Required IsType "input" fields ∧
      Required IsType "returns" fields := by
  have hNone : Succeeds (readStreaming (.str "none")) := by
    rw [succeeds_readStreaming_iff]
    exact .inl ⟨"none", by simp, rfl⟩
  rw [readDeclarationOf, succeeds_map_iff, readMethod,
    succeeds_bind_iff fun _ _ => succeeds_bind_iff fun _ _ => succeeds_map_iff,
    succeeds_optional_iff succeeds_readStreaming_iff hNone,
    succeeds_required_iff succeeds_readType_iff not_succeeds_readType_null,
    succeeds_required_iff succeeds_readType_iff not_succeeds_readType_null]

theorem succeeds_service_iff : Succeeds (readDeclarationOf name fields .service) ↔
    Optional IsList "operations" fields ∧ ∀ item ∈ listed "operations" fields,
      Succeeds (readDeclaration item) ∧ HasKind "method" item := by
  rw [readDeclarationOf, succeeds_map_iff, succeeds_members_iff rfl]
  simp only [succeeds_readMember_iff
    (fun _ => Iff.rfl : ∀ k, Place.operation.Admits k ↔ k = .method)]
  rfl

/-- Where kind and name can be read, it is up to the other attributes. -/
theorem exists_readDeclarationOf (kind : DeclKind) (hKind : HasKind kind.name (.obj fields))
    (hName : Required IsString "name" fields) :
    ∃ name, readDeclaration (.obj fields) = readDeclarationOf name fields kind := by
  obtain ⟨name, hName⟩ := succeeds_name_iff.mpr hName
  refine ⟨name, ?_⟩
  rw [readDeclaration_obj, readAttribute_kind_eq_ok_iff.mpr hKind, hName]
  rfl

theorem succeeds_of_attributes (kind : DeclKind) (hKind : HasKind kind.name (.obj fields))
    (hName : Required IsString "name" fields)
    (h : ∀ name, Succeeds (readDeclarationOf name fields kind)) :
    Succeeds (readDeclaration (.obj fields)) := by
  obtain ⟨name, hRead⟩ := exists_readDeclarationOf kind hKind hName
  rw [hRead]
  exact h name

end

theorem isDeclaration_of_succeeds {fields : List (String × Json)}
    (ih : ∀ name, ∀ item ∈ listed name fields, Succeeds (readDeclaration item) → IsDeclaration item)
    (h : Succeeds (readDeclaration (.obj fields))) : IsDeclaration (.obj fields) := by
  obtain ⟨decl, hDecl⟩ := h
  obtain ⟨_, name, hFields, hKind, hName, hAttributes⟩ := readDeclaration_eq_ok_iff.mp hDecl
  obtain rfl := Json.obj.inj hFields
  have hName : Required IsString "name" fields := ⟨_, hName, rfl⟩
  have hAttributes : Succeeds (readDeclarationOf name fields decl.kind) := ⟨decl, hAttributes⟩
  cases hk : decl.kind <;> rw [hk] at hKind hAttributes
  case message =>
    obtain ⟨⟨hList, hMembers⟩, hReservations⟩ := succeeds_message_iff.mp hAttributes
    exact .message ⟨_, rfl, hKind⟩ hName hList
      (fun item hItem => ih _ item hItem (hMembers item hItem)) hReservations
  case field =>
    obtain ⟨hType, hIndex, hRepeated⟩ := succeeds_field_iff.mp hAttributes
    exact .field ⟨_, rfl, hKind⟩ hName hType hIndex hRepeated
  case oneof =>
    obtain ⟨hNonempty, hMembers⟩ := succeeds_oneof_iff.mp hAttributes
    exact .oneof ⟨_, rfl, hKind⟩ hName hNonempty
      (fun item hItem => ih _ item hItem (hMembers item hItem).1)
      (fun item hItem => (hMembers item hItem).2)
  case enum =>
    obtain ⟨hVariants, hAlias⟩ := succeeds_enum_iff.mp hAttributes
    exact .enum ⟨_, rfl, hKind⟩ hName hVariants hAlias
  case method =>
    obtain ⟨hStream, hInput, hReturns⟩ := succeeds_method_iff.mp hAttributes
    exact .method ⟨_, rfl, hKind⟩ hName hInput hReturns hStream
  case service =>
    obtain ⟨hList, hOperations⟩ := succeeds_service_iff.mp hAttributes
    exact .service ⟨_, rfl, hKind⟩ hName hList
      (fun item hItem => ih _ item hItem (hOperations item hItem).1)
      (fun item hItem => (hOperations item hItem).2)

theorem succeeds_readDeclaration_iff (value : Json) :
    Succeeds (readDeclaration value) ↔ IsDeclaration value := by
  constructor
  · induction value using induct with
    | obj fields ih => exact isDeclaration_of_succeeds ih
    | other value hKind =>
      rintro ⟨decl, h⟩
      obtain ⟨fields, name, rfl, -⟩ := readDeclaration_eq_ok_iff.mp h
      exact absurd rfl hKind
  · intro h
    induction h with
    | message kind name list _ reservations ih =>
      exact succeeds_of_attributes .message kind name fun _ =>
        succeeds_message_iff.mpr ⟨⟨list, ih⟩, reservations⟩
    | field kind name type index repeated =>
      exact succeeds_of_attributes .field kind name fun _ =>
        succeeds_field_iff.mpr ⟨type, index, repeated⟩
    | oneof kind name nonempty _ fieldsOnly ih =>
      exact succeeds_of_attributes .oneof kind name fun _ => succeeds_oneof_iff.mpr
        ⟨nonempty, fun item hItem => ⟨ih item hItem, fieldsOnly item hItem⟩⟩
    | enum kind name variants allowAlias =>
      exact succeeds_of_attributes .enum kind name fun _ =>
        succeeds_enum_iff.mpr ⟨variants, allowAlias⟩
    | method kind name input returns stream =>
      exact succeeds_of_attributes .method kind name fun _ =>
        succeeds_method_iff.mpr ⟨stream, input, returns⟩
    | service kind name list _ methodsOnly ih =>
      exact succeeds_of_attributes .service kind name fun _ => succeeds_service_iff.mpr
        ⟨list, fun item hItem => ⟨ih item hItem, methodsOnly item hItem⟩⟩

theorem succeeds_readSchema_iff (value : Json) :
    Succeeds (readSchema value) ↔ IsSchema value := by
  have hDeclarations := succeeds_readList_iff fun value =>
    (succeeds_readMember_member_iff value).trans (succeeds_readDeclaration_iff value)
  have hFields : ∀ fields, Succeeds (readSchema (.obj fields)) ↔
      Optional IsPackage "package" fields ∧ Optional (IsListOf IsString) "imports" fields ∧
        Optional IsOptions "options" fields ∧
        Optional (IsListOf IsDeclaration) "declarations" fields := by
    intro fields
    rw [readSchema_obj, readMembers_eq_readList rfl,
      succeeds_bind_iff fun _ _ => succeeds_bind_iff fun _ _ => succeeds_bind_iff fun _ _ =>
        succeeds_map_iff,
      succeeds_package_iff, succeeds_imports_iff, succeeds_options_iff,
      succeeds_optional_iff hDeclarations ⟨[], rfl⟩]
  constructor
  · intro h
    cases value with
    | obj fields =>
      obtain ⟨hPackage, hImports, hOptions, hDeclarations⟩ := (hFields fields).mp h
      exact .file hPackage hImports hOptions hDeclarations
    | _ => exact absurd h (not_succeeds_fail _)
  · intro h
    obtain ⟨hPackage, hImports, hOptions, hDeclarations⟩ := h
    exact (hFields _).mpr ⟨hPackage, hImports, hOptions, hDeclarations⟩

/-- Reading a document gives a schema if the document obeys the rules, and an error if not. -/
theorem readSchema_eq_ok_iff (document : Json) :
    ((∃ schema, readSchema document = .ok schema) ↔ IsSchema document) ∧
      ((∃ error, readSchema document = .error error) ↔ ¬ IsSchema document) := by
  have h := succeeds_readSchema_iff document
  refine ⟨h, ?_⟩
  rw [← h]
  cases readSchema document with
  | ok schema => simp [succeeds_ok]
  | error error => simp [Succeeds]

end ProtoSchema.Document
