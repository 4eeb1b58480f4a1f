import Mathlib.Logic.Relation
import ProtoSchema.Assoc
import ProtoSchema.Proofs.Document.Breakdowns
import ProtoSchema.Proofs.Document.Canonical

/-!
Changes to a document that reading does not see: to what is not read of a file or a declaration, to
the order of their attributes, and between a default and no attribute. Two documents that such
changes lead to each other have the same schema or the same error. A type does not put up with
anything beside a map.
-/
namespace ProtoSchema

/-- What is read of a declaration of this kind, besides its kind and its name. -/
def DeclKind.attributes : DeclKind → List String
  | message => ["declarations", "reservations"]
  | field => ["type", "index", "repeated"]
  | oneof => ["declarations"]
  | enum => ["variants", "allow_alias"]
  | method => ["stream", "input", "returns"]
  | service => ["operations"]

namespace Document

/-- What is read of an object in the place of a declaration. -/
def readOf (fields : List (String × Json)) : List String :=
  "kind" :: "name" :: ((kindOf? fields).map DeclKind.attributes).getD []

/-- What is read of a file. -/
def schemaAttributes : List String := ["package", "imports", "options", "declarations"]

/-- The values that say the same as no attribute of this name. -/
def defaults : String → List Json
  | "package" => [.null]
  | "options" => [.obj []]
  | "imports" | "declarations" | "reservations" | "variants" | "operations" => [.arr []]
  | "repeated" | "allow_alias" => [.bool false]
  | "stream" => [.str "none", .int 0]
  | _ => []

/-- One change to an object of which these attributes are read. To leave an attribute out is the
same change the other way round. -/
inductive Revises (read : List String) : List (String × Json) → List (String × Json) → Prop where
  | permute {fields fields' : List (String × Json)} (distinct : (fields.map Prod.fst).Nodup)
    (perm : fields.Perm fields') : Revises read fields fields'
  | add {before after : List (String × Json)} {name : String} {value : Json}
    (unread : name ∉ read) : Revises read (before ++ after) (before ++ (name, value) :: after)
  | alter {before after : List (String × Json)} {name : String} {old new : Json}
    (unread : name ∉ read) :
    Revises read (before ++ (name, old) :: after) (before ++ (name, new) :: after)
  | addDefault {before after : List (String × Json)} {name : String} {value : Json}
    (absent : (before ++ after).lookup name = none) (isDefault : value ∈ defaults name) :
    Revises read (before ++ after) (before ++ (name, value) :: after)

/-- The objects differ in one item of a list that they hold under this name. -/
def Replaces (list : String) (item item' : Json) (fields fields' : List (String × Json)) : Prop :=
  ∃ before after earlier later, before.lookup list = none ∧
    fields = before ++ (list, .arr (earlier ++ item :: later)) :: after ∧
    fields' = before ++ (list, .arr (earlier ++ item' :: later)) :: after

/-- One change to a declaration or to one in it, at any depth. -/
inductive DeclarationChange : Json → Json → Prop where
  | here {fields fields' : List (String × Json)}
    (revises : Revises (readOf fields) fields fields') :
    DeclarationChange (.obj fields) (.obj fields')
  | inside {fields fields' : List (String × Json)} {kind : DeclKind} {list : String} {place : Place}
    {item item' : Json} (hasKind : kindOf? fields = some kind)
    (listing : kind.listing? = some (list, place))
    (replaces : Replaces list item item' fields fields') (change : DeclarationChange item item') :
    DeclarationChange (.obj fields) (.obj fields')

/-- One change to a file or to a declaration in it. -/
inductive SchemaChange : Json → Json → Prop where
  | here {fields fields' : List (String × Json)}
    (revises : Revises schemaAttributes fields fields') : SchemaChange (.obj fields) (.obj fields')
  | inside {fields fields' : List (String × Json)} {item item' : Json}
    (replaces : Replaces "declarations" item item' fields fields')
    (change : DeclarationChange item item') : SchemaChange (.obj fields) (.obj fields')

/-- The attributes that hold declarations. -/
def declarationLists : List String := ["declarations", "operations"]

/-- What two objects hold under a name, as far as reading tells it apart: the same, a default or
nothing, or lists of which one item differs, which is read alike. -/
inductive Alike (name : String) : Option Json → Option Json → Prop where
  | same (value? : Option Json) : Alike name value? value?
  | default {value : Json} (isDefault : value ∈ defaults name) : Alike name none (some value)
  | item {earlier later : List Json} {item item' : Json} (isList : name ∈ declarationLists)
    (read : readDeclaration item = readDeclaration item') :
    Alike name (some (.arr (earlier ++ item :: later))) (some (.arr (earlier ++ item' :: later)))

section
variable {fields fields' : List (String × Json)} {name : String}

theorem lookup_append_cons_of_ne {before after : List (String × Json)} {other : String}
    (h : name ≠ other) (value : Json) :
    (before ++ (other, value) :: after).lookup name = (before ++ after).lookup name := by
  rw [List.lookup_append, List.lookup_append, List.lookup_cons, beq_false_of_ne h]

theorem lookup_append_cons_self {before : List (String × Json)} (h : before.lookup name = none)
    (value : Json) (after : List (String × Json)) :
    (before ++ (name, value) :: after).lookup name = some value := by
  rw [List.lookup_append, h, Option.none_or, List.lookup_cons, beq_self_eq_true]

theorem Revises.alike {read : List String} (h : Revises read fields fields') (hName : name ∈ read) :
    Alike name (fields.lookup name) (fields'.lookup name) := by
  cases h with
  | permute distinct perm =>
    rw [Assoc.lookup_eq_of_perm distinct perm]
    exact .same _
  | add unread =>
    have hNe := ne_of_mem_of_not_mem hName unread
    rw [lookup_append_cons_of_ne hNe]
    exact .same _
  | alter unread =>
    have hNe := ne_of_mem_of_not_mem hName unread
    rw [lookup_append_cons_of_ne hNe, lookup_append_cons_of_ne hNe]
    exact .same _
  | @addDefault before after other value absent isDefault =>
    by_cases hEq : name = other
    · subst hEq
      have hBefore : before.lookup name = none := by
        rw [List.lookup_append, Option.or_eq_none_iff] at absent
        exact absent.1
      rw [absent, lookup_append_cons_self hBefore]
      exact .default isDefault
    · rw [lookup_append_cons_of_ne hEq]
      exact .same _

theorem Replaces.alike {list : String} {item item' : Json}
    (h : Replaces list item item' fields fields') (hList : list ∈ declarationLists)
    (hRead : readDeclaration item = readDeclaration item') (name : String) :
    Alike name (fields.lookup name) (fields'.lookup name) := by
  obtain ⟨before, after, earlier, later, hBefore, rfl, rfl⟩ := h
  by_cases hName : name = list
  · subst hName
    rw [lookup_append_cons_self hBefore, lookup_append_cons_self hBefore]
    exact .item hList hRead
  · rw [lookup_append_cons_of_ne hName, lookup_append_cons_of_ne hName]
    exact .same _

end

theorem readItems_congr {α : Type} {read : Json → Result α} {item item' : Json}
    (h : read item = read item') (earlier later : List Json) (i : Nat) :
    readItems read i (earlier ++ item :: later) = readItems read i (earlier ++ item' :: later) := by
  induction earlier generalizing i with
  | nil => rw [List.nil_append, List.nil_append, readItems, readItems, h]
  | cons first earlier ih => rw [List.cons_append, List.cons_append, readItems, readItems, ih]

section
variable {α : Type} {fields fields' : List (String × Json)} {name : String}

theorem readAttribute_congr (absent : Json) (read : Json → Result α)
    (h : Alike name (fields.lookup name) (fields'.lookup name)) (hName : name ∉ declarationLists)
    (hDefault : ∀ value ∈ defaults name, read value = read absent) :
    readAttribute fields name absent read = readAttribute fields' name absent read := by
  unfold readAttribute
  generalize fields.lookup name = value?, fields'.lookup name = other? at h
  cases h with
  | same => rfl
  | default isDefault => rw [Option.getD_none, Option.getD_some, hDefault _ isDefault]
  | item isList => exact absurd isList hName

theorem readMembers_congr (place : Place)
    (h : Alike name (fields.lookup name) (fields'.lookup name)) (hName : name ∈ declarationLists) :
    readAttribute fields name (.arr []) (readMembers place) =
      readAttribute fields' name (.arr []) (readMembers place) := by
  unfold readAttribute
  generalize fields.lookup name = value?, fields'.lookup name = other? at h
  cases h with
  | same => rfl
  | default isDefault =>
    have hDefaults : ∀ list ∈ declarationLists, defaults list = [.arr []] := by decide
    rw [hDefaults name hName, List.mem_singleton] at isDefault
    rw [Option.getD_none, Option.getD_some, isDefault]
  | item isList hRead =>
    have hMember : ∀ {item item'}, readDeclaration item = readDeclaration item' →
        readMember place item = readMember place item' := by
      intro item item' hItem
      rw [readMember, readMember, hItem]
    -- Neither list is empty, so the answer for an empty one is in no place that matters.
    have hNe : ∀ earlier (item : Json) later, Json.arr (earlier ++ item :: later) ≠ .arr [] := by
      simp
    rw [Option.getD_some, Option.getD_some, readMembers_of_ne_nil _ (hNe _ _ _),
      readMembers_of_ne_nil _ (hNe _ _ _), readList, readList, readItems_congr (hMember hRead)]

/-- Attributes that are alike are read alike. -/
theorem readDeclarationOf_congr {kind : DeclKind}
    (h : ∀ key ∈ kind.attributes, Alike key (fields.lookup key) (fields'.lookup key)) :
    readDeclarationOf name fields kind = readDeclarationOf name fields' kind := by
  cases kind with
  | message =>
    have hMembers := readMembers_congr .member (h "declarations" (by decide)) (by decide)
    have hReservations := readAttribute_congr (.arr []) (readList readReservation)
      (h "reservations" (by decide)) (by decide) (by simp [defaults])
    rw [readDeclarationOf, readDeclarationOf, hMembers, hReservations]
  | field =>
    have hType := readAttribute_congr .null readType
      (h "type" (by decide)) (by decide) (by simp [defaults])
    have hIndex := readAttribute_congr .null expectInt
      (h "index" (by decide)) (by decide) (by simp [defaults])
    have hRepeated := readAttribute_congr (.bool false) expectBool
      (h "repeated" (by decide)) (by decide) (by simp [defaults])
    rw [readDeclarationOf, readDeclarationOf, readField, readField, hType, hIndex, hRepeated]
  | oneof =>
    have hMembers := readMembers_congr .choice (h "declarations" (by decide)) (by decide)
    rw [readDeclarationOf, readDeclarationOf, hMembers]
  | enum =>
    have hVariants := readAttribute_congr (.arr []) (readList readVariant)
      (h "variants" (by decide)) (by decide) (by simp [defaults])
    have hAlias := readAttribute_congr (.bool false) expectBool
      (h "allow_alias" (by decide)) (by decide) (by simp [defaults])
    rw [readDeclarationOf, readDeclarationOf, readEnum, readEnum, hVariants, hAlias]
  | method =>
    have hZero : readStreaming (.int 0) = readStreaming (.str "none") := rfl
    have hStream := readAttribute_congr (.str "none") readStreaming
      (h "stream" (by decide)) (by decide) (by simp [defaults, hZero])
    have hInput := readAttribute_congr .null readType
      (h "input" (by decide)) (by decide) (by simp [defaults])
    have hReturns := readAttribute_congr .null readType
      (h "returns" (by decide)) (by decide) (by simp [defaults])
    rw [readDeclarationOf, readDeclarationOf, readMethod, readMethod, hStream, hInput, hReturns]
  | service =>
    have hOperations := readMembers_congr .operation (h "operations" (by decide)) (by decide)
    rw [readDeclarationOf, readDeclarationOf, hOperations]

theorem kindOf?_of_readKind {kind : DeclKind}
    (h : readAttribute fields "kind" .null readKind = .ok kind) : kindOf? fields = some kind := by
  obtain ⟨_, hFields, hKind⟩ := readAttribute_kind_eq_ok_iff.mp h
  cases hFields
  exact kindOf?_eq_some hKind

theorem readDeclaration_congr
    (h : ∀ key ∈ readOf fields, Alike key (fields.lookup key) (fields'.lookup key)) :
    readDeclaration (.obj fields) = readDeclaration (.obj fields') := by
  have hKind := readAttribute_congr .null readKind
    (h "kind" List.mem_cons_self) (by decide) (by simp [defaults])
  have hName := readAttribute_congr .null expectString
    (h "name" (List.mem_cons_of_mem _ List.mem_cons_self)) (by decide) (by simp [defaults])
  rw [readDeclaration_obj, readDeclaration_obj, ← hKind, ← hName]
  cases hRead : readAttribute fields "kind" .null readKind with
  | error error => rfl
  | ok kind =>
    -- The kind that was read is the one whose attributes `readOf` lists.
    refine bind_congr (x := readAttribute fields "name" .null expectString) fun name => ?_
    refine readDeclarationOf_congr fun key hKey => h key ?_
    rw [readOf, kindOf?_of_readKind hRead]
    exact List.mem_cons_of_mem _ (List.mem_cons_of_mem _ hKey)

theorem readSchema_congr
    (h : ∀ key ∈ schemaAttributes, Alike key (fields.lookup key) (fields'.lookup key)) :
    readSchema (.obj fields) = readSchema (.obj fields') := by
  have hPackage := readAttribute_congr .null readPackage
    (h "package" (by decide)) (by decide) (by simp [defaults])
  have hImports := readAttribute_congr (.arr []) (readList expectString)
    (h "imports" (by decide)) (by decide) (by simp [defaults])
  have hOptions := readAttribute_congr (.obj []) readOptions
    (h "options" (by decide)) (by decide) (by simp [defaults])
  have hDeclarations := readMembers_congr .member (h "declarations" (by decide)) (by decide)
  rw [readSchema_obj, readSchema_obj, hPackage, hImports, hOptions, hDeclarations]

end

theorem mem_declarationLists_of_listing? {kind : DeclKind} {list : String} {place : Place}
    (h : kind.listing? = some (list, place)) : list ∈ declarationLists := by
  cases kind <;> cases h <;> decide

/-- One change to a declaration does not show. -/
theorem DeclarationChange.readDeclaration_eq {value value' : Json}
    (h : DeclarationChange value value') : readDeclaration value = readDeclaration value' := by
  induction h with
  | here revises => exact readDeclaration_congr fun _ hKey => revises.alike hKey
  | inside _ listing replaces _ ih =>
    have hList := mem_declarationLists_of_listing? listing
    exact readDeclaration_congr fun key _ => replaces.alike hList ih key

/-- One change to a file does not show. -/
theorem SchemaChange.readSchema_eq {document document' : Json}
    (h : SchemaChange document document') : readSchema document = readSchema document' := by
  cases h with
  | here revises => exact readSchema_congr fun _ hKey => revises.alike hKey
  | inside replaces change =>
    have hRead := change.readDeclaration_eq
    exact readSchema_congr fun key _ => replaces.alike (by decide) hRead key

/-- A type, or one in it, is an object with a key beside `map`. -/
inductive HasExtraKey : Json → Prop where
  | here {fields : List (String × Json)} {field : String × Json} (mem : field ∈ fields)
    (extra : field.1 ≠ "map") : HasExtraKey (.obj fields)
  | key {k v : Json} (inKey : HasExtraKey k) : HasExtraKey (.obj [("map", .arr [k, v])])
  | value {k v : Json} (inValue : HasExtraKey v) : HasExtraKey (.obj [("map", .arr [k, v])])

theorem readType_of_extra {fields : List (String × Json)} {field : String × Json}
    (hMem : field ∈ fields) (hExtra : field.1 ≠ "map") :
    readType (.obj fields) = fail .invalidType := by
  unfold readType
  split
  · rename_i hFields
    cases hFields
  · rename_i name types hFields
    cases hFields
    rw [List.mem_singleton.mp hMem] at hExtra
    rw [if_neg hExtra]
  · rfl

theorem not_succeeds_of_hasExtraKey {value : Json} (h : HasExtraKey value) :
    ¬ Succeeds (readType value) := by
  induction h with
  | here mem extra =>
    rw [readType_of_extra mem extra]
    exact not_succeeds_fail _
  | key _ ih =>
    rintro ⟨type, h⟩
    obtain ⟨key, _, hKey, -⟩ := readType_map_eq_ok_iff.mp h
    exact ih ⟨key, hKey⟩
  | value _ ih =>
    rintro ⟨type, h⟩
    obtain ⟨_, valueType, -, -, hValue, -⟩ := readType_map_eq_ok_iff.mp h
    exact ih ⟨valueType, hValue⟩

/-- Documents that any number of changes lead to each other are read as the same schema or fail with
the same error at the same place. A type with a key beside `map` is refused, and so is every type
around it. -/
theorem read_eq_of_changes :
    (∀ document document', Relation.EqvGen SchemaChange document document' →
      readSchema document = readSchema document') ∧
    (∀ (fields : List (String × Json)) (field : String × Json), field ∈ fields →
      field.1 ≠ "map" → readType (.obj fields) = fail .invalidType) ∧
    ∀ value, HasExtraKey value → ¬ Succeeds (readType value) := by
  refine ⟨fun document document' h => ?_, fun _ _ => readType_of_extra,
    fun _ => not_succeeds_of_hasExtraKey⟩
  induction h with
  | rel _ _ change => exact change.readSchema_eq
  | refl => rfl
  | symm _ _ _ ih => exact ih.symm
  | trans _ _ _ _ _ ih ih' => exact ih.trans ih'

/-- An object whose last attribute is a list of one declaration. -/
def around (fields : List (String × Json)) (item : Json) : Json :=
  .obj (fields ++ [("declarations", .arr [item])])

/-- A field with a text for its index, and with these attributes besides. -/
def quotedField (rest : List (String × Json)) : Json :=
  .obj ([("kind", .str "field"), ("name", .str "f"), ("type", .str "int32"), ("index", .str "1")] ++
    rest)

def scantFile : Json :=
  around [] (around [("kind", .str "message"), ("name", .str "M")] (quotedField []))

/-- The same file with attributes that say nothing and with a message that begins with its name. -/
def wordyFile : Json :=
  around [("package", .null)] (around
    [("name", .str "M"), ("kind", .str "message"), ("operations", .int 7)]
    (quotedField [("repeated", .bool false)]))

def commentedMap : List (String × Json) :=
  [("map", .arr [.str "string", .str "bytes"]), ("comment", .null)]

/-- A map of maps, the inner one of which has a comment. -/
def commentedType : Json := .obj [("map", .arr [.str "string", .obj commentedMap])]

/-- The changes are made at the file, at the message and at the field, and the error stays. -/
theorem read_eq_of_changes_wordyFile :
    Relation.EqvGen SchemaChange scantFile wordyFile ∧
    readSchema scantFile = readSchema wordyFile ∧
    readSchema wordyFile = .error (.located
      [.key "declarations", .index 0, .key "declarations", .index 0, .key "index"]
      (.unexpected .integer .str)) ∧
    readType (.obj commentedMap) = fail .invalidType ∧
    HasExtraKey commentedType ∧ ¬ Succeeds (readType commentedType) := by
  have hField : DeclarationChange (quotedField []) (quotedField [("repeated", .bool false)]) :=
    .here (@Revises.addDefault _ _ [] "repeated" _ rfl (by decide))
  have hNested := @DeclarationChange.inside [("kind", .str "message"), ("name", .str "M"),
    ("declarations", .arr [quotedField []])] _ .message "declarations" .member _ _ rfl rfl
    ⟨[("kind", .str "message"), ("name", .str "M")], [], [], [], rfl, rfl, rfl⟩ hField
  have hUnread := DeclarationChange.here (@Revises.add _
    [("kind", .str "message"), ("name", .str "M")]
    [("declarations", .arr [quotedField [("repeated", .bool false)]])] "operations" (.int 7)
    (by decide))
  have hOrder := DeclarationChange.here (@Revises.permute (readOf _) _
    (("name", .str "M") :: ("kind", .str "message") :: ("operations", .int 7) ::
      [("declarations", .arr [quotedField [("repeated", .bool false)]])]) (by decide) (.swap _ _ _))
  have hInFile : ∀ {message message'}, DeclarationChange message message' →
      Relation.EqvGen SchemaChange (around [] message) (around [] message') :=
    fun change => .rel _ _ (.inside ⟨[], [], [], [], rfl, rfl, rfl⟩ change)
  have hPackage : SchemaChange (around [] _) wordyFile :=
    .here (@Revises.addDefault _ [] _ "package" .null rfl (by decide))
  have hChanges : Relation.EqvGen SchemaChange scantFile wordyFile :=
    (hInFile hNested).trans _ _ _ ((hInFile hUnread).trans _ _ _
      ((hInFile hOrder).trans _ _ _ (.rel _ _ hPackage)))
  have hMem : ("comment", .null) ∈ commentedMap := List.mem_cons_of_mem _ List.mem_cons_self
  have hExtra : HasExtraKey commentedType := .value (.here hMem (by decide))
  exact ⟨hChanges, read_eq_of_changes.1 _ _ hChanges, rfl,
    read_eq_of_changes.2.1 _ _ hMem (by decide), hExtra, read_eq_of_changes.2.2 _ hExtra⟩

end Document
end ProtoSchema
