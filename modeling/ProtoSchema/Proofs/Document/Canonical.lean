import ProtoSchema.Json.Equality
import ProtoSchema.Proofs.Document.Accepted
import ProtoSchema.Schema.Equality

/-! The canonical form of a document, by rules that mention neither reading nor writing, and that
writing what has been read from a document gives this form. -/
namespace ProtoSchema.Document

/-- What an object holds under a name, or what stands for it if there is nothing. -/
def valueOf (name : String) (absent : Json) (fields : List (String × Json)) : Json :=
  (fields.lookup name).getD absent

/-- The number of a streaming mode becomes its name. -/
def canonicalStreaming (value : Json) : Json :=
  if value = .int 0 then .str "none"
  else if value = .int 1 then .str "in"
  else if value = .int 2 then .str "out"
  else if value = .int 3 then .str "duplex"
  else value

/-- The kind that an object names. -/
def kindOf? (fields : List (String × Json)) : Option DeclKind :=
  match fields.lookup "kind" with
  | some (.str name) => DeclKind.ofName? name
  | _ => none

mutual

/-- A declaration with all attributes of its kind, in a fixed order, and no others. Attributes stay
as they are, but for declarations in them and numbers of streaming modes. -/
def canonicalDeclaration : Json → Json
  | .obj fields =>
    let name := ("name", valueOf "name" .null fields)
    match kindOf? fields with
    | some .message =>
      .obj [("kind", .str "message"), name,
        ("declarations", .arr (canonicalListed "declarations" fields)),
        ("reservations", valueOf "reservations" (.arr []) fields)]
    | some .field =>
      .obj [("kind", .str "field"), name, ("type", valueOf "type" .null fields),
        ("index", valueOf "index" .null fields),
        ("repeated", valueOf "repeated" (.bool false) fields)]
    | some .oneof =>
      .obj [("kind", .str "oneof"), name,
        ("declarations", .arr (canonicalListed "declarations" fields))]
    | some .enum =>
      .obj [("kind", .str "enum"), name, ("variants", valueOf "variants" (.arr []) fields),
        ("allow_alias", valueOf "allow_alias" (.bool false) fields)]
    | some .method =>
      .obj [("kind", .str "method"), name, ("input", valueOf "input" .null fields),
        ("returns", valueOf "returns" .null fields),
        ("stream", canonicalStreaming (valueOf "stream" (.str "none") fields))]
    | some .service =>
      .obj [("kind", .str "service"), name,
        ("operations", .arr (canonicalListed "operations" fields))]
    | none => .obj fields
  | value => value

/-- The canonical forms of the declarations under this name. -/
def canonicalListed (name : String) : List (String × Json) → List Json
  | [] => []
  | (key, value) :: fields =>
    if key = name then canonicalItems value else canonicalListed name fields

def canonicalItems : Json → List Json
  | .arr items => canonicalEach items
  | _ => []

def canonicalEach : List Json → List Json
  | [] => []
  | item :: items => canonicalDeclaration item :: canonicalEach items

end

/-- A file with all its parts in a fixed order, except a package that is absent or null. -/
def canonical : Json → Json
  | .obj fields =>
    let package := valueOf "package" .null fields
    .obj ((if package = .null then [] else [("package", package)]) ++
      [("imports", valueOf "imports" (.arr []) fields),
        ("options", valueOf "options" (.obj []) fields),
        ("declarations", .arr (canonicalListed "declarations" fields))])
  | value => value

theorem canonicalEach_eq_map (items : List Json) :
    canonicalEach items = items.map canonicalDeclaration := by
  induction items with
  | nil => rw [canonicalEach, List.map_nil]
  | cons item items ih => rw [canonicalEach, List.map_cons, ih]

theorem canonicalListed_eq_map (name : String) (fields : List (String × Json)) :
    canonicalListed name fields = (listed name fields).map canonicalDeclaration := by
  induction fields with
  | nil => rw [canonicalListed]; rfl
  | cons field fields ih =>
    obtain ⟨key, value⟩ := field
    rw [canonicalListed, listed, List.lookup_cons]
    by_cases h : key = name
    · rw [if_pos h, h, beq_self_eq_true]
      cases value with
      | arr items => rw [canonicalItems, canonicalEach_eq_map]
      | _ => simp [canonicalItems]
    · rw [if_neg h, ih, listed, beq_false_of_ne (Ne.symm h)]

theorem kindOf?_eq_some {fields : List (String × Json)} {kind : DeclKind}
    (h : fields.lookup "kind" = some (.str kind.name)) : kindOf? fields = some kind := by
  rw [kindOf?, h]
  exact DeclKind.ofName?_eq_some_iff.mpr rfl

section
variable {α : Type} {read : Json → Result α} {write : α → Json}

/-- Items that are written as they were read. -/
theorem write_of_readList (h : ∀ value a, read value = .ok a → write a = value) {value : Json}
    {as : List α} (hRead : readList read value = .ok as) : .arr (as.map write) = value := by
  obtain ⟨items, rfl, hItems⟩ := readList_eq_ok_iff.mp hRead
  clear hRead
  congr 1
  induction hItems with
  | nil => rfl
  | cons hHead _ hTail => rw [List.map_cons, h _ _ hHead, hTail]

theorem write_of_readAttribute (h : ∀ value a, read value = .ok a → write a = value)
    {fields : List (String × Json)} {name : String} {absent : Json} {a : α}
    (hRead : readAttribute fields name absent read = .ok a) :
    write a = valueOf name absent fields :=
  h _ _ (under_eq_ok_iff.mp hRead)

end

theorem ofType_named (name : String) : ofType (.named name) = .str name := by
  unfold TypeExpr.named
  split <;> rfl

theorem ofType_of_readType (value : Json) (type : TypeExpr) (h : readType value = .ok type) :
    ofType type = value := by
  induction type generalizing value with
  | map key valueType hKey hValue =>
    obtain ⟨name, rfl, hType⟩ | ⟨k, v, _, _, rfl, hk, -, hv, hType⟩ := readType_eq_ok_iff.mp h
    · rw [hType, ofType_named]
    · cases hType
      rw [ofType, hKey k hk, hValue v hv]
  | _ =>
    obtain ⟨name, rfl, hType⟩ | ⟨_, _, _, _, -, -, -, -, hType⟩ := readType_eq_ok_iff.mp h
    · rw [hType, ofType_named]
    · cases hType

theorem int_of_expectInt (value : Json) (n : Int) (h : expectInt value = .ok n) :
    .int n = value := by
  cases value <;> simp_all [expectInt, fail]

theorem bool_of_expectBool (value : Json) (b : Bool) (h : expectBool value = .ok b) :
    .bool b = value := by
  cases value <;> simp_all [expectBool, fail]

theorem str_of_expectString (value : Json) (s : String) (h : expectString value = .ok s) :
    .str s = value :=
  (expectString_eq_ok_iff.mp h).symm

theorem ofReservation_of_readReservation (value : Json) (reservation : Reservation)
    (h : readReservation value = .ok reservation) : ofReservation reservation = value := by
  unfold readReservation at h
  split at h
  · cases h; rfl
  · cases h; rfl
  · obtain ⟨first, hFirst, h⟩ := bind_eq_ok_iff.mp h
    obtain ⟨last, hLast, h⟩ := bind_eq_ok_iff.mp h
    cases h
    rw [ofReservation, int_of_expectInt _ _ hFirst, int_of_expectInt _ _ hLast]
  · cases h

theorem ofVariant_of_readVariant (value : Json) (variant : Variant)
    (h : readVariant value = .ok variant) : ofVariant variant = value := by
  unfold readVariant at h
  split at h
  · obtain ⟨name, hName, h⟩ := bind_eq_ok_iff.mp h
    obtain ⟨number, hNumber, h⟩ := bind_eq_ok_iff.mp h
    cases h
    rw [ofVariant, str_of_expectString _ _ hName, int_of_expectInt _ _ hNumber]
  · cases h

theorem name_of_readStreaming (value : Json) (streaming : Streaming)
    (h : readStreaming value = .ok streaming) :
    .str streaming.name = canonicalStreaming value := by
  obtain ⟨name, hName, rfl⟩ | ⟨n, rfl, hMin, hMax⟩ :=
    (succeeds_readStreaming_iff value).mp ⟨streaming, h⟩
  · simp only [List.mem_cons, List.not_mem_nil, or_false] at hName
    rcases hName with rfl | rfl | rfl | rfl <;> cases h <;> rfl
  · obtain rfl | rfl | rfl | rfl : n = 0 ∨ n = 1 ∨ n = 2 ∨ n = 3 := by omega
    all_goals cases h; rfl

theorem ofOption_of_readOption (value : Json) (option : OptionValue)
    (h : readOption value = .ok option) : ofOption option = value := by
  cases value <;> cases h <;> rfl

theorem ofOption_of_readOptions (value : Json) (options : List (String × OptionValue))
    (h : readOptions value = .ok options) :
    .obj (options.map fun (name, value) => (name, ofOption value)) = value := by
  cases value with
  | obj fields =>
    congr 1
    rw [readOptions] at h
    induction fields generalizing options with
    | nil => cases h; rfl
    | cons field fields ih =>
      obtain ⟨name, value⟩ := field
      obtain ⟨option, hOption, h⟩ := bind_eq_ok_iff.mp h
      obtain ⟨rest, hRest, h⟩ := bind_eq_ok_iff.mp h
      cases h
      have hWritten := ofOption_of_readOption value option (under_eq_ok_iff.mp hOption)
      rw [List.map_cons, ih rest hRest, ← hWritten]
  | _ => cases h

section
variable {fields : List (String × Json)}

theorem ofDeclarations_of_readMembers {name : String} {place : Place} {decls : List Declaration}
    (ih : ∀ item ∈ listed name fields, ∀ decl, readDeclaration item = .ok decl →
      ofDeclaration decl = canonicalDeclaration item)
    (h : readAttribute fields name (.arr []) (readMembers place) = .ok decls) :
    ofDeclarations decls = canonicalListed name fields := by
  have hItems := (readMembers_eq_ok h).1
  clear h
  rw [ofDeclarations_eq_map, canonicalListed_eq_map]
  generalize listed name fields = items at ih hItems
  induction hItems with
  | nil => rfl
  | cons hHead _ hTail =>
    rw [List.forall_mem_cons] at ih
    rw [List.map_cons, List.map_cons, ih.1 _ hHead.1, hTail ih.2]

theorem map_method_filterMap {decls : List Declaration} (h : ∀ decl ∈ decls, decl.kind = .method) :
    (decls.filterMap methodOf?).map (Decl.method (φ := Empty)) = decls := by
  induction decls with
  | nil => rfl
  | cons decl decls ih =>
    rw [List.forall_mem_cons] at h
    cases decl with
    | method m => rw [List.filterMap_cons, methodOf?, List.map_cons, ih h.2]
    | foreign value => exact value.elim
    | _ => cases h.1

/-- Methods are written in the same way in a service and on their own. -/
theorem map_ofMethod {decls : List Declaration} (h : ∀ decl ∈ decls, decl.kind = .method) :
    (decls.filterMap methodOf?).map ofMethod = ofDeclarations decls := by
  have hMap := congrArg (List.map ofDeclaration) (map_method_filterMap h)
  rw [List.map_map] at hMap
  rw [ofDeclarations_eq_map, ← hMap]
  rfl

end

theorem ofDeclaration_of_readDeclaration {value : Json} :
    ∀ decl, readDeclaration value = .ok decl → ofDeclaration decl = canonicalDeclaration value := by
  induction value using induct with
  | other value hKind =>
    intro decl h
    obtain ⟨fields, name, rfl, -⟩ := readDeclaration_eq_ok_iff.mp h
    exact absurd rfl hKind
  | obj fields ih =>
    intro decl h
    obtain ⟨_, name, hFields, hKind, hName, hRead⟩ := readDeclaration_eq_ok_iff.mp h
    obtain rfl := Json.obj.inj hFields
    have hKind := kindOf?_eq_some hKind
    have hName : valueOf "name" .null fields = .str name := by rw [valueOf, hName]; rfl
    rw [canonicalDeclaration, hName]
    cases hCase : decl.kind <;> rw [hCase] at hRead hKind <;> rw [readDeclarationOf] at hRead <;>
      simp only [hKind]
    case message =>
      obtain ⟨members, hMembers, hRead⟩ := bind_eq_ok_iff.mp hRead
      obtain ⟨reservations, hReservations, hDecl⟩ := bind_eq_ok_iff.mp hRead
      cases hDecl
      have hWritten := write_of_readAttribute
        (fun _ _ => write_of_readList ofReservation_of_readReservation) hReservations
      rw [ofDeclaration, ofDeclarations_of_readMembers (ih _) hMembers, hWritten]
      rfl
    case field =>
      obtain ⟨f, hField, hDecl⟩ := bind_eq_ok_iff.mp hRead
      cases hDecl
      obtain ⟨type, hType, hField⟩ := bind_eq_ok_iff.mp hField
      obtain ⟨index, hIndex, hField⟩ := bind_eq_ok_iff.mp hField
      obtain ⟨repeated, hRepeated, hField⟩ := bind_eq_ok_iff.mp hField
      cases hField
      rw [ofDeclaration, ofField, write_of_readAttribute ofType_of_readType hType,
        write_of_readAttribute int_of_expectInt hIndex,
        write_of_readAttribute bool_of_expectBool hRepeated]
      rfl
    case oneof =>
      obtain ⟨members, hMembers, hDecl⟩ := bind_eq_ok_iff.mp hRead
      cases hDecl
      rw [ofDeclaration, ofDeclarations_of_readMembers (ih _) hMembers]
      rfl
    case enum =>
      obtain ⟨e, hEnum, hDecl⟩ := bind_eq_ok_iff.mp hRead
      cases hDecl
      obtain ⟨variants, hVariants, hEnum⟩ := bind_eq_ok_iff.mp hEnum
      obtain ⟨allowAlias, hAlias, hEnum⟩ := bind_eq_ok_iff.mp hEnum
      cases hEnum
      have hWritten := write_of_readAttribute
        (fun _ _ => write_of_readList ofVariant_of_readVariant) hVariants
      rw [ofDeclaration, ofEnum, hWritten, write_of_readAttribute bool_of_expectBool hAlias]
      rfl
    case method =>
      obtain ⟨m, hMethod, hDecl⟩ := bind_eq_ok_iff.mp hRead
      cases hDecl
      obtain ⟨streaming, hStreaming, hMethod⟩ := bind_eq_ok_iff.mp hMethod
      obtain ⟨input, hInput, hMethod⟩ := bind_eq_ok_iff.mp hMethod
      obtain ⟨returns, hReturns, hMethod⟩ := bind_eq_ok_iff.mp hMethod
      cases hMethod
      have hStream : Json.str streaming.name =
          canonicalStreaming (valueOf "stream" (.str "none") fields) :=
        name_of_readStreaming _ _ (under_eq_ok_iff.mp hStreaming)
      rw [ofDeclaration, ofMethod, write_of_readAttribute ofType_of_readType hInput,
        write_of_readAttribute ofType_of_readType hReturns, hStream]
      rfl
    case service =>
      obtain ⟨operations, hOperations, hDecl⟩ := bind_eq_ok_iff.mp hRead
      cases hDecl
      have hMethods := forall_mem_of_readMembers (P := fun _ => True) (fun _ _ _ _ => trivial)
        hOperations
      rw [ofDeclaration, map_ofMethod fun decl hMem => (hMethods decl hMem).2,
        ofDeclarations_of_readMembers (ih _) hOperations]
      rfl

theorem ofSchema_of_readSchema {document : Json} {schema : Schema}
    (h : readSchema document = .ok schema) : ofSchema schema = canonical document := by
  obtain ⟨fields, rfl⟩ := exists_fields_of_readSchema h
  obtain ⟨hPackage, hImports, hOptions, hDecls⟩ := readSchema_obj_eq_ok_iff.mp h
  have hImports := write_of_readAttribute
    (fun _ _ => write_of_readList str_of_expectString) hImports
  have hOptions := write_of_readAttribute ofOption_of_readOptions hOptions
  have hDecls := ofDeclarations_of_readMembers
    (fun _ _ => ofDeclaration_of_readDeclaration) hDecls
  have hPackage : readPackage (valueOf "package" .null fields) = .ok schema.package :=
    under_eq_ok_iff.mp hPackage
  rw [ofSchema, canonical, hImports, hOptions, hDecls]
  cases hValue : valueOf "package" .null fields with
  | null =>
    rw [hValue] at hPackage
    rw [← Except.ok.inj hPackage]
    rfl
  | str name =>
    rw [hValue] at hPackage
    rw [← Except.ok.inj hPackage]
    rfl
  | _ =>
    rw [hValue] at hPackage
    cases hPackage

/-- A document that has a schema is written back in its canonical form, which reads as the same
schema and is its own canonical form. -/
theorem canonical_of_readSchema {document : Json} {schema : Schema}
    (h : readSchema document = .ok schema) :
    ofSchema schema = canonical document ∧ readSchema (canonical document) = .ok schema ∧
      canonical (canonical document) = canonical document := by
  have hWritten := ofSchema_of_readSchema h
  have hRead := readSchema_ofSchema_of_readSchema h
  rw [hWritten] at hRead
  exact ⟨hWritten, hRead, (ofSchema_of_readSchema hRead).symm.trans hWritten⟩

/-- Attributes in any order, some of them absent and some that nothing reads, at every depth. -/
def looseDocument : Json :=
  .obj [("comment", .null), ("declarations", .arr [
      .obj [("reservations", .arr [.str "old", .arr [.int 4, .int 6], .int 2]),
        ("variants", .int 3), ("name", .str "M"), ("kind", .str "message"), ("declarations", .arr [
          .obj [("name", .str "x"), ("index", .int 1), ("kind", .str "field"),
            ("type", .obj [("map", .arr [.str "string", .str "pkg.N"])])],
          .obj [("kind", .str "message"), ("operations", .null), ("name", .str "N")]])],
      .obj [("name", .str "S"), ("kind", .str "service"), ("operations", .arr [
          .obj [("stream", .int 2), ("name", .str "A"), ("returns", .str "M"),
            ("input", .str "M"), ("kind", .str "method")],
          .obj [("kind", .str "method"), ("name", .str "B"), ("input", .str "M"),
            ("returns", .str "int32")]])]]),
    ("package", .null), ("options", .obj [("b", .bool true), ("a", .int 1)])]

def tidyDocument : Json :=
  .obj [("imports", .arr []), ("options", .obj [("b", .bool true), ("a", .int 1)]),
    ("declarations", .arr [
      .obj [("kind", .str "message"), ("name", .str "M"), ("declarations", .arr [
          .obj [("kind", .str "field"), ("name", .str "x"),
            ("type", .obj [("map", .arr [.str "string", .str "pkg.N"])]), ("index", .int 1),
            ("repeated", .bool false)],
          .obj [("kind", .str "message"), ("name", .str "N"), ("declarations", .arr []),
            ("reservations", .arr [])]]),
        ("reservations", .arr [.str "old", .arr [.int 4, .int 6], .int 2])],
      .obj [("kind", .str "service"), ("name", .str "S"), ("operations", .arr [
          .obj [("kind", .str "method"), ("name", .str "A"), ("input", .str "M"),
            ("returns", .str "M"), ("stream", .str "out")],
          .obj [("kind", .str "method"), ("name", .str "B"), ("input", .str "M"),
            ("returns", .str "int32"), ("stream", .str "none")]])]])]

def looseSchema : Schema where
  options := [("b", .boolean true), ("a", .integer 1)]
  declarations := [
    .message "M" [.field ⟨"x", .map (.scalar "string") (.ref "pkg.N"), 1, false⟩,
      .message "N" [] []] [.name "old", .range 4 6, .number 2],
    .service "S" [⟨"A", .ref "M", .ref "M", ⟨false, true⟩⟩,
      ⟨"B", .ref "M", .scalar "int32", ⟨false, false⟩⟩]]

theorem canonical_looseDocument : readSchema looseDocument = .ok looseSchema ∧
    ofSchema looseSchema = tidyDocument ∧ readSchema tidyDocument = .ok looseSchema ∧
    canonical tidyDocument = tidyDocument := by
  have hRead : readSchema looseDocument = .ok looseSchema := by decide +kernel
  have hTidy : canonical looseDocument = tidyDocument := by decide +kernel
  refine ⟨hRead, ?_⟩
  rw [← hTidy]
  exact canonical_of_readSchema hRead

end ProtoSchema.Document
