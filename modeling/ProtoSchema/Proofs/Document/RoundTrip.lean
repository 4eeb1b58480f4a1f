import ProtoSchema.Document.Writer
import ProtoSchema.Proofs.Document.Outcome
import ProtoSchema.Proofs.Document.Reading
import ProtoSchema.Proofs.Schema.Readable

/-! Documents written from trees are read back: which trees come back, and as which trees. -/
namespace ProtoSchema.Document
open Reservation (paired)
open TypeExpr (retag)

namespace ReadsWhen
variable {α β γ : Type} {c : Prop} {a : α}

theorem inAttribute {fields : List (String × Json)} {name : String} {absent value : Json}
    {read : Json → Result α} (hLookup : fields.lookup name = some value)
    (h : ReadsWhen c (read value) a) : ReadsWhen c (readAttribute fields name absent read) a := by
  unfold readAttribute
  rw [hLookup, Option.getD_some]
  exact h.under (.key name)

theorem inItems {read : Json → Result α} {write : β → Json} {f : β → α} {valid : β → Prop}
    {bs : List β} (h : ∀ b ∈ bs, ReadsWhen (valid b) (read (write b)) (f b)) (i : Nat) :
    ReadsWhen (∀ b ∈ bs, valid b) (readItems read i (bs.map write)) (bs.map f) := by
  induction bs generalizing i with
  | nil => exact (of_ok rfl).congr (by simp)
  | cons b bs ih =>
    have hHead := (h b List.mem_cons_self).under (.index i)
    have hTail := ih (fun b hb => h b (List.mem_cons_of_mem _ hb)) (i + 1)
    rw [List.map_cons, readItems]
    refine (hHead.bind (hTail.map (f b :: ·))).congr ?_
    rw [List.forall_mem_cons]

theorem inList {read : Json → Result α} {write : β → Json} {f : β → α} {valid : β → Prop}
    {bs : List β} (h : ∀ b ∈ bs, ReadsWhen (valid b) (read (write b)) (f b)) :
    ReadsWhen (∀ b ∈ bs, valid b) (readList read (.arr (bs.map write))) (bs.map f) :=
  inItems h 0

/-- Items that are read back whatever they are. -/
theorem inList_of_ok {read : Json → Result β} {write : β → Json}
    (h : ∀ b, read (write b) = .ok b) (bs : List β) :
    ReadsWhen True (readList read (.arr (bs.map write))) bs := by
  have hList := inList (f := id) fun b (_ : b ∈ bs) => of_ok (h b)
  rw [List.map_id] at hList
  exact hList.congr (by simp)

end ReadsWhen

theorem readType_ofType (type : TypeExpr) :
    ReadsWhen type.KeysFlat (readType (ofType type)) type.retag := by
  induction type with
  | scalar name => exact .of_ok rfl
  | ref name => exact .of_ok rfl
  | map key value hKey hValue =>
    have hKey := (hKey.under (.index 0)).under (.key "map")
    have hValue := (hValue.under (.index 1)).under (.key "map")
    rw [ofType, readType, if_pos rfl]
    by_cases hMap : key.isMap = true
    · -- The key is read first, and only then found to be a map.
      refine ((hKey.bind (d := False) ?_).congr ?_)
      · rw [if_pos ((TypeExpr.isMap_retag key).trans hMap)]
        exact ⟨False.elim, fun _ => ⟨_, _, rfl⟩⟩
      · simp [TypeExpr.KeysFlat, hMap]
    · refine (hKey.bind (d := value.KeysFlat) ?_).congr ?_
      · rw [if_neg (by rwa [TypeExpr.isMap_retag])]
        exact hValue.map (TypeExpr.map key.retag)
      · simp [TypeExpr.KeysFlat, hMap]

theorem readReservation_ofReservation (reservation : Reservation) :
    readReservation (ofReservation reservation) = .ok reservation.paired := by
  cases reservation <;> rfl

theorem readVariant_ofVariant (variant : Variant) :
    readVariant (ofVariant variant) = .ok variant := rfl

theorem readStreaming_name (streaming : Streaming) :
    readStreaming (.str streaming.name) = .ok streaming := by
  have h : streaming? (.str streaming.name) = some streaming := by
    obtain ⟨request, response⟩ := streaming
    cases request <;> cases response <;> decide
  simp only [readStreaming, h]

theorem readKind_name (kind : DeclKind) : readKind (.str kind.name) = .ok kind :=
  readKind_eq_ok_iff.mpr rfl

theorem readOption_ofOption (option : OptionValue) :
    readOption (ofOption option) = .ok option := by
  cases option <;> rfl

theorem readDeclaration_tagged (kind : DeclKind) (name : String)
    (attributes : List (String × Json)) :
    readDeclaration (tagged kind name attributes) =
      readDeclarationOf name (("kind", .str kind.name) :: ("name", .str name) :: attributes)
        kind := by
  have hKind : ∀ rest, readAttribute (("kind", .str kind.name) :: rest) "kind" .null readKind =
      .ok kind := by
    intro rest
    rw [readAttribute, List.lookup_cons_self, Option.getD_some, readKind_name]
    rfl
  rw [tagged, readDeclaration_obj, hKind]
  rfl

theorem readDeclaration_ofField (field : Field) :
    ReadsWhen (Decl.field field : Declaration).Readable (readDeclaration (ofField field))
      (.field (field.mapType retag)) := by
  rw [ofField, readDeclaration_tagged]
  have hType := readType_ofType field.type
  have hIndex : ReadsWhen True (expectInt (.int field.index)) field.index := .of_ok rfl
  have hRepeated : ReadsWhen True (expectBool (.bool field.repeated)) field.repeated := .of_ok rfl
  refine ReadsWhen.map ?_ Decl.field
  refine ((hType.inAttribute rfl).bind ((hIndex.inAttribute rfl).bind
    ((hRepeated.inAttribute rfl).map (Field.mk field.name field.type.retag field.index)))).congr ?_
  rw [Decl.readable_field]
  simp

theorem readDeclaration_ofEnum (enum : Enum) :
    ReadsWhen True (readDeclaration (ofEnum enum)) (.enum enum) := by
  rw [ofEnum, readDeclaration_tagged]
  have hVariants := ReadsWhen.inList_of_ok readVariant_ofVariant enum.variants
  have hAlias : ReadsWhen True (expectBool (.bool enum.allowAlias)) enum.allowAlias := .of_ok rfl
  refine ReadsWhen.map ?_ Decl.enum
  refine ((hVariants.inAttribute rfl).bind
    ((hAlias.inAttribute rfl).map (Enum.mk enum.name enum.variants))).congr ?_
  simp

theorem readDeclaration_ofMethod (method : Method) :
    ReadsWhen (Decl.method method : Declaration).Readable (readDeclaration (ofMethod method))
      (.method (method.mapTypes retag)) := by
  rw [ofMethod, readDeclaration_tagged]
  have hStream : ReadsWhen True _ _ := .of_ok (readStreaming_name method.streaming)
  have hInput := readType_ofType method.input
  have hReturns := readType_ofType method.returns
  refine ReadsWhen.map ?_ Decl.method
  refine ((hStream.inAttribute rfl).bind ((hInput.inAttribute rfl).bind
    ((hReturns.inAttribute rfl).map fun returns =>
      Method.mk method.name method.input.retag returns method.streaming))).congr ?_
  rw [Decl.readable_method]
  simp

theorem ofDeclarations_eq_map (decls : List Declaration) :
    ofDeclarations decls = decls.map ofDeclaration := by
  induction decls with
  | nil => rfl
  | cons decl decls ih => rw [ofDeclarations, List.map_cons, ih]

theorem objection?_rewrite (place : Place) (g : TypeExpr → TypeExpr)
    (h : Reservation → Reservation) (decl : Declaration) :
    place.objection? (decl.rewrite g h) = place.objection? decl := by
  cases decl with
  | foreign value => exact value.elim
  | _ => cases place <;> simp only [Decl.rewrite, Place.objection?, Decl.kind]

theorem readMember_ofDeclaration (place : Place) {decl : Declaration}
    (h : ReadsWhen decl.Readable (readDeclaration (ofDeclaration decl))
      (decl.rewrite retag paired)) :
    ReadsWhen (decl.Readable ∧ place.objection? decl = none)
      (readMember place (ofDeclaration decl)) (decl.rewrite retag paired) := by
  refine h.bind ?_
  unfold Place.check
  rw [objection?_rewrite]
  cases place.objection? decl with
  | none => exact (ReadsWhen.of_ok rfl).congr (by simp)
  | some problem => exact (ReadsWhen.of_fail problem).congr (by simp)

theorem objection?_choice (decl : Declaration) :
    Place.choice.objection? decl = none ↔ decl.isField = true := by
  cases decl <;> simp [Place.objection?, Decl.isField]

theorem readMembers_member {decls : List Declaration}
    (h : ∀ d ∈ decls, ReadsWhen d.Readable (readDeclaration (ofDeclaration d))
      (d.rewrite retag paired)) :
    ReadsWhen (∀ d ∈ decls, d.Readable) (readMembers .member (.arr (ofDeclarations decls)))
      (decls.map (Decl.rewrite retag paired)) := by
  rw [readMembers_eq_readList rfl, ofDeclarations_eq_map]
  refine (ReadsWhen.inList fun d hd => readMember_ofDeclaration .member (h d hd)).congr ?_
  simp [Place.objection?]

theorem readMembers_choice {decls : List Declaration}
    (h : ∀ d ∈ decls, ReadsWhen d.Readable (readDeclaration (ofDeclaration d))
      (d.rewrite retag paired)) :
    ReadsWhen (decls ≠ [] ∧ ∀ d ∈ decls, d.Readable ∧ d.isField = true)
      (readMembers .choice (.arr (ofDeclarations decls)))
      (decls.map (Decl.rewrite retag paired)) := by
  rw [ofDeclarations_eq_map]
  by_cases hNil : decls = []
  · subst hNil
    rw [List.map_nil, readMembers_nil]
    exact (ReadsWhen.of_fail _).congr (by simp)
  · rw [readMembers_of_ne_nil _ (by simpa using hNil)]
    refine (ReadsWhen.inList fun d hd => readMember_ofDeclaration .choice (h d hd)).congr ?_
    simp only [objection?_choice, ne_eq, hNil, not_false_eq_true, true_and]

theorem readMembers_operation (operations : List Method) :
    ReadsWhen (∀ m ∈ operations, (Decl.method m : Declaration).Readable)
      (readMembers .operation (.arr (operations.map ofMethod)))
      (operations.map fun m => .method (m.mapTypes retag)) := by
  rw [readMembers_eq_readList rfl]
  refine ReadsWhen.inList fun m _ => ?_
  have hMethod : ReadsWhen _ (readDeclaration (ofDeclaration (.method m))) _ :=
    readDeclaration_ofMethod m
  have h := readMember_ofDeclaration .operation hMethod
  exact h.congr (by simp [Place.objection?])

theorem readDeclaration_ofDeclaration (decl : Declaration) :
    ReadsWhen decl.Readable (readDeclaration (ofDeclaration decl)) (decl.rewrite retag paired) := by
  induction decl using Decl.induct with
  | message name members reservations ih =>
    have hMembers := readMembers_member ih
    have hReservations := ReadsWhen.inList fun r (_ : r ∈ reservations) =>
      ReadsWhen.of_ok (readReservation_ofReservation r)
    rw [ofDeclaration, readDeclaration_tagged, Decl.rewrite, Decl.rewriteIn_eq_map]
    refine ((hMembers.inAttribute rfl).bind ((hReservations.inAttribute rfl).map
      (Decl.message name (members.map (Decl.rewrite retag paired))))).congr ?_
    simp [Decl.readable_message]
  | field f =>
    rw [ofDeclaration, Decl.rewrite]
    exact readDeclaration_ofField f
  | oneof name members ih =>
    have hMembers := readMembers_choice ih
    rw [ofDeclaration, readDeclaration_tagged, Decl.rewrite, Decl.rewriteIn_eq_map]
    refine ((hMembers.inAttribute rfl).map (Decl.oneof name)).congr ?_
    rw [Decl.readable_oneof]
  | enum e =>
    rw [ofDeclaration, Decl.rewrite]
    exact (readDeclaration_ofEnum e).congr (by simp [Decl.readable_enum])
  | method m =>
    rw [ofDeclaration, Decl.rewrite]
    exact readDeclaration_ofMethod m
  | service name operations =>
    have hOperations := readMembers_operation operations
    have hValue : (operations.map fun m => (Decl.method (m.mapTypes retag) : Declaration)).filterMap
        methodOf? = operations.map (Method.mapTypes retag) := by
      simp [List.filterMap_map, Function.comp_def, methodOf?]
    rw [ofDeclaration, readDeclaration_tagged, Decl.rewrite, ← hValue]
    refine ((hOperations.inAttribute rfl).map fun decls =>
      Decl.service name (decls.filterMap methodOf?)).congr ?_
    rw [Decl.readable_service]
  | foreign value => exact value.elim

theorem readOptions_ofOption (options : List (String × OptionValue)) :
    readOptions (.obj (options.map fun (name, value) => (name, ofOption value))) =
      .ok options := by
  rw [readOptions]
  induction options with
  | nil => rfl
  | cons option options ih =>
    obtain ⟨name, value⟩ := option
    rw [List.map_cons, readOptionFields, readOption_ofOption, ih]
    rfl

theorem readSchema_ofSchema (schema : Schema) :
    ReadsWhen schema.Readable (readSchema (ofSchema schema)) schema.settled := by
  obtain ⟨package, imports, options, declarations⟩ := schema
  have hText : ∀ path, expectString (.str path) = .ok path := fun _ => rfl
  have hImports := ReadsWhen.inList_of_ok hText imports
  have hOptions := ReadsWhen.of_ok (readOptions_ofOption options)
  have hDeclarations := readMembers_member fun decl (_ : decl ∈ declarations) =>
    readDeclaration_ofDeclaration decl
  rw [ofSchema, readSchema_obj, SchemaFile.readable_iff]
  cases package with
  | none =>
    have hPackage : ReadsWhen True (readPackage .null) none := .of_ok rfl
    refine ((hPackage.under (.key "package")).bind ((hImports.inAttribute rfl).bind
      ((hOptions.inAttribute rfl).bind ((hDeclarations.inAttribute rfl).map
        (SchemaFile.mk none imports options))))).congr ?_
    simp
  | some name =>
    have hPackage : ReadsWhen True (readPackage (.str name)) (some name) := .of_ok rfl
    refine ((hPackage.inAttribute rfl).bind ((hImports.inAttribute rfl).bind
      ((hOptions.inAttribute rfl).bind ((hDeclarations.inAttribute rfl).map
        (SchemaFile.mk (some name) imports options))))).congr ?_
    simp

end ProtoSchema.Document
