import ProtoSchema.Proofs.Document.Accepted
import ProtoSchema.Proofs.Document.Reports

/-!
Reading by parts. Where a value stands does not matter for what it is read as, and shows in the path
of an error only. The declarations in a file or a message are read each by itself, in their order,
and the first that cannot be read is the one that is reported.
-/
namespace ProtoSchema.Document
open Grammar

/-- The place of a declaration in the list that a file or a message at `base` holds. -/
def memberPlace (base : String) (i : Nat) : String :=
  (if base = "" then "" else base ++ ".") ++ "declarations[" ++ toString i ++ "]"

/-- A result that gathers what these values are read as, each by itself: all of them in their order,
or the error of the first that cannot be read, reported from around its place. -/
structure Gathers {α : Type} (items : List Json) (base : String) (result : Result α)
    (decls : α → List Declaration) : Prop where
  succeeds : Succeeds result ↔ ∀ item ∈ items, Succeeds (readDeclaration item)
  inOrder : ∀ a, result = .ok a →
    List.Forall₂ (fun item decl => readDeclaration item = .ok decl) items (decls a)
  fails : ∀ report, reported base result = .error report ↔
    ∃ i error, FirstFails readDeclaration items i error ∧
      report = (error.report "").inside (memberPlace base i)

theorem memberPlace_ne_empty (base : String) (i : Nat) : memberPlace base i ≠ "" := by
  intro h
  have hOpen := (String.append_eq_empty_iff.mp h).1
  have hIndex := (String.append_eq_empty_iff.mp hOpen).1
  have hName := (String.append_eq_empty_iff.mp hIndex).2
  exact absurd hName (by decide)

theorem render_member (base : String) (i : Nat) (path : Path) :
    Path.render base (.key "declarations" :: .index i :: path) =
      path.render (memberPlace base i) := by
  have hPlace : Path.extend (Path.extend base (.key "declarations")) (.index i) =
      memberPlace base i := by
    have hText : "declarations[" = "declarations" ++ "[" := by decide
    by_cases hBase : base = ""
    · simp only [Path.extend, memberPlace, if_pos hBase, String.empty_append, hText]
    · simp only [Path.extend, memberPlace, if_neg hBase, hText, String.append_assoc]
  exact congrArg (fun place => path.render place) hPlace

/-- The error of a declaration in a list, reported from around the list. -/
theorem report_member {error : Error} (h : StartsAtKey error) (base : String) (i : Nat) :
    ((error.under (.index i)).under (.key "declarations")).report base =
      (error.report "").inside (memberPlace base i) := by
  rw [← report_eq_inside h (memberPlace_ne_empty base i)]
  cases error with
  | located path problem =>
    have hPath := render_member base i path
    exact congrArg (fun path => Report.located path problem.message problem.hint?) hPath
  | broken cause => rfl

theorem readMember_member : readMember .member = readDeclaration := by
  funext value
  rw [readMember]
  cases readDeclaration value with
  | ok decl => rfl
  | error error => rfl

section
variable {fields : List (String × Json)} (hList : Optional IsList "declarations" fields)
include hList

theorem readMembers_listed : readAttribute fields "declarations" (.arr []) (readMembers .member) =
    under (.key "declarations") (readItems readDeclaration 0 (listed "declarations" fields)) := by
  have hEmpty : Place.member.empty = .ok [] := rfl
  rw [readMembers_eq_readList hEmpty, readMember_member, readAttribute, listed]
  cases hLookup : fields.lookup "declarations" with
  | none => rfl
  | some value =>
    have hArr : value.kind = .arr := hList value hLookup
    cases value with
    | arr items => rfl
    | _ => cases hArr

theorem readMembers_eq_ok_iff {decls : List Declaration} :
    readAttribute fields "declarations" (.arr []) (readMembers .member) = .ok decls ↔
      List.Forall₂ (fun item decl => readDeclaration item = .ok decl)
        (listed "declarations" fields) decls := by
  rw [readMembers_listed hList, under_eq_ok_iff, readItems_eq_ok_iff]

theorem succeeds_readMembers_iff :
    Succeeds (readAttribute fields "declarations" (.arr []) (readMembers .member)) ↔
      ∀ item ∈ listed "declarations" fields, Succeeds (readDeclaration item) := by
  rw [succeeds_members_iff rfl, readMember_member]
  exact and_iff_right hList

theorem reported_readMembers_iff {base : String} {report : Report} :
    reported base (readAttribute fields "declarations" (.arr []) (readMembers .member)) =
        .error report ↔
      ∃ i error, FirstFails readDeclaration (listed "declarations" fields) i error ∧
        report = (error.report "").inside (memberPlace base i) := by
  rw [reported_eq_error_iff, readMembers_listed hList]
  simp only [under_eq_error_iff, readItems_eq_error_iff, Nat.zero_add]
  have hKeyed : ∀ {i error}, FirstFails readDeclaration (listed "declarations" fields) i error →
      StartsAtKey error := by
    intro i error hFirst
    obtain ⟨item, -, hError⟩ := hFirst.fails
    exact keyed_readDeclaration item error hError
  constructor
  · rintro ⟨_, ⟨_, ⟨i, error, hFirst, rfl⟩, rfl⟩, rfl⟩
    exact ⟨i, error, hFirst, report_member (hKeyed hFirst) base i⟩
  · rintro ⟨i, error, hFirst, rfl⟩
    exact ⟨_, ⟨_, ⟨i, error, hFirst, rfl⟩, rfl⟩, (report_member (hKeyed hFirst) base i).symm⟩

/-- Reading that goes on with what the declarations are read as, and cannot fail any more. -/
theorem gathers_of_readMembers {α : Type} {base : String} {f : List Declaration → α}
    {decls : α → List Declaration} (hDecls : ∀ ds, decls (f ds) = ds) :
    Gathers (listed "declarations" fields) base
      (readAttribute fields "declarations" (.arr []) (readMembers .member) >>=
        fun ds => pure (f ds)) decls := by
  constructor
  case succeeds => rw [succeeds_map_iff, succeeds_readMembers_iff hList]
  case inOrder =>
    intro a h
    obtain ⟨ds, hRead, ha⟩ := bind_eq_ok_iff.mp h
    cases ha
    rw [hDecls]
    exact (readMembers_eq_ok_iff hList).mp hRead
  case fails =>
    intro report
    rw [reported_map_eq_error_iff, reported_readMembers_iff hList]

/-- The declarations of a file, whose other attributes can be read. -/
theorem gathers_readSchema (hPackage : Optional IsPackage "package" fields)
    (hImports : Optional (IsListOf IsString) "imports" fields)
    (hOptions : Optional IsOptions "options" fields) :
    Gathers (listed "declarations" fields) "" (readSchema (.obj fields))
      SchemaFile.declarations := by
  obtain ⟨package, hPackage⟩ := succeeds_package_iff.mpr hPackage
  obtain ⟨imports, hImports⟩ := succeeds_imports_iff.mpr hImports
  obtain ⟨options, hOptions⟩ := succeeds_options_iff.mpr hOptions
  rw [readSchema_obj, hPackage, hImports, hOptions]
  exact gathers_of_readMembers hList fun _ => rfl

/-- The members of a message, whose other attributes can be read. -/
theorem gathers_message {name : String} (base : String)
    (hReservations : Optional (IsListOf IsReservation) "reservations" fields) :
    Gathers (listed "declarations" fields) base (readDeclarationOf name fields .message)
      Decl.members := by
  obtain ⟨reservations, hReservations⟩ := succeeds_reservations_iff.mpr hReservations
  rw [readDeclarationOf, hReservations]
  exact gathers_of_readMembers hList fun _ => rfl

/-- Members are read before reservations. -/
theorem reported_message {name base : String} {i : Nat} {error : Error}
    (h : FirstFails readDeclaration (listed "declarations" fields) i error) :
    reported base (readDeclarationOf name fields .message) =
      .error ((error.report "").inside (memberPlace base i)) := by
  have hMembers : reported base (readAttribute fields "declarations" (.arr [])
      (readMembers .member)) = .error ((error.report "").inside (memberPlace base i)) :=
    (reported_readMembers_iff hList).mpr ⟨i, error, h, rfl⟩
  obtain ⟨inner, hInner, hReport⟩ := reported_eq_error_iff.mp hMembers
  rw [hReport, readDeclarationOf, hInner]
  rfl

end

/-- A value is read as it would be by itself, with its place before the path of an error. The
declarations of a file are all read in their order, or the first that cannot be read is reported,
and so are the members of a message wherever it stands, before its reservations. -/
theorem read_by_parts :
    (∀ (value : Json) (base : String), base ≠ "" →
      reported base (readDeclaration value) =
          (reported "" (readDeclaration value)).mapError (Report.inside base) ∧
        reported base (readType value) =
          (reported "" (readType value)).mapError (Report.inside base)) ∧
    (∀ fields, Optional IsPackage "package" fields →
      Optional (IsListOf IsString) "imports" fields → Optional IsOptions "options" fields →
      Optional IsList "declarations" fields →
      Gathers (listed "declarations" fields) "" (readSchema (.obj fields))
        SchemaFile.declarations) ∧
    ∀ (fields : List (String × Json)) (base : String), HasKind "message" (.obj fields) →
      Required IsString "name" fields → Optional IsList "declarations" fields →
      (Optional (IsListOf IsReservation) "reservations" fields →
        Gathers (listed "declarations" fields) base (readDeclaration (.obj fields))
          Decl.members) ∧
      ∀ i error, FirstFails readDeclaration (listed "declarations" fields) i error →
        reported base (readDeclaration (.obj fields)) =
          .error ((error.report "").inside (memberPlace base i)) := by
  refine ⟨fun value base hBase => ?_, fun fields hPackage hImports hOptions hList => ?_,
    fun fields base hKind hName hList => ?_⟩
  · exact ⟨reported_eq_inside (keyed_readDeclaration value) hBase,
      reported_eq_inside (keyed_readType value) hBase⟩
  · exact gathers_readSchema hList hPackage hImports hOptions
  · obtain ⟨name, hRead⟩ := exists_readDeclarationOf DeclKind.message hKind hName
    rw [hRead]
    exact ⟨gathers_message hList base, fun _ _ => reported_message hList⟩

/-- A file in which three declarations cannot be read, two of them in a message. -/
def faultyFields : List (String × Json) :=
  [("declarations", .arr [
    .obj [("kind", .str "enum"), ("name", .str "E")],
    .obj [("kind", .str "message"), ("name", .str "M"), ("declarations", .arr [
      .obj [("kind", .str "field"), ("name", .str "x"), ("type", .str "int32"), ("index", .int 1)],
      .obj [("kind", .str "enum"), ("name", .str "Inner"), ("variants", .arr [.arr [.str "A"]])],
      .obj [("kind", .str "field")]])],
    .null])]

theorem read_by_parts_faultyFields :
    Gathers (listed "declarations" faultyFields) "" (readSchema (.obj faultyFields))
        SchemaFile.declarations ∧
      reported "" (readSchema (.obj faultyFields)) =
        .error (.located "declarations[1].declarations[1].variants[0]"
          "expected a [name, number] pair" none) := by
  have hNone : ∀ rule name, faultyFields.lookup name = none → Optional rule name faultyFields := by
    intro rule name hLookup value hValue
    rw [hLookup] at hValue
    cases hValue
  have hList : Optional IsList "declarations" faultyFields := by
    intro value hValue
    cases hValue
    rfl
  exact ⟨read_by_parts.2.1 faultyFields (hNone _ _ rfl) (hNone _ _ rfl) (hNone _ _ rfl) hList,
    rfl⟩

end ProtoSchema.Document
