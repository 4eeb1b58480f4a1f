import ProtoSchema.Proofs.Document.Places
import ProtoSchema.Proofs.Json.Values

/-!
Documents in which reading comes to something that breaks it off: the kind of a declaration that is
a list or an object, or a kind or a streaming mode that cannot be shown for the length of an integer
in it. Reading fails on them without a path, and on no others.
-/
namespace ProtoSchema
open Document Document.Grammar

/-- The attribute in which a declaration of this kind lists others, and the place that they take. -/
def DeclKind.listing? : DeclKind → Option (String × Place)
  | message => some ("declarations", .member)
  | oneof => some ("declarations", .choice)
  | service => some ("operations", .operation)
  | _ => none

namespace Document

/-- What can stand in a place. -/
def Place.Takes : Place → Json → Prop
  | member, value => IsDeclaration value
  | choice, value => IsDeclaration value ∧ HasKind "field" value
  | operation, value => IsDeclaration value ∧ HasKind "method" value

/-- The first of these values that cannot stand in this place is one of which something is true. -/
def FirstIs (rule : Json → Prop) (place : Place) (items : List Json) : Prop :=
  ∃ before item after, items = before ++ item :: after ∧ (∀ other ∈ before, place.Takes other) ∧
    rule item

/-- What can be wrong with the value of a kind that no path leads to. -/
inductive KindBreaks : Breakdown → Json → Prop where
  | compound {value : Json} (h : value.kind = .arr ∨ value.kind = .obj) :
    KindBreaks (.compoundKind value.kind) value
  | long {n : Int} (h : ¬ Decimal.Short n) : KindBreaks .longInteger (.int n)

/-- The first thing wrong with a declaration breaks reading off. It is the kind of it or of one in
it, or the streaming mode of a method. -/
inductive Breaks (cause : Breakdown) : Json → Prop where
  | kind {fields : List (String × Json)} {value : Json} (lookup : fields.lookup "kind" = some value)
    (breaks : KindBreaks cause value) : Breaks cause (.obj fields)
  | stream {fields : List (String × Json)} {value : Json} (hasKind : HasKind "method" (.obj fields))
    (name : Required IsString "name" fields) (lookup : fields.lookup "stream" = some value)
    (long : value.HoldsLong) (cause_eq : cause = .longInteger) : Breaks cause (.obj fields)
  | inside {fields : List (String × Json)} {kind : DeclKind} {list : String} {place : Place}
    {before after : List Json} {item : Json} (hasKind : HasKind kind.name (.obj fields))
    (name : Required IsString "name" fields) (listing : kind.listing? = some (list, place))
    (items : listed list fields = before ++ item :: after)
    (fine : ∀ other ∈ before, place.Takes other) (breaks : Breaks cause item) :
    Breaks cause (.obj fields)

/-- The first thing wrong with a document breaks reading off. -/
def SchemaBreaks (cause : Breakdown) (document : Json) : Prop :=
  ∃ fields, document = .obj fields ∧ Optional IsPackage "package" fields ∧
    Optional (IsListOf IsString) "imports" fields ∧ Optional IsOptions "options" fields ∧
    FirstIs (Breaks cause) .member (listed "declarations" fields)

section
variable {α β : Type} {cause : Breakdown}

theorem broken_eq_under_iff {step : Step} {error : Error} :
    .broken cause = error.under step ↔ error = .broken cause := by
  cases error with
  | located path problem => exact iff_of_false nofun nofun
  | broken other => exact eq_comm

theorem under_eq_broken_iff {step : Step} {result : Result α} :
    under step result = .error (.broken cause) ↔ result = .error (.broken cause) := by
  rw [under_eq_error_iff]
  simp only [broken_eq_under_iff, exists_eq_right]

/-- Where every error has a path. -/
theorem ne_broken {value : Json} {result : Result α}
    (h : Errs (About (fun _ => False) value) result) : result ≠ .error (.broken cause) :=
  fun hResult => h _ hResult

theorem bind_eq_broken_iff_left {value : Json} {result : Result α} {f : α → Result β}
    (h : ∀ a, Errs (About (fun _ => False) value) (f a)) :
    result >>= f = .error (.broken cause) ↔ result = .error (.broken cause) := by
  rw [bind_eq_error_iff]
  refine or_iff_left ?_
  rintro ⟨a, -, hError⟩
  exact ne_broken (h a) hError

/-- A part that follows others comes to be read if they succeed. -/
theorem bind_eq_broken_iff_right {value : Json} {result : Result α} {f : α → Result β}
    {c : Prop} (h : Errs (About (fun _ => False) value) result)
    (hNext : ∀ a, f a = .error (.broken cause) ↔ c) :
    result >>= f = .error (.broken cause) ↔ Succeeds result ∧ c := by
  rw [bind_eq_error_iff, or_iff_right (ne_broken h)]
  simp only [hNext, exists_and_right, Succeeds]

theorem succeeds_readMember_iff_takes (place : Place) (value : Json) :
    Succeeds (readMember place value) ↔ place.Takes value := by
  cases place with
  | member =>
    rw [succeeds_readMember_member_iff, succeeds_readDeclaration_iff]
    rfl
  | choice =>
    rw [succeeds_readMember_iff (fun _ => Iff.rfl : ∀ k, Place.choice.Admits k ↔ k = .field),
      succeeds_readDeclaration_iff]
    rfl
  | operation =>
    rw [succeeds_readMember_iff (fun _ => Iff.rfl : ∀ k, Place.operation.Admits k ↔ k = .method),
      succeeds_readDeclaration_iff]
    rfl

theorem readMember_eq_broken_iff {place : Place} {value : Json} :
    readMember place value = .error (.broken cause) ↔
      readDeclaration value = .error (.broken cause) :=
  bind_eq_broken_iff_left fun decl => errs_check value place decl

theorem not_firstIs_nil {rule : Json → Prop} {place : Place} : ¬ FirstIs rule place [] := by
  rintro ⟨before, item, after, h, -⟩
  simp at h

theorem exists_firstFails_iff {place : Place} {items : List Json} {error : Error} :
    (∃ k, FirstFails (readMember place) items k error) ↔
      FirstIs (readMember place · = .error error) place items := by
  constructor
  · rintro ⟨k, hBefore, item, hItem, hError⟩
    obtain ⟨hLength, rfl⟩ := List.getElem?_eq_some_iff.mp hItem
    refine ⟨items.take k, items[k], items.drop (k + 1), ?_, fun other hOther => ?_, hError⟩
    · rw [List.getElem_cons_drop, List.take_append_drop]
    · exact (succeeds_readMember_iff_takes place other).mp (hBefore other hOther)
  · rintro ⟨before, item, after, rfl, hFine, hError⟩
    refine ⟨before.length, fun other hOther => ?_, item, by simp, hError⟩
    rw [List.take_left] at hOther
    exact (succeeds_readMember_iff_takes place other).mpr (hFine other hOther)

theorem readItems_eq_broken_iff {place : Place} {i : Nat} {items : List Json} :
    readItems (readMember place) i items = .error (.broken cause) ↔
      FirstIs (readDeclaration · = .error (.broken cause)) place items := by
  rw [readItems_eq_error_iff]
  simp only [broken_eq_under_iff, exists_eq_right, exists_firstFails_iff,
    readMember_eq_broken_iff]

theorem readMembers_eq_broken_iff {place : Place} {name : String}
    {fields : List (String × Json)} :
    readAttribute fields name (.arr []) (readMembers place) = .error (.broken cause) ↔
      FirstIs (readDeclaration · = .error (.broken cause)) place (listed name fields) := by
  have hEmpty : readMembers place (.arr []) ≠ .error (.broken cause) := by
    rw [readMembers_nil]
    intro h
    cases place <;> cases h
  rw [readAttribute, under_eq_broken_iff, listed]
  cases fields.lookup name with
  | none => exact iff_of_false hEmpty not_firstIs_nil
  | some value =>
    rw [Option.getD_some]
    by_cases hValue : value = .arr []
    · rw [hValue]
      exact iff_of_false hEmpty not_firstIs_nil
    · rw [readMembers_of_ne_nil place hValue]
      cases value with
      | arr items => exact readItems_eq_broken_iff
      | _ => exact iff_of_false (fun h => by cases h) not_firstIs_nil

theorem failShowing_eq_broken_iff {problem : String → Problem} {value : Json} :
    failShowing (α := α) problem value = .error (.broken cause) ↔
      value.HoldsLong ∧ cause = .longInteger := by
  rw [failShowing, ← Json.display?_eq_none_iff]
  cases value.display? with
  | some shown => exact iff_of_false nofun (by simp)
  | none =>
    refine ⟨fun h => ?_, fun h => ?_⟩
    · cases h
      exact ⟨rfl, rfl⟩
    · rw [h.2]

theorem readKind_eq_broken_iff {value : Json} :
    readKind value = .error (.broken cause) ↔ KindBreaks cause value := by
  rw [readKind]
  split
  · rename_i hCompound
    refine ⟨fun h => ?_, fun h => ?_⟩
    · cases h
      exact .compound hCompound
    · cases h with
      | compound => rfl
      | long => cases hCompound <;> contradiction
  · rename_i hSimple
    have hBreaks : KindBreaks cause value ↔ value.HoldsLong ∧ cause = .longInteger := by
      constructor
      · intro h
        cases h with
        | compound h => exact absurd h hSimple
        | long h => exact ⟨.here h, rfl⟩
      · rintro ⟨hLong, rfl⟩
        cases hLong with
        | here long => exact .long long
        | item => exact absurd (.inl rfl) hSimple
        | field => exact absurd (.inr rfl) hSimple
    rw [hBreaks]
    cases hKind : declKind? value with
    | none => exact failShowing_eq_broken_iff
    | some kind =>
      refine iff_of_false (by simp) ?_
      rintro ⟨hLong, -⟩
      cases hLong <;> cases hKind

/-- An attribute that gives no kind breaks reading off by its value. -/
theorem readAttribute_kind_eq_broken_iff {fields : List (String × Json)} :
    readAttribute fields "kind" .null readKind = .error (.broken cause) ↔
      ∃ value, fields.lookup "kind" = some value ∧ KindBreaks cause value := by
  rw [readAttribute, under_eq_broken_iff, readKind_eq_broken_iff]
  cases fields.lookup "kind" with
  | none =>
    refine iff_of_false (fun h => ?_) (by rintro ⟨_, h, -⟩; cases h)
    rw [Option.getD_none] at h
    cases h with
    | compound h => cases h <;> contradiction
  | some value => simp

/-- The number of a streaming mode is short. -/
theorem not_holdsLong_of_isStreaming {value : Json} (h : IsStreaming value) :
    ¬ value.HoldsLong := by
  rcases h with ⟨name, -, rfl⟩ | ⟨n, rfl, hZero, hThree⟩
  · exact Json.not_holdsLong_of_kind nofun nofun nofun
  · rw [Json.holdsLong_int_iff, not_not]
    obtain ⟨k, rfl⟩ := Int.eq_ofNat_of_zero_le hZero
    exact Decimal.short_of_le (by omega)

theorem readStreaming_eq_broken_iff {value : Json} :
    readStreaming value = .error (.broken cause) ↔ value.HoldsLong ∧ cause = .longInteger := by
  rw [readStreaming]
  cases hStreaming : streaming? value with
  | none => exact failShowing_eq_broken_iff
  | some streaming =>
    have hSome : (streaming? value).isSome := by simp [hStreaming]
    have hShort := not_holdsLong_of_isStreaming ((isSome_streaming?_iff value).mp hSome)
    exact iff_of_false (by simp) fun h => hShort h.1

theorem readMethod_eq_broken_iff {name : String} {fields : List (String × Json)} :
    readMethod name fields = .error (.broken cause) ↔
      ∃ value, fields.lookup "stream" = some value ∧ value.HoldsLong ∧ cause = .longInteger := by
  rw [readMethod, bind_eq_broken_iff_left fun _ => errs_methodTypes _, readAttribute,
    under_eq_broken_iff, readStreaming_eq_broken_iff]
  cases fields.lookup "stream" with
  | none =>
    refine iff_of_false (fun h => ?_) (by rintro ⟨_, h, -⟩; cases h)
    cases h.1
  | some value => simp

/-- What breaks reading off after the kind and the name: the streaming mode of a method, or one of
the declarations that are listed. -/
def BreaksIn (cause : Breakdown) (fields : List (String × Json)) (kind : DeclKind) : Prop :=
  (kind = .method ∧ ∃ value, fields.lookup "stream" = some value ∧ value.HoldsLong ∧
    cause = .longInteger) ∨
  ∃ list place, kind.listing? = some (list, place) ∧
    FirstIs (readDeclaration · = .error (.broken cause)) place (listed list fields)

theorem breaksIn_iff_of_listing? {fields : List (String × Json)} {kind : DeclKind} {list : String}
    {place : Place} (h : kind.listing? = some (list, place)) :
    BreaksIn cause fields kind ↔
      FirstIs (readDeclaration · = .error (.broken cause)) place (listed list fields) := by
  have hMethod : kind ≠ .method := by
    rintro rfl
    cases h
  simp [BreaksIn, hMethod, h]

theorem not_breaksIn {fields : List (String × Json)} {kind : DeclKind} (hMethod : kind ≠ .method)
    (h : kind.listing? = none) : ¬ BreaksIn cause fields kind := by
  simp [BreaksIn, hMethod, h]

theorem readDeclarationOf_eq_broken_iff {name : String} {fields : List (String × Json)}
    {kind : DeclKind} (hKind : HasKind kind.name (.obj fields)) :
    readDeclarationOf name fields kind = .error (.broken cause) ↔
      BreaksIn cause fields kind := by
  cases kind with
  | message =>
    have hReservations : Errs (About (fun _ => False) (.obj fields))
        (readAttribute fields "reservations" (.arr []) (readList readReservation)) :=
      errs_entries errs_readReservation (.reservation hKind)
    rw [readDeclarationOf, bind_eq_broken_iff_left fun _ => hReservations.map _,
      readMembers_eq_broken_iff, breaksIn_iff_of_listing? rfl]
  | oneof =>
    rw [readDeclarationOf, map_eq_error_iff, readMembers_eq_broken_iff,
      breaksIn_iff_of_listing? rfl]
  | service =>
    rw [readDeclarationOf, map_eq_error_iff, readMembers_eq_broken_iff,
      breaksIn_iff_of_listing? rfl]
  | field =>
    rw [readDeclarationOf, map_eq_error_iff]
    exact iff_of_false (ne_broken errs_readField) (not_breaksIn (by decide) rfl)
  | enum =>
    rw [readDeclarationOf, map_eq_error_iff]
    exact iff_of_false (ne_broken (errs_readEnum hKind)) (not_breaksIn (by decide) rfl)
  | method =>
    rw [readDeclarationOf, map_eq_error_iff, readMethod_eq_broken_iff]
    simp [BreaksIn, DeclKind.listing?]

/-- A declaration is read up to its kind, or on to the first thing in it that does not fit. -/
theorem readDeclaration_obj_eq_broken_iff {fields : List (String × Json)} :
    readDeclaration (.obj fields) = .error (.broken cause) ↔
      (∃ value, fields.lookup "kind" = some value ∧ KindBreaks cause value) ∨
      ∃ kind : DeclKind, HasKind kind.name (.obj fields) ∧ Required IsString "name" fields ∧
        BreaksIn cause fields kind := by
  rw [readDeclaration_obj, bind_eq_error_iff, readAttribute_kind_eq_broken_iff]
  simp only [readAttribute_kind_eq_ok_iff, ← succeeds_name_iff]
  refine or_congr_right (exists_congr fun kind => and_congr_right fun hKind => ?_)
  exact bind_eq_broken_iff_right errs_name fun _ => readDeclarationOf_eq_broken_iff hKind

theorem readDeclaration_eq_broken_iff {value : Json} :
    readDeclaration value = .error (.broken cause) ↔ Breaks cause value := by
  constructor
  · induction value using induct with
    | other value hKind =>
      intro h
      cases value with
      | obj fields => exact absurd rfl hKind
      | _ => cases h
    | obj fields ih =>
      intro h
      rcases readDeclaration_obj_eq_broken_iff.mp h with ⟨value, hLookup, hBreaks⟩ |
        ⟨kind, hKind, hName, ⟨rfl, value, hLookup, hLong, hCause⟩ |
          ⟨list, place, hListing, before, item, after, hItems, hFine, hItem⟩⟩
      · exact .kind hLookup hBreaks
      · exact .stream hKind hName hLookup hLong hCause
      · have hMem : item ∈ listed list fields := by
          rw [hItems]
          exact List.mem_append_cons_self
        exact .inside hKind hName hListing hItems hFine (ih list item hMem hItem)
  · intro h
    induction h with
    | kind lookup breaks =>
      exact readDeclaration_obj_eq_broken_iff.mpr (.inl ⟨_, lookup, breaks⟩)
    | stream hasKind name lookup long cause_eq =>
      exact readDeclaration_obj_eq_broken_iff.mpr
        (.inr ⟨.method, hasKind, name, .inl ⟨rfl, _, lookup, long, cause_eq⟩⟩)
    | inside hasKind name listing items fine _ ih =>
      exact readDeclaration_obj_eq_broken_iff.mpr
        (.inr ⟨_, hasKind, name, .inr ⟨_, _, listing, _, _, _, items, fine, ih⟩⟩)

theorem holdsLong_of_mem_listed {name : String} {fields : List (String × Json)} {item : Json}
    (h : item ∈ listed name fields) (hLong : item.HoldsLong) : Json.HoldsLong (.obj fields) := by
  unfold listed at h
  split at h
  · rename_i hLookup
    exact Json.HoldsLong.of_lookup (.item h hLong) hLookup
  · cases h

theorem FirstIs.exists_mem {rule : Json → Prop} {place : Place} {items : List Json}
    (h : FirstIs rule place items) : ∃ item ∈ items, rule item := by
  obtain ⟨before, item, after, rfl, -, hRule⟩ := h
  exact ⟨item, List.mem_append_cons_self, hRule⟩

theorem holdsLong_of_breaks {value : Json} (h : Breaks cause value)
    (hCause : cause = .longInteger) : value.HoldsLong := by
  induction h with
  | kind lookup breaks =>
    subst hCause
    cases breaks with
    | long long => exact (Json.HoldsLong.here long).of_lookup lookup
  | stream _ _ lookup long _ => exact long.of_lookup lookup
  | @inside fields _ list _ _ _ item _ _ _ items _ _ ih =>
    have hMem : item ∈ listed list fields := by
      rw [items]
      exact List.mem_append_cons_self
    exact holdsLong_of_mem_listed hMem ih

/-- An integer too long to be shown is one of the document. -/
theorem holdsLong_of_schemaBreaks {document : Json} (h : SchemaBreaks .longInteger document) :
    document.HoldsLong := by
  obtain ⟨fields, rfl, -, -, -, hFirst⟩ := h
  obtain ⟨item, hMem, hBreaks⟩ := hFirst.exists_mem
  exact holdsLong_of_mem_listed hMem (holdsLong_of_breaks hBreaks rfl)

theorem readSchema_eq_broken_iff {document : Json} :
    readSchema document = .error (.broken cause) ↔ SchemaBreaks cause document := by
  cases document with
  | obj fields =>
    have hNone : Succeeds (readOptions (.obj [])) := ⟨[], rfl⟩
    have hDeclarations : ∀ (f : List Declaration → Schema),
        (readAttribute fields "declarations" (.arr []) (readMembers .member) >>=
          fun declarations => pure (f declarations)) = .error (.broken cause) ↔
        FirstIs (Breaks cause) .member (listed "declarations" fields) := by
      intro f
      rw [map_eq_error_iff, readMembers_eq_broken_iff]
      simp only [readDeclaration_eq_broken_iff]
    rw [readSchema_obj,
      bind_eq_broken_iff_right (errs_optional errs_readPackage ⟨none, rfl⟩) fun _ =>
        bind_eq_broken_iff_right (errs_list errs_expectString) fun _ =>
        bind_eq_broken_iff_right (errs_optional errs_readOptions hNone) fun _ =>
        hDeclarations _, succeeds_package_iff, succeeds_imports_iff, succeeds_options_iff]
    simp [SchemaBreaks]
  | _ => exact iff_of_false nofun (by rintro ⟨fields, h, -⟩; cases h)

end
end Document
end ProtoSchema
