import ProtoSchema.Generator.FileSet
import ProtoSchema.Proofs.Generator.Parts

/-! Generated schemas are valid, whatever the source of the choices. -/
namespace ProtoSchema.Generator
open Sampling (Gen Fault MersenneTwister)

/-- The declaration is that of a type, which holds no fields for the message around it. -/
def IsType (decl : Declaration) : Prop :=
  (∃ e, decl = .enum e) ∨ ∃ name members reservations, decl = .message name members reservations

theorem fields_eq_nil_of_isType {decl : Declaration} (h : IsType decl) : decl.fields = [] := by
  rcases h with ⟨e, rfl⟩ | ⟨name, members, reservations, rfl⟩ <;> rfl

/-- Texts that start differently differ, whatever follows. -/
theorem append_ne_of_head {a b : String} {c d : Char} {r s : List Char} (ha : a.toList = c :: r)
    (hb : b.toList = d :: s) (hNe : c ≠ d) (x y : String) : a ++ x ≠ b ++ y := by
  intro hEq
  have hList := congrArg String.toList hEq
  rw [String.toList_append, String.toList_append, ha, hb] at hList
  exact hNe (List.cons.inj hList).1

/-- No reserved name is a letter with a number. -/
theorem old_ne_numbered (rest : String) (k : Nat) :
    "old_" ++ rest ≠ "f" ++ toString k ∧ "old_" ++ rest ≠ "o" ++ toString k := by
  constructor
  · exact append_ne_of_head rfl rfl (by decide) rest (toString k)
  · intro hEq
    have hList := congrArg String.toList hEq
    simp only [String.toList_append] at hList
    have hDigits : "ld_".toList ++ rest.toList = Nat.toDigits 10 k :=
      (List.cons.inj hList).2.trans Nat.toList_repr
    have hLetter : 'l' ∈ Nat.toDigits 10 k := hDigits ▸ List.mem_cons_self
    exact absurd (Decimal.isDigit_of_mem_toDigits hLetter) (by decide)

/-- Numbered fields, a oneof that goes on with the numbers, types and reservations of what is left
make a message. -/
theorem validMessage {fields : List Field} {choices types : List Declaration} {next : Nat}
    {reservations : List Reservation} (hFields : Row "f" 0 1 fields)
    (hMaps : ∀ field ∈ fields, field.type.isMap → field.repeated = false)
    (hChoices : Choices (fields.length + 1) next choices) (hTypes : ∀ decl ∈ types, IsType decl)
    (hReserved : Reserved next reservations) :
    ValidMessage (fields.map .field ++ choices ++ types) reservations := by
  have hDirect : (fields.map Decl.field).flatMap Decl.fields = fields := by
    rw [List.flatMap_map]
    exact List.flatMap_singleton' fields
  have hNone : types.flatMap Decl.fields = [] :=
    List.flatMap_eq_nil_iff.mpr fun decl hDecl => fields_eq_nil_of_isType (hTypes decl hDecl)
  have hAll : (fields.map Decl.field ++ choices ++ types).flatMap Decl.fields =
      fields ++ choices.flatMap Decl.fields := by
    rw [List.flatMap_append, List.flatMap_append, hDirect, hNone, List.append_nil]
  constructor
  case numbers =>
    rw [hAll, List.map_append, hFields.indices, hChoices.row.indices, List.length_append,
      ← List.map_append, Nat.add_comm fields.length 1, List.range'_append_1]
  case names =>
    rw [hAll, List.map_append, List.nodup_append]
    refine ⟨hFields.nodup, hChoices.row.nodup, ?_⟩
    intro name hName other hOther
    obtain ⟨j, rfl⟩ := hFields.exists_number hName
    obtain ⟨k, rfl⟩ := hChoices.row.exists_number hOther
    exact append_ne_of_head rfl rfl (by decide) (toString j) (toString k)
  case maps =>
    rw [hAll]
    refine List.forall_mem_append.mpr ⟨hMaps, fun field hField => ?_⟩
    obtain ⟨decl, hDecl, hField⟩ := List.mem_flatMap.mp hField
    obtain ⟨name, members, rfl, -, hMembers⟩ := hChoices.oneof decl hDecl
    rw [fields_oneof] at hField
    exact fun _ => (hMembers field hField).2
  case oneofs =>
    intro name members hOneof
    rcases List.mem_append.mp hOneof with hOneof | hOneof
    · rcases List.mem_append.mp hOneof with hOneof | hOneof
      · obtain ⟨field, -, hField⟩ := List.mem_map.mp hOneof
        cases hField
      · obtain ⟨name, fields, hEq, hNil, hMembers⟩ := hChoices.oneof _ hOneof
        cases hEq
        refine ⟨fun hEmpty => hNil (List.map_eq_nil_iff.mp hEmpty), ?_⟩
        exact List.forall_mem_map.mpr fun field hField => ⟨field, rfl, (hMembers field hField).1⟩
    · rcases hTypes _ hOneof with ⟨e, hType⟩ | ⟨name, members, reservations, hType⟩ <;> cases hType
  case spans =>
    intro span hSpan
    rw [hAll, List.length_append]
    have hSpan := hReserved.spans span hSpan
    have hNext := hChoices.after_eq
    omega
  case apart => exact hReserved.apart
  case reservedNames =>
    intro name hName hField
    rw [hAll, List.map_append] at hField
    obtain ⟨rest, rfl⟩ := hReserved.names name hName
    rcases List.mem_append.mp hField with hField | hField
    · obtain ⟨k, hk⟩ := hFields.exists_number hField
      exact (old_ne_numbered rest k).1 hk
    · obtain ⟨k, hk⟩ := hChoices.row.exists_number hField
      exact (old_ne_numbered rest k).2 hk

theorem ensures_sometimes {n : Nat} {gen : Naming Declaration}
    {P : List Declaration → Nat → Prop} (hNone : P [] n)
    (h : Naming.Ensures n gen fun decl n' => P [decl] n') : Naming.Ensures n (sometimes gen) P := by
  refine (Naming.Ensures.lift (Gen.ensures_chance _)).bind ?_
  rintro isThere _ ⟨-, rfl⟩
  split
  · exact h.bind fun decl n' hDecl => .pure hDecl
  · exact .pure hNone

section
variable (isMessage : String → Prop) (depth : Nat)

theorem ensures_enumDeclaration (n : Nat) :
    Naming.Ensures n enumDeclaration fun decl n' =>
      Part isMessage depth n n' [decl] ∧ IsType decl := by
  refine (ensures_enum n).bind ?_
  rintro e _ ⟨rfl, hEnum⟩
  exact .pure ⟨.enum hEnum, .inl ⟨e, rfl⟩⟩

/-- Parts that are types and fit into a message. -/
def Types (low high : Nat) (decls : List Declaration) : Prop :=
  Part isMessage depth low high decls ∧ ∀ decl ∈ decls, IsType decl

variable {isMessage depth}

theorem Types.append {low middle high : Nat} {decls others : List Declaration}
    (h : Types isMessage depth low middle decls)
    (hOthers : Types isMessage depth middle high others) :
    Types isMessage depth low high (decls ++ others) :=
  ⟨h.1.append hOthers.1, List.forall_mem_append.mpr ⟨h.2, hOthers.2⟩⟩

theorem Part.choices {next after n : Nat} {decls : List Declaration}
    (h : Choices next after decls) : Part isMessage depth n n decls := by
  refine .of_forall fun decl hDecl => ?_
  obtain ⟨name, fields, rfl, -, -⟩ := h.oneof decl hDecl
  exact .oneof name fields

variable (isMessage depth)

/-- Around messages of a depth goes a message that is one deeper. -/
theorem ensures_messageAround {nested : Naming (List Declaration)}
    (hNested : ∀ n, Naming.Ensures n nested fun decls n' => Types isMessage depth n n' decls)
    (n : Nat) : Naming.Ensures n (messageAround nested) fun decl n' =>
      Part isMessage (depth + 1) n n' [decl] ∧ ∃ name members reservations,
        decl = .message name members reservations := by
  refine (ensures_freshName rfl n).bind ?_
  rintro name _ ⟨rfl, hName⟩
  refine (Naming.Ensures.lift (Gen.ensures_between (by decide))).bind ?_
  rintro count _ ⟨-, rfl⟩
  refine (Naming.Ensures.lift (ensures_bodyFields 0 count)).bind ?_
  rintro fields _ ⟨⟨hFields, hMaps⟩, rfl⟩
  refine (Naming.Ensures.lift (ensures_oneofs (fields.length + 1))).bind ?_
  rintro ⟨choices, next⟩ _ ⟨hChoices, rfl⟩
  have hEnums : Naming.Ensures (n + 1) (sometimes enumDeclaration) fun decls n' =>
      Types isMessage depth (n + 1) n' decls := by
    refine ensures_sometimes ⟨.nil, nofun⟩ ?_
    exact (ensures_enumDeclaration isMessage depth (n + 1)).mono fun decl n' h =>
      ⟨h.1, List.forall_mem_singleton.mpr h.2⟩
  refine hEnums.bind fun enums n' hEnums => (hNested n').bind fun nested n'' hNested => ?_
  obtain ⟨hTypes, hAreTypes⟩ := hEnums.append hNested
  refine (Naming.Ensures.lift (ensures_reservations next)).bind ?_
  rintro reservations _ ⟨hReserved, rfl⟩
  have hValid := validMessage hFields hMaps hChoices hAreTypes hReserved
  have hMembers : Part isMessage depth (n + 1) n''
      (fields.map .field ++ choices ++ (enums ++ nested)) :=
    ((Part.fields fields).append (.choices hChoices)).append hTypes
  exact .pure ⟨.message hName hMembers hValid, name, _, _, rfl⟩

theorem ensures_message (levels n : Nat) : Naming.Ensures n (message levels) fun decl n' =>
    Part isMessage (levels + 1) n n' [decl] ∧ ∃ name members reservations,
      decl = .message name members reservations := by
  induction levels generalizing n with
  | zero =>
    rw [message]
    exact ensures_messageAround isMessage 0 (fun n => .pure ⟨.nil, nofun⟩) n
  | succ levels ih =>
    rw [message]
    refine ensures_messageAround isMessage _ (fun n => ensures_sometimes ⟨.nil, nofun⟩ ?_) n
    exact (ih n).mono fun decl n' h => ⟨h.1, List.forall_mem_singleton.mpr (.inr h.2)⟩

theorem ensures_messages (count n : Nat) : Naming.Ensures n (messages count) fun decls n' =>
    Part isMessage 3 n n' decls ∧ decls.length = count ∧
      ∀ decl ∈ decls, ∃ name members reservations, decl = .message name members reservations := by
  induction count generalizing n with
  | zero => exact .pure ⟨.nil, rfl, nofun⟩
  | succ count ih =>
    refine (ensures_message isMessage 2 n).bind fun first n' hFirst => ?_
    refine (ih n').bind fun rest n'' hRest => ?_
    obtain ⟨hParts, hLength, hMessages⟩ := hRest
    exact .pure ⟨hFirst.1.append hParts, congrArg Nat.succ hLength,
      List.forall_mem_cons.mpr ⟨hFirst.2, hMessages⟩⟩

variable {isMessage depth}

/-- Enums among declarations leave them all there. -/
theorem ensures_scatterEnums {decls : List Declaration} {n : Nat}
    (h : Part isMessage depth 0 n decls) (count : Nat) :
    Naming.Ensures n (scatterEnums decls count) fun scattered n' =>
      Part isMessage depth 0 n' scattered ∧ ∀ decl ∈ decls, decl ∈ scattered := by
  induction count generalizing decls n with
  | zero => exact .pure ⟨h, fun _ => id⟩
  | succ count ih =>
    refine (Naming.Ensures.lift (Gen.ensures_between (Nat.zero_le _))).bind ?_
    rintro i _ ⟨hi, rfl⟩
    refine (ensures_enumDeclaration isMessage depth n).bind fun inserted n' hInserted => ?_
    have hPerm : (decls ++ [inserted]).Perm (decls.insertIdx i inserted) :=
      (List.perm_append_singleton inserted decls).trans
        (List.perm_insertIdx inserted decls hi.2).symm
    refine (ih ((h.append hInserted.1).perm hPerm)).mono fun scattered n'' hScattered => ?_
    refine ⟨hScattered.1, fun decl hDecl => hScattered.2 decl ?_⟩
    exact hPerm.mem_iff.mp (List.mem_append_left _ hDecl)

end

theorem ensures_method {messages : List String} (h : messages ≠ []) (i : Nat) :
    Gen.Ensures (method messages i) (ValidMethod (· ∈ messages)) := by
  have hSide : ∀ side ≤ 3, ∃ streaming, Streaming.ofInt? (side : Nat) = some streaming := by
    intro side hSide
    match side, hSide with
    | 0, _ => exact ⟨_, rfl⟩
    | 1, _ => exact ⟨_, rfl⟩
    | 2, _ => exact ⟨_, rfl⟩
    | 3, _ => exact ⟨_, rfl⟩
  refine (Gen.ensures_choice h).bind fun input hInput => ?_
  refine (Gen.ensures_choice h).bind fun returns hReturns => ?_
  refine (Gen.ensures_between (by decide)).bind fun side hBounds => ?_
  obtain ⟨streaming, hStreaming⟩ := hSide side hBounds.2
  rw [hStreaming]
  exact .pure ⟨input, returns, rfl, rfl, hInput, hReturns⟩

theorem ensures_methods {messages : List String} (h : messages ≠ []) (i count : Nat) :
    Gen.Ensures (methods messages i count) fun operations =>
      ∀ operation ∈ operations, ValidMethod (· ∈ messages) operation := by
  induction count generalizing i with
  | zero => exact .pure nofun
  | succ count ih =>
    exact (ensures_method h i).bind fun first hFirst => (ih (i + 1)).bind fun rest hRest =>
      .pure (List.forall_mem_cons.mpr ⟨hFirst, hRest⟩)

theorem ensures_service {messages : List String} (h : messages ≠ []) (depth n : Nat) :
    Naming.Ensures n (service messages) fun decl n' => Part (· ∈ messages) depth n n' [decl] := by
  refine (Naming.Ensures.lift (Gen.ensures_between (by decide))).bind ?_
  rintro count _ ⟨-, rfl⟩
  refine (Naming.Ensures.lift (ensures_methods h 0 count)).bind ?_
  rintro operations _ ⟨hOperations, rfl⟩
  refine (ensures_freshName rfl n).bind ?_
  rintro name _ ⟨rfl, hName⟩
  exact .pure (.service hName hOperations)

theorem IsMessageOf.append {decls : List Declaration} {name : String} (h : IsMessageOf decls name)
    (others : List Declaration) : IsMessageOf (decls ++ others) name := by
  obtain ⟨members, reservations, hMem⟩ := h
  exact ⟨members, reservations, List.mem_append_left _ hMem⟩

theorem messageNames_ne_nil {decls : List Declaration} (hPos : 0 < decls.length)
    (h : ∀ decl ∈ decls, ∃ name members reservations, decl = .message name members reservations) :
    decls.filterMap messageName? ≠ [] := by
  obtain ⟨first, rest, rfl⟩ := List.exists_cons_of_length_pos hPos
  obtain ⟨name, members, reservations, rfl⟩ := h first List.mem_cons_self
  exact List.cons_ne_nil name _

/-- The declarations of a file use the numbers from one on, and methods pass its own messages. -/
theorem ensures_declarations : Naming.Ensures 0 declarations fun decls n' =>
    Part (IsMessageOf decls) 3 0 n' decls := by
  refine (Naming.Ensures.lift (Gen.ensures_between (by decide))).bind ?_
  rintro count _ ⟨hCount, rfl⟩
  refine (ensures_messages (fun _ => False) count 0).bind fun top n hTop => ?_
  obtain ⟨hPart, hLength, hMessages⟩ := hTop
  have hNames := messageNames_ne_nil (by omega) hMessages
  refine (Naming.Ensures.lift (Gen.ensures_between (by decide))).bind ?_
  rintro enums _ ⟨-, rfl⟩
  refine (ensures_scatterEnums hPart enums).bind fun decls n' hDecls => ?_
  obtain ⟨hPart, hTop⟩ := hDecls
  have hPassed : ∀ name ∈ top.filterMap messageName?, IsMessageOf decls name := by
    intro name hName
    obtain ⟨decl, hDecl, hIs⟩ := List.mem_filterMap.mp hName
    obtain ⟨name', members, reservations, rfl⟩ := hMessages decl hDecl
    cases hIs
    exact ⟨members, reservations, hTop _ hDecl⟩
  refine (Naming.Ensures.lift (Gen.ensures_chance _)).bind ?_
  rintro isThere _ ⟨-, rfl⟩
  split
  · refine (ensures_service hNames 3 n').bind fun service n'' hService => .pure ?_
    exact (hPart.mono fun _ => False.elim).append
      (hService.mono fun name hName => IsMessageOf.append (hPassed name hName) [service])
  · exact .pure (hPart.mono fun _ => False.elim)

theorem ensures_package : Gen.Ensures package fun _ => True := by
  refine (Gen.ensures_chance _).bind fun isThere _ => ?_
  split
  · refine (Gen.ensures_between (by decide)).bind fun count _ => ?_
    exact (Gen.ensures_times ensures_identifier count).bind fun _ _ => .pure trivial
  · exact .pure trivial

theorem ensures_options : Gen.Ensures options fun _ => True := by
  have hOption : ∀ name, Gen.Ensures (option name) fun _ => True :=
    fun _ => ensures_identifier.bind fun _ _ => .pure trivial
  refine (Gen.ensures_between (Nat.zero_le 2)).bind fun count hCount => ?_
  refine (Gen.ensures_sample (Nat.le_trans hCount.2 (by decide))).bind fun names _ => ?_
  exact (Gen.ensures_mapM fun name _ => hOption name).mono fun _ _ => trivial

theorem ensures_schema : Gen.Ensures schema Schema.Valid := by
  refine ensures_package.bind fun package _ => ?_
  refine (Gen.ensures_between (Nat.zero_le 2)).bind fun count _ => ?_
  refine (Gen.ensures_times ensures_identifier count).bind fun imports _ => ?_
  refine ensures_options.bind fun options _ => ?_
  refine Gen.Ensures.bind ensures_declarations fun result hPart => .pure ?_
  exact ⟨hPart.typeNames.nodup, hPart.variantNames.nodup, hPart.nodes, hPart.depth_le⟩

/-- Any number of schemas from any source are valid, as are those of any seed, unless the source has
no end of numbers that are rejected. -/
theorem valid_of_generation :
    (∀ count, Gen.Ensures (Gen.times schema count) fun generated =>
      generated.length = count ∧ ∀ schema ∈ generated, schema.Valid) ∧
    ∀ seed count, match schemas seed count with
      | .ok generated => generated.length = count.toNat ∧ ∀ schema ∈ generated, schema.Valid
      | .error fault => fault = .stalled ∧ (MersenneTwister.ofSeed seed).Stalls := by
  have hTimes := Gen.ensures_times ensures_schema
  refine ⟨hTimes, fun seed count => ?_⟩
  have hRun := hTimes count.toNat (MersenneTwister.ofSeed seed)
  rw [schemas, generate]
  cases h : (Gen.times schema count.toNat).run (MersenneTwister.ofSeed seed) with
  | error fault =>
    rw [h] at hRun
    exact hRun
  | ok result =>
    rw [h] at hRun
    exact hRun.1

end ProtoSchema.Generator
