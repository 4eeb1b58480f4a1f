import ProtoSchema.Proofs.Proto.Blocks
import ProtoSchema.Proofs.Proto.Normal

/-! The lines of a declaration determine it up to normal form, and where they end. -/
namespace ProtoSchema.Proto

theorem memberLines_eq_nil_iff (decls : List Declaration) :
    memberLines decls = [] ↔ decls = [] := by
  cases decls with
  | nil => simp [memberLines]
  | cons decl decls =>
    obtain ⟨rest, hLines⟩ := lines_eq_cons decl
    simp [memberLines, hLines]

theorem lines_message (name : String) (members : List Declaration)
    (reservations : List Reservation) :
    lines (.message name members reservations) =
      braced "message" name (reservationLines reservations ++ memberLines members) := by
  have hEmpty : (reservationLines reservations ++ memberLines members).isEmpty =
      (members.isEmpty && reservations.isEmpty) := by
    rw [Bool.eq_iff_iff, List.isEmpty_iff, List.append_eq_nil_iff, reservationLines_eq_nil_iff,
      memberLines_eq_nil_iff, Bool.and_eq_true, List.isEmpty_iff, List.isEmpty_iff, and_comm]
  rw [lines, braced, hEmpty, Lines.indent_append]

/-- Members start with the line of a declaration. -/
theorem lineKind?_of_mem_head? {decls : List Declaration} (h : ∀ decl ∈ decls, decl.Worded) :
    ∀ line ∈ (memberLines decls).head?, ¬ lineKind? line = none := by
  intro line hHead
  cases decls with
  | nil => simp [memberLines] at hHead
  | cons decl decls =>
    obtain ⟨rest, hLines⟩ := lines_eq_cons decl
    have hLine : line = firstLine decl := by
      simpa [memberLines, hLines, eq_comm] using hHead
    have hWords := ((Decl.worded_iff decl).mp (h decl List.mem_cons_self)).1
    rw [hLine, lineKind?_firstLine hWords]
    exact Option.some_ne_none _

/-- The lines of this declaration determine it, and where they end. -/
def Determined (a : Declaration) : Prop :=
  a.Worded → ∀ b : Declaration, b.Worded → ∀ r s, lines a ++ r = lines b ++ s →
    a.normal = b.normal ∧ r = s

theorem memberLines_inj {as bs : List Declaration} (hDetermined : ∀ a ∈ as, Determined a)
    (ha : ∀ a ∈ as, a.Worded) (hb : ∀ b ∈ bs, b.Worded) (h : memberLines as = memberLines bs) :
    as.map Decl.normal = bs.map Decl.normal := by
  induction as generalizing bs with
  | nil => rw [(memberLines_eq_nil_iff bs).mp h.symm]
  | cons a as ih =>
    cases bs with
    | nil => cases (memberLines_eq_nil_iff _).mp h
    | cons b bs =>
      rw [List.forall_mem_cons] at hDetermined ha hb
      rw [memberLines, memberLines] at h
      obtain ⟨hHead, hTail⟩ := hDetermined.1 ha.1 b hb.1 _ _ h
      rw [List.map_cons, List.map_cons, hHead, ih hDetermined.2 ha.2 hb.2 hTail]

/-- A statement on a line of its own. -/
private theorem singleton_append_inj {a b : String} {r s : List String} (h : [a] ++ r = [b] ++ s) :
    a = b ∧ r = s := List.cons.inj h

theorem determined (a : Declaration) : Determined a := by
  induction a using Decl.induct with
  | message name ms rs ih =>
    intro ha b hb r s h
    have hKind := kind_eq_of_lines_append ha hb h
    cases b with
    | message name' ms' rs' =>
      rw [Decl.worded_message] at ha hb
      rw [lines_message, lines_message] at h
      obtain ⟨hName, hBody, hRest⟩ := braced_append_inj ha.1 hb.1 h
      obtain ⟨hReservations, hMembers⟩ := Text.append_inj_of_head
        (fun _ hLine => lineKind?_reservationLines ha.2.1 hLine)
        (fun _ hLine => lineKind?_reservationLines hb.2.1 hLine)
        (lineKind?_of_mem_head? ha.2.2) (lineKind?_of_mem_head? hb.2.2) hBody
      refine ⟨?_, hRest⟩
      rw [Decl.normal, Decl.normal, Decl.normalIn_eq_map, Decl.normalIn_eq_map, hName,
        memberLines_inj ih ha.2.2 hb.2.2 hMembers, reservationLines_inj ha.2.1 hb.2.1 hReservations]
    | foreign value => exact value.elim
    | _ => cases hKind
  | field f =>
    intro ha b hb r s h
    have hKind := kind_eq_of_lines_append ha hb h
    cases b with
    | field g =>
      rw [Decl.worded_field] at ha hb
      obtain ⟨hLine, hRest⟩ := singleton_append_inj h
      refine ⟨?_, hRest⟩
      rw [Decl.normal, Decl.normal, fieldLine_inj ha hb hLine]
    | foreign value => exact value.elim
    | _ => cases hKind
  | oneof name ms ih =>
    intro ha b hb r s h
    have hKind := kind_eq_of_lines_append ha hb h
    cases b with
    | oneof name' ms' =>
      rw [Decl.worded_oneof] at ha hb
      rw [lines, lines] at h
      obtain ⟨hName, hBody, hRest⟩ := block_append_inj ha.1 hb.1 h
      refine ⟨?_, hRest⟩
      rw [Decl.normal, Decl.normal, Decl.normalIn_eq_map, Decl.normalIn_eq_map, hName,
        memberLines_inj ih ha.2 hb.2 hBody]
    | foreign value => exact value.elim
    | _ => cases hKind
  | enum e =>
    intro ha b hb r s h
    have hKind := kind_eq_of_lines_append ha hb h
    cases b with
    | enum e' =>
      rw [Decl.worded_enum] at ha hb
      rw [lines, lines, enumLines_eq, enumLines_eq] at h
      obtain ⟨hName, hBody, hRest⟩ := block_append_inj ha.1 hb.1 h
      obtain ⟨hVariants, hAlias⟩ := enumBody_inj ha.2 hb.2 hBody
      have hEnum : e = e' := by
        cases e
        rw [Enum.mk.injEq]
        exact ⟨hName, hVariants, hAlias⟩
      rw [hEnum]
      exact ⟨rfl, hRest⟩
    | foreign value => exact value.elim
    | _ => cases hKind
  | method m =>
    intro ha b hb r s h
    have hKind := kind_eq_of_lines_append ha hb h
    cases b with
    | method m' =>
      rw [Decl.worded_method] at ha hb
      obtain ⟨hLine, hRest⟩ := singleton_append_inj h
      refine ⟨?_, hRest⟩
      rw [Decl.normal, Decl.normal, methodLine_inj ha hb hLine]
    | foreign value => exact value.elim
    | _ => cases hKind
  | service name ops =>
    intro ha b hb r s h
    have hKind := kind_eq_of_lines_append ha hb h
    cases b with
    | service name' ops' =>
      rw [Decl.worded_service] at ha hb
      rw [lines, lines, serviceLines_eq, serviceLines_eq] at h
      obtain ⟨hName, hBody, hRest⟩ := braced_append_inj ha.1 hb.1 h
      refine ⟨?_, hRest⟩
      rw [Decl.normal, Decl.normal, hName, methodLines_inj ha.2 hb.2 hBody]
    | foreign value => exact value.elim
    | _ => cases hKind
  | foreign value => exact value.elim

end ProtoSchema.Proto
