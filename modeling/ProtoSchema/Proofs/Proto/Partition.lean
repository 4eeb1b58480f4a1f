import ProtoSchema.Proofs.Proto.Buckets
import ProtoSchema.Proofs.Proto.Indentation

/-!
The reservations of a message. Sorting them into buckets parts numbers and ranges from names, and
nothing else about their order shows in the lines.
-/
namespace ProtoSchema

namespace Reservation

def bucket (reservation : Reservation) : String := if reservation.isName then "names" else "numbers"

/-- Sorted reservations are the same ones, each as often as before. -/
theorem sorted_perm (reservations : List Reservation) :
    (sorted reservations).Perm reservations := by
  have hParts := List.filter_append_perm isName reservations
  exact List.perm_append_comm.trans hParts

end Reservation

namespace Proto
open Reservation (bucket isName sorted)

/-- The buckets of reservations, with what an entry is written as. -/
def reservationBuckets : Assoc String (Reservation → String) :=
  [("numbers", entry), ("names", entry)]

theorem sort_reservations (reservations : List Reservation) :
    Buckets.sort bucket reservationBuckets reservations =
      .ok [("numbers", (reservations.filter (! ·.isName)).map entry),
        ("names", (reservations.filter isName).map entry)] := by
  have hThere : ∀ isName : Bool, (if isName then "names" else "numbers") ∈
      reservationBuckets.map Prod.fst := by decide
  have hNumbers : (fun r => decide (bucket r = "numbers")) = (! ·.isName) := by
    funext r
    cases r <;> rfl
  have hNames : (fun r => decide (bucket r = "names")) = isName := by
    funext r
    cases r <;> rfl
  rw [Buckets.sort_eq_filled (by decide) fun r _ => hThere r.isName, ← hNumbers, ← hNames]
  rfl

/-- The line of a message that reserves these entries, none if there are none. -/
def reservedIn (entries : List String) : List String :=
  if entries.isEmpty then [] else ["  reserved " ++ ", ".intercalate entries ++ ";"]

theorem indent_reservedLine (entries : List String) :
    Lines.indent 2 (reservedLine entries) = reservedIn entries := by
  have hBlanks : Lines.indentLine 2 ("reserved " ++ ", ".intercalate entries ++ ";") =
      "  reserved " ++ ", ".intercalate entries ++ ";" := by
    have hLine : "reserved " ++ ", ".intercalate entries ++ ";" ≠ "" :=
      ne_empty_of_semicolon (getLast?_toList_append (by decide))
    have hFirst : "".pushn ' ' 2 ++ "reserved " = "  reserved " := rfl
    rw [Lines.indentLine, if_neg hLine, ← String.append_assoc, ← String.append_assoc]
    exact congrArg (· ++ ", ".intercalate entries ++ ";") hFirst
  unfold reservedLine reservedIn
  split
  · rfl
  · rw [Lines.indent, List.map_singleton, hBlanks]

theorem head?_members_ne_blank (members : List Declaration) :
    (Lines.indent 2 (memberLines members) ++ [closing]).head? ≠ some "" := by
  cases members with
  | nil => decide
  | cons decl decls =>
    obtain ⟨rest, hLines⟩ := lines_eq_cons decl
    have hFirst : firstLine decl ≠ "" := by
      apply (spaced_lines decl).first
      rw [hLines]
      rfl
    rw [memberLines, hLines]
    intro hHead
    exact hFirst ((Lines.indentLine_eq_empty_iff 2 _).mp (Option.some.inj hHead))

theorem lines_message_eq (name : String) (members : List Declaration)
    (reservations : List Reservation) : lines (.message name members reservations) =
      if members.isEmpty && reservations.isEmpty then [opening "message" name ++ closing]
      else opening "message" name ::
        (reservedIn ((reservations.filter (! ·.isName)).map entry) ++
          reservedIn ((reservations.filter isName).map entry) ++
          (if reservations.isEmpty then [] else [""]) ++
          Lines.indent 2 (memberLines members)) ++ [closing] := by
  rw [lines, reservationLines_eq, Lines.indent_append, Lines.indent_append, Lines.indent_blank,
    indent_reservedLine, indent_reservedLine, block]

/-- A message begins with its numbers and ranges in one statement and its names in another, each in
their order and each only if there are any, and one blank line after them. Nothing else of the order
of reservations shows. -/
theorem reservations_partitioned :
    (∀ reservations, Buckets.sort bucket reservationBuckets reservations =
      .ok [("numbers", (reservations.filter (! ·.isName)).map entry),
        ("names", (reservations.filter isName).map entry)]) ∧
    (∀ reservations : List Reservation,
      (reservations.filter (! ·.isName) ++ reservations.filter isName).Perm reservations) ∧
    (∀ name members reservations, lines (.message name members reservations) =
      if members.isEmpty && reservations.isEmpty then [opening "message" name ++ closing]
      else opening "message" name ::
        (reservedIn ((reservations.filter (! ·.isName)).map entry) ++
          reservedIn ((reservations.filter isName).map entry) ++
          (if reservations.isEmpty then [] else [""]) ++
          Lines.indent 2 (memberLines members)) ++ [closing]) ∧
    (∀ members, (Lines.indent 2 (memberLines members) ++ [closing]).head? ≠ some "") ∧
    ∀ name members (as bs : List Reservation),
      as.filter (! ·.isName) = bs.filter (! ·.isName) → as.filter isName = bs.filter isName →
      lines (.message name members as) = lines (.message name members bs) := by
  refine ⟨sort_reservations, Reservation.sorted_perm, lines_message_eq, head?_members_ne_blank, ?_⟩
  intro name members as bs hNumbers hNames
  have hSorted : sorted as = sorted bs := (Reservation.sorted_eq_iff as bs).mpr ⟨hNumbers, hNames⟩
  rw [lines_message, lines_message, ← reservationLines_sorted as, hSorted, reservationLines_sorted]

def mixedReservations : List Reservation := [.number 5, .name "x", .range 1 2, .name "a", .number 5]

def partedReservations : List Reservation :=
  [.name "x", .name "a", .number 5, .range 1 2, .number 5]

theorem reservations_partitioned_mixed :
    mixedReservations.filter (! ·.isName) = partedReservations.filter (! ·.isName) ∧
    mixedReservations.filter isName = partedReservations.filter isName ∧
    lines (.message "M" [] mixedReservations) = lines (.message "M" [] partedReservations) ∧
    lines (.message "M" [] mixedReservations) =
      ["message M \x7b", "  reserved 5, 1 to 2, 5;", "  reserved \"x\", \"a\";", "", "\x7d"] := by
  obtain ⟨-, -, -, -, hSame⟩ := reservations_partitioned
  exact ⟨rfl, rfl, hSame "M" [] mixedReservations partedReservations rfl rfl, by decide +kernel⟩

end Proto
end ProtoSchema
