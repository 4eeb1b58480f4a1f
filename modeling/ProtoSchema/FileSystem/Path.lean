/-! Paths, resolved by their text alone. -/
namespace ProtoSchema.FileSystem

/-- The names on the way from the root down. -/
abbrev Path := List String

namespace Path

/-- The parts of a text between slashes. -/
def splitSlashes : List Char → List (List Char)
  | [] => [[]]
  | '/' :: rest => [] :: splitSlashes rest
  | c :: rest =>
    match splitSlashes rest with
    | [] => [[c]]
    | part :: parts => (c :: part) :: parts

/-- The names in the text of a path. Empty names and single points name nothing. -/
def names (text : String) : List String :=
  ((splitSlashes text.toList).map String.ofList).filter fun name => name ≠ "" ∧ name ≠ "."

/-- Follows a name; two points lead up. -/
def follow (path : Path) (name : String) : Path :=
  if name = ".." then path.dropLast else path ++ [name]

/-- The path that a text means in a working directory. -/
def resolve (workingDirectory : Path) (text : String) : Path :=
  let base := if text.toList.head? = some '/' then [] else workingDirectory
  (names text).foldl follow base

/-- The user in whose home directory a text starts: a tilde and the user's name are its first name.
The user at hand has the empty name. -/
def user? (text : String) : Option String :=
  if text.toList.head? = some '/' then none
  else
    match names text with
    | [] => none
    | first :: _ =>
      match first.toList with
      | '~' :: user => some (String.ofList user)
      | _ => none

/-- The path that a text means which starts in this home directory. A home that itself starts with a
tilde leads nowhere, and one without any text is the root. -/
def atHome? (workingDirectory : Path) (home text : String) : Option Path :=
  if home.toList.head? = some '~' then none
  else
    let base := if home = "" then [] else resolve workingDirectory home
    some ((names text).tail.foldl follow base)

/-- The path that a text means where home directories count. -/
def locate? (workingDirectory : Path) (home : String → Option String) (text : String) :
    Option Path :=
  match user? text with
  | none => some (resolve workingDirectory text)
  | some user => (home user).bind fun directory => atHome? workingDirectory directory text

def text (path : Path) : String := "/" ++ "/".intercalate path

/-- The last name in the text of a path. -/
def lastName (text : String) : String := (names text).getLastD ""

/-- A name without what follows its last point, if characters stand on both sides of that point. -/
def stem (name : String) : String :=
  let reversed := name.toList.reverse
  let suffix := reversed.takeWhile (· ≠ '.')
  match suffix, reversed.drop suffix.length with
  | _ :: _, '.' :: before@(_ :: _) => String.ofList before.reverse
  | _, _ => name

/-- The stem of a name is what precedes its last point. -/
theorem stem_append {base suffix : List Char} (hBase : base ≠ []) (hSuffix : suffix ≠ [])
    (hPoint : '.' ∉ suffix) :
    stem (String.ofList (base ++ '.' :: suffix)) = String.ofList base := by
  have hAll : ∀ c ∈ suffix.reverse, decide (c ≠ '.') = true := by
    intro c hc
    refine decide_eq_true fun hEq => hPoint ?_
    rw [← hEq]
    exact List.mem_reverse.mp hc
  have hReversed : (base ++ '.' :: suffix).reverse = suffix.reverse ++ '.' :: base.reverse := by
    simp
  have hTake : (suffix.reverse ++ '.' :: base.reverse).takeWhile (fun c => decide (c ≠ '.')) =
      suffix.reverse := by
    rw [List.takeWhile_append_of_pos hAll, List.takeWhile_cons_of_neg (by decide), List.append_nil]
  obtain ⟨s, ss, hEnd⟩ := List.exists_cons_of_ne_nil (mt List.reverse_eq_nil_iff.mp hSuffix)
  obtain ⟨b, bs, hStart⟩ := List.exists_cons_of_ne_nil (mt List.reverse_eq_nil_iff.mp hBase)
  unfold stem
  simp only [String.toList_ofList, hReversed, hTake, List.drop_left]
  rw [hEnd, hStart]
  change String.ofList (b :: bs).reverse = _
  rw [← hStart, List.reverse_reverse]

end Path
end ProtoSchema.FileSystem
