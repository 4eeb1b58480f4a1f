import ProtoSchema.Document.Reader
import ProtoSchema.Proofs.Proto.Templates

/-! When a reader of the text of a schema finds the strings of the schema in it. -/
namespace ProtoSchema.Proto

/-- The comment that every text starts with. -/
def comment : String := "/* Generated by protoemit */"

/-- The statement that names the version, on a line of its own after an empty one. -/
def syntaxText (version : String) : String := "\n\nsyntax = " ++ literal version ++ ";\n"

theorem toList_text_eq (schema : Schema) : (text schema).toList = comment.toList ++
    ((syntaxText "proto3").toList ++ (Text.unlines (bodyLines schema)).toList) := by
  have hHeader : header = comment ++ syntaxText "proto3" := by decide
  rw [text_eq_unlines, hHeader, String.toList_append, String.toList_append, List.append_assoc]

theorem outline_comment_append (rest : List Char) : outline (comment.toList ++ rest) =
    (outlineFrom (comment.toList ++ rest).length rest).map (⟨comment.toList, []⟩ ++ ·) := by
  have hFirst : outlineFirst '/' (comment.toList.tail ++ rest) =
      some (⟨comment.toList, []⟩, rest) := by
    rfl
  have hText : comment.toList ++ rest = '/' :: (comment.toList.tail ++ rest) := rfl
  rw [outline, hText, outlineFrom, hFirst, Option.bind_eq_bind, Option.bind_some]
  exact Option.map_eq_bind.symm

/-- After the comment, a reader finds strings where they are exactly if they are clean. -/
theorem outline_comment_iff {rest blank : List Char} {strings : List String}
    (h : Written Quiet rest strings blank) :
    outline (comment.toList ++ rest) =
        some ⟨comment.toList ++ blank, strings.map fun s => utf8 s.toList⟩ ↔
      ∀ s ∈ strings, Clean '"' s.toList := by
  have hFuel : rest.length < (comment.toList ++ rest).length := by
    have hComment : 0 < comment.toList.length := by decide
    rw [List.length_append]
    omega
  rw [outline_comment_append, Option.map_eq_some_iff, ← h.outlineFrom_eq_iff hFuel]
  constructor
  · intro hFound
    obtain ⟨⟨outside, literals⟩, hFrom, hEq⟩ := hFound
    have hBoth : comment.toList ++ outside = comment.toList ++ blank ∧
        [] ++ literals = strings.map fun s => utf8 s.toList := Outline.mk.inj hEq
    rw [hFrom, List.append_cancel_left hBoth.1, ← hBoth.2, List.nil_append]
  · intro hFrom
    exact ⟨_, hFrom, rfl⟩

/-- The outline of a text with these strings in the quotes of a schema that has none. -/
def outlineWith (blank : Schema) (strings : List String) : Outline where
  outside := comment.toList ++ ((syntaxText "").toList ++ (Text.unlines (bodyLines blank)).toList)
  literals := ("proto3" :: strings).map fun s => utf8 s.toList

theorem written_syntaxText {P : Char → Prop} (hQuiet : ∀ c, Quiet c → P c) :
    Written P (syntaxText "proto3").toList ["proto3"] (syntaxText "").toList := by
  have hStart : MadeOf P "\n\nsyntax = " := .of_quiet hQuiet (by decide)
  have hEnd : MadeOf P ";\n" := .of_quiet hQuiet (by decide)
  exact ((Written.of_madeOf hStart).append_text (.of_literal "proto3")).append_text
    (.of_madeOf hEnd)

/-- With names that start neither literals nor comments, a reader finds the strings of a schema
where they are exactly if they are clean. The text around them is that of the blank schema. -/
theorem outline_text_iff {schema : Schema} (hNames : ∀ name ∈ schema.names, MadeOf Quiet name) :
    outline (text schema.blank).toList =
        some (outlineWith schema.blank (schema.strings.map fun _ => "")) ∧
      (outline (text schema).toList = some (outlineWith schema.blank schema.strings) ↔
        ∀ s ∈ schema.strings, Clean '"' s.toList) := by
  have hSyntax := written_syntaxText fun _ => id
  have hBody := (written_bodyLines (fun _ => id) hNames).unlines fun _ => id
  have hVersion : Clean '"' "proto3".toList := by decide
  have hBlank := outline_comment_iff (hSyntax.append hBody.empty)
  have hText := outline_comment_iff (hSyntax.append hBody)
  rw [List.singleton_append, List.forall_mem_cons] at hBlank hText
  rw [toList_text_eq, toList_text_eq]
  constructor
  · apply hBlank.mpr
    rw [List.forall_mem_map]
    exact ⟨hVersion, fun _ _ => List.forall_mem_nil _⟩
  · exact hText.trans (and_iff_right hVersion)

/-- A string between double quotes reads as itself, whatever follows, exactly if it needs no escape.
In the text of a schema each string stands so, at a place that does not depend on what it holds.
With quiet names a reader of the whole text finds the strings there, and the statements of the blank
schema around them, exactly if no string needs an escape. -/
theorem quoted_iff (schema : Schema) :
    (∀ s rest, literal? ((literal s).toList ++ rest) = some (utf8 s.toList, rest) ↔
      Clean '"' s.toList) ∧
    Written (fun _ => True) (text schema).toList schema.strings (text schema.blank).toList ∧
    ((∀ name ∈ schema.names, MadeOf Quiet name) →
      outline (text schema.blank).toList =
          some (outlineWith schema.blank (schema.strings.map fun _ => "")) ∧
        (outline (text schema).toList = some (outlineWith schema.blank schema.strings) ↔
          ∀ s ∈ schema.strings, Clean '"' s.toList)) := by
  have hAny : ∀ c, Quiet c → True := fun _ _ => trivial
  have hNames : ∀ name ∈ schema.names, MadeOf (fun _ => True) name := fun _ _ _ _ => trivial
  have hHeader : Written (fun _ => True) header.toList [] header.toList :=
    .of_forall fun _ _ => trivial
  have hBody := (written_bodyLines hAny hNames).unlines hAny
  have hText : Written (fun _ => True) (text schema).toList schema.strings
      (text schema.blank).toList := by
    rw [text_eq_unlines, text_eq_unlines]
    exact hHeader.append_text hBody
  exact ⟨literal?_literal_iff, hText, outline_text_iff⟩

/-- Quotes of the other kind and what would start comments, all in strings. -/
def markedSchema : Schema where
  package := some "a.b"
  imports := ["google/protobuf/any.proto"]
  options := [("(my.ext)", .text "it's // a /* comment"), ("level", .integer (-3))]
  declarations := [.message "M" [.message "N" [] [.name "x;", .name ""]] [.number 4, .name "old"]]

theorem quoted_markedSchema : (∀ name ∈ markedSchema.names, MadeOf Quiet name) ∧
    outline (text markedSchema).toList = some (outlineWith markedSchema.blank
      ["google/protobuf/any.proto", "it's // a /* comment", "old", "x;", ""]) := by
  have hNames : ∀ name ∈ markedSchema.names, MadeOf Quiet name := by decide
  have hClean : ∀ s ∈ markedSchema.strings, Clean '"' s.toList := by decide
  exact ⟨hNames, ((quoted_iff markedSchema).2.2 hNames).2.mpr hClean⟩

/-- An option whose value holds the end of its own literal and the start of another. -/
def injectedDocument : Json :=
  .obj [("options", .obj [("java_package", .str "a\";\noption go_package = \"b")])]

def injectedSchema : Schema where
  options := [("java_package", .text "a\";\noption go_package = \"b")]

def separateSchema : Schema where
  options := [("java_package", .text "a"), ("go_package", .text "b")]

/-- A document with one option has a text with two, in which its value does not stand. -/
theorem not_quoted_injected : Document.readSchema injectedDocument = .ok injectedSchema ∧
    (∀ name ∈ injectedSchema.names, MadeOf Quiet name) ∧
    text injectedSchema = text separateSchema ∧
    outline (text injectedSchema).toList = some (outlineWith separateSchema.blank ["a", "b"]) ∧
    outlineWith separateSchema.blank ["a", "b"] ≠
      outlineWith injectedSchema.blank injectedSchema.strings := by
  have hRead : Document.readSchema injectedDocument = .ok injectedSchema := by rfl
  have hText : text injectedSchema = text separateSchema := by decide +kernel
  have hNames : ∀ name ∈ separateSchema.names, MadeOf Quiet name := by decide
  have hClean : ∀ s ∈ separateSchema.strings, Clean '"' s.toList := by decide
  have hFound := (outline_text_iff hNames).2.mpr hClean
  rw [← hText] at hFound
  refine ⟨hRead, by decide, hText, hFound, fun hEq => ?_⟩
  have hLength := congrArg (fun outline => outline.literals.length) hEq
  exact absurd hLength (by decide)

end ProtoSchema.Proto
