import ProtoSchema.Proofs.CommandLine.Steps
import ProtoSchema.Proofs.Proto.Layout

/-! What input files hold. An input depends on no other file, and a proto3 text is no input. -/
namespace ProtoSchema

namespace Json

/-- No value starts with a slash. -/
theorem read_slash (rest : List Char) :
    read ('/' :: rest) = .error (.malformed .valueExpected ('/' :: rest)) := by
  rfl

end Json

theorem Source.load_slash (file : String) (rest : List Char) :
    load file (String.ofList ('/' :: rest)) =
      .error (.malformed file ⟨1, 1⟩ .valueExpected) := by
  rw [load, readJson, String.toList_ofList, Json.read_slash]
  change Except.error (Error.malformed file
    (.after (('/' :: rest).take (('/' :: rest).length - ('/' :: rest).length))) _) = _
  rw [Nat.sub_self]
  rfl

theorem Proto.toList_text (schema : Schema) : ∃ rest, (text schema).toList = '/' :: rest := by
  obtain ⟨tail, hHeader⟩ : ∃ tail, header.toList = '/' :: tail := ⟨_, rfl⟩
  rw [text_eq_unlines, String.toList_append, hHeader]
  exact ⟨_, rfl⟩

namespace CommandLine.Render
open FileSystem (Path Tree)

section
variable {locate : String → Option Path} {files others : Tree} {path : Path}
  {input text : String}

theorem loadIn_of_read {bytes : ByteArray} (hPath : locate input = some path)
    (h : files.read path = .ok bytes) : loadIn locate files input = schemaOf path bytes := by
  rw [loadIn, hPath]
  dsimp only
  rw [loadAt, h]

theorem exists_schema_of_textIn (h : textIn locate files input = .ok text) :
    ∃ schema, loadIn locate files input = .ok schema ∧ text = Proto.text schema := by
  rw [textIn] at h
  cases hLoad : loadIn locate files input with
  | error failure =>
    rw [hLoad] at h
    cases h
  | ok schema =>
    rw [hLoad] at h
    cases h
    exact ⟨schema, rfl, rfl⟩

theorem exists_file_of_textIn (h : textIn locate files input = .ok text) :
    ∃ path bytes, locate input = some path ∧ Tree.look path files = some (.file bytes) := by
  obtain ⟨schema, hLoad, -⟩ := exists_schema_of_textIn h
  rw [loadIn] at hLoad
  cases hPath : locate input with
  | none =>
    rw [hPath] at hLoad
    cases hLoad
  | some path =>
    rw [hPath] at hLoad
    cases hRead : files.read path with
    | error cause =>
      simp only [loadAt, hRead] at hLoad
      cases hLoad
    | ok bytes => exact ⟨path, bytes, rfl, Tree.read_eq_ok_iff.mp hRead⟩

/-- The text of an input is the same wherever its file is the same. -/
theorem textIn_of_look (h : textIn locate files input = .ok text)
    (hLook : ∀ path, locate input = some path → Tree.look path others = Tree.look path files) :
    textIn locate others input = .ok text := by
  obtain ⟨path, bytes, hPath, hFile⟩ := exists_file_of_textIn h
  have hRead := Tree.read_eq_ok_iff.mpr hFile
  have hOther := Tree.read_eq_ok_iff.mpr ((hLook path hPath).trans hFile)
  rw [textIn, loadIn_of_read hPath hRead] at h
  rw [textIn, loadIn_of_read hPath hOther, h]

end

/-- A proto3 text stands at this path. -/
def HoldsText (path : Path) (files : Tree) : Prop :=
  ∃ schema, Tree.look path files = some (.file (Proto.text schema).toUTF8)

/-- A text is loaded from its bytes with its line ends made one. -/
theorem schemaOf_toUTF8 (path : Path) (text : String) :
    schemaOf path text.toUTF8 =
      (Source.load path.text
        (String.ofList (Text.unifyLineEnds text.toList))).mapError .source := by
  rw [schemaOf, Text.Utf8.decode_toUTF8]
  rfl

/-- A proto3 text is no input: it is malformed where it starts. -/
theorem schemaOf_text (path : Path) (schema : Schema) :
    schemaOf path (Proto.text schema).toUTF8 =
      .error (.source (.malformed path.text ⟨1, 1⟩ .valueExpected)) := by
  obtain ⟨rest, hText⟩ := Proto.toList_text schema
  have hUnified : Text.unifyLineEnds ('/' :: rest) = '/' :: Text.unifyLineEnds rest := by
    rw [Text.unifyLineEnds] <;> exact nofun
  rw [schemaOf_toUTF8, hText, hUnified, Source.load_slash]
  rfl

end CommandLine.Render
end ProtoSchema
