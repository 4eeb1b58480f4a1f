import ProtoSchema.Proofs.Document.Portable
import ProtoSchema.Proofs.Proto.Normal
import ProtoSchema.Schema.Equality
import ProtoSchema.Source

/-! The way of a schema through JSON text, which changes neither the schema nor its text. -/
namespace ProtoSchema.Source
open Document (ofSchema)

section
variable (file : String) (spacing : Json.Spacing) {trailing : String}
  (hTrailing : ∀ c ∈ trailing.toList, Json.isBlank c = true)
include hTrailing

theorem readJson_write {value : Json} (h : Json.Portable value) :
    readJson file (Json.write spacing value ++ trailing) = .ok value := by
  rw [readJson, String.toList_append, Json.read_write h spacing hTrailing]
  rfl

end

/-- Scalar types taken for references and the other way round, a range held as a list, and texts
that have to be escaped. -/
def mislabeledFile : Schema where
  package := some "\"π\""
  options := [("java_package", .text "a\n\\😀"), ("deprecated", .boolean true),
    ("level", .integer (-3))]
  declarations := [
    .message "M" [.field ⟨"x", .map (.ref "string") (.scalar "M"), 1, false⟩,
      .oneof "choice" [.field ⟨"y", .ref "int32", 2, true⟩]] [.name "é", .range 5 9 .list],
    .enum ⟨"E", [⟨"ZERO", 0⟩], true⟩,
    .service "S" [⟨"Run", .scalar "M", .ref "M", ⟨true, true⟩⟩]]

end ProtoSchema.Source
