import ProtoSchema.Main
import ProtoSchema.Proofs.Answers
import ProtoSchema.Proofs.CommandLine.Corpus
import ProtoSchema.Proofs.Document.Changes
import ProtoSchema.Proofs.Document.Locations
import ProtoSchema.Proofs.Document.Members
import ProtoSchema.Proofs.Document.Parts
import ProtoSchema.Proofs.Generator.Growth
import ProtoSchema.Proofs.Proto.Depth
import ProtoSchema.Proofs.Proto.Open
import ProtoSchema.Proofs.Proto.Paragraphs
import ProtoSchema.Proofs.Proto.Partition
import ProtoSchema.Proofs.Proto.Quoted
import ProtoSchema.Proofs.Proto.Unambiguous
