import ProtoSchema.FileSystem.Error
import ProtoSchema.Sampling.Gen
import ProtoSchema.Source
import ProtoSchema.Text.Utf8

/-! What ends a program early. -/
namespace ProtoSchema.CommandLine

inductive Failure where
  | noHome
  | file (error : FileSystem.Error)
  | encoding (fault : Text.Utf8.Fault)
  | source (error : Source.Error)
  | generation (fault : Sampling.Fault)
  deriving DecidableEq

namespace Failure

def text : Failure → String
  | noHome => "Could not determine home directory."
  | file error => error.text
  | encoding fault => fault.text
  | source error => error.text
  | generation .emptyRange => "nothing to choose from"
  | generation .stalled => "no end of rejected draws"

/-- Whether a failure to load an input is a matter of the input, which is reported. Any other
failure ends the program. -/
def isReported : Failure → Bool
  | file _ => true
  | source (.malformed ..) => true
  | source (.document (.located ..)) => true
  | _ => false

end Failure
end ProtoSchema.CommandLine
