import ProtoSchema.FileSystem.Path
import ProtoSchema.Text.Message

/-! Failures of file operations. -/
namespace ProtoSchema.FileSystem

inductive Cause where
  | notFound
  | alreadyExists
  | notDirectory
  | isDirectory
  | other (number : Nat) (description : String)
  deriving DecidableEq

namespace Cause

def number : Cause → Nat
  | notFound => 2
  | alreadyExists => 17
  | notDirectory => 20
  | isDirectory => 21
  | other number _ => number

def description : Cause → String
  | notFound => "No such file or directory"
  | alreadyExists => "File exists"
  | notDirectory => "Not a directory"
  | isDirectory => "Is a directory"
  | other _ description => description

end Cause

structure Error where
  cause : Cause
  path : Path
  deriving DecidableEq

def Error.text (error : Error) : String :=
  "[Errno " ++ toString error.cause.number ++ "] " ++ error.cause.description ++ ": " ++
    Text.quoted error.path.text

end ProtoSchema.FileSystem
