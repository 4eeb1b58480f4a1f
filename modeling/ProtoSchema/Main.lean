import ProtoSchema.CommandLine.Generate
import ProtoSchema.CommandLine.Render

/-! The command line. A program of the name `generate_corpus` generates files; under any other name
it writes proto3 files. -/
namespace ProtoSchema.CommandLine
open FileSystem (Cause Path)

/-- Error numbers may come with a minus sign, as words. -/
def errorNumber (code : UInt32) : Nat :=
  if code.toNat < 0x80000000 then code.toNat else 0x100000000 - code.toNat

def causeOfNumber (code : UInt32) (description : String) : Cause :=
  match errorNumber code with
  | 2 => .notFound
  | 17 => .alreadyExists
  | 20 => .notDirectory
  | 21 => .isDirectory
  | number => .other number description

def causeOf : IO.Error → Cause
  | .noFileOrDirectory _ code details => causeOfNumber code details
  | .alreadyExists _ code details => causeOfNumber code details
  | .inappropriateType _ code details => causeOfNumber code details
  | .permissionDenied _ code details => causeOfNumber code details
  | .invalidArgument _ code details => causeOfNumber code details
  | .resourceExhausted _ code details => causeOfNumber code details
  | .noSuchThing _ code details => causeOfNumber code details
  | .otherError code details => causeOfNumber code details
  | error => .other 0 error.toString

def attempt {α : Type} (path : Path) (action : IO α) : IO (Except FileSystem.Error α) := do
  try return .ok (← action)
  catch error => return .error { cause := causeOf error, path }

/-- Directories are made from the root down if the last one cannot be made at once. -/
def createDirectories (path : Path) : IO Unit := do
  try IO.FS.createDir path.text
  catch error =>
    match causeOf error with
    | .notFound | .alreadyExists => IO.FS.createDirAll path.text
    | _ => throw error

/-- The home directory of the first user in the password file who fits. -/
def homeOfEntry (fits : List String → Bool) : IO (Option String) := do
  try
    let lines ← IO.FS.lines "/etc/passwd"
    let entries := lines.toList.map fun line => (line.splitOn ":")
    return (entries.find? fits).bind fun entry => entry[5]?
  catch _ => return none

/-- The number of the user who runs the program. -/
def userNumber : IO (Option String) := do
  try
    let lines ← IO.FS.lines "/proc/self/status"
    let fields := lines.toList.map fun line => line.splitOn "\t"
    return (fields.find? fun field => field.head? = some "Uid:").bind fun field => field[1]?
  catch _ => return none

def homeOf (user : String) : IO (Option String) := do
  if user ≠ "" then homeOfEntry fun entry => entry.head? = some user
  else
    match ← IO.getEnv "HOME" with
    | some home => return some home
    | none =>
      match ← userNumber with
      | none => return none
      | some number => homeOfEntry fun entry => entry[2]? = some number

instance : Host IO where
  workingDirectory := return Path.names (← IO.currentDir).toString
  home := homeOf
  read path := attempt path (IO.FS.readBinFile path.text)
  write path content := attempt path (IO.FS.writeBinFile path.text content)
  makeDirectories path := attempt path (createDirectories path)
  print := IO.print
  report := IO.eprint

/-- Runs a program and reports a failure that ends it. -/
def exitCode (program : IO (Except Failure Nat)) : IO UInt32 := do
  match ← program with
  | .ok code => return code.toUInt32
  | .error failure =>
    IO.eprintln failure.text
    return 1

end ProtoSchema.CommandLine

open ProtoSchema CommandLine in
def main (arguments : List String) : IO UInt32 := do
  let name := FileSystem.Path.lastName (← IO.appPath).toString
  if name = "generate_corpus" then exitCode (Generate.run arguments)
  else exitCode (Render.run arguments)
