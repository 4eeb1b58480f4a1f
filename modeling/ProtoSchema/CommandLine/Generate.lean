import ProtoSchema.CommandLine.Arguments
import ProtoSchema.CommandLine.Failure
import ProtoSchema.CommandLine.Host
import ProtoSchema.Decimal.Numeral
import ProtoSchema.Document.Writer
import ProtoSchema.Generator.FileSet
import ProtoSchema.Json.Printer

/-! The program that writes a set of generated files, as JSON and as proto3. -/
namespace ProtoSchema.CommandLine.Generate
open FileSystem (Path)

inductive Key where
  | help | seed | count | out | noProto

def seedNames : List String := ["--seed"]

def countNames : List String := ["--count"]

def grammar : Grammar Key where
  flags := [
    { key := .help, names := ["-h", "--help"] },
    { key := .seed, names := seedNames, takesValue := true },
    { key := .count, names := countNames, takesValue := true },
    { key := .out, names := ["--out"], takesValue := true },
    { key := .noProto, names := ["--no-proto"] }]

def usage : String :=
  "usage: generate_corpus [-h] [--seed SEED] [--count COUNT] [--out OUT]\n" ++
    "                       [--no-proto]\n"

def help : String :=
  usage ++ "\noptions:\n  -h, --help     show this help message and exit\n  --seed SEED\n" ++
    "  --count COUNT\n  --out OUT\n  --no-proto     Only write the .json inputs\n"

structure Settings where
  seed : Int := 1
  count : Int := 1000
  out : String := "tests/fixtures/generated_corpus"
  noProto : Bool := false
  deriving DecidableEq

inductive Request where
  | help
  | generate (settings : Settings)
  | refuse (error : ArgumentError)

/-- A value that is no integer is refused when its turn comes. -/
def requestOf (operands : Except ArgumentError (List String)) :
    Settings → List (Event Key) → Request
  | settings, [] =>
    match operands with
    | .ok _ => .generate settings
    | .error error => .refuse error
  | _, .flag .help :: _ => .help
  | settings, .value .seed text :: events =>
    match Decimal.Numeral.read? text with
    | some seed => requestOf operands { settings with seed } events
    | none => .refuse (.invalidInteger seedNames text)
  | settings, .value .count text :: events =>
    match Decimal.Numeral.read? text with
    | some count => requestOf operands { settings with count } events
    | none => .refuse (.invalidInteger countNames text)
  | settings, .value .out text :: events => requestOf operands { settings with out := text } events
  | settings, .flag .noProto :: events =>
    requestOf operands { settings with noProto := true } events
  | settings, _ :: events => requestOf operands settings events

def request (arguments : List String) : Request :=
  let parsed := grammar.parse arguments
  requestOf parsed.operands {} parsed.events

variable {m : Type → Type} [Monad m] [Host m]

def directoryName (settings : Settings) : String :=
  "seed_" ++ toString settings.seed ++ "_count_" ++ toString settings.count

def documentText (schema : Schema) : String :=
  (Document.ofSchema schema).write .indented ++ "\n"

/-- The names and texts of the files for an entry. -/
def outputs (settings : Settings) (entry : Generator.Entry) : List (String × String) :=
  (Path.stem entry.path ++ ".json", documentText entry.schema) ::
    if settings.noProto then [] else [(entry.path, Proto.text entry.schema)]

def writeAll (directory : Path) : List (String × String) → m (Except Failure Unit)
  | [] => return .ok ()
  | (name, text) :: files => do
    match ← Host.write (directory ++ [name]) text.toUTF8 with
    | .error error => return .error (.file error)
    | .ok () => writeAll directory files

/-- Writes all files into a directory of their own and prints its path. -/
def generate (settings : Settings) : m (Except Failure Nat) := do
  let directory := Path.resolve (← Host.workingDirectory) settings.out ++ [directoryName settings]
  match ← Host.makeDirectories directory with
  | .error error => return .error (.file error)
  | .ok () =>
    match Generator.entries settings.seed settings.count with
    | .error fault => return .error (.generation fault)
    | .ok entries =>
      match ← writeAll directory (entries.flatMap (outputs settings)) with
      | .error failure => return .error failure
      | .ok () =>
        Host.print (directory.text ++ "\n")
        return .ok 0

/-- The exit code, or the failure that ends the program. -/
def run (arguments : List String) : m (Except Failure Nat) := do
  match request arguments with
  | .help =>
    Host.print help
    return .ok 0
  | .refuse error =>
    Host.report (usage ++ "generate_corpus: error: " ++ error.text ++ "\n")
    return .ok 2
  | .generate settings => generate settings

end ProtoSchema.CommandLine.Generate
