import ProtoSchema.CommandLine.Arguments
import ProtoSchema.CommandLine.Failure
import ProtoSchema.CommandLine.Host
import ProtoSchema.Text.Utf8

/-! The program that writes proto3 files from JSON files. -/
namespace ProtoSchema.CommandLine.Render
open FileSystem (Path)

inductive Key where
  | help | outDir | stdout | verbose

def grammar : Grammar Key where
  flags := [
    { key := .help, names := ["-h", "--help"] },
    { key := .outDir, names := ["-o", "--out-dir"], takesValue := true },
    { key := .stdout, names := ["--stdout"] },
    { key := .verbose, names := ["-v", "--verbose"] }]
  operands := some "inputs"

def usage : String :=
  "usage: protoemit [-h] [-o OUT_DIR] [--stdout] [-v] inputs [inputs ...]\n"

def help : String :=
  usage ++ "\nRender proto3 files from JSON declaration trees\n\npositional arguments:\n" ++
    "  inputs                Input .json tree files\n\noptions:\n" ++
    "  -h, --help            show this help message and exit\n" ++
    "  -o OUT_DIR, --out-dir OUT_DIR\n" ++
    "                        Write <stem>.proto files into this directory\n" ++
    "  --stdout              Print output even when --out-dir is given\n" ++
    "  -v, --verbose         More logging (repeatable)\n"

structure Settings where
  /-- The text of the output directory. An empty text is none. -/
  outDir : String := ""
  stdout : Bool := false
  verbosity : Nat := 0
  deriving DecidableEq

/-- What a list of arguments asks for. -/
inductive Request where
  | help
  | render (settings : Settings) (inputs : List String)
  | refuse (error : ArgumentError)
  deriving DecidableEq

/-- Help is given as soon as it is asked for. -/
def requestOf (operands : Except ArgumentError (List String)) :
    Settings → List (Event Key) → Request
  | settings, [] =>
    match operands with
    | .ok inputs => .render settings inputs
    | .error error => .refuse error
  | _, .flag .help :: _ => .help
  | settings, .flag .stdout :: events => requestOf operands { settings with stdout := true } events
  | settings, .flag .verbose :: events =>
    requestOf operands { settings with verbosity := settings.verbosity + 1 } events
  | settings, .value .outDir text :: events =>
    requestOf operands { settings with outDir := text } events
  | settings, _ :: events => requestOf operands settings events

def request (arguments : List String) : Request :=
  let parsed := grammar.parse arguments
  requestOf parsed.operands {} parsed.events

variable {m : Type → Type} [Monad m] [Host m]

/-- Tells what the program is doing to those who want to know that much. -/
def info (settings : Settings) (message : String) : m Unit :=
  if 1 ≤ settings.verbosity then Host.report ("INFO " ++ message ++ "\n") else return ()

def debug (settings : Settings) (message : String) : m Unit :=
  if 2 ≤ settings.verbosity then Host.report ("DEBUG " ++ message ++ "\n") else return ()

/-- The schema that the bytes of a file hold. -/
def schemaOf (file : Path) (bytes : ByteArray) : Except Failure Schema := do
  let text ← (Text.Utf8.decode bytes).mapError .encoding
  let unified := String.ofList (Text.unifyLineEnds text.toList)
  (Source.load file.text unified).mapError .source

/-- The path of an input, in a home directory if the input names one. -/
def locate (input : String) : m (Option Path) := do
  let directory ← Host.workingDirectory
  match Path.user? input with
  | none => return some (Path.resolve directory input)
  | some user => return (← Host.home user).bind fun home => Path.atHome? directory home input

/-- The text for an input file. -/
def textOf (settings : Settings) (input : String) : m (Except Failure String) := do
  match ← locate input with
  | none => return .error .noHome
  | some path =>
    info settings ("protoemit.api: loading " ++ path.text)
    match ← Host.read path with
    | .error error => return .error (.file error)
    | .ok bytes =>
      match schemaOf path bytes with
      | .error failure => return .error failure
      | .ok schema =>
        debug settings ("protoemit.emit: writing " ++ toString schema.declarations.length ++
          " top-level declaration(s)")
        return .ok (Proto.text schema)

def outputName (input : String) : String := Path.stem (Path.lastName input) ++ ".proto"

/-- Puts out the text for an input: into the output directory, to the screen, or both. -/
def deliver (settings : Settings) (outDir : Option Path) (input text : String) :
    m (Except Failure Unit) := do
  match outDir with
  | none =>
    Host.print text
    return .ok ()
  | some directory =>
    let path := directory ++ [outputName input]
    match ← Host.write path text.toUTF8 with
    | .error error => return .error (.file error)
    | .ok () =>
      info settings ("protoemit.cli: wrote " ++ path.text)
      if settings.stdout then Host.print text
      return .ok ()

/-- Goes through the inputs up to the first that fails. -/
def renderAll (settings : Settings) (outDir : Option Path) : List String → m (Except Failure Nat)
  | [] => return .ok 0
  | input :: inputs => do
    match ← textOf settings input with
    | .error failure =>
      if failure.isReported then
        Host.report (input ++ ": " ++ failure.text ++ "\n")
        return .ok 1
      else return .error failure
    | .ok text =>
      match ← deliver settings outDir input text with
      | .error failure => return .error failure
      | .ok () => renderAll settings outDir inputs

/-- Makes the output directory before any input is read. -/
def render (settings : Settings) (inputs : List String) : m (Except Failure Nat) := do
  if settings.outDir = "" then renderAll settings none inputs
  else
    let directory := Path.resolve (← Host.workingDirectory) settings.outDir
    match ← Host.makeDirectories directory with
    | .error error => return .error (.file error)
    | .ok () => renderAll settings (some directory) inputs

/-- The exit code, or the failure that ends the program. -/
def run (arguments : List String) : m (Except Failure Nat) := do
  match request arguments with
  | .help =>
    Host.print help
    return .ok 0
  | .refuse error =>
    Host.report (usage ++ "protoemit: error: " ++ error.text ++ "\n")
    return .ok 2
  | .render settings inputs => render settings inputs

end ProtoSchema.CommandLine.Render
