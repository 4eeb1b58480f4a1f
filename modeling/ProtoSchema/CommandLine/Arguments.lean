import ProtoSchema.Decimal.Numeral
import ProtoSchema.Text.Message

/-! The grammar of argument lists: flags by name or by a prefix of it, values, and operands. -/
namespace ProtoSchema.CommandLine

/-- An argument that switches something on or gives a value. -/
structure Flag (κ : Type) where
  key : κ
  /-- Short names have one dash and one letter, long names two dashes. -/
  names : List String
  takesValue : Bool := false

/-- What a program accepts. The operands, if there are any, have a name. -/
structure Grammar (κ : Type) where
  flags : List (Flag κ)
  operands : Option String := none

/-- What a list of arguments does, in order. -/
inductive Event (κ : Type) where
  | flag (key : κ)
  | value (key : κ) (text : String)

/-- What can be wrong with a list of arguments. -/
inductive ArgumentError where
  | ambiguous (argument : String) (names : List String)
  | valueMissing (names : List String)
  | valueIgnored (names : List String) (value : String)
  | invalidInteger (names : List String) (value : String)
  | operandsMissing (name : String)
  | unrecognized (arguments : List String)
  deriving DecidableEq

def ArgumentError.text : ArgumentError → String
  | ambiguous argument names =>
    "ambiguous option: " ++ argument ++ " could match " ++ ", ".intercalate names
  | valueMissing names => "argument " ++ "/".intercalate names ++ ": expected one argument"
  | valueIgnored names value =>
    "argument " ++ "/".intercalate names ++ ": ignored explicit argument " ++ Text.quoted value
  | invalidInteger names value =>
    "argument " ++ "/".intercalate names ++ ": invalid int value: " ++ Text.quoted value
  | operandsMissing name => "the following arguments are required: " ++ name
  | unrecognized arguments => "unrecognized arguments: " ++ " ".intercalate arguments

/-- What an argument is by its looks. -/
inductive Token (κ : Type) where
  | plain (text : String)
  | separator
  | flag (flag : Flag κ) (name : String) (attached : Option String)
  | unknown (text : String)

/-- A negative number; one line feed may follow it. -/
def isNegativeNumber (argument : String) : Bool :=
  let isDigit (c : Char) : Bool := (Text.digitValue? c).isSome
  match argument.toList with
  | '-' :: rest =>
    let number := if rest.getLast? = some '\n' then rest.dropLast else rest
    match number.dropWhile isDigit with
    | [] => !number.isEmpty
    | '.' :: fraction => !fraction.isEmpty && fraction.all isDigit
    | _ => false
  | _ => false

/-- What precedes the first equals sign, and what follows it. -/
def splitEquals (argument : String) : String × Option String :=
  let text := argument.toList
  let name := text.takeWhile (· ≠ '=')
  match text.drop name.length with
  | _ :: value => (String.ofList name, some (String.ofList value))
  | [] => (argument, none)

def isLong (name : String) : Bool := "--".isPrefixOf name

namespace Grammar
variable {κ : Type} (grammar : Grammar κ)

def find? (name : String) : Option (Flag κ) :=
  grammar.flags.find? fun flag => flag.names.contains name

/-- All names, each with its flag. -/
def allNames : List (String × Flag κ) :=
  grammar.flags.flatMap fun flag => flag.names.map (·, flag)

/-- The flags that an argument may abbreviate: a long name may be cut short, and a short name may
have its value or further short names attached. -/
def candidates (argument : String) : List (Flag κ × String × Option String) :=
  if isLong argument then
    let (start, attached) := splitEquals argument
    (grammar.allNames.filter fun (name, _) => start.isPrefixOf name).map fun (name, flag) =>
      (flag, name, attached)
  else
    let start := String.ofList (argument.toList.take 2)
    let attached := String.ofList (argument.toList.drop 2)
    (grammar.allNames.filter fun (name, _) => name = start).map fun (name, flag) =>
      (flag, name, some attached)

/-- The flag that an argument names in full, with a value after an equals sign if there is one. -/
def spelled? (argument : String) : Option (Token κ) :=
  match grammar.find? argument with
  | some flag => some (.flag flag argument none)
  | none =>
    match splitEquals argument with
    | (name, some value) => (grammar.find? name).map fun flag => .flag flag name (some value)
    | (_, none) => none

def classify (argument : String) : Except ArgumentError (Token κ) :=
  if argument.toList.head? ≠ some '-' ∨ argument = "-" then .ok (.plain argument)
  else
    match grammar.spelled? argument with
    | some token => .ok token
    | none =>
      match grammar.candidates argument with
      | [(flag, name, attached)] => .ok (.flag flag name attached)
      | [] =>
        if isNegativeNumber argument || argument.toList.contains ' ' then .ok (.plain argument)
        else .ok (.unknown argument)
      | several => .error (.ambiguous argument (several.map fun (_, name, _) => name))

/-- Everything after the first `--` is plain. -/
def tokens : List String → Except ArgumentError (List (Token κ))
  | [] => .ok []
  | argument :: rest =>
    if argument = "--" then .ok (.separator :: rest.map .plain)
    else do return (← grammar.classify argument) :: (← tokens rest)

/-- The event of a value. A value of two dashes is dropped. -/
def valueEvent (flag : Flag κ) (text : String) : Event κ :=
  .value flag.key (if text = "--" then "" else text)

/-- The events of a flag with text attached to it, and the flag that still needs a value if there is
one. After a short name the text may be further short names. -/
def expandAttached (flag : Flag κ) (name : String) :
    List Char → Except ArgumentError (List (Event κ) × Option (Flag κ))
  | [] =>
    if flag.takesValue then .ok ([valueEvent flag ""], none)
    else .error (.valueIgnored flag.names "")
  | c :: rest =>
    let text := String.ofList (c :: rest)
    if flag.takesValue then .ok ([valueEvent flag text], none)
    else if isLong name then .error (.valueIgnored flag.names text)
    else
      let nextName := String.ofList ['-', c]
      match grammar.find? nextName with
      | none => .error (.valueIgnored flag.names text)
      | some next =>
        if rest.isEmpty then
          if next.takesValue then .ok ([.flag flag.key], some next)
          else .ok ([.flag flag.key, .flag next.key], none)
        else do
          let (events, owed) ← expandAttached next nextName rest
          return (.flag flag.key :: events, owed)

def expand (flag : Flag κ) (name : String) :
    Option String → Except ArgumentError (List (Event κ) × Option (Flag κ))
  | some attached => grammar.expandAttached flag name attached.toList
  | none => if flag.takesValue then .ok ([], some flag) else .ok ([.flag flag.key], none)

end Grammar

/-- The operands stand in one row. -/
inductive Operands where
  | awaited
  | taking (taken : List String)
  | closed (taken : List String)

namespace Operands

/-- A flag ends the row. -/
def close : Operands → Operands
  | awaited => awaited
  | taking taken => closed taken
  | closed taken => closed taken

def taken : Operands → List String
  | awaited => []
  | taking taken => taken
  | closed taken => taken

end Operands

/-- What a list of arguments does, and its operands unless something is wrong. What stands before
an error has its effects nevertheless. -/
structure Parsed (κ : Type) where
  events : List (Event κ)
  operands : Except ArgumentError (List String)

namespace Parsed
variable {κ : Type}

def fail (error : ArgumentError) : Parsed κ := { events := [], operands := .error error }

def after (events : List (Event κ)) (parsed : Parsed κ) : Parsed κ :=
  { parsed with events := events ++ parsed.events }

end Parsed

namespace Grammar
variable {κ : Type} (grammar : Grammar κ)

/-- Missing operands are reported before arguments that nothing takes. -/
def finish (operands : Operands) (extras : List String) : Parsed κ :=
  match grammar.operands, operands with
  | some name, .awaited => .fail (.operandsMissing name)
  | _, _ =>
    if extras.isEmpty then { events := [], operands := .ok operands.taken }
    else .fail (.unrecognized extras)

/-- Goes through the tokens. A separator is dropped where operands are taken. -/
def walk (operands : Operands) (extras : List String) : List (Token κ) → Parsed κ
  | [] => grammar.finish operands extras
  | .unknown text :: rest => walk operands.close (extras ++ [text]) rest
  | .plain text :: rest =>
    match operands with
    | .awaited => walk (.taking [text]) extras rest
    | .taking taken => walk (.taking (taken ++ [text])) extras rest
    | .closed taken => walk (.closed taken) (extras ++ [text]) rest
  | .separator :: rest =>
    match operands with
    | .awaited =>
      if rest.isEmpty then grammar.finish .awaited (extras ++ ["--"])
      else walk .awaited extras rest
    | .taking taken => walk (.taking taken) extras rest
    | .closed taken => walk (.closed taken) (extras ++ ["--"]) rest
  | .flag flag name attached :: rest =>
    match grammar.expand flag name attached with
    | .error error => .fail error
    | .ok (events, none) => (walk operands.close extras rest).after events
    | .ok (events, some owed) =>
      match rest with
      | .plain text :: rest =>
        (walk operands.close extras rest).after (events ++ [valueEvent owed text])
      | _ => .fail (.valueMissing owed.names)

def parse (arguments : List String) : Parsed κ :=
  match grammar.tokens arguments with
  | .error error => .fail error
  | .ok tokens => grammar.walk (if grammar.operands.isSome then .awaited else .closed []) [] tokens

end Grammar
end ProtoSchema.CommandLine
