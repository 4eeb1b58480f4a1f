import ProtoSchema.Text.Printable

/-!
Messages: text in quotes, which is one line with every character visible, and what a message about
something wrong says.
-/
namespace ProtoSchema

namespace Text

def hexDigit (n : Nat) : Char := Nat.digitChar (n % 16)

/-- The last `width` hexadecimal digits of a number, in lower case. -/
def hexDigits (n : Nat) : Nat → List Char
  | 0 => []
  | width + 1 => hexDigits (n / 16) width ++ [hexDigit n]

/-- Single quotes, unless only single quotes stand in the text. -/
def quoteMark (text : List Char) : Char :=
  if text.contains '\'' && !text.contains '"' then '"' else '\''

def quotedChar (mark c : Char) : List Char :=
  if c = mark || c = '\\' then ['\\', c]
  else if c = '\t' then ['\\', 't']
  else if c = '\n' then ['\\', 'n']
  else if c = '\r' then ['\\', 'r']
  else if isPrintable c then [c]
  else if c.toNat ≤ 0xff then '\\' :: 'x' :: hexDigits c.toNat 2
  else if c.toNat ≤ 0xffff then '\\' :: 'u' :: hexDigits c.toNat 4
  else '\\' :: 'U' :: hexDigits c.toNat 8

def quoted (text : String) : String :=
  let mark := quoteMark text.toList
  String.ofList (mark :: text.toList.flatMap (quotedChar mark) ++ [mark])

end Text

/-- What a message is about, what it says, and how to mend it. -/
structure Diagnostic where
  subject : String
  message : String
  hint : Option String := none
  deriving DecidableEq

namespace Diagnostic

/-- A message about a place in a document. -/
def atPath (path message : String) (hint : Option String) : Diagnostic :=
  { subject := if path = "" then "<root>" else path, message, hint }

/-- The hint has a line of its own; an empty hint has none. -/
def text (diagnostic : Diagnostic) : String :=
  let hint := diagnostic.hint.getD ""
  diagnostic.subject ++ ": " ++ diagnostic.message ++ if hint = "" then "" else "\nhint: " ++ hint

end Diagnostic
end ProtoSchema
