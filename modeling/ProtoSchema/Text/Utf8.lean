import ProtoSchema.Text.Message

/-! Text in files: UTF-8, whose decoding says where and why bytes are no text, and ends of lines. -/
namespace ProtoSchema.Text

namespace Utf8

/-- Why a row of bytes stands for no character. -/
inductive Reason where
  | invalidStart
  | invalidContinuation
  | endOfData
  deriving DecidableEq

/-- A row of `count` bytes from `position` on that stands for no character. -/
structure Fault where
  reason : Reason
  position : Nat
  count : Nat
  first : UInt8
  deriving DecidableEq

/-- The least and the greatest value of a byte. -/
abbrev Bounds := Nat × Nat

def continuation : Bounds := (0x80, 0xbf)

/-- The bounds of the bytes that follow a first byte. They keep out long forms, surrogates and
numbers above the last character. -/
def following? (first : UInt8) : Option (List Bounds) :=
  let n := first.toNat
  if n < 0x80 then some []
  else if n < 0xc2 then none
  else if n < 0xe0 then some [continuation]
  else if n = 0xe0 then some [(0xa0, 0xbf), continuation]
  else if n = 0xed then some [(0x80, 0x9f), continuation]
  else if n < 0xf0 then some [continuation, continuation]
  else if n = 0xf0 then some [(0x90, 0xbf), continuation, continuation]
  else if n < 0xf4 then some [continuation, continuation, continuation]
  else if n = 0xf4 then some [(0x80, 0x8f), continuation, continuation]
  else none

/-- A character that has begun: its first byte, how many bytes have come, and what is owed. -/
structure Pending where
  first : UInt8
  seen : Nat
  owed : List Bounds

def Pending.fault (pending : Pending) (position : Nat) (reason : Reason) : Fault :=
  { reason, position := position - pending.seen, count := pending.seen, first := pending.first }

/-- The first fault of the bytes from this position on. -/
def fault? (position : Nat) (pending : Pending) : List UInt8 → Option Fault
  | [] => if pending.owed.isEmpty then none else some (pending.fault position .endOfData)
  | byte :: bytes =>
    match pending.owed with
    | [] =>
      match following? byte with
      | none => some { reason := .invalidStart, position, count := 1, first := byte }
      | some owed => fault? (position + 1) { first := byte, seen := 1, owed } bytes
    | (least, most) :: owed =>
      if least ≤ byte.toNat ∧ byte.toNat ≤ most then
        fault? (position + 1) { pending with seen := pending.seen + 1, owed } bytes
      else some (pending.fault position .invalidContinuation)

def decode (bytes : ByteArray) : Except Fault String :=
  match String.fromUTF8? bytes with
  | some text => .ok text
  | none =>
    .error ((fault? 0 { first := 0, seen := 0, owed := [] } bytes.toList).getD
      { reason := .endOfData, position := bytes.size, count := 0, first := 0 })

/-- The bytes of a text are decoded to that text. -/
theorem decode_toUTF8 (text : String) : decode text.toUTF8 = .ok text := by
  have h : String.fromUTF8? text.toUTF8 = some text := by
    rw [String.fromUTF8?, dif_pos (show text.toUTF8.IsValidUTF8 from text.isValidUTF8)]
    rfl
  rw [decode, h]

def Reason.text : Reason → String
  | invalidStart => "invalid start byte"
  | invalidContinuation => "invalid continuation byte"
  | endOfData => "unexpected end of data"

def Fault.text (fault : Fault) : String :=
  let place :=
    if fault.count = 1 then
      "byte 0x" ++ String.ofList (Text.hexDigits fault.first.toNat 2) ++ " in position " ++
        toString fault.position
    else
      "bytes in position " ++ toString fault.position ++ "-" ++
        toString (fault.position + fault.count - 1)
  "'utf-8' codec can't decode " ++ place ++ ": " ++ fault.reason.text

end Utf8

/-- Makes `\r\n` and `\r` line feeds. -/
def unifyLineEnds : List Char → List Char
  | [] => []
  | '\r' :: '\n' :: rest => '\n' :: unifyLineEnds rest
  | '\r' :: rest => '\n' :: unifyLineEnds rest
  | c :: rest => c :: unifyLineEnds rest

end ProtoSchema.Text
