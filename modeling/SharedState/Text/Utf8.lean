import SharedState.Text.Shown

/-! Texts from their bytes, and what is wrong with bytes that are no text. -/
namespace SharedState.Text

inductive DecodeCause where
  | badStart
  | badContinuation
  | cutShort
  deriving DecidableEq, Repr

/-- The bytes that are part of no character, from a place on. -/
structure DecodeFault where
  place : Nat
  bytes : List UInt8
  cause : DecodeCause
  deriving DecidableEq, Repr

namespace DecodeCause

def message : DecodeCause → String
  | badStart => "invalid start byte"
  | badContinuation => "invalid continuation byte"
  | cutShort => "unexpected end of data"

end DecodeCause

namespace DecodeFault

def subject (f : DecodeFault) : String :=
  match f.bytes with
  | [b] => "byte 0x" ++ String.ofList (hexDigits b.toNat 2) ++ " in position " ++ toString f.place
  | bytes => "bytes in position " ++ toString f.place ++ "-" ++ toString (f.place + bytes.length - 1)

def message (f : DecodeFault) : String := "'utf-8' codec can't decode " ++ f.subject ++ ": " ++ f.cause.message

end DecodeFault

/-- The bytes of a character so far, how many are missing, and the bounds of the next one. -/
structure CharBytes where
  bytes : List UInt8
  value : Nat
  missing : Nat
  low : UInt8 := 0x80
  high : UInt8 := 0xBF

namespace CharBytes

-- The bounds of a second byte leave out surrogates, numbers past the last character, and characters in more bytes than they need.
def ofFirst? (b : UInt8) : Option CharBytes :=
  if b < 0x80 then some { bytes := [b], value := b.toNat, missing := 0 }
  else if b < 0xC2 then none
  else if b < 0xE0 then some { bytes := [b], value := b.toNat % 32, missing := 1 }
  else if b < 0xF0 then
    some { bytes := [b], value := b.toNat % 16, missing := 2
           low := if b = 0xE0 then 0xA0 else 0x80, high := if b = 0xED then 0x9F else 0xBF }
  else if b < 0xF5 then
    some { bytes := [b], value := b.toNat % 8, missing := 3
           low := if b = 0xF0 then 0x90 else 0x80, high := if b = 0xF4 then 0x8F else 0xBF }
  else none

def add (s : CharBytes) (b : UInt8) : CharBytes :=
  { bytes := s.bytes ++ [b], value := s.value * 64 + b.toNat % 64, missing := s.missing - 1 }

end CharBytes

/-- The number of bytes read, the characters before, last one first, and the character that is not complete. -/
structure Decoder where
  place : Nat := 0
  text : List Char := []
  begun : Option CharBytes := none

namespace Decoder

def take (d : Decoder) (s : CharBytes) : Decoder :=
  if s.missing = 0 then { place := d.place + 1, text := Char.ofNat s.value :: d.text }
  else { d with place := d.place + 1, begun := some s }

def fault (d : Decoder) (s : CharBytes) (cause : DecodeCause) : DecodeFault :=
  { place := d.place - s.bytes.length, bytes := s.bytes, cause }

def step (d : Decoder) (b : UInt8) : Except DecodeFault Decoder :=
  match d.begun with
  | none =>
    match CharBytes.ofFirst? b with
    | some s => .ok (d.take s)
    | none => .error { place := d.place, bytes := [b], cause := .badStart }
  | some s => if s.low ≤ b && b ≤ s.high then .ok (d.take (s.add b)) else .error (d.fault s .badContinuation)

end Decoder

def decoded (bytes : ByteArray) : Except DecodeFault String := do
  let d ← bytes.data.toList.foldlM Decoder.step {}
  match d.begun with
  | none => return String.ofList d.text.reverse
  | some s => .error (d.fault s .cutShort)

end SharedState.Text
