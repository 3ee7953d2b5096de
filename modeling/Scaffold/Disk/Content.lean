/-!
What files hold: text, or bytes that are no text. Bytes become text exactly when they are
UTF-8; to be shown, every ill-formed part of them becomes one replacement character.
-/

namespace Scaffold.Disk

/-- The content of a file. -/
inductive Content where
  | text (held : String)
  /-- Bytes that are not UTF-8. -/
  | binary (bytes : List UInt8)
deriving DecidableEq

/-- The content that some bytes are. -/
def Content.ofBytes (bytes : ByteArray) : Content :=
  match String.fromUTF8? bytes with
  | some held => .text held
  | none => .binary bytes.toList

/-- How many bytes follow a first byte, and the range of the first of them. -/
def continuations? (first : UInt8) : Option (Nat × UInt8 × UInt8) :=
  if 0xC2 ≤ first && first ≤ 0xDF then some (1, 0x80, 0xBF)
  else if first == 0xE0 then some (2, 0xA0, 0xBF)
  else if first == 0xED then some (2, 0x80, 0x9F)
  else if 0xE1 ≤ first && first ≤ 0xEF then some (2, 0x80, 0xBF)
  else if first == 0xF0 then some (3, 0x90, 0xBF)
  else if first == 0xF4 then some (3, 0x80, 0x8F)
  else if 0xF1 ≤ first && first ≤ 0xF3 then some (3, 0x80, 0xBF)
  else none

/-- The character that is being read: its value so far, the bytes that are missing, and the
range of the next. -/
structure Pending where
  value : Nat
  missing : Nat
  low : UInt8
  high : UInt8

/-- The character that replaces what is ill-formed. -/
def replacement : Char := '\ufffd'

/-- What a byte begins: a character of its own, a longer one, or nothing. -/
def begin (byte : UInt8) : List Char × Option Pending :=
  if byte < 0x80 then ([Char.ofNat byte.toNat], none)
  else
    match continuations? byte with
    | none => ([replacement], none)
    | some (missing, low, high) =>
      let bits := if missing = 1 then 0x20 else if missing = 2 then 0x10 else 0x08
      ([], some ⟨byte.toNat % bits, missing, low, high⟩)

/-- The characters of some bytes. A character that is cut short is replaced as a whole, and the
byte that cut it short is read afresh. -/
def showBytes (pending : Option Pending) : List UInt8 → List Char
  | [] => if pending.isSome then [replacement] else []
  | byte :: rest =>
    match pending with
    | none =>
      let (shown, next) := begin byte
      shown ++ showBytes next rest
    | some p =>
      if p.low ≤ byte && byte ≤ p.high then
        let value := p.value * 0x40 + byte.toNat % 0x40
        if p.missing = 1 then Char.ofNat value :: showBytes none rest
        else showBytes (some ⟨value, p.missing - 1, 0x80, 0xBF⟩) rest
      else
        let (shown, next) := begin byte
        replacement :: shown ++ showBytes next rest

/-- The content as it is shown. -/
def Content.display : Content → String
  | .text held => held
  | .binary bytes => String.ofList (showBytes none bytes)

end Scaffold.Disk
