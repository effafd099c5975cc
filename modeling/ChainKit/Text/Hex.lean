import ChainKit.Bytes
import ChainKit.Text.Quoted
import ChainKit.Text.Utf8

/-!
# Hexadecimal — two digits a byte

Written in lowercase, read in either case. A text of an odd number of
bytes is refused for that first; after it the first byte that is no digit
is named.
-/

namespace ChainKit

namespace Text

namespace Hex

/-- Why a text is not hexadecimal. -/
inductive Error where
  /-- A digit lacks its partner. -/
  | oddLength
  /-- The byte at `index` is no digit. -/
  | badDigit (byte : UInt8) (index : Nat)
  deriving DecidableEq, Repr

/-- The wording of a refusal: a byte shows as the character of its code. -/
def Error.message : Error → String
  | .oddLength => "Odd number of digits"
  | .badDigit byte index =>
    s!"Invalid character {Quoted.char (Char.ofNat byte.toNat)} at position {index}"

/-- The digit of a value below sixteen. -/
def digit (n : Nat) : Char :=
  if n < 10 then Char.ofNat (0x30 + n) else Char.ofNat (0x57 + n)

/-- The two digits of each byte. -/
def digits : Bytes → List Char
  | [] => []
  | b :: rest => digit (b.toNat / 16) :: digit (b.toNat % 16) :: digits rest

/-- Bytes in lowercase hexadecimal. -/
def encode (bytes : Bytes) : String := String.ofList (digits bytes)

/-- The value of a digit in either case. -/
def value? (b : UInt8) : Option Nat :=
  if 0x30 ≤ b && b ≤ 0x39 then some (b.toNat - 0x30)
  else if 0x41 ≤ b && b ≤ 0x46 then some (b.toNat - 0x37)
  else if 0x61 ≤ b && b ≤ 0x66 then some (b.toNat - 0x57)
  else none

/-- Reads pairs of digits, the first of them at `index`. -/
def decodePairs (index : Nat) : Bytes → Except Error Bytes
  | a :: b :: rest =>
    match value? a, value? b with
    | none, _ => .error (.badDigit a index)
    | _, none => .error (.badDigit b (index + 1))
    | some high, some low =>
      (decodePairs (index + 2) rest).map (UInt8.ofNat (high * 16 + low) :: ·)
  | _ => .ok []

/-- The bytes that a hexadecimal text spells. -/
def decode (text : String) : Except Error Bytes :=
  let bytes := Utf8.encode text
  if bytes.length % 2 = 1 then .error .oddLength else decodePairs 0 bytes

end Hex

end Text

end ChainKit
