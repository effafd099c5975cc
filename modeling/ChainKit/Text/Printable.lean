import ChainKit.Bytes

/-!
# Printable text — the visible half of ASCII

One byte a character, and only the characters from the space to the
tilde. Each direction names the first code outside that range.
-/

namespace ChainKit

namespace Text

namespace Printable

/-- Whether a code lies between the space and the tilde. -/
def isPrintable (code : Nat) : Bool := 0x20 ≤ code && code ≤ 0x7E

/-- The bytes of a printable text, or the code of its first character
that is not. -/
def encode (text : String) : Except Nat Bytes :=
  match text.toList.find? fun c => !isPrintable c.toNat with
  | some c => .error c.toNat
  | none => .ok (text.toList.map fun c => UInt8.ofNat c.toNat)

/-- The printable text of bytes, or the first byte that is no printable
character. -/
def decode (bytes : Bytes) : Except UInt8 String :=
  match bytes.find? fun b => !isPrintable b.toNat with
  | some b => .error b
  | none => .ok (String.ofList (bytes.map fun b => Char.ofNat b.toNat))

end Printable

end Text

end ChainKit
