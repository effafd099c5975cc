import ChainKit.Text.Base64
import ChainKit.Text.Hex
import ChainKit.Text.Printable

/-!
# Encodings — bytes as text and text as bytes

The encodings under one error type. Each writes every byte string, or
every text; each reads only what some byte string, or some text, is
written as, apart from the case of hexadecimal digits.
-/

namespace ChainKit

namespace Text

/-- Why a text or a byte string does not belong to an encoding. -/
inductive Error where
  | hex (error : Hex.Error)
  | base64
  | unprintableChar (code : Nat)
  | unprintableByte (byte : UInt8)
  | utf8 (error : Utf8.Error)
  deriving DecidableEq, Repr

/-- The wording of a refusal. -/
def Error.message : Error → String
  | .hex error => s!"invalid hex: {error.message}"
  | .base64 => "invalid base64"
  | .unprintableChar code =>
    s!"cannot encode character that is out of printable ASCII range: {code}"
  | .unprintableByte byte =>
    s!"cannot decode character that is out of printable ASCII range: {byte.toNat}"
  | .utf8 error => s!"invalid UTF-8: {error.message}"

/-- Reads hexadecimal. -/
def ofHex (s : String) : Except Error Bytes := (Hex.decode s).mapError .hex

/-- Reads base64. -/
def ofBase64 (s : String) : Except Error Bytes :=
  match Base64.decode? s with
  | some b => .ok b
  | none => .error .base64

/-- The bytes of a printable text. -/
def toPrintable (s : String) : Except Error Bytes :=
  (Printable.encode s).mapError .unprintableChar

/-- The printable text of bytes. -/
def ofPrintable (b : Bytes) : Except Error String :=
  (Printable.decode b).mapError .unprintableByte

/-- The text of bytes. -/
def ofUtf8 (b : Bytes) : Except Error String := (Utf8.decode b).mapError .utf8

end Text

end ChainKit
