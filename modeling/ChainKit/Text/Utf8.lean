import ChainKit.Bytes

/-!
# UTF-8 — text as bytes

Every text has one spelling in bytes (`encode`). `decode` accepts exactly
these spellings: no overlong form, no surrogate, nothing above U+10FFFF.
A refusal says where the first bad sequence starts, and how many of its
bytes could still have begun a character; a text that merely stops inside
a character is refused as incomplete.
-/

namespace ChainKit

namespace Text

namespace Utf8

/-- Why bytes are not UTF-8. -/
inductive Error where
  /-- The bytes end inside a character that starts at `index`. -/
  | incomplete (index : Nat)
  /-- The `length` bytes from `index` begin no character. -/
  | invalid (length index : Nat)
  deriving DecidableEq, Repr

/-- The wording of a refusal. -/
def Error.message : Error → String
  | .incomplete index => s!"incomplete utf-8 byte sequence from index {index}"
  | .invalid length index => s!"invalid utf-8 sequence of {length} bytes from index {index}"

/-- The bytes of a text. -/
def encode (text : String) : Bytes := text.toList.flatMap String.utf8EncodeChar

/-- A continuation byte carries six bits under the mark `10`. -/
def isTail (b : UInt8) : Bool := 0x80 ≤ b && b ≤ 0xBF

/-- The six bits of a continuation byte. -/
def tailBits (b : UInt8) : Nat := b.toNat % 64

/-- What a leading byte announces: how many continuation bytes follow,
and the least and greatest value the first of them may have. -/
def lead? (b : UInt8) : Option (Nat × UInt8 × UInt8) :=
  if b ≤ 0x7F then some (0, 0, 0)
  else if 0xC2 ≤ b && b ≤ 0xDF then some (1, 0x80, 0xBF)
  else if b = 0xE0 then some (2, 0xA0, 0xBF)
  else if b = 0xED then some (2, 0x80, 0x9F)
  else if 0xE1 ≤ b && b ≤ 0xEF then some (2, 0x80, 0xBF)
  else if b = 0xF0 then some (3, 0x90, 0xBF)
  else if 0xF1 ≤ b && b ≤ 0xF3 then some (3, 0x80, 0xBF)
  else if b = 0xF4 then some (3, 0x80, 0x8F)
  else none

/-- The first character of nonempty bytes and the bytes behind it, or how
the sequence at `index` fails. -/
def decodeChar (index : Nat) : Bytes → Except Error (Char × Bytes)
  | [] => .error (.incomplete index)
  | a :: rest =>
    match lead? a with
    | none => .error (.invalid 1 index)
    | some (0, _, _) => .ok (Char.ofNat a.toNat, rest)
    | some (count, low, high) =>
      match rest with
      | [] => .error (.incomplete index)
      | b :: rest =>
        if b < low || high < b then .error (.invalid 1 index)
        else if count = 1 then .ok (Char.ofNat (a.toNat % 32 * 64 + tailBits b), rest)
        else match rest with
          | [] => .error (.incomplete index)
          | c :: rest =>
            if !isTail c then .error (.invalid 2 index)
            else if count = 2 then
              .ok (Char.ofNat ((a.toNat % 16 * 64 + tailBits b) * 64 + tailBits c), rest)
            else match rest with
              | [] => .error (.incomplete index)
              | d :: rest =>
                if !isTail d then .error (.invalid 3 index)
                else .ok (Char.ofNat
                  (((a.toNat % 8 * 64 + tailBits b) * 64 + tailBits c) * 64 + tailBits d), rest)

/-- A character takes at least one byte. -/
theorem decodeChar_length {index : Nat} {bytes rest : Bytes} {c : Char}
    (h : decodeChar index bytes = .ok (c, rest)) : rest.length < bytes.length := by
  unfold decodeChar at h
  repeat' split at h
  all_goals first
    | cases h; done
    | (cases h; simp only [List.length_cons]; omega)

/-- The characters of bytes that start at `index`. -/
def decodeFrom (index : Nat) (bytes : Bytes) : Except Error (List Char) :=
  if bytes = [] then .ok []
  else match h : decodeChar index bytes with
    | .error e => .error e
    | .ok (c, rest) =>
      have := decodeChar_length h
      (decodeFrom (index + (bytes.length - rest.length)) rest).map (c :: ·)
termination_by bytes.length

/-- The text that bytes spell. -/
def decode (bytes : Bytes) : Except Error String :=
  (decodeFrom 0 bytes).map String.ofList

end Utf8

end Text

end ChainKit
