import ChainKit.Ethereum.Address

/-!
# Words — 32 bytes each

Contracts take their arguments in words: numbers with the most significant
byte first, accounts behind twelve zeros.
-/

namespace ChainKit

namespace Ethereum

/-- 32 bytes. -/
structure Word where
  data : Bytes
  length_data : data.length = 32
  deriving DecidableEq

namespace Word

/-- The number of bytes of a word. -/
def size : Nat := 32

/-- The word that bytes are, if there are 32 of them. -/
def ofBytes? (b : Bytes) : Option Word := if h : b.length = 32 then some ⟨b, h⟩ else none

/-- The word of bytes that have to be one. -/
def read (b : Bytes) : Except AbiError Word :=
  match ofBytes? b with
  | some w => .ok w
  | none => .error (.tooShort size b.length)

/-- The word of a field that has to fill one. -/
def ofField (field : String) (b : Bytes) : Except AbiError Word :=
  match ofBytes? b with
  | some w => .ok w
  | none => .error (.notWord field b.length)

/-- The low 256 bits of a number. -/
def ofNat (n : Nat) : Word := ⟨Bytes.ofNat 32 n, by simp⟩

/-- The number that a word spells. -/
def toNat (w : Word) : Nat := Bytes.toNat w.data

/-- A number that has to fit in a word. -/
def ofUint256 (n : Nat) : Except AbiError Word :=
  if n < Nat.pow 2 256 then .ok (ofNat n) else .error .uint256Overflow

/-- The word of a number of 64 bits. -/
def ofUint64 (n : UInt64) : Word := ofNat n.toNat

/-- The word of an account. -/
def ofAccount (a : Account) : Word :=
  ⟨Bytes.zeros 12 ++ a.data, by simp [Bytes.zeros, a.length_data]⟩

/-- The account in the low 20 bytes of a word, if the rest is zero. -/
def toAccount (w : Word) : Except AbiError Account :=
  if w.data.take 12 = Bytes.zeros 12 then
    .ok ⟨w.data.drop 12, by simp [w.length_data]⟩
  else .error .address

/-- The word at place `i` of bytes that are long enough. -/
def nth (b : Bytes) (i : Nat) (h : 32 * (i + 1) ≤ b.length) : Word :=
  ⟨(b.drop (32 * i)).take 32, by simp only [List.length_take, List.length_drop]; omega⟩

/-- Exactly `count` words. -/
def list (count : Nat) (b : Bytes) : Except AbiError (Vector Word count) :=
  if h : b.length = 32 * count then
    .ok (.ofFn fun i => nth b i (by have := i.isLt; omega))
  else .error (.tooShort (32 * count) b.length)

end Word

end Ethereum

end ChainKit
