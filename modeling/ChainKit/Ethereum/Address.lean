import ChainKit.Curve.Secp256k1
import ChainKit.Ethereum.Rejection
import ChainKit.Hash.Keccak256

/-!
# Ethereum addresses

An account is the last 20 bytes of a digest of its key. Its address is
`0x` and 40 hexadecimal digits; the case of the letters is a checksum.
Read are the checksummed address and those whose letters all have one case.
-/

namespace ChainKit

open Text

namespace Ethereum

/-- An account: 20 bytes. -/
structure Account where
  data : Bytes
  length_data : data.length = 20
  deriving DecidableEq

namespace Account

/-- The account of 20 bytes. -/
def ofBytes? (data : Bytes) : Option Account :=
  if h : data.length = 20 then some ⟨data, h⟩ else none

/-- Raises every letter that stands at a high nibble: eight or more. -/
def raise (letters : List Char) (nibbles : List Nat) : List Char :=
  List.zipWith (fun c n => if 8 ≤ n then c.toUpper else c) letters nibbles

/-- The nibbles of bytes, the high one of each byte first. -/
def nibbles (b : Bytes) : List Nat := b.flatMap fun x => [x.toNat / 16, x.toNat % 16]

/-- The digits of an account, raised by the digest of their lowercase. -/
def digits (a : Account) : List Char :=
  let lower := Hex.digits a.data
  raise lower (nibbles (Keccak256.digest (lower.map fun c => UInt8.ofNat c.toNat)))

/-- The checksummed address of an account. -/
def address (a : Account) : Address := String.ofList ('0' :: 'x' :: a.digits)

/-- The account that 40 digits of either case spell. -/
def ofDigits? (body : List Char) : Option Account :=
  (Hex.decode (String.ofList body)).toOption.bind ofBytes?

/-- The account that an address spells. -/
def ofAddress? (address : Address) : Option Account :=
  match address.toList with
  | '0' :: 'x' :: body => do
    let account ← ofDigits? body
    if (body.all fun c => !c.isUpper) || (body.all fun c => !c.isLower) ||
        body = account.digits then some account
    else none
  | _ => none

/-- The account of an address, or the refusal of it. -/
def ofAddress (address : Address) : Except AbiError Account :=
  match ofAddress? address with
  | some account => .ok account
  | none => .error .address

/-- Whether a text is an address. -/
def isAddress (s : String) : Bool := (ofAddress? s).isSome

/-- The account that a key controls. -/
def ofPoint (p : Secp256k1.Point) : Account :=
  ⟨(Keccak256.digest p.coordinates).drop 12, by simp⟩

/-- The account of a key, however its point is spelled. -/
def ofKey (key : Bytes) : Result Account :=
  match Secp256k1.Point.ofBytes? key with
  | some p => .ok (ofPoint p)
  | none => .error (.invalid .publicKey)

/-- The account of an identity. -/
def ofIdentity (i : Identity) : Result Account :=
  if i.publicKey.algorithm ≠ .secp256k1 then
    .error (.invalid (.unsupportedAlgorithm i.publicKey.algorithm))
  else ofKey i.publicKey.data

end Account

end Ethereum

end ChainKit
