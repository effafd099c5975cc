import ChainKit.Curve.Secp256k1
import ChainKit.Hash.Hmac

/-!
# Recoverable signatures over secp256k1

A signature of a digest is a pair of scalars. The first belongs to a point
made from a nonce; together with the parity of that point's `y` it lets a
reader recover the key. Nonces are not drawn: they are derived from the
secret and the digest, so that signing twice gives the same signature.
Of the two signatures that a nonce allows, the one with the lower second
scalar is chosen, and only such are recovered from.
-/

namespace ChainKit

namespace Ecdsa

open Secp256k1

/-- A signature and the hint by which its key is recovered. -/
structure Signature where
  r : Scalar
  s : Scalar
  recovery : UInt8

/-- The signature in 65 bytes. -/
def Signature.toBytes (sig : Signature) : Bytes := sig.r.toBytes ++ sig.s.toBytes ++ [sig.recovery]

/-- A digest as a residue. -/
def residue (digest : Bytes) : Fin order := Curve.residue (by decide) (Bytes.toNat digest)

/-! ## Nonces -/

/-- The generator of nonces: a key and a chained value. -/
structure Generator where
  key : Bytes
  value : Bytes

namespace Generator

/-- Stirs bytes into the generator. -/
def stir (g : Generator) (mark : UInt8) (bytes : Bytes) : Generator :=
  let key := Hmac.sha256 g.key (g.value ++ mark :: bytes)
  ⟨key, Hmac.sha256 key g.value⟩

/-- The generator for a secret and a digest. -/
def start (secret : Scalar) (digest : Bytes) : Generator :=
  let bytes := secret.toBytes ++ Bytes.ofNat 32 (residue digest).val
  ((Generator.mk (Bytes.zeros 32) (List.replicate 32 1)).stir 0 bytes).stir 1 bytes

/-- The first value in range among the next `tries`. -/
def nonce? (g : Generator) : (tries : Nat) → Option Scalar
  | 0 => none
  | tries + 1 =>
    let value := Hmac.sha256 g.key g.value
    match Scalar.ofBytes? value with
    | some k => some k
    | none => (Generator.stir { g with value } 0 []).nonce? tries

end Generator

/-- How many values are tried for a nonce. One in 2¹²⁸ is out of range. -/
def tries : Nat := 64

/-- The nonce for a secret and a digest. -/
def nonce? (secret : Scalar) (digest : Bytes) : Option Scalar :=
  (Generator.start secret digest).nonce? tries

/-! ## Signing and recovering -/

/-- Whether a scalar is the lower of itself and its negative. -/
def isLow (s : Scalar) : Bool := s.value ≤ order / 2

/-- Signs a digest with a nonce. -/
def signWith? (secret k : Scalar) (digest : Bytes) : Option Signature := do
  let point := publicPoint k
  let r ← Scalar.ofNat? (point.x.val % order)
  let s ← Scalar.ofResidue?
    (Curve.inverse k.residue * (residue digest + r.residue * secret.residue))
  let wrapped := if order ≤ point.x.val then 2 else 0
  let parity := point.y.val % 2
  if isLow s then return ⟨r, s, UInt8.ofNat (wrapped + parity)⟩
  else return ⟨r, ← Scalar.ofResidue? (-s.residue), UInt8.ofNat (wrapped + (1 - parity))⟩

/-- Signs a digest of 32 bytes. -/
def sign? (secret : Scalar) (digest : Bytes) : Option Signature := do
  signWith? secret (← nonce? secret digest) digest

/-- The key whose signature of a digest this is, given the parity of the
nonce's point. -/
def recover? (digest : Bytes) (r s : Scalar) (odd : Bool) : Option Point := do
  if !isLow s then none
  else
    let point ← Point.lift? (← Point.coordinate? r.value) odd
    let inverse := Curve.inverse r.residue
    let sum := Ratio.add
      ((Ratio.ofPoint .base).times (-(inverse * residue digest)).val)
      ((Ratio.ofPoint point).times (inverse * s.residue).val)
    if sum.z = 0 then none else return sum.toPoint

end Ecdsa

end ChainKit
