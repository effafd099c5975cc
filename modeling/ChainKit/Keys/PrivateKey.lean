import ChainKit.Account
import ChainKit.Curve.Ecdsa
import ChainKit.Curve.Ed25519
import ChainKit.Hash.Prehash

/-!
# Private keys and what they sign

A private key is a string of bytes for one signature scheme; it need not be
well formed. Ed25519 signs the prehashed bytes whatever they are;
secp256k1 signs a digest of 32 bytes, so only two prehashes will do.
-/

namespace ChainKit

namespace Keys

/-- A private key and the scheme it belongs to. -/
structure PrivateKey where
  algorithm : Algorithm
  data : Bytes
  deriving DecidableEq

/-- Why a key does not sign. -/
inductive KeyError where
  /-- An ed25519 key has 32 bytes. -/
  | ed25519Length (length : Nat)
  /-- A secp256k1 key is a factor. -/
  | secp256k1Range
  /-- No signature was found for the nonce. -/
  | secp256k1Nonce
  /-- The digest has another length. -/
  | unsupportedPrehash (prehash : Prehash)
  deriving DecidableEq, Repr

/-- The wording of an error. -/
def KeyError.message : KeyError → String
  | ed25519Length length => s!"ed25519 private key must be 32 bytes, got {length}"
  | secp256k1Range => "secp256k1: signature error"
  | secp256k1Nonce => "secp256k1 signing: signature error"
  | unsupportedPrehash prehash => s!"unsupported prehash type: {prehash.inspect}"

namespace PrivateKey

/-- The bytes of an ed25519 key. -/
def ed25519Key (data : Bytes) : Except KeyError Bytes :=
  if data.length = 32 then .ok data else .error (.ed25519Length data.length)

/-- Whether a secp256k1 key may have a length: leading zeros may be left
out down to 24 bytes. -/
def fitsSecret (length : Nat) : Bool := 24 ≤ length && length ≤ 32

/-- The factor of a secp256k1 key: the number that its bytes spell. -/
def secp256k1Secret (data : Bytes) : Except KeyError Secp256k1.Scalar :=
  if fitsSecret data.length then
    match Secp256k1.Scalar.ofNat? (Bytes.toNat data) with
    | some secret => .ok secret
    | none => .error .secp256k1Range
  else .error .secp256k1Range

/-- The public key; secp256k1 keys are spelled uncompressed. -/
def publicKey (k : PrivateKey) : Except KeyError PublicKey :=
  match k.algorithm with
  | .ed25519 => do
    let key ← ed25519Key k.data
    return ⟨.ed25519, Ed25519.publicKey key⟩
  | .secp256k1 => do
    let secret ← secp256k1Secret k.data
    return ⟨.secp256k1, (Secp256k1.publicPoint secret).uncompressed⟩

/-- Whether a prehash gives 32 bytes. -/
def fitsSecp256k1 (p : Prehash) : Bool := p = .sha256 || p = .keccak256

/-- The signature of prehashed bytes: 64 bytes, and one more that helps to
recover a secp256k1 key. -/
def sign (k : PrivateKey) (message : Bytes) (prehash : Prehash) : Except KeyError Bytes :=
  match k.algorithm with
  | .ed25519 => do
    let key ← ed25519Key k.data
    return Ed25519.sign key (prehash.apply message)
  | .secp256k1 =>
    if !fitsSecp256k1 prehash then .error (.unsupportedPrehash prehash)
    else do
      let secret ← secp256k1Secret k.data
      match Ecdsa.sign? secret (prehash.apply message) with
      | some signature => return signature.toBytes
      | none => .error .secp256k1Nonce

/-- A key pair as logs show it. -/
def inspect (k : PrivateKey) : Except KeyError String := do
  let key ← k.publicKey
  return "Ed25519Keypair \x7b pubkey: " ++ key.inspect ++ ", privkey: \"[REDACTED]\" \x7d"

end PrivateKey

end Keys

end ChainKit
