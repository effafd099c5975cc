import ChainKit.Keys.Path
import ChainKit.Keys.PrivateKey
import ChainKit.Text.Utf8

/-!
# Derivation — a tree of keys below a seed

Every node of the tree holds a private key and a chain code; the children
of a node follow from keyed digests of it. On ed25519 there are hardened
children only. On secp256k1 a digest may miss the range of keys, as one in
2¹²⁷ does; the next one is then drawn from it, up to a given number of
tries.
-/

namespace ChainKit

open Text

namespace Keys

/-- The name of a curve in the digest of a seed. -/
def seedName : Algorithm → String
  | .ed25519 => "ed25519 seed"
  | .secp256k1 => "Bitcoin seed"

/-- A node of the tree. -/
inductive Node where
  | ed25519 (chainCode key : Bytes)
  | secp256k1 (chainCode : Bytes) (secret : Secp256k1.Scalar)
  deriving DecidableEq

/-- Why a path leads to no key. -/
inductive DerivationError where
  | path (error : PathError)
  /-- No try found a key. -/
  | exhausted
  deriving DecidableEq, Repr

namespace Node

/-- The chain code. -/
def chainCode : Node → Bytes
  | ed25519 chainCode _ => chainCode
  | secp256k1 chainCode _ => chainCode

/-- The private key. -/
def privateKey : Node → PrivateKey
  | ed25519 _ key => ⟨.ed25519, key⟩
  | secp256k1 _ secret => ⟨.secp256k1, secret.toBytes⟩

/-- The first digest that can be read, starting with `digest`. -/
def firstValid {α : Type} (read : Bytes → Option α) (next : Bytes → Bytes) :
    (tries : Nat) → (digest : Bytes) → Option α
  | 0, _ => none
  | tries + 1, digest =>
    match read digest with
    | some x => some x
    | none => firstValid read next tries (next digest)

/-- The root of the tree below a seed. -/
def root (tries : Nat) (curve : Algorithm) (seed : Bytes) : Option Node :=
  let digest := Hmac.sha512 (Utf8.encode (seedName curve))
  match curve with
  | .ed25519 => some (ed25519 ((digest seed).drop 32) ((digest seed).take 32))
  | .secp256k1 =>
    let read (b : Bytes) : Option Node :=
      (Secp256k1.Scalar.ofBytes? (b.take 32)).map (secp256k1 (b.drop 32))
    firstValid read digest tries (digest seed)

/-- The hardened child of an ed25519 node. -/
def hardenedChild (chainCode key : Bytes) (i : Index) : Node :=
  let digest := Hmac.sha512 chainCode (0 :: key ++ i.toBytes)
  ed25519 (digest.drop 32) (digest.take 32)

/-- What of a secp256k1 node is digested for a child: the key, or for a
child that is not hardened the public point. -/
def childSource (secret : Secp256k1.Scalar) (i : Index) : Bytes :=
  if i.isHardened then 0 :: secret.toBytes else (Secp256k1.publicPoint secret).compressed

/-- The node in a digest: the key is the sum of the left half and the key
above. -/
def childOfDigest? (secret : Secp256k1.Scalar) (digest : Bytes) : Option Node :=
  let n := Bytes.toNat (digest.take 32)
  if h : n < Secp256k1.order then
    (Secp256k1.Scalar.ofResidue? (⟨n, h⟩ + secret.residue)).map (secp256k1 (digest.drop 32))
  else none

/-- A child of a secp256k1 node. -/
def summedChild (tries : Nat) (chainCode : Bytes) (secret : Secp256k1.Scalar) (i : Index) :
    Option Node :=
  let digest := Hmac.sha512 chainCode
  firstValid (childOfDigest? secret) (fun d => digest (1 :: d.drop 32 ++ i.toBytes)) tries
    (digest (childSource secret i ++ i.toBytes))

/-- A child of a node on `path`. -/
def child (tries : Nat) (path : Path) (node : Node) (i : Index) : Except DerivationError Node :=
  match node with
  | ed25519 chainCode key =>
    if i.isHardened then .ok (hardenedChild chainCode key i)
    else .error (.path (.notHardened i path))
  | secp256k1 chainCode secret =>
    match summedChild tries chainCode secret i with
    | some node => .ok node
    | none => .error .exhausted

/-- The node at the end of a path, given the number of tries for each key. -/
def deriveWithin (tries : Nat) (curve : Algorithm) (seed : Bytes) (path : Path) :
    Except DerivationError Node :=
  match root tries curve seed with
  | some node => path.foldlM (child tries path) node
  | none => .error .exhausted

end Node

end Keys

end ChainKit
