import ChainKit.Hash.Keccak256
import ChainKit.Hash.Sha256
import ChainKit.Hash.Sha512
import ChainKit.Json.Record

/-!
# Prehashes — what a chain hashes before it signs

A chain signs either the bytes of a transaction or a digest of them. A
signing job is the bytes together with the choice of its chain.
-/

namespace ChainKit

/-- The digest that is signed in place of the bytes, if any. -/
inductive Prehash where
  | none
  | sha256
  | sha512
  | keccak256
  deriving DecidableEq, Repr

namespace Prehash

/-- The bytes that are signed for `data`. -/
def apply : Prehash → Bytes → Bytes
  | none, data => data
  | sha256, data => Sha256.digest data
  | sha512, data => Sha512.digest data
  | keccak256, data => Keccak256.digest data

/-- The name in documents. -/
def name : Prehash → String
  | none => "none"
  | sha256 => "sha256"
  | sha512 => "sha512"
  | keccak256 => "keccak256"

/-- The name in messages. -/
def inspect : Prehash → String
  | none => "None"
  | sha256 => "Sha256"
  | sha512 => "Sha512"
  | keccak256 => "Keccak256"

def toJson (p : Prehash) : Json := .str p.name

def ofJson? : Json → Option Prehash := Json.choice? name [none, sha256, sha512, keccak256]

end Prehash

/-- The bytes to sign and the prehash that their chain expects. -/
structure SigningJob where
  bytes : Bytes
  prehash : Prehash
  deriving DecidableEq, Repr

end ChainKit
