import ChainKit.Hash.Sha256
import ChainKit.Hash.Sha512

/-!
# Keyed digests and stretched passwords

`Hmac.digest` turns a hash into a keyed one, for any hash and block size.
`Hmac.stretch` repeats a keyed hash to make a password costly to guess;
one output block is enough for the seeds made here.
-/

namespace ChainKit

namespace Hmac

/-- The bytewise sum without carries. -/
def xor (a b : Bytes) : Bytes := List.zipWith (· ^^^ ·) a b

/-- The key hashed if it exceeds a block, and filled up to one. -/
def blockKey (hash : Bytes → Bytes) (block : Nat) (key : Bytes) : Bytes :=
  let key := if key.length > block then hash key else key
  key ++ Bytes.zeros (block - key.length)

/-- The digest of `message` under `key`. -/
def digest (hash : Bytes → Bytes) (block : Nat) (key message : Bytes) : Bytes :=
  let key := blockKey hash block key
  hash (key.map (· ^^^ 0x5C) ++ hash (key.map (· ^^^ 0x36) ++ message))

/-- Keyed SHA-256. -/
def sha256 (key message : Bytes) : Bytes := digest Sha256.digest 64 key message

/-- Keyed SHA-512. -/
def sha512 (key message : Bytes) : Bytes := digest Sha512.digest 128 key message

/-- The first block of a password stretched over `rounds` rounds: the sum
of the keyed digests of the salt, of that digest, and so on. -/
def stretch (keyed : Bytes → Bytes → Bytes) (password salt : Bytes) (rounds : Nat) : Bytes :=
  let first := keyed password (salt ++ Bytes.ofNat 4 1)
  (Nat.fold (rounds - 1) (fun _ _ (last, sum) =>
    let next := keyed password last
    (next, xor sum next)) (first, first)).2

@[simp] theorem length_sha512 (key message : Bytes) : (sha512 key message).length = 64 := by
  simp [sha512, digest]

end Hmac

end ChainKit
