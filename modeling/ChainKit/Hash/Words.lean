import ChainKit.Bytes

/-!
# Constants and padding of the SHA-2 family

The family draws its constants from the roots of the first primes: 64 bits
behind the point of a square root or a cube root. Messages are padded by
one set bit, zeros, and their length in bits.
-/

namespace ChainKit

namespace Hash

/-- Whether no smaller number above one divides `n`. -/
def isPrime (n : Nat) : Bool := 2 ≤ n && (List.range n).all fun d => d < 2 || n % d ≠ 0

/-- The first primes, all below 420. -/
def primes (count : Nat) : List Nat := ((List.range 420).filter isPrime).take count

/-- The greatest number below `2 ^ bits` whose `k`-th power is at most
`n`, found from its highest bit down. -/
def root (k n : Nat) : (bits : Nat) → (found : Nat) → Nat
  | 0, found => found
  | bits + 1, found =>
    let next := found + 1 <<< bits
    root k n bits (if Nat.pow next k ≤ n then next else found)

/-- The first 64 bits behind the point of the `k`-th roots of the first
primes. -/
def rootFractions (k count : Nat) : List Nat :=
  (primes count).map fun p => root k (p <<< (64 * k)) 72 0 % UInt64.size

/-- The message behind which stand a set bit, the fewest zeros that fill
the last block, and the message's length in bits in `width` bytes. -/
def pad (block width : Nat) (message : Bytes) : Bytes :=
  let used := (message.length + 1 + width) % block
  message ++ 0x80 :: Bytes.zeros ((block - used) % block) ++
    Bytes.ofNat width (message.length * 8)

end Hash

end ChainKit
