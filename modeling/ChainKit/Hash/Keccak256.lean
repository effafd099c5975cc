import ChainKit.Bytes

/-!
# Keccak-256

A sponge over 25 lanes of 64 bits: blocks of 136 bytes are added to the
lanes, which 24 rounds permute after each block. The padding is a set bit
at either end of the space left, as before the standard changed it. The
digest is the first four lanes, 32 bytes (`length_digest`).
-/

namespace ChainKit

namespace Keccak256

/-- The lanes; the one in column `x` and row `y` stands at `x + 5 * y`. -/
abbrev Lanes := Array UInt64

/-- Rotation to the left. -/
def rotate (x : UInt64) (n : Nat) : UInt64 :=
  let n := n % 64
  if n = 0 then x else x <<< UInt64.ofNat n ||| x >>> UInt64.ofNat (64 - n)

/-- One step of the register whose outputs are the bits of the round
constants. -/
def nextBits (r : Nat) : Nat := if r * 2 < 256 then r * 2 else (r * 2 - 256) ^^^ 0x71

/-- Seven outputs of the register, set as bits 0, 1, 3, 7, 15, 31 and 63. -/
def roundConstant (r : Nat) : Nat × UInt64 :=
  (List.range 7).foldl (fun (r, c) j =>
    let place := UInt64.ofNat ((1 <<< j : Nat) - 1)
    (nextBits r, if r % 2 = 1 then c ||| (1 : UInt64) <<< place else c)) (r, 0)

/-- The constants of the 24 rounds. -/
def roundConstants : List UInt64 :=
  ((List.range 24).foldl (fun (r, cs) _ =>
    let (r, c) := roundConstant r
    (r, c :: cs)) ((1, []) : Nat × List UInt64)).2.reverse

/-- The walk through the lanes other than the first: the lane it comes
from, the lane it goes to and the rotation on the way. -/
def walk : List (Nat × Nat × Nat) :=
  ((List.range 24).foldl (fun ((x, y), steps) t =>
    let next := (y, (2 * x + 3 * y) % 5)
    (next, (x + 5 * y, next.1 + 5 * next.2, (t + 1) * (t + 2) / 2) :: steps))
    (((1, 0), []) : (Nat × Nat) × List (Nat × Nat × Nat))).2.reverse

/-- Adds to each lane the parity of two neighbouring columns. -/
def mixColumns (a : Lanes) : Lanes :=
  let parity := Array.ofFn fun x : Fin 5 =>
    (List.range 5).foldl (fun p y => p ^^^ a.getD (x + 5 * y) 0) 0
  Array.ofFn fun i : Fin 25 =>
    let x := i.val % 5
    a.getD i 0 ^^^ parity.getD ((x + 4) % 5) 0 ^^^ rotate (parity.getD ((x + 1) % 5) 0) 1

/-- Rotates each lane and moves it to its place. -/
def permute (a : Lanes) : Lanes :=
  walk.foldl (fun b (source, target, turn) =>
    b.setIfInBounds target (rotate (a.getD source 0) turn)) a

/-- Combines each lane with the next two of its row. -/
def mixRows (a : Lanes) : Lanes :=
  Array.ofFn fun i : Fin 25 =>
    let x := i.val % 5
    let y := i.val / 5
    a.getD i 0 ^^^ (~~~ a.getD ((x + 1) % 5 + 5 * y) 0 &&& a.getD ((x + 2) % 5 + 5 * y) 0)

/-- The permutation of the lanes. -/
def rounds (a : Lanes) : Lanes :=
  roundConstants.foldl (fun a c => (mixRows (permute (mixColumns a))).modify 0 (· ^^^ c)) a

/-- Adds a block to the lanes and permutes them. -/
def absorb (a : Lanes) (block : Bytes) : Lanes :=
  let words := (Bytes.chunks 8 block).map fun w => UInt64.ofNat (Bytes.toNatLow w)
  rounds (words.zipIdx.foldl (fun a (w, i) => a.modify i (· ^^^ w)) a)

/-- The message filled up to blocks of 136 bytes: 1 in the first byte
added, 128 in the last. -/
def pad (message : Bytes) : Bytes :=
  match 136 - message.length % 136 with
  | 1 => message ++ [0x81]
  | n => message ++ 0x01 :: Bytes.zeros (n - 2) ++ [0x80]

/-- The digest of a message. -/
def digest (message : Bytes) : Bytes :=
  let a := (Bytes.chunks 136 (pad message)).foldl absorb (Array.replicate 25 0)
  (List.range 4).flatMap fun i => Bytes.ofNatLow 8 (a.getD i 0).toNat

@[simp] theorem length_digest (message : Bytes) : (digest message).length = 32 := by
  simp [digest, List.range, List.range.loop]

end Keccak256

end ChainKit
