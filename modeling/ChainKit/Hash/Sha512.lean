import ChainKit.Hash.Words

/-!
# SHA-512

The message is padded to blocks of 128 bytes and each block is mixed into
a state of eight words of 64 bits. The digest is the final state, so it
always has 64 bytes (`length_digest`).
-/

namespace ChainKit

namespace Sha512

/-- The eight words of the running state. -/
structure State where
  (a b c d e f g h : UInt64)

/-- The round constants: the cube roots of the first 80 primes. -/
def roundConstants : Array UInt64 := ((Hash.rootFractions 3 80).map UInt64.ofNat).toArray

/-- The start: the square roots of the first eight primes. -/
def initial : State :=
  match (Hash.rootFractions 2 8).map UInt64.ofNat with
  | [a, b, c, d, e, f, g, h] => ⟨a, b, c, d, e, f, g, h⟩
  | _ => ⟨0, 0, 0, 0, 0, 0, 0, 0⟩

/-- Rotation to the right. -/
def rotate (x : UInt64) (n : UInt64) : UInt64 := x >>> n ||| x <<< (64 - n)

/-- The sixteen words of a block, extended to the 80 of its schedule. -/
def schedule (block : Bytes) : Array UInt64 :=
  let words := ((Bytes.chunks 8 block).map fun w => UInt64.ofNat (Bytes.toNat w)).toArray
  Nat.fold 64 (fun i _ w =>
    let x := w.getD (i + 1) 0
    let y := w.getD (i + 14) 0
    let s0 := rotate x 1 ^^^ rotate x 8 ^^^ x >>> 7
    let s1 := rotate y 19 ^^^ rotate y 61 ^^^ y >>> 6
    w.push (w.getD i 0 + s0 + w.getD (i + 9) 0 + s1)) words

/-- One round under the schedule's word plus constant `k`. -/
def round (k : UInt64) (s : State) : State :=
  let s1 := rotate s.e 14 ^^^ rotate s.e 18 ^^^ rotate s.e 41
  let choice := (s.e &&& s.f) ^^^ (~~~ s.e &&& s.g)
  let t1 := s.h + s1 + choice + k
  let s0 := rotate s.a 28 ^^^ rotate s.a 34 ^^^ rotate s.a 39
  let majority := (s.a &&& s.b) ^^^ (s.a &&& s.c) ^^^ (s.b &&& s.c)
  ⟨t1 + (s0 + majority), s.a, s.b, s.c, s.d + t1, s.e, s.f, s.g⟩

/-- Mixes one block into the state. -/
def compress (s : State) (block : Bytes) : State :=
  let w := schedule block
  let r := Nat.fold 80 (fun i _ r => round (roundConstants.getD i 0 + w.getD i 0) r) s
  ⟨s.a + r.a, s.b + r.b, s.c + r.c, s.d + r.d, s.e + r.e, s.f + r.f, s.g + r.g, s.h + r.h⟩

/-- The bytes of a state. -/
def State.bytes (s : State) : Bytes :=
  [s.a, s.b, s.c, s.d, s.e, s.f, s.g, s.h].flatMap fun w => Bytes.ofNat 8 w.toNat

/-- The digest of a message. -/
def digest (message : Bytes) : Bytes :=
  ((Bytes.chunks 128 (Hash.pad 128 16 message)).foldl compress initial).bytes

@[simp] theorem length_digest (message : Bytes) : (digest message).length = 64 := by
  simp [digest, State.bytes]

end Sha512

end ChainKit
