import ChainKit.Hash.Words

/-!
# SHA-256

The message is padded to blocks of 64 bytes and each block is mixed into
a state of eight words of 32 bits. The digest is the final state, so it
always has 32 bytes (`length_digest`).
-/

namespace ChainKit

namespace Sha256

/-- The eight words of the running state. -/
structure State where
  (a b c d e f g h : UInt32)

/-- The first 32 bits of a constant of 64. -/
def top (w : Nat) : UInt32 := UInt32.ofNat (w >>> 32)

/-- The round constants: the cube roots of the first 64 primes. -/
def roundConstants : Array UInt32 := ((Hash.rootFractions 3 64).map top).toArray

/-- The start: the square roots of the first eight primes. -/
def initial : State :=
  match (Hash.rootFractions 2 8).map top with
  | [a, b, c, d, e, f, g, h] => ⟨a, b, c, d, e, f, g, h⟩
  | _ => ⟨0, 0, 0, 0, 0, 0, 0, 0⟩

/-- Rotation to the right. -/
def rotate (x : UInt32) (n : UInt32) : UInt32 := x >>> n ||| x <<< (32 - n)

/-- The sixteen words of a block, extended to the 64 of its schedule. -/
def schedule (block : Bytes) : Array UInt32 :=
  let words := ((Bytes.chunks 4 block).map fun w => UInt32.ofNat (Bytes.toNat w)).toArray
  Nat.fold 48 (fun i _ w =>
    let x := w.getD (i + 1) 0
    let y := w.getD (i + 14) 0
    let s0 := rotate x 7 ^^^ rotate x 18 ^^^ x >>> 3
    let s1 := rotate y 17 ^^^ rotate y 19 ^^^ y >>> 10
    w.push (w.getD i 0 + s0 + w.getD (i + 9) 0 + s1)) words

/-- One round under the schedule's word plus constant `k`. -/
def round (k : UInt32) (s : State) : State :=
  let s1 := rotate s.e 6 ^^^ rotate s.e 11 ^^^ rotate s.e 25
  let choice := (s.e &&& s.f) ^^^ (~~~ s.e &&& s.g)
  let t1 := s.h + s1 + choice + k
  let s0 := rotate s.a 2 ^^^ rotate s.a 13 ^^^ rotate s.a 22
  let majority := (s.a &&& s.b) ^^^ (s.a &&& s.c) ^^^ (s.b &&& s.c)
  ⟨t1 + (s0 + majority), s.a, s.b, s.c, s.d + t1, s.e, s.f, s.g⟩

/-- Mixes one block into the state. -/
def compress (s : State) (block : Bytes) : State :=
  let w := schedule block
  let r := Nat.fold 64 (fun i _ r => round (roundConstants.getD i 0 + w.getD i 0) r) s
  ⟨s.a + r.a, s.b + r.b, s.c + r.c, s.d + r.d, s.e + r.e, s.f + r.f, s.g + r.g, s.h + r.h⟩

/-- The bytes of a state. -/
def State.bytes (s : State) : Bytes :=
  [s.a, s.b, s.c, s.d, s.e, s.f, s.g, s.h].flatMap fun w => Bytes.ofNat 4 w.toNat

/-- The digest of a message. -/
def digest (message : Bytes) : Bytes :=
  ((Bytes.chunks 64 (Hash.pad 64 8 message)).foldl compress initial).bytes

@[simp] theorem length_digest (message : Bytes) : (digest message).length = 32 := by
  simp [digest, State.bytes]

end Sha256

end ChainKit
