import ChainKit.Ethereum.Word

/-!
# Arguments of variable length

A list of arguments starts with a head of positions, one word each; the
arguments follow in the tail, in order and without gaps. The first position
is also the length of the head. An argument of bytes starts with their
number.
-/

namespace ChainKit

namespace Ethereum

/-- Arguments with the positions where they start. -/
structure Arguments where
  head : List Nat
  tail : List Bytes
  deriving DecidableEq

namespace Arguments

/-- A position in data of `limit` bytes. -/
def position (limit : Nat) (word : Bytes) : Except AbiError Nat :=
  if Bytes.toNat word ≤ limit then .ok (Bytes.toNat word)
  else .error (.startOutOfRange (Bytes.toNat word))

/-- The length of the head, as the first position tells it. -/
def headLength (data : Bytes) : Except AbiError Nat :=
  match position data.length (data.take 32) with
  | .error _ => .error .headLength
  | .ok n =>
    if n = 0 ∨ n % 32 ≠ 0 ∨ data.length ≤ n then .error .headLength else .ok n

/-- The start of an argument behind the head and behind `previous`. -/
def start (head total : Nat) (previous : Option Nat) (word : Bytes) : Except AbiError Nat := do
  let n ← position total word
  if n < head then .error .startInHead
  else if n % 32 ≠ 0 then .error .startNotAligned
  else if total ≤ n then .error (.startOutOfRange n)
  else if previous.any (n ≤ ·) then .error .startOrder
  else return n

/-- The starts that the words of a head tell. -/
def starts (head total : Nat) (previous : Option Nat) : List Bytes → Except AbiError (List Nat)
  | [] => .ok []
  | word :: rest => do
    let n ← start head total previous word
    let ns ← starts head total (some n) rest
    return n :: ns

/-- The data cut at the starts, the last argument reaching the end. -/
def cut (data : Bytes) : List Nat → List Bytes
  | [] => []
  | [n] => [data.drop n]
  | n :: next :: rest => (data.drop n).take (next - n) :: cut data (next :: rest)

/-- Reads a list of arguments. -/
def read (data : Bytes) : Except AbiError Arguments :=
  if data = [] then .error .empty
  else if data.length % 32 ≠ 0 then .error .notDivisible
  else do
    let length ← headLength data
    let head ← starts length data.length none (Bytes.chunks 32 (data.take length))
    return { head, tail := cut data head }

/-- Reads an argument of bytes: their number, the bytes and padding. -/
def bytes (data : Bytes) : Except AbiError Bytes :=
  if data.length < 32 then .error (.tooShort 32 data.length)
  else do
    let length ← position data.length (data.take 32)
    if data.length < 32 + length then .error (.tooShort (32 + length) data.length)
    else return (data.drop 32).take length

end Arguments

end Ethereum

end ChainKit
