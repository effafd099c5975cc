import ChainKit.Proofs.Ethereum.Arguments
import Mathlib
/-!
# Arguments are read within their data

A reader on a machine takes a range of the data only if it is one, and a
sum of positions only if it is one of 64 bits; where it is none, the reader
has no answer at all, not even an error. Such a reader always answers, and
it answers as the one without a guard (`Guarded.read_eq`,
`Guarded.bytes_eq`): the starts ascend, so each argument ends before the
next one and the last one where the data does.
-/

namespace ChainKit

namespace Ethereum

namespace Arguments

/-- An answer about data, or none where a range of the data or a sum of positions is none. -/
abbrev Guarded (α : Type) : Type := ExceptT AbiError Option α

namespace Guarded

variable {α β : Type} {data : Bytes} {start stop : Nat} {ns : List Nat}

/-- An answer for which nothing has to be guarded. -/
def answer (x : Except AbiError α) : Guarded α := ExceptT.mk (some x)

/-- The bytes from `start` up to `stop`, which are in order and within the data. -/
def slice (data : Bytes) (start stop : Nat) : Guarded Bytes :=
  if start ≤ stop ∧ stop ≤ data.length then answer (.ok ((data.drop start).take (stop - start)))
  else ExceptT.mk none

/-- The sum of two positions, which is a number of 64 bits. -/
def sum (m n : Nat) : Guarded Nat :=
  if m + n < UInt64.size then answer (.ok (m + n)) else ExceptT.mk none

/-- The length of the head, as the first position tells it. -/
def headLength (data : Bytes) : Guarded Nat := do
  let word ← slice data 0 32
  match position data.length word with
  | .error _ => throw .headLength
  | .ok n => if n = 0 ∨ n % 32 ≠ 0 ∨ data.length ≤ n then throw .headLength else return n

/-- The data cut at the starts, each argument up to the next and the last one up to the end. -/
def cut (data : Bytes) : List Nat → Guarded (List Bytes)
  | [] => return []
  | n :: rest => do
    let b ← slice data n (rest.head?.getD data.length)
    let tail ← cut data rest
    return b :: tail

/-- Reads a list of arguments. -/
def read (data : Bytes) : Guarded Arguments :=
  if data = [] then throw .empty
  else if data.length % 32 ≠ 0 then throw .notDivisible
  else do
    let length ← headLength data
    let front ← slice data 0 length
    let head ← answer (starts length data.length none (Bytes.chunks 32 front))
    let tail ← cut data head
    return { head, tail }

/-- Reads an argument of bytes: their number, the bytes and padding. -/
def bytes (data : Bytes) : Guarded Bytes :=
  if data.length < 32 then throw (.tooShort 32 data.length)
  else do
    let word ← slice data 0 32
    let length ← answer (position data.length word)
    let stop ← sum 32 length
    if data.length < stop then throw (.tooShort stop data.length)
    else slice data 32 stop

theorem answer_ok_bind (x : α) (f : α → Guarded β) : (answer (.ok x) >>= f) = f x := rfl

/-- Steps in which every guard holds make up one answer. -/
theorem answer_bind {x : Except AbiError α} {f : α → Guarded β} {g : α → Except AbiError β}
    (h : ∀ y, x = .ok y → f y = answer (g y)) : (answer x >>= f) = answer (x >>= g) := by
  cases x with
  | error e => rfl
  | ok y => exact h y rfl

theorem slice_of_le (hstart : start ≤ stop) (hstop : stop ≤ data.length) :
    slice data start stop = answer (.ok ((data.drop start).take (stop - start))) :=
  if_pos ⟨hstart, hstop⟩

theorem slice_zero (hstop : stop ≤ data.length) :
    slice data 0 stop = answer (.ok (data.take stop)) :=
  slice_of_le (Nat.zero_le stop) hstop

theorem headLength_eq (h : 32 ≤ data.length) :
    headLength data = answer (Arguments.headLength data) := by
  rw [headLength, slice_zero h, answer_ok_bind, Arguments.headLength]
  cases position data.length (data.take 32) with
  | error e => rfl
  | ok n =>
    dsimp only
    split <;> rfl

/-- Ascending starts within the data cut it into ranges. -/
theorem cut_eq (hall : ∀ n ∈ ns, n < data.length) (hsteps : ns.IsChain (· < ·)) :
    cut data ns = answer (.ok (Arguments.cut data ns)) := by
  induction ns with
  | nil => rfl
  | cons n ns ih =>
    obtain ⟨hn, hall⟩ := List.forall_mem_cons.1 hall
    rw [cut, ih hall hsteps.of_cons]
    cases ns with
    | nil =>
      have hrest : (data.drop n).take (data.length - n) = data.drop n :=
        List.take_of_length_le (by rw [List.length_drop])
      rw [List.head?_nil, Option.getD_none, slice_of_le (Nat.le_of_lt hn) (Nat.le_refl _), hrest]
      rfl
    | cons next ns =>
      have hstep := (List.isChain_cons_cons.1 hsteps).1
      have hnext := hall next List.mem_cons_self
      rw [List.head?_cons, Option.getD_some, slice_of_le (Nat.le_of_lt hstep) (Nat.le_of_lt hnext)]
      rfl

/-- **Arguments are read within their data.** -/
theorem read_eq (data : Bytes) : read data = answer (Arguments.read data) := by
  unfold read Arguments.read
  split
  · rfl
  · rename_i hne
    split
    · rfl
    · rename_i hwords
      have hpos := List.length_pos_of_ne_nil hne
      rw [headLength_eq (by omega)]
      refine answer_bind fun length hlength => ?_
      obtain ⟨-, -, -, hlt⟩ := headLength_eq_ok.1 hlength
      rw [slice_zero (Nat.le_of_lt hlt), answer_ok_bind]
      refine answer_bind fun head hstarts => ?_
      obtain ⟨-, hall, hsteps⟩ := starts_eq_ok.1 hstarts
      rw [cut_eq (fun n hn => (hall n hn).2.1) hsteps]
      rfl

/-- **An argument of bytes is read within its data**, and where it ends is a number of 64 bits. -/
theorem bytes_eq (h : data.length < 2 ^ 63) : bytes data = answer (Arguments.bytes data) := by
  unfold bytes Arguments.bytes
  split
  · rfl
  · rename_i hlong
    rw [slice_zero (by omega), answer_ok_bind]
    refine answer_bind fun length hlength => ?_
    have hle := (position_eq_ok.1 hlength).2
    rw [sum, if_pos (by rw [UInt64.size]; omega), answer_ok_bind]
    split
    · rfl
    · rename_i hstop
      rw [slice_of_le (by omega) (by omega), Nat.add_sub_cancel_left]
      rfl

end Guarded

/-! ## Head and tail -/

/-- **Data is read as arguments exactly if it is their head and tail**, and reading never leaves
the data. -/
theorem read_iff_laid {data : Bytes} (h : data.length < 2 ^ 63) :
    (Guarded.read data).run = some (read data) ∧ ∀ a, read data = .ok a ↔ a.Laid data :=
  ⟨Guarded.read_eq data, fun _ => ⟨laid_of_read, fun ha => read_of_laid ha (by omega)⟩⟩

/-- Two arguments, of two words and of one. -/
def samplePair : Arguments := ⟨[64, 128], [List.replicate 64 0xB1, List.replicate 32 0xC1]⟩

/-- The two arguments are read from the 160 bytes of their head and tail. -/
theorem read_iff_laid_samplePair : samplePair.encode.length = 160 ∧
    samplePair.Laid samplePair.encode ∧ read samplePair.encode = .ok samplePair := by
  have hlength : samplePair.encode.length = 160 := by
    simp [length_encode, samplePair]
  have hlaid : samplePair.Laid samplePair.encode := ⟨by decide, by decide, by decide, rfl⟩
  have hshort : samplePair.encode.length < 2 ^ 63 := by
    rw [hlength]
    decide
  obtain ⟨-, hread⟩ := read_iff_laid hshort
  exact ⟨hlength, hlaid, (hread samplePair).2 hlaid⟩

end Arguments

end Ethereum

end ChainKit
