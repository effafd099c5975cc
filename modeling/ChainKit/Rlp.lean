import ChainKit.Bytes

/-!
# Length-prefixed items — strings and lists of them

An item is a string or a list, behind a header that tells which and how
long its payload is; a single low byte is its own item. `string` and
`list` write the canonical header. `item` reads any header whose length is
not needlessly spelled out, and does not ask whether a payload is that of a
string. `payloads` lists what stands side by side, up to the first item
that cannot be read.
-/

namespace ChainKit

namespace Rlp

/-! ## Writing -/

/-- The header of a payload of `length` bytes: a list's starts at 0xC0, a
string's at 0x80. -/
def header (start : UInt8) (length : Nat) : Bytes :=
  if length ≤ 55 then [start + UInt8.ofNat length]
  else
    let digits := Bytes.ofNatTrimmed length
    (start + 55 + UInt8.ofNat digits.length) :: digits

/-- A string as an item. -/
def string (b : Bytes) : Bytes :=
  match b with
  | [x] => if x < 0x80 then [x] else header 0x80 1 ++ [x]
  | _ => header 0x80 b.length ++ b

/-- A list of strings as an item. -/
def list (strings : List Bytes) : Bytes :=
  let payload := strings.flatMap string
  header 0xC0 payload.length ++ payload

/-! ## Reading -/

/-- Why no item stands at the front of bytes. -/
inductive Error where
  /-- The bytes end before the item does. -/
  | tooShort
  /-- A length starts with a zero. -/
  | leadingZero
  /-- A short length is spelled out. -/
  | needlessLength
  deriving DecidableEq, Repr

/-- The name of an error. -/
def Error.message : Error → String
  | .tooShort => "RlpIsTooShort"
  | .leadingZero => "RlpDataLenWithZeroPrefix"
  | .needlessLength => "RlpInvalidIndirection"

/-- Cuts off a payload of `length` bytes. -/
def cut (length : Nat) (b : Bytes) : Except Error (Bytes × Bytes) :=
  if length ≤ b.length then .ok (b.take length, b.drop length) else .error .tooShort

/-- Cuts off a payload behind a length of `size` bytes. -/
def cutLong (size : Nat) (b : Bytes) : Except Error (Bytes × Bytes) :=
  if b = [] then .error .tooShort
  else if b.head? = some 0 then .error .leadingZero
  else if b.length < size then .error .tooShort
  else
    let length := Bytes.toNat (b.take size)
    if length ≤ 55 then .error .needlessLength else cut length (b.drop size)

/-- The payload of the item at the front, and the bytes behind the item. -/
def item (b : Bytes) : Except Error (Bytes × Bytes) :=
  match b with
  | [] => .error .tooShort
  | x :: rest =>
    if x < 0x80 then .ok ([x], rest)
    else if x < 0xB8 then cut (x.toNat - 0x80) rest
    else if x < 0xC0 then cutLong (x.toNat - 0xB7) rest
    else if x < 0xF8 then cut (x.toNat - 0xC0) rest
    else cutLong (x.toNat - 0xF7) rest

/-- Whether the item at the front is a list. -/
def isList (b : Bytes) : Bool := b.head?.any fun x => 0xC0 ≤ x

theorem length_cut {length : Nat} {b payload rest : Bytes}
    (h : cut length b = .ok (payload, rest)) : rest.length ≤ b.length := by
  unfold cut at h
  split at h
  · cases h
    simp
  · cases h

theorem length_cutLong {size : Nat} {b payload rest : Bytes}
    (h : cutLong size b = .ok (payload, rest)) : rest.length ≤ b.length := by
  unfold cutLong at h
  split at h
  · cases h
  · split at h
    · cases h
    · split at h
      · cases h
      · dsimp only at h
        split at h
        · cases h
        · exact Nat.le_trans (length_cut h) (by simp)

/-- An item takes at least one byte. -/
theorem length_item {b payload rest : Bytes} (h : item b = .ok (payload, rest)) :
    rest.length < b.length := by
  unfold item at h
  split at h
  · cases h
  · rw [List.length_cons]
    apply Nat.lt_succ_of_le
    split at h
    · cases h
      exact Nat.le_refl _
    · split at h
      · exact length_cut h
      · split at h
        · exact length_cutLong h
        · split at h
          · exact length_cut h
          · exact length_cutLong h

/-- The payloads of items that stand side by side. -/
def payloads (b : Bytes) : List Bytes :=
  match h : item b with
  | .ok (payload, rest) =>
    have := length_item h
    payload :: payloads rest
  | .error _ => []
termination_by b.length

end Rlp

end ChainKit
