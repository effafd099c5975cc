import ChainKit.Bns.Address

/-!
# Required fields and numeric identifiers

The wire does not tell an absent field from one that holds its default.
Where a default makes no sense, it counts as absent. Identifiers are
numbers, written in eight bytes and read from any number of them.
-/

namespace ChainKit

namespace Bns

namespace Field

/-- A nested message that has to be there. -/
def present {α : Type} (field : String) : Option α → Result α
  | some x => .ok x
  | none => .error (.missing field)

/-- Bytes that have to be there. -/
def bytes (field : String) (b : Bytes) : Result Bytes :=
  if b = [] then .error (.missing field) else .ok b

/-- A text that has to be there. -/
def text (field : String) (s : String) : Result String :=
  if s = "" then .error (.missing field) else .ok s

/-- A number that has to be there. -/
def uint32 (field : String) (n : UInt32) : Result UInt32 :=
  if n = 0 then .error (.missing field) else .ok n

/-- A text that may be absent. -/
def optionalText (s : String) : Option String := if s = "" then none else some s

/-- The address of an account that has to be there. -/
def address (network : Network) (field : String) (b : Bytes) : Result Address := do
  Account.address network (← bytes field b)

end Field

namespace NumericId

/-- An identifier in eight bytes. -/
def encode (id : UInt64) : Bytes := Bytes.ofNat 8 id.toNat

/-- The identifier that bytes spell; wider values are refused, not cut. -/
def decode (field : String) (b : Bytes) : Result UInt64 := do
  let value := Bytes.toNat (← Field.bytes field b)
  if value < UInt64.size then return UInt64.ofNat value
  else .error (.invalid (.idRange field value))

end NumericId

/-- Applies `f` to every element and its index, from `i` on, up to the
first rejection. -/
def mapIndexed {α β : Type} (f : Nat → α → Result β) (i : Nat) : List α → Result (List β)
  | [] => .ok []
  | x :: xs => do
    let y ← f i x
    let ys ← mapIndexed f (i + 1) xs
    return y :: ys

end Bns

end ChainKit
