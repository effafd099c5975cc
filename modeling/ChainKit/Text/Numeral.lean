import ChainKit.Bytes

/-!
# Numerals — numbers in base ten

`Numeral.ofNat` writes a number without superfluous zeros. Three readers
differ in what they admit around the digits: `digits?` admits nothing
else, `signed?` one sign, and `grouped?` one plus sign and underscores
between the digits.
-/

namespace ChainKit

namespace Text

namespace Numeral

/-- The base-ten numeral of a number. -/
def ofNat (n : Nat) : String := String.ofList (Nat.toDigits 10 n)

/-- The numeral of an integer, with a minus sign below zero. -/
def ofInt : Int → String
  | .ofNat n => ofNat n
  | .negSucc n => "-" ++ ofNat (n + 1)

/-- The value of a run of digits read behind `n`. -/
def valueFrom (n : Nat) (cs : List Char) : Nat :=
  cs.foldl (fun n c => n * 10 + (c.toNat - 0x30)) n

/-- The value of a run of digits. -/
def value (cs : List Char) : Nat := valueFrom 0 cs

/-- Whether a text is a nonempty run of digits. -/
def isDigits (cs : List Char) : Bool := !cs.isEmpty && cs.all Char.isDigit

/-- A nonempty run of digits and nothing else. -/
def digits? (cs : List Char) : Option Nat := if isDigits cs then some (value cs) else none

/-- A run of digits behind at most one plus sign. -/
def unsigned? : List Char → Option Nat
  | '+' :: cs => digits? cs
  | cs => digits? cs

/-- A run of digits behind at most one sign. -/
def signed? : List Char → Option Int
  | '-' :: cs => (digits? cs).map fun n => -(n : Int)
  | cs => (unsigned? cs).map Int.ofNat

/-- Digits with underscores anywhere behind the first, behind at most one
plus sign. -/
def grouped? (cs : List Char) : Option Nat :=
  let body := match cs with
    | '+' :: cs => cs
    | cs => cs
  match body with
  | [] | '_' :: _ => none
  | cs => if cs.all fun c => c.isDigit || c = '_' then some (value (cs.filter (· ≠ '_'))) else none

/-- A word of 32 bits behind at most one plus sign. -/
def uint32? (cs : List Char) : Option UInt32 := do
  let n ← unsigned? cs
  if n < UInt32.size then some (UInt32.ofNat n) else none

/-- A word of 64 bits behind at most one plus sign. -/
def uint64? (cs : List Char) : Option UInt64 := do
  let n ← unsigned? cs
  if n < UInt64.size then some (UInt64.ofNat n) else none

/-- A signed word of 64 bits behind at most one sign. -/
def int64? (cs : List Char) : Option Int64 := do
  let n ← signed? cs
  if -0x8000000000000000 ≤ n ∧ n < 0x8000000000000000 then some (Int64.ofInt n) else none

end Numeral

end Text

end ChainKit
