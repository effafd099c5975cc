import ChainKit.Text.Numeral

/-!
# Decimals — token quantities with a fixed number of fractional digits

A decimal counts atomic units, of which `10 ^ fractionalDigits` make one
whole. People write decimals with at most one point; the wire carries the
count of atomic units as a numeral. No value passes through a binary
fraction.
-/

namespace ChainKit

open Text

/-- A count of atomic units and the number of digits behind the point. -/
structure Decimal where
  atomics : Nat
  fractionalDigits : UInt32
  deriving DecidableEq, Repr

namespace Decimal

/-- Why a text is no decimal or no quantity. -/
inductive Error where
  /-- The character at this position, counted from one, is neither a digit
  nor a point. -/
  | invalidCharacter (position : Nat)
  /-- A second point stands in the text. -/
  | multipleSeparators
  /-- More digits stand behind the point than the token has. -/
  | tooManyFractionalDigits
  /-- The quantity is empty. -/
  | emptyQuantity
  /-- The quantity is not a numeral. -/
  | invalidQuantity (text : String)
  /-- The quantity begins with a superfluous zero. -/
  | leadingZeros (text : String)
  deriving DecidableEq, Repr

/-- The wording of a refusal. -/
def Error.message : Error → String
  | .invalidCharacter position => s!"invalid character at position {position}"
  | .multipleSeparators => "more than one separator found"
  | .tooManyFractionalDigits => "got more fractional digits than supported"
  | .emptyQuantity => "invalid quantity: empty"
  | .invalidQuantity text => s!"invalid quantity: {text}"
  | .leadingZeros text => s!"invalid quantity: leading zeros in {text}"

/-- The text without the zeros at its end. -/
def trimZeros (cs : List Char) : List Char := (cs.reverse.dropWhile (· = '0')).reverse

/-- Reads a decimal as people write it, such as `1.5` or `.25`. Zeros at
the end of the fraction do not count against its length, and an empty part
counts as zero. -/
def ofUserInput (text : String) (fractionalDigits : UInt32) : Except Error Decimal :=
  let cs := text.toList
  match cs.findIdx? fun c => !(c.isDigit || c = '.') with
  | some i => .error (.invalidCharacter (i + 1))
  | none =>
    let whole := cs.takeWhile Char.isDigit
    let behind := (cs.dropWhile Char.isDigit).drop 1
    if behind.contains '.' then .error .multipleSeparators
    else
      let fraction := trimZeros behind
      if fraction.length > fractionalDigits.toNat then .error .tooManyFractionalDigits
      else .ok
        { atomics := Numeral.value (whole ++ fraction) *
            Nat.pow 10 (fractionalDigits.toNat - fraction.length)
          fractionalDigits }

/-- Reads a count of atomic units. -/
def ofAtomics (text : String) (fractionalDigits : UInt32) : Except Error Decimal :=
  if text = "" then .error .emptyQuantity
  else match Numeral.grouped? text.toList with
    | some atomics => .ok { atomics, fractionalDigits }
    | none => .error (.invalidQuantity text)

/-- The numeral of the atomic units. -/
def quantity (d : Decimal) : String := Numeral.ofNat d.atomics

/-- The decimal as people write it: no fraction where it is zero, and no
zeros at the end of one. -/
def display (d : Decimal) : String :=
  let scale := Nat.pow 10 d.fractionalDigits.toNat
  let whole := Nat.toDigits 10 (d.atomics / scale)
  let fraction := d.atomics % scale
  if fraction = 0 then String.ofList whole
  else
    let digits := Nat.toDigits 10 fraction
    let padding := List.replicate (d.fractionalDigits.toNat - digits.length) '0'
    String.ofList (whole ++ '.' :: trimZeros (padding ++ digits))

/-- Checks that a text is the numeral of a number: digits only, and no
zero in front of others. -/
def checkQuantity (text : String) : Except Error Unit :=
  let cs := text.toList
  if !Numeral.isDigits cs then .error (.invalidQuantity text)
  else if cs.length > 1 && cs.head? = some '0' then .error (.leadingZeros text)
  else .ok ()

end Decimal

end ChainKit
