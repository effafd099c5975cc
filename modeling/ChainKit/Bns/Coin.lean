import ChainKit.Amount
import ChainKit.Bns.Rejection
import ChainKit.Bns.Schema.Basic
import ChainKit.Text.Numeral

/-!
# Coins — amounts on the wire

Every token has nine fractional digits. A coin holds whole tokens and
billionths of one, an amount the quantity of billionths as a numeral.
-/

namespace ChainKit

open Text

namespace Bns

/-- The number of fractional digits of every token. -/
def fractionalDigits : UInt32 := 9

/-- How many atomic units make one token. -/
def unitsPerToken : Nat := 1000000000

/-- The half of a coin that digits spell; no digits spell zero. -/
def coinPart (part : CoinPart) (digits : List Char) : Result Int64 :=
  let value := Numeral.value digits
  if value < 0x8000000000000000 then .ok (Int64.ofNat value)
  else .error (.invalid (.componentRange part (String.ofList digits)))

namespace Schema

namespace Coin

/-- The coin of an amount, split in front of its last nine digits. -/
def ofAmount (a : Amount) : Result Coin :=
  let digits := a.quantity.toList
  if a.fractionalDigits ≠ fractionalDigits then
    .error (.invalid (.fractionalDigits a.fractionalDigits))
  else if !Numeral.isDigits digits then .error (.invalid (.quantity a.quantity))
  else do
    let split := digits.length - 9
    let whole ← coinPart .whole (digits.take split)
    let fractional ← coinPart .fractional (digits.drop split)
    return { whole, fractional, ticker := a.ticker }

/-- The amount of a coin whose halves are in range. -/
def toAmount (c : Coin) : Result Amount :=
  if c.whole < 0 then .error (.invalid (.negativeComponent .whole))
  else if c.fractional < 0 then .error (.invalid (.negativeComponent .fractional))
  else if unitsPerToken ≤ c.fractional.toInt.toNat then .error (.invalid .fractionalTooLarge)
  else
    let units := c.whole.toInt.toNat * unitsPerToken + c.fractional.toInt.toNat
    .ok ⟨Numeral.ofNat units, fractionalDigits, c.ticker⟩

end Coin

end Schema

end Bns

end ChainKit
