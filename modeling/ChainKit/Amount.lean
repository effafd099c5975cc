import ChainKit.Decimal
import ChainKit.Json.Record

/-!
# Amounts and fees

An amount is a quantity of a token in atomic units, together with the unit
it is counted in. A fee is paid in tokens, or priced by the gas it allows.
-/

namespace ChainKit

/-- The short name of a token. -/
abbrev Ticker := String

/-- A quantity of a token in atomic units. The quantity is kept as it was
written, so that a reader can tell whether it is a canonical numeral. -/
structure Amount where
  quantity : String
  fractionalDigits : UInt32
  ticker : Ticker
  deriving DecidableEq, Repr

/-- The amount of a decimal in a token. -/
def Decimal.toAmount (d : Decimal) (ticker : Ticker) : Amount :=
  ⟨d.quantity, d.fractionalDigits, ticker⟩

namespace Amount

/-- An amount whose quantity is a canonical numeral. -/
def ofQuantity (quantity : String) (fractionalDigits : UInt32) (ticker : Ticker) :
    Except Decimal.Error Amount :=
  (Decimal.checkQuantity quantity).map fun _ => ⟨quantity, fractionalDigits, ticker⟩

def toJson (a : Amount) : Json :=
  .record [("quantity", .str a.quantity), ("fractionalDigits", .integer a.fractionalDigits.toNat),
    ("tokenTicker", .str a.ticker)]

def ofJson? (j : Json) : Option Amount := do
  let f ← j.fields? 3
  return {
    quantity := ← f.required 0 "quantity" Json.text?
    fractionalDigits := ← f.required 1 "fractionalDigits" Json.uint32?
    ticker := ← f.required 2 "tokenTicker" Json.text? }

end Amount

/-- What a transaction pays: tokens, or a price and a limit of gas. -/
structure Fee where
  tokens : Option Amount
  gasPrice : Option Amount
  gasLimit : Option UInt64
  deriving DecidableEq, Repr

namespace Fee

/-- A fee in tokens. -/
def ofTokens (amount : Amount) : Fee := ⟨some amount, none, none⟩

/-- A fee in gas. -/
def ofGas (price : Amount) (limit : UInt64) : Fee := ⟨none, some price, some limit⟩

def toJson (f : Fee) : Json :=
  .record [("tokens", .nullable Amount.toJson f.tokens),
    ("gasPrice", .nullable Amount.toJson f.gasPrice),
    ("gasLimit", .nullable (fun n => .integer n.toNat) f.gasLimit)]

def ofJson? (j : Json) : Option Fee := do
  let f ← j.fields? 3
  return {
    tokens := ← f.optional 0 "tokens" Amount.ofJson?
    gasPrice := ← f.optional 1 "gasPrice" Amount.ofJson?
    gasLimit := ← f.optional 2 "gasLimit" Json.uint64? }

end Fee

end ChainKit
