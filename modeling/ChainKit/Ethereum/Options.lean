import ChainKit.Amount
import ChainKit.Ethereum.Address

/-!
# Known contracts

Which contracts mean something: one for swaps of ether and one for each
token. Contracts are compared without regard to the case of letters.
-/

namespace ChainKit

namespace Ethereum

/-- A token and its contract. -/
structure Token where
  contract : Address
  decimals : UInt32
  symbol : Ticker
  deriving DecidableEq, Repr

namespace Token

def toJson (t : Token) : Json :=
  .record [("contractAddress", .str t.contract), ("decimals", .integer t.decimals.toNat),
    ("symbol", .str t.symbol)]

def ofJson? (j : Json) : Option Token := do
  let f ← j.fields? 3
  return {
    contract := ← f.required 0 "contractAddress" Json.text?
    decimals := ← f.required 1 "decimals" Json.uint32?
    symbol := ← f.required 2 "symbol" Json.text? }

end Token

/-- The contracts that are known. -/
structure Options where
  swapContract : Option Address := none
  tokens : TextMap Token := .empty
  deriving DecidableEq

namespace Options

/-- The options with this contract for swaps. -/
def withSwapContract (o : Options) (contract : Address) : Options :=
  { o with swapContract := some contract }

/-- The options with this token, under its own symbol. -/
def withToken (o : Options) (token : Token) : Options :=
  { o with tokens := o.tokens.insert token.symbol token }

/-- Whether two addresses differ in the case of letters at most. -/
def sameContract (a b : Address) : Bool :=
  a.toList.map Char.toLower = b.toList.map Char.toLower

/-- The first token whose contract this is. -/
def tokenOf? (o : Options) (contract : Address) : Option Token :=
  (o.tokens.entries.map (·.2)).find? fun t => sameContract t.contract contract

/-- Whether this is the contract for swaps. -/
def isSwapContract (o : Options) (contract : Address) : Bool :=
  o.swapContract.any fun c => sameContract c contract

def toJson (o : Options) : Json :=
  .record [("atomicSwapEtherContract", .nullable .str o.swapContract),
    ("erc20Tokens", .map Token.toJson o.tokens)]

def ofJson? (j : Json) : Option Options := do
  let f ← j.fields? 2
  return {
    swapContract := ←
      f.withDefault 0 ["atomicSwapEtherContract"] none (Json.nullable? Json.text?)
    tokens := ← f.withDefault 1 ["erc20Tokens"] .empty (Json.map? Token.ofJson?) }

end Options

end Ethereum

end ChainKit
