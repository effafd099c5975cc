import ChainKit.Ethereum.Rejection
import ChainKit.Text.Numeral

/-!
# Ethereum chains

A chain is known by a number, which its name ends in. The number zero
stands for signatures that are good on every chain.
-/

namespace ChainKit

open Text

namespace Ethereum

namespace Chain

/-- What every name starts with. -/
def namePrefix : String := "ethereum-eip155-"

/-- The number that a name ends in. -/
def number? (chainId : ChainId) : Option UInt64 := do
  let digits ← namePrefix.toList.isPrefixOf? chainId.toList
  let n ← Numeral.digits? digits
  if n < UInt64.size then some (UInt64.ofNat n) else none

/-- The number of a chain. -/
def number (chainId : ChainId) : Result UInt64 :=
  match number? chainId with
  | some n => .ok n
  | none => .error (.invalid (.chainId chainId))

/-- The name of a chain. -/
def name (n : UInt64) : ChainId := namePrefix ++ Numeral.ofNat n.toNat

end Chain

end Ethereum

end ChainKit
