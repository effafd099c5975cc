import ChainKit.Account
import ChainKit.Amount

/-!
# Atomic swaps — identifiers, deadlines, and what an offer commits to

A swap locks tokens under a hash until a deadline. Who reveals the
preimage claims them; after the deadline the offerer takes them back.
-/

namespace ChainKit

/-- The identifier of a swap, as its chain assigned it. -/
abbrev SwapId := Bytes

namespace SwapId

/-- The identifier as logs show it. -/
def inspect (id : SwapId) : String := s!"SwapId({Text.Hex.encode id})"

end SwapId

/-- When an open swap or an escrow may be taken back. -/
inductive Timeout where
  /-- Seconds of the Unix clock. -/
  | timestamp (seconds : Int64)
  /-- A block height. -/
  | height (blocks : UInt64)
  deriving DecidableEq, Repr

namespace Timeout

def toJson : Timeout → Json
  | timestamp seconds => .record [("timestamp", .integer seconds.toInt)]
  | height blocks => .record [("height", .integer blocks.toNat)]

def ofJson? : Json → Option Timeout
  | .object [(some name, j)] =>
    if name = "timestamp" then (Json.int64? j).map timestamp
    else if name = "height" then (Json.uint64? j).map height
    else none
  | _ => none

end Timeout

/-- What the offer of a swap asks for. -/
structure SwapOffer where
  /-- The identifier, on chains where the offerer chooses it. -/
  swapId : Option SwapId
  recipient : Address
  amounts : List Amount
  /-- The digest whose preimage opens the swap. -/
  hash : Bytes
  timeout : Timeout
  memo : Option String
  deriving DecidableEq, Repr

/-- What a swap is about, as its offer committed to it. -/
structure SwapTerms where
  id : SwapId
  sender : Address
  recipient : Address
  hash : Bytes
  amounts : List Amount
  timeout : Timeout
  memo : Option String
  deriving DecidableEq, Repr

/-- The terms of an offer that was observed from `sender` under `id`. -/
def SwapOffer.terms (o : SwapOffer) (id : SwapId) (sender : Address) : SwapTerms where
  id := id
  sender := sender
  recipient := o.recipient
  hash := o.hash
  amounts := o.amounts
  timeout := o.timeout
  memo := o.memo

end ChainKit
