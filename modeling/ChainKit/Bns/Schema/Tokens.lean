import ChainKit.Bns.Schema.Basic

/-!
# The wire schema — sends, fees, swaps and escrows

The messages that move tokens: at once, against a preimage, or under an
arbiter.
-/

namespace ChainKit

namespace Bns

namespace Schema

open Wire

/-- Moves tokens. -/
structure CashSend where
  metadata : Option Metadata := none
  source : Bytes := []
  destination : Bytes := []
  amount : Option Coin := none
  memo : String := ""
  deriving DecidableEq

instance : Message CashSend where
  records m := message 1 m.metadata ++ bytes 2 m.source ++ bytes 3 m.destination ++
    message 4 m.amount ++ text 5 m.memo
  ofFields? f := do
    return {
      metadata := ← f.message? 1
      source := ← f.bytes? 2
      destination := ← f.bytes? 3
      amount := ← f.message? 4
      memo := ← f.text? 5 }

/-- Who pays for a transaction, and how much. -/
structure FeeInfo where
  payer : Bytes := []
  fees : Option Coin := none
  deriving DecidableEq

instance : Message FeeInfo where
  records m := bytes 2 m.payer ++ message 3 m.fees
  ofFields? f := do
    return {
      payer := ← f.bytes? 2
      fees := ← f.message? 3 }

/-- Offers a swap. -/
structure SwapCreate where
  metadata : Option Metadata := none
  source : Bytes := []
  preimageHash : Bytes := []
  destination : Bytes := []
  amount : List Coin := []
  timeout : Int64 := 0
  memo : String := ""
  deriving DecidableEq

instance : Message SwapCreate where
  records m := message 1 m.metadata ++ bytes 2 m.source ++ bytes 3 m.preimageHash ++
    bytes 4 m.destination ++ messages 5 m.amount ++ int64 6 m.timeout ++ text 7 m.memo
  ofFields? f := do
    return {
      metadata := ← f.message? 1
      source := ← f.bytes? 2
      preimageHash := ← f.bytes? 3
      destination := ← f.bytes? 4
      amount := ← f.messages? 5
      timeout := ← f.int64? 6
      memo := ← f.text? 7 }

/-- Claims a swap. -/
structure SwapRelease where
  metadata : Option Metadata := none
  swapId : Bytes := []
  preimage : Bytes := []
  deriving DecidableEq

instance : Message SwapRelease where
  records m := message 1 m.metadata ++ bytes 2 m.swapId ++ bytes 3 m.preimage
  ofFields? f := do
    return {
      metadata := ← f.message? 1
      swapId := ← f.bytes? 2
      preimage := ← f.bytes? 3 }

/-- Takes a swap back. -/
structure SwapReturn where
  metadata : Option Metadata := none
  swapId : Bytes := []
  deriving DecidableEq

instance : Message SwapReturn where
  records m := message 1 m.metadata ++ bytes 2 m.swapId
  ofFields? f := do
    return {
      metadata := ← f.message? 1
      swapId := ← f.bytes? 2 }

/-- Opens an escrow. -/
structure EscrowCreate where
  metadata : Option Metadata := none
  source : Bytes := []
  arbiter : Bytes := []
  destination : Bytes := []
  amount : List Coin := []
  timeout : Int64 := 0
  memo : String := ""
  deriving DecidableEq

instance : Message EscrowCreate where
  records m := message 1 m.metadata ++ bytes 2 m.source ++ bytes 3 m.arbiter ++
    bytes 4 m.destination ++ messages 5 m.amount ++ int64 6 m.timeout ++ text 7 m.memo
  ofFields? f := do
    return {
      metadata := ← f.message? 1
      source := ← f.bytes? 2
      arbiter := ← f.bytes? 3
      destination := ← f.bytes? 4
      amount := ← f.messages? 5
      timeout := ← f.int64? 6
      memo := ← f.text? 7 }

/-- Pays out of an escrow. -/
structure EscrowRelease where
  metadata : Option Metadata := none
  escrowId : Bytes := []
  amount : List Coin := []
  deriving DecidableEq

instance : Message EscrowRelease where
  records m := message 1 m.metadata ++ bytes 2 m.escrowId ++ messages 3 m.amount
  ofFields? f := do
    return {
      metadata := ← f.message? 1
      escrowId := ← f.bytes? 2
      amount := ← f.messages? 3 }

/-- Takes an escrow back. -/
structure EscrowReturn where
  metadata : Option Metadata := none
  escrowId : Bytes := []
  deriving DecidableEq

instance : Message EscrowReturn where
  records m := message 1 m.metadata ++ bytes 2 m.escrowId
  ofFields? f := do
    return {
      metadata := ← f.message? 1
      escrowId := ← f.bytes? 2 }

/-- Replaces the parties of an escrow that are named. -/
structure EscrowUpdateParties where
  metadata : Option Metadata := none
  escrowId : Bytes := []
  source : Bytes := []
  arbiter : Bytes := []
  destination : Bytes := []
  deriving DecidableEq

instance : Message EscrowUpdateParties where
  records m := message 1 m.metadata ++ bytes 2 m.escrowId ++ bytes 3 m.source ++
    bytes 4 m.arbiter ++ bytes 5 m.destination
  ofFields? f := do
    return {
      metadata := ← f.message? 1
      escrowId := ← f.bytes? 2
      source := ← f.bytes? 3
      arbiter := ← f.bytes? 4
      destination := ← f.bytes? 5 }

end Schema

end Bns

end ChainKit
