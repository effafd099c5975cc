import ChainKit.Bns.Coin
import ChainKit.Bns.Field
import ChainKit.Bns.Schema.Tokens
import ChainKit.Transaction

/-!
# Transfers — sends, swaps and escrows on the wire

Each request that moves tokens is paired with its message: `ofX` writes
the request, `toX` reads it back. The wire names the account that pays,
and nothing but the creator's account is written there.
-/

namespace ChainKit

namespace Bns

namespace Schema

/-- The time of a deadline; heights are not known here. -/
def deadline : Timeout → Result Int64
  | .timestamp seconds => .ok seconds
  | .height _ => .error (.invalid .heightTimeout)

/-- The coins of amounts. -/
def coins (amounts : List Amount) : Result (List Coin) := amounts.mapM Coin.ofAmount

/-- The amounts of coins. -/
def amounts (coins : List Coin) : Result (List Amount) := coins.mapM Coin.toAmount

namespace CashSend

/-- Writes a send of the creator. -/
def ofSend (creator : Identity) (s : Send) : Result CashSend := do
  let source ← Account.ofIdentity creator
  let sender ← Account.onChain s.sender creator.chainId
  if sender ≠ source then .error (.invalid .senderNotCreator)
  else
    let recipient ← Account.onChain s.recipient creator.chainId
    let amount ← Coin.ofAmount s.amount
    return {
      metadata := Metadata.current
      source := source.data
      destination := recipient.data
      amount := some amount
      memo := s.memo.getD "" }

/-- Reads a send of the creator. -/
def toSend (creator : Identity) (m : CashSend) : Result Send := do
  let sender ← Account.addressOfIdentity creator
  let recipient ← Field.address (.ofChain creator.chainId) "destination" m.destination
  let amount ← (← Field.present "amount" m.amount).toAmount
  return { sender, recipient, amount, memo := Field.optionalText m.memo }

end CashSend

namespace SwapCreate

/-- The number of bytes of a swap's hash. -/
def hashSize : Nat := 32

/-- Writes an offer of the creator. -/
def ofOffer (creator : Identity) (o : SwapOffer) : Result SwapCreate :=
  if o.hash.length ≠ hashSize then .error (.invalid .hashLength)
  else do
    let source ← Account.ofIdentity creator
    let recipient ← Account.onChain o.recipient creator.chainId
    let amount ← coins o.amounts
    let timeout ← deadline o.timeout
    return {
      metadata := Metadata.current
      source := source.data
      preimageHash := o.hash
      destination := recipient.data
      amount
      timeout
      memo := o.memo.getD "" }

/-- Reads an offer; the chain assigns its identifier later. -/
def toOffer (network : Network) (m : SwapCreate) : Result SwapOffer := do
  let hash ← Field.bytes "preimageHash" m.preimageHash
  if hash.length ≠ hashSize then .error (.invalid .hashLength)
  else if m.timeout = 0 then .error (.missing "timeout")
  else
    let recipient ← Field.address network "destination" m.destination
    let amounts ← amounts m.amount
    return {
      swapId := none
      recipient
      amounts
      hash
      timeout := .timestamp m.timeout
      memo := Field.optionalText m.memo }

end SwapCreate

namespace SwapRelease

/-- Writes a claim. -/
def ofClaim (id : SwapId) (preimage : Bytes) : Result SwapRelease := do
  let swapId ← Field.bytes "swapId" id
  let preimage ← Field.bytes "preimage" preimage
  return { metadata := Metadata.current, swapId, preimage }

/-- Reads a claim: the swap and the preimage. -/
def toClaim (m : SwapRelease) : Result (SwapId × Bytes) := do
  let id ← Field.bytes "swapId" m.swapId
  let preimage ← Field.bytes "preimage" m.preimage
  return (id, preimage)

end SwapRelease

namespace SwapReturn

/-- Writes an abort. -/
def ofAbort (id : SwapId) : Result SwapReturn := do
  let swapId ← Field.bytes "swapId" id
  return { metadata := Metadata.current, swapId }

/-- Reads an abort: the swap. -/
def toAbort (m : SwapReturn) : Result SwapId := Field.bytes "swapId" m.swapId

end SwapReturn

namespace EscrowCreate

/-- Writes an escrow. -/
def ofEscrow (e : Escrow) : Result EscrowCreate := do
  let source ← Account.bytesOfAddress e.sender
  let arbiter ← Account.bytesOfAddress e.arbiter
  let destination ← Account.bytesOfAddress e.recipient
  let amount ← coins e.amounts
  let timeout ← deadline e.timeout
  return {
    metadata := Metadata.current
    source
    arbiter
    destination
    amount
    timeout
    memo := e.memo.getD "" }

/-- Reads an escrow. -/
def toEscrow (network : Network) (m : EscrowCreate) : Result Escrow :=
  if m.amount = [] then .error (.missing "amount")
  else if m.timeout = 0 then .error (.missing "timeout")
  else do
    let sender ← Field.address network "source" m.source
    let arbiter ← Field.address network "arbiter" m.arbiter
    let recipient ← Field.address network "destination" m.destination
    let amounts ← amounts m.amount
    return {
      sender
      arbiter
      recipient
      amounts
      timeout := .timestamp m.timeout
      memo := Field.optionalText m.memo }

end EscrowCreate

namespace EscrowRelease

/-- Writes a payment out of an escrow. -/
def ofRelease (id : UInt64) (amounts : List Amount) : Result EscrowRelease := do
  let amount ← coins amounts
  return { metadata := Metadata.current, escrowId := NumericId.encode id, amount }

/-- Reads a payment: the escrow and the amounts. -/
def toRelease (m : EscrowRelease) : Result (UInt64 × List Amount) := do
  let id ← NumericId.decode "escrowId" m.escrowId
  let amounts ← amounts m.amount
  return (id, amounts)

end EscrowRelease

namespace EscrowUpdateParties

/-- The bytes of a party that is replaced, none for one that stays. -/
def partyBytes : Option Address → Result Bytes
  | none => .ok []
  | some a => Account.bytesOfAddress a

/-- The address of a party that is replaced. -/
def party (network : Network) (b : Bytes) : Result (Option Address) :=
  if b = [] then .ok none else (Account.address network b).map some

/-- Writes the replacement of exactly one party. -/
def ofParties (id : UInt64) (p : EscrowParties) : Result EscrowUpdateParties :=
  let count := ([p.sender, p.arbiter, p.recipient].filter Option.isSome).length
  if count ≠ 1 then .error (.invalid (.partyCount count))
  else do
    let source ← partyBytes p.sender
    let arbiter ← partyBytes p.arbiter
    let destination ← partyBytes p.recipient
    return {
      metadata := Metadata.current
      escrowId := NumericId.encode id
      source
      arbiter
      destination }

/-- Reads the replacement of parties: the escrow and the parties. -/
def toParties (network : Network) (m : EscrowUpdateParties) : Result (UInt64 × EscrowParties) := do
  let id ← NumericId.decode "escrowId" m.escrowId
  let sender ← party network m.source
  let arbiter ← party network m.arbiter
  let recipient ← party network m.destination
  return (id, { sender, arbiter, recipient })

end EscrowUpdateParties

end Schema

end Bns

end ChainKit
