import ChainKit.Bns.Field
import ChainKit.Bns.Schema.Accounts
import ChainKit.Transaction

/-!
# Multisignature contracts on the wire

A contract needs participants with weights, and two thresholds. A weight
or a threshold of zero counts as absent.
-/

namespace ChainKit

namespace Bns

namespace Schema

/-- Writes the participants of a contract. -/
def ofParticipants (ps : List Participant) : Result (List MultisigParticipant) :=
  ps.mapM fun p => do
    let signature ← Account.bytesOfAddress p.address
    return { signature, weight := p.weight }

/-- Reads one participant, the one at `i`. -/
def toParticipant (network : Network) (i : Nat) (p : MultisigParticipant) : Result Participant := do
  let weight ← Field.uint32 s!"participants.${i}.weight" p.weight
  let address ← Field.address network s!"participants.${i}.signature" p.signature
  return { address, weight }

/-- Reads the participants of a contract, of which there is at least one. -/
def toParticipants (network : Network) (ps : List MultisigParticipant) :
    Result (List Participant) :=
  if ps = [] then .error (.missing "participants")
  else mapIndexed (toParticipant network) 0 ps

/-- Writes a new contract. -/
def MultisigCreate.ofContract (c : Contract) : Result MultisigCreate := do
  let participants ← ofParticipants c.participants
  return {
    metadata := Metadata.current
    participants
    activationThreshold := c.activationThreshold
    adminThreshold := c.adminThreshold }

/-- Reads a new contract. -/
def MultisigCreate.toContract (network : Network) (m : MultisigCreate) : Result Contract := do
  let participants ← toParticipants network m.participants
  let activationThreshold ← Field.uint32 "activationThreshold" m.activationThreshold
  let adminThreshold ← Field.uint32 "adminThreshold" m.adminThreshold
  return { participants, activationThreshold, adminThreshold }

/-- Writes new terms of a contract. -/
def MultisigUpdate.ofContract (id : Bytes) (c : Contract) : Result MultisigUpdate := do
  let participants ← ofParticipants c.participants
  return {
    metadata := Metadata.current
    contractId := id
    participants
    activationThreshold := c.activationThreshold
    adminThreshold := c.adminThreshold }

/-- Reads new terms: the contract's identifier and the terms. -/
def MultisigUpdate.toContract (network : Network) (m : MultisigUpdate) :
    Result (Bytes × Contract) := do
  let id ← Field.bytes "contractId" m.contractId
  let participants ← toParticipants network m.participants
  let activationThreshold ← Field.uint32 "activationThreshold" m.activationThreshold
  let adminThreshold ← Field.uint32 "adminThreshold" m.adminThreshold
  return (id, { participants, activationThreshold, adminThreshold })

end Schema

end Bns

end ChainKit
