import ChainKit.Bns.Schema.Basic

/-!
# The wire schema — multisignature contracts and usernames

The messages about accounts that stand for several keys, and about names
that stand for accounts on several chains.
-/

namespace ChainKit

namespace Bns

namespace Schema

open Wire

/-- A party to a contract and the weight of its signature. -/
structure MultisigParticipant where
  signature : Bytes := []
  weight : UInt32 := 0
  deriving DecidableEq

instance : Message MultisigParticipant where
  records m := bytes 1 m.signature ++ uint32 2 m.weight
  ofFields? f := do
    return {
      signature := ← f.bytes? 1
      weight := ← f.uint32? 2 }

/-- Creates a contract. -/
structure MultisigCreate where
  metadata : Option Metadata := none
  participants : List MultisigParticipant := []
  activationThreshold : UInt32 := 0
  adminThreshold : UInt32 := 0
  deriving DecidableEq

instance : Message MultisigCreate where
  records m := message 1 m.metadata ++ messages 2 m.participants ++
    uint32 3 m.activationThreshold ++ uint32 4 m.adminThreshold
  ofFields? f := do
    return {
      metadata := ← f.message? 1
      participants := ← f.messages? 2
      activationThreshold := ← f.uint32? 3
      adminThreshold := ← f.uint32? 4 }

/-- Replaces the terms of a contract. -/
structure MultisigUpdate where
  metadata : Option Metadata := none
  contractId : Bytes := []
  participants : List MultisigParticipant := []
  activationThreshold : UInt32 := 0
  adminThreshold : UInt32 := 0
  deriving DecidableEq

instance : Message MultisigUpdate where
  records m := message 1 m.metadata ++ bytes 2 m.contractId ++ messages 3 m.participants ++
    uint32 4 m.activationThreshold ++ uint32 5 m.adminThreshold
  ofFields? f := do
    return {
      metadata := ← f.message? 1
      contractId := ← f.bytes? 2
      participants := ← f.messages? 3
      activationThreshold := ← f.uint32? 4
      adminThreshold := ← f.uint32? 5 }

/-- An account on some chain. -/
structure UsernameTarget where
  blockchainId : String := ""
  address : String := ""
  deriving DecidableEq

instance : Message UsernameTarget where
  records m := text 1 m.blockchainId ++ text 2 m.address
  ofFields? f := do
    return {
      blockchainId := ← f.text? 1
      address := ← f.text? 2 }

/-- A username as the chain stores it. -/
structure UsernameToken where
  metadata : Option Metadata := none
  targets : List UsernameTarget := []
  owner : Bytes := []
  deriving DecidableEq

instance : Message UsernameToken where
  records m := message 1 m.metadata ++ messages 2 m.targets ++ bytes 3 m.owner
  ofFields? f := do
    return {
      metadata := ← f.message? 1
      targets := ← f.messages? 2
      owner := ← f.bytes? 3 }

/-- Registers a username. -/
structure UsernameRegister where
  metadata : Option Metadata := none
  username : String := ""
  targets : List UsernameTarget := []
  deriving DecidableEq

instance : Message UsernameRegister where
  records m := message 1 m.metadata ++ text 2 m.username ++ messages 3 m.targets
  ofFields? f := do
    return {
      metadata := ← f.message? 1
      username := ← f.text? 2
      targets := ← f.messages? 3 }

/-- Replaces the accounts that a username stands for. -/
structure UsernameChangeTargets where
  metadata : Option Metadata := none
  username : String := ""
  newTargets : List UsernameTarget := []
  deriving DecidableEq

instance : Message UsernameChangeTargets where
  records m := message 1 m.metadata ++ text 2 m.username ++ messages 3 m.newTargets
  ofFields? f := do
    return {
      metadata := ← f.message? 1
      username := ← f.text? 2
      newTargets := ← f.messages? 3 }

end Schema

end Bns

end ChainKit
