import ChainKit.Bns.Contract
import ChainKit.Bns.Username
import ChainKit.Proofs.Bns.Field
import Mathlib
/-!
# Contracts and usernames are read back

Weights, thresholds, names and the halves of a target count as absent
where they are zero or empty, so a canonical request has none of these.
-/

namespace ChainKit

namespace Bns

variable {network : Network}

/-- A contract that its message keeps. -/
structure CanonicalContract (network : Network) (c : Contract) : Prop where
  nonempty : c.participants ≠ []
  addresses : ∀ p ∈ c.participants, network.Owns p.address
  weights : ∀ p ∈ c.participants, p.weight ≠ 0
  activation : c.activationThreshold ≠ 0
  admin : c.adminThreshold ≠ 0

/-- An account on some chain that a message keeps. -/
structure CanonicalTarget (t : ChainAddress) : Prop where
  chainId : t.chainId ≠ ""
  address : t.address ≠ ""

namespace Schema

/-! ## Contracts -/

/-- A participant is read from 20 bytes with a weight. -/
theorem toParticipant_eq_ok {i : Nat} {m : MultisigParticipant} {p : Participant} :
    toParticipant network i m = .ok p ↔
      m.weight ≠ 0 ∧ m.weight = p.weight ∧ Account.address network m.signature = .ok p.address := by
  simp only [toParticipant, Outcome.bind_eq_ok, Field.uint32_eq_ok, Field.address_eq_ok]
  constructor
  · rintro ⟨_, ⟨hweight, rfl⟩, a, ha, h⟩
    cases Outcome.pure_eq_ok.1 h
    exact ⟨hweight, rfl, ha⟩
  · rintro ⟨hweight, heq, ha⟩
    exact ⟨_, ⟨hweight, heq⟩, _, ha, rfl⟩

/-- Participants are read one by one, if there are some. -/
theorem toParticipants_eq_ok {ms : List MultisigParticipant} {ps : List Participant} :
    toParticipants network ms = .ok ps ↔
      ms ≠ [] ∧ ms.mapM (toParticipant network 0) = .ok ps := by
  rw [toParticipants, Outcome.ite_error_eq_ok,
    mapIndexed_eq_ok fun i m p => by rw [toParticipant_eq_ok, toParticipant_eq_ok]]

/-- Canonical participants are read back in order. -/
theorem toParticipants_ofParticipants {c : Contract} {ps : List MultisigParticipant}
    (hcanonical : CanonicalContract network c) (h : ofParticipants c.participants = .ok ps) :
    toParticipants network ps = .ok c.participants := by
  -- a list without participants is refused, so there have to be some
  have hne : ps ≠ [] := by
    rintro rfl
    exact hcanonical.nonempty (Outcome.mapM_eq_nil h)
  rw [toParticipants, if_neg hne]
  refine mapIndexed_inverse h (fun p hp i w hw => ?_) 0
  obtain ⟨signature, hsignature, hw⟩ := Outcome.bind_eq_ok.1 hw
  cases Outcome.pure_eq_ok.1 hw
  simp only [toParticipant, Field.uint32_of_ne (hcanonical.weights p hp), Outcome.ok_bind,
    Field.address_of_bytesOfAddress _ (hcanonical.addresses p hp) hsignature]
  rfl

/-- **A canonical contract is read back.** -/
theorem MultisigCreate.toContract_ofContract {c : Contract} {m : MultisigCreate}
    (hcanonical : CanonicalContract network c) (h : ofContract c = .ok m) :
    m.toContract network = .ok c := by
  obtain ⟨ps, hps, h⟩ := Outcome.bind_eq_ok.1 h
  cases Outcome.pure_eq_ok.1 h
  simp only [toContract, toParticipants_ofParticipants hcanonical hps, Outcome.ok_bind,
    Field.uint32_of_ne hcanonical.activation, Field.uint32_of_ne hcanonical.admin]
  rfl

/-- **Canonical terms of a contract with a name are read back.** -/
theorem MultisigUpdate.toContract_ofContract {id : Bytes} {c : Contract} {m : MultisigUpdate}
    (hid : id ≠ []) (hcanonical : CanonicalContract network c) (h : ofContract id c = .ok m) :
    m.toContract network = .ok (id, c) := by
  obtain ⟨ps, hps, h⟩ := Outcome.bind_eq_ok.1 h
  cases Outcome.pure_eq_ok.1 h
  simp only [toContract, Field.bytes_of_ne hid, toParticipants_ofParticipants hcanonical hps,
    Outcome.ok_bind, Field.uint32_of_ne hcanonical.activation,
    Field.uint32_of_ne hcanonical.admin]
  rfl

/-! ## Usernames -/

/-- A target is read if neither half is empty. -/
theorem toTarget_eq_ok {i : Nat} {w : UsernameTarget} {t : ChainAddress} :
    toTarget i w = .ok t ↔
      (w.blockchainId ≠ "" ∧ w.address ≠ "") ∧ t = ⟨w.blockchainId, w.address⟩ := by
  simp only [toTarget, Outcome.bind_eq_ok, Field.text_eq_ok, Outcome.pure_eq_ok]
  constructor
  · rintro ⟨_, ⟨hchain, rfl⟩, _, ⟨haddress, rfl⟩, rfl⟩
    exact ⟨⟨hchain, haddress⟩, rfl⟩
  · rintro ⟨⟨hchain, haddress⟩, rfl⟩
    exact ⟨_, ⟨hchain, rfl⟩, _, ⟨haddress, rfl⟩, rfl⟩

/-- **Targets are read exactly if no half of one is empty**, and all of them are. -/
theorem toTargets_eq_ok {ws : List UsernameTarget} {ts : List ChainAddress} :
    toTargets ws = .ok ts ↔ (∀ w ∈ ws, w.blockchainId ≠ "" ∧ w.address ≠ "") ∧
      ts = ws.map fun w => ⟨w.blockchainId, w.address⟩ := by
  rw [toTargets, mapIndexed_eq_ok fun i w t => by rw [toTarget_eq_ok, toTarget_eq_ok]]
  exact Outcome.mapM_eq_ok_map fun w t => toTarget_eq_ok

/-- Written targets are read exactly if they are canonical, and unchanged. -/
theorem toTargets_ofTargets_eq_ok {targets ts : List ChainAddress} :
    toTargets (Schema.ofTargets targets) = .ok ts ↔
      (∀ t ∈ targets, CanonicalTarget t) ∧ ts = targets := by
  rw [toTargets_eq_ok, Schema.ofTargets, List.forall_mem_map, List.map_map]
  have hsame : (fun w : UsernameTarget => (⟨w.blockchainId, w.address⟩ : ChainAddress)) ∘
      (fun t : ChainAddress => (⟨t.chainId, t.address⟩ : UsernameTarget)) = id := rfl
  rw [hsame, List.map_id]
  exact and_congr_left' (forall₂_congr fun t _ => ⟨fun h => ⟨h.1, h.2⟩, fun h => ⟨h.1, h.2⟩⟩)

/-- Canonical targets are read back in order. -/
theorem toTargets_ofTargets {targets : List ChainAddress}
    (hcanonical : ∀ t ∈ targets, CanonicalTarget t) :
    toTargets (Schema.ofTargets targets) = .ok targets :=
  toTargets_ofTargets_eq_ok.2 ⟨hcanonical, rfl⟩

/-- **A registration with canonical targets is read back**; its name is not empty, as it ends in
its namespace. -/
theorem UsernameRegister.toRegistration_ofRegistration {name : String}
    {targets : List ChainAddress} {m : UsernameRegister}
    (hcanonical : ∀ t ∈ targets, CanonicalTarget t) (h : ofRegistration name targets = .ok m) :
    m.toRegistration = .ok (name, targets) := by
  simp only [ofRegistration] at h
  split at h
  · rename_i hsuffix
    cases h
    -- the empty name does not end in the namespace
    have hname : name ≠ "" := by
      rintro rfl
      simp [usernameNamespace] at hsuffix
    simp only [toRegistration, Field.text_of_ne hname, toTargets_ofTargets hcanonical,
      Outcome.ok_bind]
    rfl
  · cases h

/-- **Canonical new targets of a username are read back.** -/
theorem UsernameChangeTargets.toTargets_ofTargets {name : String} {targets : List ChainAddress}
    (hname : name ≠ "") (hcanonical : ∀ t ∈ targets, CanonicalTarget t) :
    (ofTargets name targets).toTargets = .ok (name, targets) := by
  simp only [ofTargets, UsernameChangeTargets.toTargets, Field.text_of_ne hname,
    Schema.toTargets_ofTargets hcanonical, Outcome.ok_bind]
  rfl

end Schema

end Bns

end ChainKit
