import ChainKit.Bns.Codec
import ChainKit.Bns.State
import ChainKit.Proofs.Bns.Accounts
import ChainKit.Proofs.Text.Utf8
import Mathlib
/-!
# Targets are read from the chain and from messages

The targets of a username are read in two places: from the token that the
chain keeps, and from the messages that register the username or change
its targets. Both want a chain in every target, but only the messages want
an account there as well. So a token is read wherever the messages are,
with the same targets, and beyond that exactly where a target names no
account (`Username.toRequest_iff_ofToken`).
-/

namespace ChainKit

open Text

namespace Bns

/-- What a target on the wire names: an account on some chain. -/
def Schema.UsernameTarget.account (w : UsernameTarget) : ChainAddress := ⟨w.blockchainId, w.address⟩

open Schema

namespace Username

variable {key : Bytes} {token : UsernameToken} {chainId : ChainId} {creator : Identity}
  {ws : List UsernameTarget} {name : String} {ts : List ChainAddress} {r : Request}

/-! ### Tokens -/

/-- A target of a token is read if it names a chain. -/
theorem target_eq_ok {i : Nat} {w : UsernameTarget} {t : ChainAddress} :
    target i w = .ok t ↔ w.blockchainId ≠ "" ∧ t = w.account := by
  simp only [target, Outcome.bind_eq_ok, Field.text_eq_ok, Outcome.pure_eq_ok]
  constructor
  · rintro ⟨_, ⟨hchain, rfl⟩, rfl⟩
    exact ⟨hchain, rfl⟩
  · rintro ⟨hchain, rfl⟩
    exact ⟨_, ⟨hchain, rfl⟩, rfl⟩

/-- The targets of a token are read exactly if each names a chain, and all of them are. -/
theorem mapIndexed_target_eq_ok : mapIndexed target 0 ws = .ok ts ↔
    (∀ w ∈ ws, w.blockchainId ≠ "") ∧ ts = ws.map (·.account) := by
  rw [mapIndexed_eq_ok fun i w t => by rw [target_eq_ok, target_eq_ok]]
  exact Outcome.mapM_eq_ok_map fun w t => target_eq_ok

/-- **A token is read exactly if its key is text, its owner an account and each target names a
chain.** -/
theorem ofToken_eq_ok {n : Username} : ofToken key token chainId = .ok n ↔
    Utf8.decode key = .ok n.id ∧ Account.address (.ofChain chainId) token.owner = .ok n.owner ∧
      (∀ w ∈ token.targets, w.blockchainId ≠ "") ∧ n.targets = token.targets.map (·.account) := by
  simp only [ofToken, Outcome.bind_eq_ok, Outcome.mapError_eq_ok, Field.bytes_eq_ok,
    mapIndexed_target_eq_ok, Outcome.pure_eq_ok]
  constructor
  · rintro ⟨_, hkey, _, ⟨-, rfl⟩, _, ⟨htargets, rfl⟩, _, howner, rfl⟩
    exact ⟨hkey, howner, htargets, rfl⟩
  · rintro ⟨hkey, howner, htargets, hall⟩
    have hne : token.owner ≠ [] := by
      rintro hnil
      have hlength := (Account.address_eq_ok.1 howner).1
      rw [hnil] at hlength
      cases hlength
    exact ⟨_, hkey, _, ⟨hne, rfl⟩, _, ⟨htargets, rfl⟩, _, howner, by rw [← hall]⟩

/-- A token under a text that an account owns is read if each target names a chain. -/
theorem exists_ofToken_iff {id : String} (hkey : Utf8.decode key = .ok id)
    (howner : token.owner.length = 20) :
    (∃ n, ofToken key token chainId = .ok n) ↔ ∀ w ∈ token.targets, w.blockchainId ≠ "" := by
  obtain ⟨owner, hread⟩ := Account.exists_address (.ofChain chainId) howner
  constructor
  · rintro ⟨n, hn⟩
    exact (ofToken_eq_ok.1 hn).2.2.1
  · intro htargets
    exact ⟨⟨id, owner, _⟩, ofToken_eq_ok.2 ⟨hkey, hread, htargets, rfl⟩⟩

/-! ### Messages -/

/-- A registration is read exactly if it names a username and no half of a target is empty. -/
theorem toRequest_register_eq_ok {m : UsernameRegister} :
    (Action.usernameRegister m).toRequest creator = .ok r ↔ m.username ≠ "" ∧
      (∀ w ∈ m.targets, w.blockchainId ≠ "" ∧ w.address ≠ "") ∧
      r = .registerUsername m.username (m.targets.map (·.account)) := by
  simp only [Action.toRequest, UsernameRegister.toRegistration, Outcome.map_eq_ok,
    Outcome.bind_eq_ok, Field.text_eq_ok, toTargets_eq_ok, Outcome.pure_eq_ok]
  constructor
  · rintro ⟨_, ⟨_, ⟨hname, rfl⟩, _, ⟨htargets, rfl⟩, rfl⟩, rfl⟩
    exact ⟨hname, htargets, rfl⟩
  · rintro ⟨hname, htargets, rfl⟩
    exact ⟨_, ⟨_, ⟨hname, rfl⟩, _, ⟨htargets, rfl⟩, rfl⟩, rfl⟩

/-- New targets are read exactly if they are those of a username and no half of one is empty. -/
theorem toRequest_changeTargets_eq_ok {m : UsernameChangeTargets} :
    (Action.usernameChangeTargets m).toRequest creator = .ok r ↔ m.username ≠ "" ∧
      (∀ w ∈ m.newTargets, w.blockchainId ≠ "" ∧ w.address ≠ "") ∧
      r = .updateUsernameTargets m.username (m.newTargets.map (·.account)) := by
  simp only [Action.toRequest, UsernameChangeTargets.toTargets, Outcome.map_eq_ok,
    Outcome.bind_eq_ok, Field.text_eq_ok, toTargets_eq_ok, Outcome.pure_eq_ok]
  constructor
  · rintro ⟨_, ⟨_, ⟨hname, rfl⟩, _, ⟨htargets, rfl⟩, rfl⟩, rfl⟩
    exact ⟨hname, htargets, rfl⟩
  · rintro ⟨hname, htargets, rfl⟩
    exact ⟨_, ⟨_, ⟨hname, rfl⟩, _, ⟨htargets, rfl⟩, rfl⟩, rfl⟩

/-! ### Both -/

/-- The messages' own check passes exactly if the token is read and each target of it names an
account. -/
theorem forall_target_iff_ofToken {of : List ChainAddress → Request} {id : String}
    (hkey : Utf8.decode key = .ok id) (howner : token.owner.length = 20) :
    ((∀ w ∈ token.targets, w.blockchainId ≠ "" ∧ w.address ≠ "") ∧
        r = of (token.targets.map (·.account))) ↔
      ∃ n, ofToken key token chainId = .ok n ∧ (∀ t ∈ n.targets, t.address ≠ "") ∧
        r = of n.targets := by
  constructor
  · rintro ⟨htargets, hr⟩
    have hread : ∃ n, ofToken key token chainId = .ok n :=
      (exists_ofToken_iff hkey howner).2 fun w hw => (htargets w hw).1
    obtain ⟨n, hn⟩ := hread
    have hall := (ofToken_eq_ok.1 hn).2.2.2
    refine ⟨n, hn, ?_, by rw [hall, hr]⟩
    rw [hall, List.forall_mem_map]
    exact fun w hw => (htargets w hw).2
  · rintro ⟨n, hn, haccounts, hr⟩
    obtain ⟨-, -, hchains, hall⟩ := ofToken_eq_ok.1 hn
    rw [hall, List.forall_mem_map] at haccounts
    exact ⟨fun w hw => ⟨hchains w hw, haccounts w hw⟩, by rw [← hall, hr]⟩

/-- **The messages read the targets of a token exactly if the token is read and each of its targets
names an account**, and then they read the same. A token is read even where a target names no
account, if only it names a chain. -/
theorem toRequest_iff_ofToken {id : String} (token : UsernameToken)
    (registration : UsernameRegister) (change : UsernameChangeTargets) (chainId : ChainId)
    (creator : Identity) (hkey : Utf8.decode key = .ok id)
    (howner : token.owner.length = 20) (hregistered : registration.username ≠ "")
    (hregistration : registration.targets = token.targets)
    (hchanged : change.username ≠ "") (hchange : change.newTargets = token.targets) :
    ((∃ n, ofToken key token chainId = .ok n) ↔ ∀ w ∈ token.targets, w.blockchainId ≠ "") ∧
    (∀ n, ofToken key token chainId = .ok n →
      n.targets = token.targets.map (·.account) ∧ ∀ t ∈ n.targets, t.chainId ≠ "") ∧
    (∀ r, (Action.usernameRegister registration).toRequest creator = .ok r ↔
      ∃ n, ofToken key token chainId = .ok n ∧ (∀ t ∈ n.targets, t.address ≠ "") ∧
        r = .registerUsername registration.username n.targets) ∧
    ∀ r, (Action.usernameChangeTargets change).toRequest creator = .ok r ↔
      ∃ n, ofToken key token chainId = .ok n ∧ (∀ t ∈ n.targets, t.address ≠ "") ∧
        r = .updateUsernameTargets change.username n.targets := by
  refine ⟨exists_ofToken_iff hkey howner, fun n hn => ?_, fun r => ?_, fun r => ?_⟩
  · obtain ⟨-, -, hchains, hall⟩ := ofToken_eq_ok.1 hn
    refine ⟨hall, ?_⟩
    rw [hall, List.forall_mem_map]
    exact hchains
  · rw [toRequest_register_eq_ok, hregistration, and_iff_right hregistered]
    exact forall_target_iff_ofToken hkey howner
  · rw [toRequest_changeTargets_eq_ok, hchange, and_iff_right hchanged]
    exact forall_target_iff_ofToken hkey howner

/-- A token of one target. -/
def tokenOf (account : Address) : UsernameToken where
  targets := [⟨"ethereum-eip155-1", account⟩]
  owner := List.replicate 20 1

/-- The registration of a username with that target. -/
def registrationOf (account : Address) : UsernameRegister where
  username := "alice*iov"
  targets := (tokenOf account).targets

/-- The change of its targets to that one. -/
def changeOf (account : Address) : UsernameChangeTargets where
  username := "alice*iov"
  newTargets := (tokenOf account).targets

/-- The creator of both messages. -/
def sampleRegistrant : Identity := ⟨"iov-lovenet", .ed25519, [7, 7, 7]⟩

/-- A target with an account is read from all three. -/
theorem toRequest_iff_ofToken_tokenOf :
    ∃ n, ofToken (Utf8.encode "alice*iov") (tokenOf "0xab") "iov-lovenet" = .ok n ∧
      n.targets = [⟨"ethereum-eip155-1", "0xab"⟩] ∧
      (Action.usernameRegister (registrationOf "0xab")).toRequest sampleRegistrant =
        .ok (.registerUsername "alice*iov" n.targets) ∧
      (Action.usernameChangeTargets (changeOf "0xab")).toRequest sampleRegistrant =
        .ok (.updateUsernameTargets "alice*iov" n.targets) := by
  obtain ⟨hread, hall, hregister, hchange⟩ := toRequest_iff_ofToken (tokenOf "0xab")
    (registrationOf "0xab") (changeOf "0xab") "iov-lovenet" sampleRegistrant
    (Utf8.decode_encode "alice*iov") (by decide) (by decide) rfl (by decide) rfl
  obtain ⟨n, hn⟩ := hread.2 (by decide)
  have htargets : n.targets = [⟨"ethereum-eip155-1", "0xab"⟩] := (hall n hn).1
  have haccounts : ∀ t ∈ n.targets, t.address ≠ "" := by
    rw [htargets]
    decide
  exact ⟨n, hn, htargets, (hregister _).2 ⟨n, hn, haccounts, rfl⟩,
    (hchange _).2 ⟨n, hn, haccounts, rfl⟩⟩

/-- A target without an account is read from the token, and from neither message. -/
theorem ofToken_tokenOf_empty :
    (∃ n, ofToken (Utf8.encode "alice*iov") (tokenOf "") "iov-lovenet" = .ok n ∧
      n.targets = [⟨"ethereum-eip155-1", ""⟩]) ∧
    (Action.usernameRegister (registrationOf "")).toRequest sampleRegistrant =
      .error (.missing "targets.$0.address") ∧
    (Action.usernameChangeTargets (changeOf "")).toRequest sampleRegistrant =
      .error (.missing "targets.$0.address") := by
  have hread : ∃ n, ofToken (Utf8.encode "alice*iov") (tokenOf "") "iov-lovenet" = .ok n :=
    (exists_ofToken_iff (Utf8.decode_encode "alice*iov") (by decide)).2 (by decide)
  obtain ⟨n, hn⟩ := hread
  exact ⟨⟨n, hn, (ofToken_eq_ok.1 hn).2.2.2⟩, rfl, rfl⟩

end Username

end Bns

end ChainKit
