import ChainKit.Proofs.Wallet.Calls
import ChainKit.Proofs.Wallet.Document
import Mathlib
/-!
# Wallets keep their books

Whatever a new wallet is told, and whatever its device answers meanwhile,
its identities are those that it created, in the order in which it did, and
no two have the same chain and key. A call that fails leaves the wallet as
it was, a key that a chain has already is refused, and a label is all that
changes of an identity, and of that identity alone. One command does to the
book what `identities_obey` says, and a run of them adds up
(`identities_play`). What is promised at the end of a run is put together
in `Keeps`; since it holds at the end of every run, it holds at all times.
-/

namespace ChainKit

open Keys

namespace Wallet

variable {tries : Nat} {w next : Wallet} {i : Identity} {l : LocalIdentity} {label : Option String}
  {chainId : ChainId} {source : Source} {publicKey : PublicKey}

/-! ## New wallets -/

/-- The wallets that constructors give. -/
inductive Fresh : Wallet → Prop
  | imported (id : WalletId) : Fresh (.imported (.new id))
  | seeded (id : WalletId) (curve : Algorithm) (mnemonic : Mnemonic) :
    Fresh (.seeded (.new id curve mnemonic))
  | ledger (id : WalletId) (device : Device) (patience : Patience) :
    Fresh (.ledger (.new id device patience))

theorem Fresh.made (h : w.Fresh) : w.Made tries := by
  cases h with
  | imported id => exact .imported id
  | seeded id curve mnemonic => exact .seeded id curve mnemonic
  | ledger id device patience => exact .ledger id device patience

theorem Fresh.identities_eq (h : w.Fresh) : w.identities = [] := by
  cases h <;> rfl

/-! ## Identities -/

/-- No two identities of a sound wallet have the same chain and key. -/
theorem Sound.nodup (h : w.Sound tries) : (w.identities.map (·.identity)).Nodup := by
  cases w with
  | imported w => exact Book.distinct_iff.1 h
  | seeded w => exact Book.distinct_iff.1 h.1
  | ledger w => exact Book.distinct_iff.1 h

/-- What is inserted in a book stands last. -/
theorem Book.identities_insert {α : Type} {b c : Book α} {data : α}
    (h : b.insert l data = .ok c) : c.identities = b.identities ++ [l] := by
  obtain ⟨-, rfl⟩ := insert_eq_ok.1 h
  rw [identities, List.map_append]
  rfl

/-- An identity that is created stands last. -/
theorem identities_createIdentity (h : w.createIdentity tries chainId source = .ok (l, next)) :
    next.identities = w.identities ++ [l] := by
  cases w <;> obtain ⟨⟨_, w'⟩, hcreate, heq⟩ := Outcome.map_eq_ok.1 h <;> cases heq
  case imported w =>
    obtain ⟨_, _, _, -, -, -, hbook, rfl⟩ := Imported.createIdentity_eq_ok hcreate
    exact Book.identities_insert hbook
  case seeded w =>
    obtain ⟨_, _, _, -, -, -, hbook, rfl⟩ := Seeded.createIdentity_eq_ok hcreate
    exact Book.identities_insert hbook
  case ledger w =>
    obtain ⟨_, _, _, _, -, -, -, -, hbook, rfl⟩ := Ledger.createIdentity_eq_ok hcreate
    exact Book.identities_insert hbook

/-- **A key of which the chain has an identity already is refused.** -/
theorem createIdentity_of_mem (hkey : w.keyOf tries source = .ok publicKey)
    (hheld : ⟨chainId, publicKey⟩ ∈ w.identities.map (·.identity)) :
    w.createIdentity tries chainId source =
      .error (.duplicateIdentity (Identity.localId ⟨chainId, publicKey⟩)) := by
  obtain ⟨σ, α, k, wrap, s, rfl, hk⟩ := w.exists_kind tries
  rw [hk.keyOf] at hkey
  rw [hk.identities] at hheld
  rw [hk.createIdentity, k.created_of_mem hkey hheld]
  rfl

/-- **Any other key is given an identity.** -/
theorem createIdentity_of_notMem (hkey : w.keyOf tries source = .ok publicKey)
    (hnew : ⟨chainId, publicKey⟩ ∉ w.identities.map (·.identity)) :
    ∃ next, w.createIdentity tries chainId source =
      .ok ({ identity := ⟨chainId, publicKey⟩ }, next) := by
  obtain ⟨σ, α, k, wrap, s, rfl, hk⟩ := w.exists_kind tries
  rw [hk.keyOf] at hkey
  rw [hk.identities] at hnew
  obtain ⟨next, hnext⟩ := k.created_of_notMem hkey hnew
  rw [hk.createIdentity, hnext]
  exact ⟨_, rfl⟩

/-! ## Labels -/

/-- The wallet in which an identity has this label, if it is there. -/
def relabel (i : Identity) (label : Option String) : Wallet → Wallet
  | imported w => imported { w with base := { w.base with book := w.base.book.relabel i label } }
  | seeded w => seeded { w with base := { w.base with book := w.base.book.relabel i label } }
  | ledger w => ledger { w with base := { w.base with book := w.base.book.relabel i label } }

theorem identities_relabel :
    (w.relabel i label).identities = w.identities.map (·.relabel i label) := by
  cases w <;> exact Book.identities_relabel

theorem map_identity_relabel : (w.relabel i label).identities.map (·.identity) =
    w.identities.map (·.identity) := by
  simp [identities_relabel]

theorem signingData_relabel : (w.relabel i label).signingData = w.signingData := by
  cases w with
  | imported w => exact congrArg SigningData.keys Book.map_data_relabel
  | seeded w => exact congrArg (SigningData.seed w.mnemonic w.curve) Book.map_data_relabel
  | ledger w => exact congrArg SigningData.indices Book.map_data_relabel

/-- **A label is put on the identity, if it is held, and on no other.** -/
theorem setIdentityLabel_eq (h : w.Sound tries) (i : Identity) (label : Option String) :
    w.setIdentityLabel i label =
      if i ∈ w.identities.map (·.identity) then .ok (w.relabel i label)
      else .error (.identityNotFound i.localId) := by
  cases w with
  | imported w =>
    rw [setIdentityLabel, Book.setLabel_eq h, apply_ite (Except.map _)]
    rfl
  | seeded w =>
    rw [setIdentityLabel, Book.setLabel_eq h.1, apply_ite (Except.map _)]
    rfl
  | ledger w =>
    rw [setIdentityLabel, Book.setLabel_eq h, apply_ite (Except.map _)]
    rfl

/-- The label that was put on an identity is found. -/
theorem identityLabel_relabel (h : w.Sound tries) (hi : i ∈ w.identities.map (·.identity)) :
    (w.relabel i label).identityLabel i = label := by
  cases w with
  | imported w => exact Book.label?_relabel h hi
  | seeded w => exact Book.label?_relabel h.1 hi
  | ledger w => exact Book.label?_relabel h hi

/-! ## Runs -/

/-- The identities that were created, in order. -/
def created (answers : List (Result (Option LocalIdentity))) : List LocalIdentity :=
  answers.filterMap fun a => a.toOption.join

/-- **Up to labels, a command adds the identity that it creates, and nothing else.** -/
theorem identities_obey (h : w.Sound tries) (c : Command) :
    (w.obey tries c).identities.map (·.identity) =
      w.identities.map (·.identity) ++ (created [w.answer tries c]).map (·.identity) := by
  cases c with
  | createIdentity chainId source =>
    rw [obey, answer]
    cases hcreate : w.createIdentity tries chainId source with
    | error e => exact (List.append_nil _).symm
    | ok p =>
      obtain ⟨l, next⟩ := p
      dsimp only
      rw [identities_createIdentity hcreate, List.map_append]
      rfl
  | setIdentityLabel i label =>
    rw [obey, answer, setIdentityLabel_eq h]
    split_ifs
    · exact map_identity_relabel.trans (List.append_nil _).symm
    · exact (List.append_nil _).symm
  | setLabel label => cases w <;> exact (List.append_nil _).symm
  | connect device => cases w <;> exact (List.append_nil _).symm

/-- **Up to labels, commands add the identities that they create, in order.** -/
theorem identities_play (h : w.Sound tries) (commands : List Command) :
    ((play tries commands).run w).2.identities.map (·.identity) =
      w.identities.map (·.identity) ++
        (created ((play tries commands).run w).1).map (·.identity) := by
  induction commands generalizing w with
  | nil => exact (List.append_nil _).symm
  | cons c commands ih =>
    have hcons : created (w.answer tries c :: ((play tries commands).run (w.obey tries c)).1) =
        created [w.answer tries c] ++ created ((play tries commands).run (w.obey tries c)).1 :=
      List.filterMap_append (l := [w.answer tries c])
    rw [run_play_cons, ih (h.obey c), identities_obey h, hcons, List.map_append, List.append_assoc]

/-- What is promised of a wallet after it gave these answers. -/
structure Keeps (tries : Nat) (w : Wallet) (answers : List (Result (Option LocalIdentity))) :
    Prop where
  /-- No two identities have the same chain and key. -/
  distinct : (w.identities.map (·.identity)).Nodup
  /-- Up to labels, the identities are those that were created, in order. -/
  ordered : w.identities.map (·.identity) = (created answers).map (·.identity)
  /-- A call that fails leaves the wallet as it was. -/
  atomic : ∀ c e after, (perform tries c).on w = (.error e, after) → after = w
  /-- A key of which the chain has an identity already is refused. -/
  duplicate : ∀ chainId source publicKey, w.keyOf tries source = .ok publicKey →
    ⟨chainId, publicKey⟩ ∈ w.identities.map (·.identity) →
      (perform tries (.createIdentity chainId source)).on w =
        (.error (.duplicateIdentity (Identity.localId ⟨chainId, publicKey⟩)), w)
  /-- Any other key is given an identity, which stands last. -/
  new : ∀ chainId source publicKey, w.keyOf tries source = .ok publicKey →
    ⟨chainId, publicKey⟩ ∉ w.identities.map (·.identity) →
      ∃ after, (perform tries (.createIdentity chainId source)).on w =
          (.ok (some { identity := ⟨chainId, publicKey⟩ }), after) ∧
        after.identities = w.identities ++ [{ identity := ⟨chainId, publicKey⟩ }]
  /-- A label is all that changes, of one identity that is held, and it is found from then on. -/
  labelled : ∀ i label a after, (perform tries (.setIdentityLabel i label)).on w = (.ok a, after) →
    i ∈ w.identities.map (·.identity) ∧ after = w.relabel i label ∧
      after.identityLabel i = label ∧
      after.identities = w.identities.map (·.relabel i label) ∧
      after.signingData = w.signingData

/-- A sound wallet keeps the promises that are about the next call. -/
theorem Sound.keeps (h : w.Sound tries) {answers : List (Result (Option LocalIdentity))}
    (hordered : w.identities.map (·.identity) = (created answers).map (·.identity)) :
    w.Keeps tries answers where
  distinct := h.nodup
  ordered := hordered
  atomic c e after hcall := by
    rw [on_perform, Prod.mk.injEq] at hcall
    rw [← hcall.2]
    exact obey_of_answer_error hcall.1
  duplicate chainId source publicKey hkey hheld := by
    rw [on_perform, answer, Wallet.obey, createIdentity_of_mem hkey hheld]
    rfl
  new chainId source publicKey hkey hnew := by
    obtain ⟨next, hnext⟩ := createIdentity_of_notMem hkey hnew
    refine ⟨next, ?_, identities_createIdentity hnext⟩
    rw [on_perform, answer, Wallet.obey, hnext]
    rfl
  labelled i label a after hcall := by
    rw [on_perform, answer, Wallet.obey, setIdentityLabel_eq h, Prod.mk.injEq] at hcall
    by_cases hi : i ∈ w.identities.map (·.identity)
    · simp only [if_pos hi] at hcall
      rw [← hcall.2]
      exact ⟨hi, rfl, identityLabel_relabel h hi, identities_relabel, signingData_relabel⟩
    · simp only [if_neg hi] at hcall
      cases hcall.1

/-- **A new wallet keeps its book, whatever it is told**, whatever its device answers, and however
often keys are tried. -/
theorem keeps_of_fresh {commands : List Command} {answers : List (Result (Option LocalIdentity))}
    (hw : w.Fresh) (hplay : (play tries commands).run w = (answers, next)) :
    next.Keeps tries answers := by
  have hsound : w.Sound tries := hw.made.sound
  have hrun := identities_play hsound commands
  have hnext := hsound.run_play commands
  rw [hplay] at hrun hnext
  rw [hw.identities_eq, List.map_nil, List.nil_append] at hrun
  exact hnext.keeps hrun

/-- A device whose keys are 32 times the index. -/
def repeatingDevice : Device where
  isConnected := true
  publicKey index := .bytes (List.replicate 32 (UInt8.ofNat index.toNat))
  sign _ _ := .silence

/-- Two identities, and a third that the device is silent about. -/
def sampleCommands : List Command :=
  [.createIdentity "chain" (.index 0), .connect { repeatingDevice with publicKey _ := .silence },
    .createIdentity "chain" (.index 2), .connect repeatingDevice,
    .createIdentity "chain" (.index 1)]

/-- The identity of a key that repeats a byte. -/
def sampleHolder (x : UInt8) : LocalIdentity :=
  { identity := ⟨"chain", .ed25519, List.replicate 32 x⟩ }

/-- The wallet with two identities. -/
def sampleHeld : Wallet := ledger
  { base := { id := "w", book := ⟨[⟨sampleHolder 0, 0⟩, ⟨sampleHolder 1, 1⟩]⟩ }
    device := some repeatingDevice }

/-- Their book is kept: the second key is refused from now on, and a label is put on the first
identity alone. -/
theorem keeps_of_fresh_ledger : ∃ answers after,
    (ledger (.new "w" repeatingDevice {})).Fresh ∧
      (play 64 sampleCommands).run (ledger (.new "w" repeatingDevice {})) = (answers, sampleHeld) ∧
      answers[2]? = some (.error (.device .timeout)) ∧ sampleHeld.Keeps 64 answers ∧
      (perform 64 (.createIdentity "chain" (.index 1))).on sampleHeld =
        (.error (.duplicateIdentity (sampleHolder 1).id), sampleHeld) ∧
      (perform 64 (.setIdentityLabel (sampleHolder 0).identity (some "first"))).on sampleHeld =
        (.ok none, after) ∧
      after.identities = [{ sampleHolder 0 with label := some "first" }, sampleHolder 1] ∧
      after.signingData = sampleHeld.signingData := by
  have hfresh : (ledger (.new "w" repeatingDevice {})).Fresh := .ledger "w" repeatingDevice {}
  have hplay : (play 64 sampleCommands).run (ledger (.new "w" repeatingDevice {})) =
      ([.ok (some (sampleHolder 0)), .ok none, .error (.device .timeout), .ok none,
        .ok (some (sampleHolder 1))], sampleHeld) := rfl
  have hkeeps := keeps_of_fresh hfresh hplay
  have hkey : sampleHeld.keyOf 64 (.index 1) = .ok (sampleHolder 1).identity.publicKey := rfl
  have hheld : (sampleHolder 1).identity ∈ sampleHeld.identities.map (·.identity) := by decide
  have hlabel : (perform 64 (.setIdentityLabel (sampleHolder 0).identity (some "first"))).on
      sampleHeld = (.ok none, sampleHeld.relabel (sampleHolder 0).identity (some "first")) := rfl
  obtain ⟨-, -, -, hidentities, hsigning⟩ := hkeeps.labelled _ _ _ _ hlabel
  exact ⟨_, _, hfresh, hplay, rfl, hkeeps, hkeeps.duplicate _ _ _ hkey hheld, hlabel,
    hidentities, hsigning⟩

end Wallet

end ChainKit
