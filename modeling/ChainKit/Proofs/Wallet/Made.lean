import ChainKit.Proofs.Wallet.Book
import ChainKit.Wallet
import Mathlib
/-!
# Wallets as they come about

A wallet is made empty by its constructor and then told to create
identities, to label them and itself; a device may answer otherwise from
some time on. What it refuses leaves it as it was. Whatever it is told, a
wallet keeps its identifier (`id_obey`), its identities stay apart, and
below a seed each has the key at its path (`Made.sound`), as it is found
within the number of `tries` that all commands have.
-/

namespace ChainKit

open Keys

namespace Wallet

variable {tries : Nat}

/-! ## Making a wallet -/

/-- What a wallet is told. -/
inductive Command where
  | createIdentity (chainId : ChainId) (source : Source)
  | setIdentityLabel (i : Identity) (label : Option String)
  | setLabel (label : Option String)
  /-- Answers come from this device now. -/
  | connect (device : Device)

/-- The wallet after a command; one that is refused changes nothing. -/
def obey (tries : Nat) (w : Wallet) : Command → Wallet
  | .createIdentity chainId source =>
    match w.createIdentity tries chainId source with
    | .ok (_, next) => next
    | .error _ => w
  | .setIdentityLabel i label =>
    match w.setIdentityLabel i label with
    | .ok next => next
    | .error _ => w
  | .setLabel label => w.setLabel label
  | .connect device =>
    match w with
    | .ledger w => .ledger (w.connect device)
    | w => w

/-- The wallets that can come about. -/
inductive Made (tries : Nat) : Wallet → Prop
  | imported (id : WalletId) : Made tries (.imported (.new id))
  | seeded (id : WalletId) (curve : Algorithm) (mnemonic : Mnemonic) :
    Made tries (.seeded (.new id curve mnemonic))
  | ledger (id : WalletId) (device : Device) (patience : Patience) :
    Made tries (.ledger (.new id device patience))
  | told {w : Wallet} (h : Made tries w) (c : Command) : Made tries (w.obey tries c)

/-! ## New identities -/

theorem Imported.createIdentity_eq_ok {w next : Imported} {chainId : ChainId} {source : Source}
    {l : LocalIdentity} (h : w.createIdentity chainId source = .ok (l, next)) :
    ∃ data publicKey book, source = .privateKey data ∧
      (PrivateKey.publicKey ⟨.ed25519, data⟩).mapError Error.key = .ok publicKey ∧
      l = { identity := ⟨chainId, publicKey⟩ } ∧ w.base.book.insert l data = .ok book ∧
      next = ⟨{ w.base with book }⟩ := by
  cases source <;> simp only [createIdentity, reduceCtorEq, Outcome.bind_eq_ok] at h
  obtain ⟨publicKey, hkey, book, hbook, h⟩ := h
  cases Outcome.pure_eq_ok.1 h
  exact ⟨_, publicKey, book, rfl, hkey, rfl, hbook, rfl⟩

theorem Seeded.createIdentity_eq_ok {w next : Seeded} {chainId : ChainId} {source : Source}
    {l : LocalIdentity} (h : w.createIdentity tries chainId source = .ok (l, next)) :
    ∃ path publicKey book, source = .path path ∧
      publicKeyAt tries w.curve w.seed path = .ok publicKey ∧
      l = { identity := ⟨chainId, publicKey⟩ } ∧ w.base.book.insert l path = .ok book ∧
      next = { w with base := { w.base with book } } := by
  cases source <;> simp only [createIdentity, reduceCtorEq, Outcome.bind_eq_ok] at h
  obtain ⟨publicKey, hkey, book, hbook, h⟩ := h
  cases Outcome.pure_eq_ok.1 h
  exact ⟨_, publicKey, book, rfl, hkey, rfl, hbook, rfl⟩

theorem Ledger.createIdentity_eq_ok {w next : Ledger} {chainId : ChainId} {source : Source}
    {l : LocalIdentity} (h : w.createIdentity chainId source = .ok (l, next)) :
    ∃ index device publicKey book, source = .index index ∧ w.connectedDevice = .ok device ∧
      keyOfReply (device.publicKey index) = .ok publicKey ∧
      l = { identity := ⟨chainId, publicKey⟩ } ∧ w.base.book.insert l index = .ok book ∧
      next = { w with base := { w.base with book } } := by
  cases source <;> simp only [createIdentity, reduceCtorEq, Outcome.bind_eq_ok] at h
  obtain ⟨device, hdevice, publicKey, hkey, book, hbook, h⟩ := h
  cases Outcome.pure_eq_ok.1 h
  exact ⟨_, device, publicKey, book, rfl, hdevice, hkey, rfl, hbook, rfl⟩

/-! ## What every command keeps -/

theorem id_createIdentity {w next : Wallet} {l : LocalIdentity} {chainId : ChainId}
    {source : Source} (h : w.createIdentity tries chainId source = .ok (l, next)) :
    next.id = w.id := by
  cases w <;> obtain ⟨⟨_, w'⟩, hcreate, heq⟩ := Outcome.map_eq_ok.1 h <;> cases heq
  case imported w =>
    obtain ⟨_, _, _, -, -, -, -, rfl⟩ := Imported.createIdentity_eq_ok hcreate
    rfl
  case seeded w =>
    obtain ⟨_, _, _, -, -, -, -, rfl⟩ := Seeded.createIdentity_eq_ok hcreate
    rfl
  case ledger w =>
    obtain ⟨_, _, _, _, -, -, -, -, -, rfl⟩ := Ledger.createIdentity_eq_ok hcreate
    rfl

@[simp] theorem id_setLabel (label : Option String) (w : Wallet) :
    (w.setLabel label).id = w.id := by
  cases w <;> rfl

/-- **A wallet keeps its identifier.** -/
@[simp] theorem id_obey (w : Wallet) (c : Command) : (w.obey tries c).id = w.id := by
  cases c with
  | createIdentity chainId source =>
    simp only [obey]
    split
    · rename_i hcreate
      exact id_createIdentity hcreate
    · rfl
  | setIdentityLabel i label =>
    simp only [obey]
    split
    · rename_i hlabel
      cases w <;> obtain ⟨_, -, rfl⟩ := Outcome.map_eq_ok.1 hlabel <;> rfl
    · rfl
  | setLabel label => exact id_setLabel label w
  | connect device => cases w <;> rfl

/-- The identities are apart; below a seed each has the key at its path. -/
def Sound (tries : Nat) : Wallet → Prop
  | imported w => w.base.book.Distinct
  | seeded w => w.base.book.Distinct ∧
    ∀ e ∈ w.base.book.entries,
      Seeded.publicKeyAt tries w.curve w.seed e.data = .ok e.holder.identity.publicKey
  | ledger w => w.base.book.Distinct

theorem Sound.createIdentity {w next : Wallet} {l : LocalIdentity} {chainId : ChainId}
    {source : Source} (hw : w.Sound tries)
    (h : w.createIdentity tries chainId source = .ok (l, next)) : next.Sound tries := by
  cases w <;> obtain ⟨⟨_, w'⟩, hcreate, heq⟩ := Outcome.map_eq_ok.1 h <;> cases heq
  case imported w =>
    obtain ⟨_, _, _, -, -, -, hbook, rfl⟩ := Imported.createIdentity_eq_ok hcreate
    exact hw.insert hbook
  case seeded w =>
    obtain ⟨_, _, _, -, hkey, rfl, hbook, rfl⟩ := Seeded.createIdentity_eq_ok hcreate
    refine ⟨hw.1.insert hbook, ?_⟩
    obtain ⟨-, rfl⟩ := Book.insert_eq_ok.1 hbook
    intro e he
    rcases List.mem_append.1 he with he | he
    · exact hw.2 e he
    · cases List.mem_singleton.1 he
      exact hkey
  case ledger w =>
    obtain ⟨_, _, _, _, -, -, -, -, hbook, rfl⟩ := Ledger.createIdentity_eq_ok hcreate
    exact hw.insert hbook

theorem Sound.setIdentityLabel {w next : Wallet} {i : Identity} {label : Option String}
    (hw : w.Sound tries) (h : w.setIdentityLabel i label = .ok next) : next.Sound tries := by
  cases w <;> obtain ⟨book, hbook, rfl⟩ := Outcome.map_eq_ok.1 h
  case imported w => exact hw.setLabel hbook
  case seeded w =>
    refine ⟨hw.1.setLabel hbook, ?_⟩
    -- whose key an entry has, and where, does not depend on labels
    have hpairs := Book.map_setLabel Prod.mk hbook
    intro e he
    have hmem : (e.holder.identity, e.data) ∈ w.base.book.entries.map fun e =>
        (e.holder.identity, e.data) := hpairs ▸ List.mem_map.2 ⟨e, he, rfl⟩
    obtain ⟨d, hd, heq⟩ := List.mem_map.1 hmem
    rw [Prod.mk.injEq] at heq
    have hkey := hw.2 d hd
    rw [heq.1, heq.2] at hkey
    exact hkey
  case ledger w => exact hw.setLabel hbook

theorem Sound.obey {w : Wallet} (hw : w.Sound tries) (c : Command) :
    (w.obey tries c).Sound tries := by
  cases c with
  | createIdentity chainId source =>
    simp only [Wallet.obey]
    split
    · rename_i hcreate
      exact hw.createIdentity hcreate
    · exact hw
  | setIdentityLabel i label =>
    simp only [Wallet.obey]
    split
    · rename_i hlabel
      exact hw.setIdentityLabel hlabel
    · exact hw
  | setLabel label => cases w <;> exact hw
  | connect device => cases w <;> exact hw

/-- **Whatever a wallet was told, its identities are apart and have their keys.** -/
theorem Made.sound {w : Wallet} (h : w.Made tries) : w.Sound tries := by
  induction h with
  | imported id => exact Book.distinct_empty
  | seeded id curve mnemonic => exact ⟨Book.distinct_empty, fun _ he => nomatch he⟩
  | ledger id device patience => exact Book.distinct_empty
  | told _ c ih => exact ih.obey c

end Wallet

end ChainKit
