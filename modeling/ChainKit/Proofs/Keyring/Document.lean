import ChainKit.Keyring
import ChainKit.Proofs.Wallet.Document
import Mathlib
/-!
# Keyrings are read back from their documents

The document of a keyring holds the documents of its wallets as texts, in
their order. Each is read back as its wallet, so the keyring is
(`ofText_text_of_built`), and its document is the same again.
-/

namespace ChainKit

open Keys

namespace Keyring

open Wallet

variable {tries : Nat}

/-- The keyrings that come about by adding wallets. -/
inductive Built (tries : Nat) : Keyring → Prop
  | empty : Built tries {}
  | add {k next : Keyring} {w : Wallet} (h : Built tries k) (hw : w.Made tries)
    (hadd : k.add w = .ok next) : Built tries next

/-- A wallet that was added is new, and stands last. -/
theorem add_eq_ok {k next : Keyring} {w : Wallet} : k.add w = .ok next ↔
    (k.find? w.id).isSome = false ∧ next = ⟨k.wallets ++ [w]⟩ := by
  rw [add, Outcome.ite_error_eq_ok, Bool.not_eq_true, Except.ok.injEq, eq_comm (a := next)]

/-- All wallets of a keyring came about. -/
theorem Built.made {k : Keyring} (h : k.Built tries) : ∀ w ∈ k.wallets, w.Made tries := by
  induction h with
  | empty => exact fun _ hw => nomatch hw
  | add _ hw hadd ih =>
    obtain ⟨-, rfl⟩ := add_eq_ok.1 hadd
    intro v hv
    rcases List.mem_append.1 hv with hv | hv
    · exact ih v hv
    · exact List.mem_singleton.1 hv ▸ hw

/-- The kinds and documents of the wallets are read back. -/
theorem readEntries_toJson (k : Keyring) :
    readEntries k.toJson = some (k.wallets.map fun w => ⟨w.kind, w.text⟩) := by
  have hentries : Json.list? readEntry (.array (k.wallets.map fun w =>
      .record [("implementationId", .str w.kind), ("data", .str w.text)])) =
        some (k.wallets.map fun w => ⟨w.kind, w.text⟩) :=
    Json.list?_map fun w _ => by simp [readEntry, Json.Fields.required, Json.Fields.find?]
  simp [readEntries, toJson, Json.Fields.required, Json.Fields.find?, hentries]

/-- Wallets are read back one by one, and draw no identifier. -/
theorem mapM_ofText {ws : List Wallet} (h : ∀ w ∈ ws, w.Sound tries) :
    (ws.map fun w => (⟨w.kind, w.text⟩ : Entry)).mapM
        (fun e => Wallet.ofText tries e.kind e.data) =
      (pure (ws.map stored) : Drawing (List Wallet)) := by
  rw [List.mapM_map]
  exact Outcome.mapM_eq_pure fun w hw => Wallet.ofText_text (h w hw)

/-- A keyring of sound wallets is read back as these are. -/
theorem ofText_text {k : Keyring} (h : ∀ w ∈ k.wallets, w.Sound tries) (ids : IdSource) :
    ofText tries k.text ids = .ok (⟨k.wallets.map stored⟩, ids) := by
  have hread := readDocument_render k.readEntries_toJson
  have hwallets := mapM_ofText h
  rw [ofText, text, hread, liftM_ok_bind, hwallets, pure_bind]
  rfl

/-- The document of sound wallets is read back, and is that of the keyring that was read. -/
theorem exists_ofText_text {k : Keyring} (h : ∀ w ∈ k.wallets, w.Sound tries) (ids : IdSource) :
    ∃ next, ofText tries k.text ids = .ok (next, ids) ∧
      next.wallets.map content = k.wallets.map content ∧ next.text = k.text := by
  refine ⟨_, ofText_text h ids, ?_, ?_⟩
  · simp
  · simp only [text, toJson, List.map_map, Function.comp_def, kind_stored, text_stored]

/-- **A keyring is read back from its document**, and no identifier is drawn for it: its wallets
come back in their order with identifiers, labels, kinds, identities and what they sign with, and
are written as the same document. -/
theorem ofText_text_of_built {k : Keyring} (h : k.Built tries) (ids : IdSource) :
    ∃ next, ofText tries k.text ids = .ok (next, ids) ∧
      next.wallets.map content = k.wallets.map content ∧ next.text = k.text :=
  exists_ofText_text (fun w hw => (h.made w hw).sound) ids

/-- A device whose keys are 32 times the index. -/
def sampleDevice : Device where
  isConnected := true
  publicKey index := .bytes (List.replicate 32 (UInt8.ofNat index.toNat))
  sign _ _ := .silence

/-- A wallet of an imported key, under a label that its document has to escape. -/
def sampleImported : Wallet :=
  ((imported (.new "w-1")).obey 64
    (.createIdentity "test-chain" (.privateKey (Bytes.zeros 32)))).obey 64
    (.setLabel (some "paper \"backup\"\n"))

/-- A wallet below a seed, with one identity for Ethereum. -/
def sampleSeeded : Wallet :=
  (seeded (.new "w-2" .secp256k1 ⟨Bytes.zeros 16, by decide⟩)).obey 64
    (.createIdentity "ethereum-eip155-1" (.path [⟨0x8000002C⟩, ⟨0x8000003C⟩, ⟨0x80000000⟩, ⟨0⟩]))

/-- A wallet on a device, told to label an identity that it holds. -/
def sampleLedger : Wallet :=
  ((ledger (.new "w-3" sampleDevice {})).obey 64
    (.createIdentity "iov-mainnet" (.index 5))).obey 64
    (.setIdentityLabel ⟨"iov-mainnet", .ed25519, List.replicate 32 5⟩ (some "savings"))

/-- A keyring with a wallet of every kind is read back. -/
theorem ofText_text_of_built_sample :
    Built 64 ⟨[sampleImported, sampleSeeded, sampleLedger]⟩ ∧
      ∃ next, ofText 64 (text ⟨[sampleImported, sampleSeeded, sampleLedger]⟩) ⟨fun _ => "", 0⟩ =
          .ok (next, ⟨fun _ => "", 0⟩) ∧
        next.wallets.map content = [sampleImported, sampleSeeded, sampleLedger].map content ∧
        next.text = text ⟨[sampleImported, sampleSeeded, sampleLedger]⟩ := by
  have himported : sampleImported.id = "w-1" := by simp only [sampleImported, id_obey]; rfl
  have hseeded : sampleSeeded.id = "w-2" := by simp only [sampleSeeded, id_obey]; rfl
  have hledger : sampleLedger.id = "w-3" := by simp only [sampleLedger, id_obey]; rfl
  have hbuilt : Built 64 ⟨[sampleImported, sampleSeeded, sampleLedger]⟩ := by
    refine .add (k := ⟨[sampleImported, sampleSeeded]⟩) (w := sampleLedger)
      (.add (k := ⟨[sampleImported]⟩) (w := sampleSeeded)
        (.add (w := sampleImported) .empty ?_ (add_eq_ok.2 ⟨rfl, rfl⟩)) ?_
        (add_eq_ok.2 ⟨?_, rfl⟩)) ?_ (add_eq_ok.2 ⟨?_, rfl⟩)
    · exact .told (.told (.imported _) _) _
    · exact .told (.seeded _ _ _) _
    · simp [find?, himported, hseeded]
    · exact .told (.told (.ledger _ _ _) _) _
    · simp [find?, himported, hseeded, hledger]
  exact ⟨hbuilt, ofText_text_of_built hbuilt _⟩

end Keyring

end ChainKit
