import ChainKit.Proofs.Keyring.Document
import Mathlib
/-!
# Which keyrings find every wallet

Adding refuses an identifier that the keyring holds, so it keeps
identifiers apart, and makes no difference to those that are not
(`unique_offerAll`). Where they are apart, every wallet is found under its
own (`find?_of_unique`). A keyring that starts empty is of this kind for
ever. Reading a document does not compare identifiers: one that gives two
wallets the same is accepted, and the second of them is out of reach
(`ofText_twins`).
-/

namespace ChainKit

namespace Keyring

open Wallet

/-- The keyring after the offer of a wallet; one that is refused changes nothing. -/
def offer (k : Keyring) (w : Wallet) : Keyring :=
  match k.add w with
  | .ok next => next
  | .error _ => k

/-- The keyring after the offers of wallets. -/
def offerAll (k : Keyring) (ws : List Wallet) : Keyring := ws.foldl offer k

/-- The identifiers of the wallets differ. -/
def Unique (k : Keyring) : Prop := (k.wallets.map (·.id)).Nodup

variable {k : Keyring} {w : Wallet}

/-- An identifier is looked for among those of the wallets. -/
theorem isSome_find? {id : WalletId} : (k.find? id).isSome ↔ id ∈ k.wallets.map (·.id) := by
  simp [find?, List.find?_isSome]

/-- A wallet is refused exactly for an identifier that the keyring holds. -/
theorem add_eq_error {e : Error} :
    k.add w = .error e ↔ w.id ∈ k.wallets.map (·.id) ∧ e = .duplicateWallet w.id := by
  rw [← isSome_find?, add]
  split
  · rename_i hheld
    simp only [Except.error.injEq, hheld, true_and, eq_comm]
  · rename_i hnew
    simp only [reduceCtorEq, hnew, false_and]

/-- A wallet of a new identifier stands last after its offer; any other changes nothing. -/
theorem offer_eq (k : Keyring) (w : Wallet) : k.offer w =
    if w.id ∈ k.wallets.map (·.id) then k else ⟨k.wallets ++ [w]⟩ := by
  unfold offer
  split
  · rename_i next hadd
    obtain ⟨hnew, rfl⟩ := add_eq_ok.1 hadd
    rw [if_neg (by rw [← isSome_find?, hnew]; exact Bool.false_ne_true)]
  · rename_i e hadd
    rw [if_pos (add_eq_error.1 hadd).1]

/-- An offer keeps identifiers apart, and does not mend those that are not. -/
theorem unique_offer : (k.offer w).Unique ↔ k.Unique := by
  rw [offer_eq]
  split
  · rfl
  · rename_i hnew
    rw [Unique, List.map_append, List.nodup_append']
    simpa [Unique] using fun _ => hnew

/-- **Offers neither make nor mend identifiers that stand twice.** -/
theorem unique_offerAll (ws : List Wallet) : (k.offerAll ws).Unique ↔ k.Unique := by
  induction ws generalizing k with
  | nil => rfl
  | cons w ws ih => exact (ih (k := k.offer w)).trans unique_offer

/-- A wallet is found under an identifier that no other has. -/
theorem find?_of_unique (h : k.Unique) (hw : w ∈ k.wallets) : k.find? w.id = some w :=
  (find?_eq_some_of_nodup h).2 ⟨hw, rfl⟩

/-- **Where identifiers are apart, every wallet is found, and they stay apart.** They are in a
keyring that starts empty, whatever is offered to it. From any other keyring `k`, a document's among
them, they are afterwards exactly if they were before. Only a wallet whose identifier is held is
refused, and nothing changes. -/
theorem unique_of_offers (k : Keyring) (ws : List Wallet) (w : Wallet) :
    (offerAll {} ws).Unique ∧ ((k.offerAll ws).Unique ↔ k.Unique) ∧
      (k.Unique → ∀ v ∈ (k.offerAll ws).wallets, (k.offerAll ws).find? v.id = some v) ∧
      (∀ e : Error, k.add w = .error e ↔
        w.id ∈ k.wallets.map (·.id) ∧ e = .duplicateWallet w.id) ∧
      k.offer w = if w.id ∈ k.wallets.map (·.id) then k else ⟨k.wallets ++ [w]⟩ := by
  refine ⟨(unique_offerAll ws).2 List.nodup_nil, unique_offerAll ws, fun h v hv => ?_,
    fun e => add_eq_error, k.offer_eq w⟩
  exact find?_of_unique ((unique_offerAll ws).2 h) hv

/-- Two wallets without keys, under one identifier. -/
def twins : Keyring :=
  ⟨[(imported (.new "w")).setLabel (some "first"),
    (imported (.new "w")).setLabel (some "second")]⟩

/-- The document of two wallets under one identifier is accepted, and the second of them cannot be
found. -/
theorem ofText_twins : ∃ k ids, ofText 64 twins.text ⟨fun _ => "", 0⟩ = .ok (k, ids) ∧
    ¬k.Unique ∧ ∃ w ∈ k.wallets, k.find? w.id ≠ some w := by
  have hsound : ∀ w ∈ twins.wallets, w.Sound 64 := by
    intro w hw
    have hmade : w.Made 64 := by
      rcases List.mem_pair.1 hw with rfl | rfl <;> exact .told (.imported _) (.setLabel _)
    exact hmade.sound
  refine ⟨_, _, ofText_text hsound _, by simp [Unique, twins], _,
    List.mem_map.2 ⟨_, List.mem_cons_of_mem _ List.mem_cons_self, rfl⟩, fun hfound => ?_⟩
  -- the first wallet is found, and its label tells it from the second
  have hlabel : (some "first" : Option String) = some "second" :=
    congrArg (fun found : Option Wallet => found.bind Wallet.label) hfound
  exact absurd hlabel (by decide)

end Keyring

end ChainKit
