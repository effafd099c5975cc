import ChainKit.Proofs.Bns.RoundTrip
import Mathlib
/-!
# Who spends — accounts that are written and never read

A message names the account that sends, that offers a swap and that pays
the fee. A transaction has its creator in these places and nothing else.
Writing puts the creator's account there (`spendsFrom_of_ofSigned`); reading
does not look (`toSigned_mapSpenders`). So what is read and written again
names the creator wherever it had named somebody
(`spenders_of_toSigned`), be it another account (`toSigned_foreignSend`).
-/

namespace ChainKit

namespace Bns

variable {creator : Identity}

namespace Schema

/-- The account that an action spends from, where a request names none but the creator. -/
def Action.spenders : Action → List Bytes
  | .cashSend m => [m.source]
  | .swapCreate m => [m.source]
  | _ => []

/-- The action with another spender. -/
def Action.mapSpender (f : Bytes → Bytes) : Action → Action
  | .cashSend m => .cashSend { m with source := f m.source }
  | .swapCreate m => .swapCreate { m with source := f m.source }
  | action => action

/-- The account that pays a fee, if the fee carries coins. -/
def payers : Option FeeInfo → List Bytes
  | some { payer, fees := some _ } => [payer]
  | _ => []

/-- The accounts that a message spends from. -/
def Tx.spenders (tx : Tx) : List Bytes := tx.actions.flatMap Action.spenders ++ payers tx.fees

/-- The message spends from the account of an identity, and from no other. -/
def Tx.SpendsFrom (tx : Tx) (i : Identity) : Prop :=
  ∀ a ∈ tx.spenders, a = Account.bytesOfKey i.publicKey.data

/-- The message with other spenders. -/
def Tx.mapSpenders (f : Bytes → Bytes) (tx : Tx) : Tx :=
  { tx with
    fees := tx.fees.map fun i => { i with payer := f i.payer }
    cashSend := tx.cashSend.map fun m => { m with source := f m.source }
    swapCreate := tx.swapCreate.map fun m => { m with source := f m.source } }

/-! ## Reading does not look -/

/-- An action is read whoever spends. -/
theorem Action.toRequest_mapSpender (f : Bytes → Bytes) (creator : Identity) (action : Action) :
    (action.mapSpender f).toRequest creator = action.toRequest creator := by
  cases action <;> rfl

namespace Tx

/-- The actions of a message with other spenders. -/
theorem actions_mapSpenders (f : Bytes → Bytes) (tx : Tx) :
    (tx.mapSpenders f).actions = tx.actions.map (Action.mapSpender f) := by
  have hslots (slots : List (Option Action)) : (slots.filterMap id).map (Action.mapSpender f) =
      (slots.map (Option.map (Action.mapSpender f))).filterMap id := by
    rw [List.map_filterMap, List.filterMap_map]
    rfl
  -- every slot keeps its kind, and all but two of them their message
  rw [actions, actions, hslots]
  simp only [List.map_cons, List.map_nil, Option.map_map, mapSpenders]
  rfl

/-- **A message is read whoever spends**, or refused for the same reason. -/
theorem toSigned_mapSpenders (f : Bytes → Bytes) (tx : Tx) (chainId : ChainId) :
    (tx.mapSpenders f).toSigned chainId = tx.toSigned chainId := by
  have haction (creator : Identity) : ((tx.mapSpenders f).theAction >>= (·.toRequest creator)) =
      (tx.theAction >>= (·.toRequest creator)) := by
    simp only [theAction, actions_mapSpenders]
    rcases tx.actions with _ | ⟨a, _ | ⟨b, rest⟩⟩
    · rfl
    · exact Action.toRequest_mapSpender f creator a
    · simp
  have hfee : (tx.mapSpenders f).toFee = tx.toFee := by
    simp only [toFee, mapSpenders]
    rcases tx.fees with _ | ⟨payer, _ | coin⟩ <;> rfl
  have hsignatures : (tx.mapSpenders f).signatures = tx.signatures := rfl
  simp only [toSigned, hsignatures, hfee, ← bind_assoc, haction]

end Tx

/-! ## Writing names the creator -/

/-- An action spends from the creator's account. -/
theorem Action.spenders_of_ofRequest {r : Request} {action : Action}
    (h : ofRequest creator r = .ok action) :
    ∀ a ∈ action.spenders, a = Account.bytesOfKey creator.publicKey.data := by
  cases r <;> simp only [ofRequest, Outcome.map_eq_ok, Except.ok.injEq] at h
  case send s =>
    obtain ⟨m, hm, rfl⟩ := h
    simp only [CashSend.ofSend, Outcome.bind_eq_ok, Outcome.ite_error_eq_ok] at hm
    obtain ⟨source, hsource, _, -, -, _, -, _, -, hm⟩ := hm
    cases Outcome.pure_eq_ok.1 hm
    exact List.forall_mem_singleton.2 (Account.data_of_ofIdentity hsource)
  case offerSwap o =>
    obtain ⟨m, hm, rfl⟩ := h
    simp only [SwapCreate.ofOffer, Outcome.bind_eq_ok, Outcome.ite_error_eq_ok] at hm
    obtain ⟨-, source, hsource, _, -, _, -, _, -, hm⟩ := hm
    cases Outcome.pure_eq_ok.1 hm
    exact List.forall_mem_singleton.2 (Account.data_of_ofIdentity hsource)
  -- no other action has a spender
  case updateUsernameTargets | returnEscrow | vote | tally =>
    subst h
    exact List.forall_mem_nil _
  all_goals
    obtain ⟨m, -, rfl⟩ := h
    exact List.forall_mem_nil _

/-- The creator pays the fee. -/
theorem payers_of_feeOf {fee : Option Fee} {fees : Option FeeInfo}
    (h : Tx.feeOf creator fee = .ok fees) :
    ∀ a ∈ payers fees, a = Account.bytesOfKey creator.publicKey.data := by
  unfold Tx.feeOf at h
  split at h
  · simp only [Outcome.bind_eq_ok] at h
    obtain ⟨payer, hpayer, coin, -, h⟩ := h
    cases Outcome.pure_eq_ok.1 h
    exact List.forall_mem_singleton.2 (Account.data_of_ofIdentity hpayer)
  · cases h
    exact List.forall_mem_nil _

/-- **A message that is written spends from the creator's account alone.** -/
theorem Tx.spendsFrom_of_ofSigned {t : SignedTransaction} {tx : Tx} (h : ofSigned t = .ok tx) :
    tx.SpendsFrom t.transaction.creator := by
  obtain ⟨action, fees, ss, haction, hfees, -, rfl⟩ := ofSigned_eq_ok h
  have hactions := theAction_eq_ok.1 (theAction_ofAction action fees ss)
  intro a ha
  rw [spenders, hactions, List.flatMap_singleton] at ha
  rcases List.mem_append.1 ha with ha | ha
  · exact Action.spenders_of_ofRequest haction a ha
  · exact payers_of_feeOf hfees a ha

/-! ## What is read and written again -/

/-- An action that is read and written again has a spender where it had one. -/
theorem Action.length_spenders {r : Request} {action action' : Action}
    (h : action.toRequest creator = .ok r) (h' : ofRequest creator r = .ok action') :
    action'.spenders.length = action.spenders.length := by
  cases action <;> obtain ⟨_, -, rfl⟩ := Outcome.map_eq_ok.1 h
  -- the kinds that are written without a check
  case usernameChangeTargets | escrowReturn | proposalVote | proposalTally =>
    cases h'
    rfl
  all_goals
    obtain ⟨_, -, rfl⟩ := Outcome.map_eq_ok.1 h'
    rfl

/-- A fee that is read and written again has a payer where it had one. -/
theorem length_payers {tx : Tx} {fee : Option Fee} {fees : Option FeeInfo}
    (h : tx.toFee = .ok fee) (h' : Tx.feeOf creator fee = .ok fees) :
    (payers fees).length = (payers tx.fees).length := by
  unfold Tx.toFee at h
  split at h
  · rename_i payer coin hfees
    obtain ⟨a, -, rfl⟩ := Outcome.map_eq_ok.1 h
    simp only [Tx.feeOf, Fee.ofTokens, Outcome.bind_eq_ok] at h'
    obtain ⟨account, -, coin', -, h'⟩ := h'
    cases Outcome.pure_eq_ok.1 h'
    rw [hfees]
    rfl
  · rename_i hnone
    have hpayers : payers tx.fees = [] := by
      unfold payers
      split
      · rename_i hfees
        exact absurd hfees (hnone _ _)
      · rfl
    cases h
    cases h'
    rw [hpayers]
    rfl

/-- A message that is read and written again has as many spenders. -/
theorem Tx.length_spenders {tx tx' : Tx} {chainId : ChainId} {t : SignedTransaction}
    (h : tx.toSigned chainId = .ok t) (h' : ofSigned t = .ok tx') :
    tx'.spenders.length = tx.spenders.length := by
  obtain ⟨-, -, ⟨action, haction, hrequest⟩, hfee⟩ := toSigned_eq_ok.1 h
  obtain ⟨action', fees, ss, haction', hfees, -, rfl⟩ := ofSigned_eq_ok h'
  rw [spenders, spenders, theAction_eq_ok.1 haction,
    theAction_eq_ok.1 (theAction_ofAction action' fees ss), List.flatMap_singleton,
    List.flatMap_singleton, List.length_append, List.length_append,
    Action.length_spenders hrequest haction', length_payers hfee hfees]

/-- **Who spends is lost when a message is read.** The transaction is the same for all spenders, and
written again it names the creator in the place of each. Only a message that was written for its
signer is known to spend from the creator's account. -/
theorem Tx.spenders_of_toSigned {tx : Tx} {chainId : ChainId} {t : SignedTransaction}
    (h : tx.toSigned chainId = .ok t) :
    (∀ f, (tx.mapSpenders f).toSigned chainId = .ok t) ∧
    (∀ tx', ofSigned t = .ok tx' → tx'.spenders =
      List.replicate tx.spenders.length (Account.bytesOfKey t.transaction.creator.publicKey.data)) ∧
    ∀ u, u.primary.publicKey = u.transaction.creator.publicKey → ofSigned u = .ok tx →
      tx.SpendsFrom t.transaction.creator := by
  refine ⟨fun f => ?_, fun tx' htx' => ?_, fun u hsigner hu => ?_⟩
  · rw [toSigned_mapSpenders, h]
  · exact List.eq_replicate_iff.2 ⟨length_spenders h htx', spendsFrom_of_ofSigned htx'⟩
  · -- the creator that is read is the one that signed
    obtain ⟨-, hcreator⟩ := signatures_of_toSigned hu h
    have hkey : t.transaction.creator.publicKey = u.transaction.creator.publicKey := by
      rw [hcreator, hsigner]
    intro a ha
    rw [hkey]
    exact spendsFrom_of_ofSigned hu a ha

end Schema

namespace Codec

/-- A send of five tokens for a fee of one, both from an account, whoever signs. -/
def sendMessage (account : Bytes) : Schema.Tx where
  fees := some ⟨account, some ⟨1, 0, "IOV"⟩⟩
  signatures := [⟨11, some ⟨some [7, 7, 7]⟩, some ⟨some [1, 2]⟩⟩]
  cashSend := some
    { metadata := Schema.Metadata.current
      source := account
      destination := List.replicate 20 1
      amount := some ⟨5, 0, "IOV"⟩ }

/-- The send of the account that signs. -/
def sampleSend : SignedTransaction where
  transaction :=
    { creator := ⟨"iov-lovenet", .ed25519, [7, 7, 7]⟩
      fee := some (.ofTokens ⟨"1000000000", 9, "IOV"⟩)
      request := .send
        { sender := "tiov1ss3g0zlvurg862w5te0k0h6scuxq5y7lurlfdl"
          recipient := sampleElector 1
          amount := ⟨"5000000000", 9, "IOV"⟩
          memo := none } }
  primary := ⟨11, ⟨.ed25519, [7, 7, 7]⟩, [1, 2]⟩
  others := []

/-- The send is read, whoever it is from. -/
theorem toSigned_sendMessage (account : Bytes) :
    (sendMessage account).toSigned "iov-lovenet" = .ok sampleSend := by
  have hread : (sendMessage []).toSigned "iov-lovenet" = .ok sampleSend := by decide +kernel
  have hsame : sendMessage account = (sendMessage []).mapSpenders fun _ => account := rfl
  rw [hsame, Schema.Tx.toSigned_mapSpenders, hread]

/-- The send is read from the message that it is written as, and from one that names another account
twice. -/
theorem spenders_of_toSigned_sampleSend :
    ∃ account, (sendMessage account).toSigned "iov-lovenet" = .ok sampleSend ∧
      Schema.Tx.ofSigned sampleSend = .ok (sendMessage account) ∧
      (sendMessage account).SpendsFrom sampleSend.transaction.creator ∧
      (sendMessage account).spenders.length = 2 ∧
      ((sendMessage account).mapSpenders fun _ => List.replicate 20 9).toSigned "iov-lovenet" =
        .ok sampleSend := by
  have hread := toSigned_sendMessage (Account.bytesOfKey [7, 7, 7])
  have hwritten : Schema.Tx.ofSigned sampleSend =
      .ok (sendMessage (Account.bytesOfKey [7, 7, 7])) := by decide +kernel
  obtain ⟨hmap, -, hspends⟩ := Schema.Tx.spenders_of_toSigned hread
  exact ⟨_, hread, hwritten, hspends sampleSend rfl hwritten, rfl, hmap _⟩

/-- A message that sends from another account, and lets it pay, is read as a send of the signer. -/
theorem toSigned_foreignSend :
    (sendMessage (List.replicate 20 9)).toSigned "iov-lovenet" = .ok sampleSend ∧
      parse (Wire.Message.encode (sendMessage (List.replicate 20 9))) "iov-lovenet" =
        .ok sampleSend ∧
      ¬(sendMessage (List.replicate 20 9)).SpendsFrom sampleSend.transaction.creator := by
  have hread := toSigned_sendMessage (List.replicate 20 9)
  have hlength : (Wire.Message.encode (sendMessage (List.replicate 20 9))).length <
      Wire.wordSize := by decide +kernel
  have hdecode : Wire.Message.decode? (Wire.Message.encode (sendMessage (List.replicate 20 9))) =
      some (sendMessage (List.replicate 20 9)) := Wire.decode?_encode (by decide) hlength
  have hother : List.replicate 20 9 ≠ Account.bytesOfKey [7, 7, 7] := by decide +kernel
  exact ⟨hread, parse_eq_ok.2 ⟨_, hdecode, hread⟩,
    fun h => hother (h (List.replicate 20 9) List.mem_cons_self)⟩

end Codec

end Bns

end ChainKit
