import ChainKit.Ethereum.Codec
import ChainKit.Proofs.Ethereum.Address
import ChainKit.Proofs.Ethereum.Call
import ChainKit.Proofs.Text.Numeral
import ChainKit.Proofs.TextMap
import Mathlib
/-!
# Requests are told by their recipients

A message says by its recipient what it does, so the known contracts have
to differ (`Options.WellFormed`): then a contract is told from the others
and from the account of a send (`toRequest_token`, `toRequest_swap`,
`toRequest_ether`). A canonical request is read back from what it moves
and calls.
-/

namespace ChainKit

open Text

namespace Ethereum

/-- Contracts that can be told apart: each token stands under its own symbol, addresses are
addresses, and no two of them are of one account. -/
structure Options.WellFormed (o : Options) : Prop where
  symbols : ∀ e ∈ o.tokens.entries, e.2.symbol = e.1
  tokens : ∀ e ∈ o.tokens.entries, Account.isAddress e.2.contract = true
  swap : ∀ c ∈ o.swapContract, Account.isAddress c = true
  distinct : (o.tokens.entries.map fun e => Account.ofAddress? e.2.contract).Nodup
  apart : ∀ c ∈ o.swapContract, ∀ e ∈ o.tokens.entries,
    Account.ofAddress? c ≠ Account.ofAddress? e.2.contract

/-- The account of an address is none of the contracts. -/
structure Options.Foreign (o : Options) (a : Address) : Prop where
  swap : ∀ c ∈ o.swapContract, Account.ofAddress? c ≠ Account.ofAddress? a
  tokens : ∀ e ∈ o.tokens.entries, Account.ofAddress? e.2.contract ≠ Account.ofAddress? a

/-- A send that its message keeps: from the creator, to a checksummed address. Only sends of
ether have a memo, and only they could be taken for a call of a contract. -/
structure CanonicalSend (o : Options) (creator : Identity) (s : Send) : Prop where
  sender : Codec.addressOf creator = .ok s.sender
  recipient : ∃ a : Account, s.recipient = a.address
  amount : s.amount.Canonical
  foreign : s.amount.ticker = etherTicker → o.Foreign s.recipient
  memo : s.amount.ticker = etherTicker → s.memo ≠ some ""

/-- An offer that its message keeps. -/
structure CanonicalOffer (o : SwapOffer) : Prop where
  recipient : ∃ a : Account, o.recipient = a.address
  amounts : ∀ a ∈ o.amounts, a.Canonical

/-- A request that its message keeps. -/
def CanonicalRequest (o : Options) (creator : Identity) : Request → Prop
  | .send s => CanonicalSend o creator s
  | .offerSwap offer => CanonicalOffer offer
  | _ => True

/-! ## Amounts -/

theorem quantity_of_quantityOf {a : Amount} {n : Nat} (hcanonical : a.Canonical)
    (h : quantityOf a = .ok n) : Numeral.ofNat n = a.quantity := by
  rw [quantityOf, Numeral.grouped?_of_isDigits (Decimal.isDigits_of_checkQuantity hcanonical)] at h
  cases h
  exact Decimal.ofNat_of_checkQuantity hcanonical

/-- A canonical amount of ether is read back. -/
theorem ether_of_etherOf {a : Amount} {n : Nat} (hcanonical : a.Canonical)
    (h : etherOf a = .ok n) : ether n = a := by
  simp only [etherOf, Outcome.ite_error_eq_ok, not_not] at h
  obtain ⟨hticker, hdigits, h⟩ := h
  rw [ether, quantity_of_quantityOf hcanonical h, ← hticker, ← hdigits]

/-- A quantity is read back from its numeral, whatever its unit. -/
theorem quantityOf_ofNat (n : Nat) (fractionalDigits : UInt32) (ticker : Ticker) :
    quantityOf ⟨Numeral.ofNat n, fractionalDigits, ticker⟩ = .ok n := by
  rw [quantityOf, Numeral.grouped?_ofNat]

/-- So is an amount of ether. -/
theorem etherOf_ether (n : Nat) : etherOf (ether n) = .ok n := by
  rw [etherOf, ether, if_neg (by simp), if_neg (by simp), quantityOf_ofNat]

theorem ofAbi_eq_ok {α : Type} {x : Except AbiError α} {a : α} :
    Result.ofAbi x = .ok a ↔ x = .ok a := by
  cases x <;> simp [Result.ofAbi]

/-! ## Contracts -/

section Contracts

variable {o : Options} {a : Account} {sender : Address} {p : Payload}

theorem ofAddress?_of_isAddress {s : Address} (h : Account.isAddress s = true) :
    ∃ a, Account.ofAddress? s = some a := Option.isSome_iff_exists.1 h

/-- The contract for swaps is told by its account. -/
theorem isSwapContract_iff (hoptions : o.WellFormed) : o.isSwapContract a.address = true ↔
    ∃ c ∈ o.swapContract, Account.ofAddress? c = some a := by
  rw [Options.isSwapContract]
  cases hswap : o.swapContract with
  | none => simp
  | some c =>
    obtain ⟨d, hd⟩ := ofAddress?_of_isAddress (hoptions.swap c hswap)
    simp [Account.sameContract_iff hd (Account.ofAddress?_address a), hd]

/-- The first token whose contract has the account is the only one. -/
theorem tokenOf?_eq_some (hoptions : o.WellFormed) {e : String × Token}
    (he : e ∈ o.tokens.entries) (ha : Account.ofAddress? e.2.contract = some a) :
    o.tokenOf? a.address = some e.2 := by
  have hread := hoptions.tokens
  have hdistinct := hoptions.distinct
  rw [Options.tokenOf?]
  generalize o.tokens.entries = entries at he hread hdistinct
  induction entries with
  | nil => cases he
  | cons d entries ih =>
    rw [List.map_cons, List.nodup_cons] at hdistinct
    obtain ⟨hnew, hrest⟩ := hdistinct
    rw [List.map_cons, List.find?_cons]
    obtain ⟨b, hb⟩ := ofAddress?_of_isAddress (hread d List.mem_cons_self)
    rcases List.mem_cons.1 he with rfl | he
    · rw [(Account.sameContract_iff ha (Account.ofAddress?_address a)).2 rfl]
    · -- another account stands in front
      have hne : b ≠ a := by
        rintro rfl
        exact hnew (List.mem_map.2 ⟨e, he, by rw [ha, hb]⟩)
      have hother : Options.sameContract d.2.contract a.address = false := by
        rw [Bool.eq_false_iff]
        exact fun h => hne ((Account.sameContract_iff hb (Account.ofAddress?_address a)).1 h)
      rw [hother]
      exact ih he (fun f hf => hread f (List.mem_cons_of_mem _ hf)) hrest

/-- No token has the account of a stranger. -/
theorem tokenOf?_eq_none (hoptions : o.WellFormed)
    (h : ∀ e ∈ o.tokens.entries, Account.ofAddress? e.2.contract ≠ some a) :
    o.tokenOf? a.address = none := by
  rw [Options.tokenOf?, List.find?_eq_none]
  intro t ht hsame
  obtain ⟨e, he, rfl⟩ := List.mem_map.1 ht
  obtain ⟨b, hb⟩ := ofAddress?_of_isAddress (hoptions.tokens e he)
  have hab := (Account.sameContract_iff hb (Account.ofAddress?_address a)).1 hsame
  exact h e he (by rw [hb, hab])

/-- What goes to the contract for swaps is read as a call of it. -/
theorem toRequest_swap (hoptions : o.WellFormed) (h : o.swapAccount = .ok p.recipient) :
    p.toRequest o sender = p.toSwapRequest := by
  have hswap : o.isSwapContract p.recipient.address = true := by
    rw [isSwapContract_iff hoptions]
    unfold Options.swapAccount at h
    split at h
    · cases h
    · rename_i c hc
      exact ⟨c, hc, Account.ofAddress_eq_ok.1 (ofAbi_eq_ok.1 h)⟩
  rw [Payload.toRequest, if_pos hswap]

/-- What goes to a token's contract is read as a transfer of the token. -/
theorem toRequest_token (hoptions : o.WellFormed) {e : String × Token}
    (he : e ∈ o.tokens.entries) (h : Account.ofAddress? e.2.contract = some p.recipient) :
    p.toRequest o sender = (p.toTokenSend e.2 sender).map .send := by
  have hswap : ¬ o.isSwapContract p.recipient.address = true := by
    rw [isSwapContract_iff hoptions]
    rintro ⟨c, hc, hsame⟩
    exact hoptions.apart c hc e he (by rw [h, hsame])
  rw [Payload.toRequest, if_neg hswap, tokenOf?_eq_some hoptions he h]

/-- What goes to a stranger is read as a send of ether. -/
theorem toRequest_ether (hoptions : o.WellFormed) (h : o.Foreign p.recipient.address) :
    p.toRequest o sender = (p.toEtherSend sender).map .send := by
  have hswap : ¬ o.isSwapContract p.recipient.address = true := by
    rw [isSwapContract_iff hoptions]
    rintro ⟨c, hc, hsame⟩
    exact h.swap c hc (by rw [hsame, Account.ofAddress?_address])
  have htoken : o.tokenOf? p.recipient.address = none :=
    tokenOf?_eq_none hoptions fun e he => by
      have := h.tokens e he
      rwa [Account.ofAddress?_address] at this
  rw [Payload.toRequest, if_neg hswap, htoken]

end Contracts

/-! ## Requests -/

namespace Payload

variable {o : Options} {creator : Identity} {p : Payload}

/-- A memo that is not empty is read back from its bytes, or its absence. -/
theorem memo_encode {m : Option String} (h : m ≠ some "") :
    memo (Utf8.encode (m.getD "")) = .ok m := by
  cases m with
  | none => rfl
  | some text =>
    have hne : Utf8.encode text ≠ [] := by
      intro hnil
      exact h (congrArg some (Utf8.encode_injective (hnil.trans rfl)))
    rw [Option.getD_some, memo, if_neg hne, Utf8.decode_encode]

/-- A text is read as the memo it is, and the empty one as none. -/
theorem memo_text (text : String) :
    memo (Utf8.encode text) = .ok (if text = "" then none else some text) := by
  by_cases h : text = ""
  · rw [h]
    rfl
  · rw [if_neg h]
    exact memo_encode (fun hempty => h (Option.some.inj hempty))

/-- Data that is a text is read as ether with a memo by whoever takes it for that. -/
theorem toEtherSend_of_text {text : String} (hdata : p.data = Utf8.encode text)
    (sender : Address) :
    p.toEtherSend sender = .ok ⟨sender, p.recipient.address, ether p.value,
      if text = "" then none else some text⟩ := by
  rw [toEtherSend, hdata, memo_text]
  rfl

/-- What is read as a send of ether: the recipient and the value as they stand, and a memo. -/
theorem toEtherSend_eq_ok {sender : Address} {s : Send} : p.toEtherSend sender = .ok s ↔
    memo p.data = .ok s.memo ∧ s = ⟨sender, p.recipient.address, ether p.value, s.memo⟩ := by
  rw [toEtherSend, Outcome.bind_eq_ok]
  constructor
  · rintro ⟨m, hm, h⟩
    cases Outcome.pure_eq_ok.1 h
    exact ⟨hm, rfl⟩
  · rintro ⟨hm, hs⟩
    exact ⟨s.memo, hm, Outcome.pure_eq_ok.2 hs.symm⟩

/-- A send of ether is read back from what it moves. -/
theorem toEtherSend_ofEtherSend {s : Send} (hrecipient : ∃ a : Account, s.recipient = a.address)
    (hamount : s.amount.Canonical) (hmemo : s.memo ≠ some "") (h : ofEtherSend s = .ok p) :
    p.toEtherSend s.sender = .ok s := by
  simp only [ofEtherSend, Outcome.bind_eq_ok, ofAbi_eq_ok] at h
  obtain ⟨recipient, hread, value, hvalue, h⟩ := h
  cases Outcome.pure_eq_ok.1 h
  obtain ⟨a, ha⟩ := hrecipient
  rw [ha, Account.ofAddress_address] at hread
  cases hread
  refine toEtherSend_eq_ok.2 ⟨memo_encode hmemo, ?_⟩
  rw [ether_of_etherOf hamount hvalue, ← ha]

/-- A canonical send of ether to a stranger is read back. -/
theorem toRequest_ofEtherSend {s : Send} (hoptions : o.WellFormed)
    (hcanonical : CanonicalSend o creator s) (hticker : s.amount.ticker = etherTicker)
    (h : ofEtherSend s = .ok p) : p.toRequest o s.sender = .ok (.send s) := by
  have hread := toEtherSend_ofEtherSend hcanonical.recipient hcanonical.amount
    (hcanonical.memo hticker) h
  have hforeign := hcanonical.foreign hticker
  have hrecipient : s.recipient = p.recipient.address :=
    congrArg Send.recipient (toEtherSend_eq_ok.1 hread).2
  rw [hrecipient] at hforeign
  rw [toRequest_ether hoptions hforeign, hread]
  rfl

/-- A send of a known token calls the token's contract. -/
theorem ofSend_of_token {s : Send} {token : Token} {contract : Account} {transfer : TokenTransfer}
    {n : Nat} (hticker : s.amount.ticker ≠ etherTicker)
    (hfind : o.tokens.find? s.amount.ticker = some token)
    (hdigits : s.amount.fractionalDigits = token.decimals) (hmemo : s.memo = none)
    (hquantity : quantityOf s.amount = .ok n)
    (htransfer : TokenTransfer.ofAddress s.recipient n = .ok transfer)
    (hcontract : Account.ofAddress token.contract = .ok contract) :
    ofSend o s = .ok ⟨contract, 0, transfer.encode⟩ := by
  rw [ofSend, if_neg hticker, hfind]
  simp only [ofTokenSend, hdigits, hmemo, hquantity, htransfer, hcontract, Result.ofAbi,
    Outcome.ok_bind, ne_eq, not_true_eq_false, if_false, Option.isSome_none, Bool.false_eq_true]
  rfl

/-- A send of a token goes to the token's contract and is read back under the ticker it was sent
by. -/
theorem toTokenSend_ofTokenSend {s : Send} {token : Token}
    (hrecipient : ∃ a : Account, s.recipient = a.address) (hamount : s.amount.Canonical)
    (h : ofTokenSend token s = .ok p) :
    Account.ofAddress? token.contract = some p.recipient ∧
      p.toTokenSend { token with symbol := s.amount.ticker } s.sender = .ok s := by
  simp only [ofTokenSend, Outcome.ite_error_eq_ok, Outcome.bind_eq_ok, ofAbi_eq_ok, not_not] at h
  obtain ⟨hdigits, hmemo, quantity, hquantity, transfer, htransfer, contract, hcontract, h⟩ := h
  cases Outcome.pure_eq_ok.1 h
  simp only [TokenTransfer.ofAddress, Outcome.bind_eq_ok] at htransfer
  obtain ⟨recipient, hread, word, hword, htransfer⟩ := htransfer
  cases Outcome.pure_eq_ok.1 htransfer
  obtain ⟨a, ha⟩ := hrecipient
  rw [ha, Account.ofAddress_address] at hread
  cases hread
  have hnone : s.memo = none := by simpa using hmemo
  -- the unit is not written: it is that of the token whose contract is called
  have hunit : (⟨Numeral.ofNat quantity, token.decimals, s.amount.ticker⟩ : Amount) = s.amount := by
    rw [quantity_of_quantityOf hamount hquantity, ← hdigits]
  refine ⟨Account.ofAddress_eq_ok.1 hcontract, ?_⟩
  simp only [toTokenSend, TokenTransfer.decode_encode, Result.ofAbi, Outcome.ok_bind,
    Word.toNat_of_ofUint256 hword, hunit, ← ha, ← hnone]
  rfl

/-- A canonical transfer of a known token is read back. -/
theorem toRequest_ofTokenSend {s : Send} {e : String × Token} (hoptions : o.WellFormed)
    (hcanonical : CanonicalSend o creator s) (he : e ∈ o.tokens.entries)
    (hticker : e.1 = s.amount.ticker) (h : ofTokenSend e.2 s = .ok p) :
    p.toRequest o s.sender = .ok (.send s) := by
  obtain ⟨hcontract, hread⟩ :=
    toTokenSend_ofTokenSend hcanonical.recipient hcanonical.amount h
  rw [← hticker, ← hoptions.symbols e he] at hread
  rw [toRequest_token hoptions he hcontract, hread]
  rfl

theorem theSwapId_eq_ok {i : Option SwapId} {id : SwapId} :
    theSwapId i = .ok id ↔ i = some id := by
  cases i <;> simp [theSwapId]

theorem theAmount_eq_ok {as : List Amount} {a : Amount} : theAmount as = .ok a ↔ as = [a] := by
  rcases as with _ | ⟨x, _ | ⟨y, as⟩⟩ <;> simp [theAmount]

theorem theHeight_eq_ok {t : Timeout} {n : UInt64} : theHeight t = .ok n ↔ t = .height n := by
  cases t <;> simp [theHeight]

/-- A canonical offer goes to the contract for swaps and is read back. -/
theorem toSwapRequest_ofOffer {offer : SwapOffer} (hcanonical : CanonicalOffer offer)
    (h : ofOffer o offer = .ok p) :
    o.swapAccount = .ok p.recipient ∧ p.toSwapRequest = .ok (.offerSwap offer) := by
  simp only [ofOffer, Outcome.ite_error_eq_ok, Outcome.bind_eq_ok, ofAbi_eq_ok, theSwapId_eq_ok,
    theAmount_eq_ok, theHeight_eq_ok] at h
  obtain ⟨contract, hcontract, id, hid, amount, hamounts, height, htimeout, hmemo, call, hcall,
    value, hvalue, h⟩ := h
  cases Outcome.pure_eq_ok.1 h
  simp only [SwapCall.ofOffer, Outcome.bind_eq_ok] at hcall
  obtain ⟨idWord, hidWord, recipient, hrecipient, hash, hhash, hcall⟩ := hcall
  cases Outcome.pure_eq_ok.1 hcall
  -- the fields are put in one by one, each as the call says it
  obtain ⟨swapId, target, amounts, digest, timeout, note⟩ := offer
  obtain ⟨a, ha⟩ := hcanonical.recipient
  dsimp only at ha hid hamounts htimeout hmemo hrecipient hhash
  rw [ha, Account.ofAddress_address] at hrecipient
  cases hrecipient
  have hnote : note = none := by simpa using hmemo
  have hether := ether_of_etherOf (hcanonical.amounts amount (by simp [hamounts])) hvalue
  refine ⟨hcontract, ?_⟩
  simp only [toSwapRequest, SwapCall.decode_encode, Result.ofAbi, Outcome.ok_bind,
    Word.data_of_ofField hidWord, Word.data_of_ofField hhash, hether, hid, hamounts, htimeout,
    hnote, ha]
  rfl

/-- A claim goes to the contract for swaps and is read back. -/
theorem toSwapRequest_ofClaim {id : SwapId} {preimage : Bytes}
    (h : ofClaim o id preimage = .ok p) :
    o.swapAccount = .ok p.recipient ∧ p.toSwapRequest = .ok (.claimSwap id preimage) := by
  simp only [ofClaim, Outcome.bind_eq_ok, ofAbi_eq_ok] at h
  obtain ⟨contract, hcontract, call, hcall, h⟩ := h
  cases Outcome.pure_eq_ok.1 h
  simp only [SwapCall.ofClaim, Outcome.bind_eq_ok] at hcall
  obtain ⟨idWord, hidWord, secret, hsecret, hcall⟩ := hcall
  cases Outcome.pure_eq_ok.1 hcall
  refine ⟨hcontract, ?_⟩
  simp only [toSwapRequest, SwapCall.decode_encode, Result.ofAbi, Outcome.ok_bind,
    Word.data_of_ofField hidWord, Word.data_of_ofField hsecret]
  rfl

/-- An abort goes to the contract for swaps and is read back. -/
theorem toSwapRequest_ofAbort {id : SwapId} (h : ofAbort o id = .ok p) :
    o.swapAccount = .ok p.recipient ∧ p.toSwapRequest = .ok (.abortSwap id) := by
  simp only [ofAbort, Outcome.bind_eq_ok, ofAbi_eq_ok] at h
  obtain ⟨contract, hcontract, call, hcall, h⟩ := h
  cases Outcome.pure_eq_ok.1 h
  simp only [SwapCall.ofAbort, Outcome.bind_eq_ok] at hcall
  obtain ⟨idWord, hidWord, hcall⟩ := hcall
  cases Outcome.pure_eq_ok.1 hcall
  refine ⟨hcontract, ?_⟩
  simp only [toSwapRequest, SwapCall.decode_encode, Result.ofAbi, Outcome.ok_bind,
    Word.data_of_ofField hidWord]
  rfl

/-- **A canonical request is read back from what it moves and calls**, of every kind that the
chain knows. -/
theorem toRequest_ofRequest {r : Request} {sender : Address} (hoptions : o.WellFormed)
    (hcanonical : CanonicalRequest o creator r) (hsender : ∀ s, r = .send s → s.sender = sender)
    (h : ofRequest o r = .ok p) : p.toRequest o sender = .ok r := by
  cases r
  case send s =>
    -- ether and tokens are told by the ticker
    rw [← hsender s rfl]
    simp only [ofRequest, ofSend] at h
    split at h
    · rename_i hticker
      exact toRequest_ofEtherSend hoptions hcanonical hticker h
    · split at h
      · cases h
      · rename_i token hfind
        exact toRequest_ofTokenSend hoptions hcanonical (TextMap.mem_of_find? hfind) rfl h
  case offerSwap offer =>
    obtain ⟨hcontract, hread⟩ := toSwapRequest_ofOffer hcanonical h
    exact (toRequest_swap hoptions hcontract).trans hread
  case claimSwap id preimage =>
    obtain ⟨hcontract, hread⟩ := toSwapRequest_ofClaim h
    exact (toRequest_swap hoptions hcontract).trans hread
  case abortSwap id =>
    obtain ⟨hcontract, hread⟩ := toSwapRequest_ofAbort h
    exact (toRequest_swap hoptions hcontract).trans hread
  -- no other request can be written
  all_goals cases h

end Payload

end Ethereum

end ChainKit
