import ChainKit.Proofs.Ethereum.RoundTrip
import ChainKit.Proofs.Text.Utf8
import Mathlib
/-!
# What is signed for Ethereum names the message and its meaning

A payload means one request at most. Calls of a known contract are told by
its account, so the contracts have to differ (`Options.Distinct`). A send
of ether may go to a contract as well, with a memo where a call has its
data; but no text begins like a call (`Selector.take_not_mem_known`). So the
requests of one payload differ in the sender of a send at most, who is not
written (`Payload.Tells.sameButSender`), and equal bytes are signed for
equal chains, nonces, prices and limits of gas, and for one request
(`Codec.fields_eq_of_bytesToSign`).
-/

namespace ChainKit

open Text

namespace Ethereum

/-! ## What is spelled in one way -/

/-- No two tokens have contracts of one account, and no token that of the swaps. Contracts that
are no addresses are not asked for. -/
structure Options.Distinct (o : Options) : Prop where
  tokens : ∀ d ∈ o.tokens.entries, ∀ e ∈ o.tokens.entries, ∀ a : Account,
    Account.ofAddress? d.2.contract = some a → Account.ofAddress? e.2.contract = some a → d = e
  swap : ∀ c ∈ o.swapContract, ∀ e ∈ o.tokens.entries, ∀ a : Account,
    Account.ofAddress? c = some a → Account.ofAddress? e.2.contract ≠ some a

/-- Contracts that are read back are distinct. -/
theorem Options.WellFormed.toDistinct {o : Options} (h : o.WellFormed) : o.Distinct where
  tokens _ hd _ he _ ha hb := List.inj_on_of_nodup_map h.distinct hd he (ha.trans hb.symm)
  swap c hc e he _ ha hb := h.apart c hc e he (ha.trans hb.symm)

/-- A send to a checksummed address, of a canonical amount, whose memo is not empty. -/
structure CanonicalUnsignedSend (s : Send) : Prop where
  recipient : ∃ a : Account, s.recipient = a.address
  amount : s.amount.Canonical
  memo : s.memo ≠ some ""

/-- A request whose addresses, amounts and memo have one spelling. -/
def CanonicalUnsignedRequest : Request → Prop
  | .send s => CanonicalUnsignedSend s
  | .offerSwap offer => CanonicalOffer offer
  | _ => True

/-- A transaction whose price of gas and request have one spelling. -/
structure CanonicalUnsigned (t : Transaction) : Prop where
  gasPrice : ∀ price ∈ t.fee.bind (·.gasPrice), price.Canonical
  request : CanonicalUnsignedRequest t.request

/-! ## No text is a call -/

namespace Selector

/-- The methods that are called. -/
def known : List Bytes := [transfer, offer, claim, abort]

/-- **No text begins like a call.** -/
theorem take_not_mem_known {data : Bytes} {text : String} (h : Utf8.decode data = .ok text) :
    data.take 4 ∉ known := by
  obtain ⟨cs, hcs, -⟩ := Outcome.map_eq_ok.1 h
  intro hmem
  rw [← List.take_append_drop 4 data] at hcs
  generalize data.take 4 = front at hmem hcs
  generalize data.drop 4 = arguments at hcs
  simp only [known, List.mem_cons, List.not_mem_nil, or_false] at hmem
  rcases hmem with rfl | rfl | rfl | rfl
  · -- a transfer starts with a byte that starts no character
    obtain ⟨c, rest, next, cs', hchar, -⟩ := Utf8.exists_decodeChar hcs (by simp [transfer])
    cases hchar
  · -- an offer does so behind one byte of ASCII
    obtain ⟨c, rest, next, cs', hchar, hcs'⟩ := Utf8.exists_decodeChar hcs (by simp [offer])
    cases hchar
    obtain ⟨c, rest, next, cs', hchar, -⟩ := Utf8.exists_decodeChar hcs' (by simp)
    cases hchar
  · obtain ⟨c, rest, next, cs', hchar, -⟩ := Utf8.exists_decodeChar hcs (by simp [claim])
    cases hchar
  · obtain ⟨c, rest, next, cs', hchar, hcs'⟩ := Utf8.exists_decodeChar hcs (by simp [abort])
    cases hchar
    obtain ⟨c, rest, next, cs', hchar, -⟩ := Utf8.exists_decodeChar hcs' (by simp)
    cases hchar

/-- Data whose arguments are read begins like a call. -/
theorem take_mem_known {selector data arguments : Bytes} (hknown : selector ∈ known)
    (h : arguments? selector data = some arguments) : data.take 4 ∈ known := by
  unfold arguments? at h
  split at h
  · rename_i hfront
    exact hfront ▸ hknown
  · cases h

end Selector

/-- What is read as a transfer begins like a call. -/
theorem TokenTransfer.take_mem_known {data : Bytes} {t : TokenTransfer}
    (h : decode data = .ok (some t)) : data.take 4 ∈ Selector.known := by
  unfold decode at h
  split at h
  · cases h
  · rename_i arguments harguments
    exact Selector.take_mem_known (by decide) harguments

/-- What is read as a call for swaps begins like a call. -/
theorem SwapCall.take_mem_known {data : Bytes} {call : SwapCall}
    (h : decode data = .ok (some call)) : data.take 4 ∈ Selector.known := by
  unfold decode at h
  split at h
  · rename_i arguments harguments
    exact Selector.take_mem_known (by decide) harguments
  · split at h
    · rename_i arguments harguments
      exact Selector.take_mem_known (by decide) harguments
    · split at h
      · rename_i arguments harguments
        exact Selector.take_mem_known (by decide) harguments
      · cases h

/-! ## What a payload means -/

/-- The request with this sender, if it is a send. -/
def withSender (sender : Address) : Request → Request
  | .send s => .send { s with sender }
  | r => r

/-- Requests that differ in the sender of a send at most. -/
def SameButSender (r r' : Request) : Prop := ∃ sender, r' = withSender sender r

theorem SameButSender.refl (r : Request) : SameButSender r r := by
  cases r with
  | send s => exact ⟨s.sender, rfl⟩
  | _ => exact ⟨"", rfl⟩

namespace Payload

variable {o : Options} {p : Payload} {r r' : Request} {s s' : Send} {sender : Address}

/-- The sender of a send is not written. -/
theorem ofRequest_withSender : ofRequest o (withSender sender r) = ofRequest o r := by
  cases r <;> rfl

/-- The data of a send of ether begins like no call. -/
theorem take_not_mem_of_toEtherSend (h : p.toEtherSend sender = .ok s) :
    p.data.take 4 ∉ Selector.known := by
  have hmemo := (toEtherSend_eq_ok.1 h).1
  unfold memo at hmemo
  split at hmemo
  · rename_i hnil
    rw [hnil]
    decide
  · split at hmemo
    · rename_i text htext
      exact Selector.take_not_mem_known htext
    · cases hmemo

/-- The data of a send of a token begins like a call. -/
theorem take_mem_of_toTokenSend {token : Token} (h : p.toTokenSend token sender = .ok s) :
    p.data.take 4 ∈ Selector.known := by
  obtain ⟨transfer, htransfer, h⟩ := Outcome.bind_eq_ok.1 h
  cases transfer with
  | none => cases h
  | some t => exact TokenTransfer.take_mem_known (ofAbi_eq_ok.1 htransfer)

/-- The data of a request to the contract for swaps begins like a call. -/
theorem take_mem_of_toSwapRequest (h : p.toSwapRequest = .ok r) :
    p.data.take 4 ∈ Selector.known := by
  obtain ⟨call, hcall, h⟩ := Outcome.bind_eq_ok.1 h
  cases call with
  | none => cases h
  | some call => exact SwapCall.take_mem_known (ofAbi_eq_ok.1 hcall)

/-- Sends of ether that are read from one payload differ in their senders at most. -/
theorem sameButSender_of_toEtherSend (h : p.toEtherSend s.sender = .ok s)
    (h' : p.toEtherSend s'.sender = .ok s') : SameButSender (.send s) (.send s') := by
  obtain ⟨hmemo, hs⟩ := toEtherSend_eq_ok.1 h
  obtain ⟨hmemo', hs'⟩ := toEtherSend_eq_ok.1 h'
  refine ⟨s'.sender, ?_⟩
  have hsame := Except.ok.inj (hmemo.symm.trans hmemo')
  rw [withSender, hs, hs', ← hsame]

/-- Sends of a token that are read from one payload differ in their senders at most. -/
theorem sameButSender_of_toTokenSend {token : Token} (h : p.toTokenSend token s.sender = .ok s)
    (h' : p.toTokenSend token s'.sender = .ok s') : SameButSender (.send s) (.send s') := by
  obtain ⟨transfer, htransfer, h⟩ := Outcome.bind_eq_ok.1 h
  obtain ⟨transfer', htransfer', h'⟩ := Outcome.bind_eq_ok.1 h'
  cases htransfer.symm.trans htransfer'
  cases transfer with
  | none => cases h
  | some t =>
    refine ⟨s'.sender, ?_⟩
    have hs := Outcome.pure_eq_ok.1 h
    have hs' := Outcome.pure_eq_ok.1 h'
    rw [withSender, ← hs, ← hs']

/-- What a payload means, which its recipient or its data tells. -/
inductive Tells (o : Options) (p : Payload) : Request → Prop where
  /-- A send of ether, to whomever. -/
  | ether {s : Send} (read : p.toEtherSend s.sender = .ok s) : Tells o p (.send s)
  /-- A send of the token whose contract is called. -/
  | token {s : Send} {e : String × Token} (known : e ∈ o.tokens.entries)
      (contract : Account.ofAddress? e.2.contract = some p.recipient)
      (read : p.toTokenSend { e.2 with symbol := e.1 } s.sender = .ok s) : Tells o p (.send s)
  /-- A call of the contract for swaps. -/
  | swap {r : Request} (contract : o.swapAccount = .ok p.recipient)
      (read : p.toSwapRequest = .ok r) : Tells o p r

/-- **A canonical request is what its payload means.** -/
theorem tells_of_ofRequest (hcanonical : CanonicalUnsignedRequest r) (h : ofRequest o r = .ok p) :
    p.Tells o r := by
  cases r
  case send s =>
    have hsend : CanonicalUnsignedSend s := hcanonical
    simp only [ofRequest, ofSend] at h
    split at h
    · exact .ether (toEtherSend_ofEtherSend hsend.recipient hsend.amount hsend.memo h)
    · split at h
      · cases h
      · rename_i token hfind
        obtain ⟨hcontract, hread⟩ := toTokenSend_ofTokenSend hsend.recipient hsend.amount h
        exact .token (TextMap.mem_of_find? hfind) hcontract hread
  case offerSwap offer =>
    obtain ⟨hcontract, hread⟩ := toSwapRequest_ofOffer hcanonical h
    exact .swap hcontract hread
  case claimSwap id preimage =>
    obtain ⟨hcontract, hread⟩ := toSwapRequest_ofClaim h
    exact .swap hcontract hread
  case abortSwap id =>
    obtain ⟨hcontract, hread⟩ := toSwapRequest_ofAbort h
    exact .swap hcontract hread
  -- no other request can be written
  all_goals cases h

/-- The contract for swaps is no token's. -/
theorem swapAccount_ne (hoptions : o.Distinct) {e : String × Token} {a : Account}
    (he : e ∈ o.tokens.entries) (ha : Account.ofAddress? e.2.contract = some a) :
    o.swapAccount ≠ .ok a := by
  intro h
  unfold Options.swapAccount at h
  split at h
  · cases h
  · rename_i c hc
    exact hoptions.swap c hc e he a (Account.ofAddress_eq_ok.1 (ofAbi_eq_ok.1 h)) ha

/-- **A payload means one request**, whoever sends it. -/
theorem Tells.sameButSender (hoptions : o.Distinct) (h : p.Tells o r) (h' : p.Tells o r') :
    SameButSender r r' := by
  cases h with
  | ether read =>
    have hmemo := take_not_mem_of_toEtherSend read
    cases h' with
    | ether read' => exact sameButSender_of_toEtherSend read read'
    | token known' contract' read' => exact absurd (take_mem_of_toTokenSend read') hmemo
    | swap contract' read' => exact absurd (take_mem_of_toSwapRequest read') hmemo
  | token known contract read =>
    cases h' with
    | ether read' =>
      exact absurd (take_mem_of_toTokenSend read) (take_not_mem_of_toEtherSend read')
    | token known' contract' read' =>
      -- one account is the contract of one token only
      cases hoptions.tokens _ known _ known' _ contract contract'
      exact sameButSender_of_toTokenSend read read'
    | swap contract' read' => exact absurd contract' (swapAccount_ne hoptions known contract)
  | swap contract read =>
    cases h' with
    | ether read' =>
      exact absurd (take_mem_of_toSwapRequest read) (take_not_mem_of_toEtherSend read')
    | token known' contract' read' =>
      exact absurd contract (swapAccount_ne hoptions known' contract')
    | swap contract' read' =>
      cases read.symm.trans read'
      exact SameButSender.refl r

end Payload

namespace Codec

variable {o : Options} {t u : Transaction} {m n : Nonce} {job job' : SigningJob}

/-- **What is signed names the transaction**, its sender and the unit of its price of gas apart:
for canonical transactions equal bytes belong to one chain, one nonce, one price and one limit of
gas, and one request. The bytes are counted in a word of 64 bits. -/
theorem fields_eq_of_bytesToSign (hoptions : o.Distinct) (ht : CanonicalUnsigned t)
    (hu : CanonicalUnsigned u) (hjob : bytesToSign o t m = .ok job)
    (hjob' : bytesToSign o u n = .ok job') (hbytes : job.bytes = job'.bytes)
    (hlength : job.bytes.length < 2 ^ 64) :
    (∃ chain, Chain.number t.creator.chainId = .ok chain ∧
      Chain.number u.creator.chainId = .ok chain) ∧ m = n ∧
      (t.fee.bind (·.gasPrice)).map (·.quantity) = (u.fee.bind (·.gasPrice)).map (·.quantity) ∧
      t.fee.bind (·.gasLimit) = u.fee.bind (·.gasLimit) ∧ SameButSender t.request u.request := by
  obtain ⟨chain, message, hchain, hmessage, rfl⟩ := bytesToSign_eq_ok.1 hjob
  obtain ⟨chain', message', hchain', hmessage', rfl⟩ := bytesToSign_eq_ok.1 hjob'
  obtain ⟨rfl, rfl⟩ := Message.eq_of_unsigned_eq hbytes hlength
  -- both transactions are written as the same message
  obtain ⟨price, hprice, hlimit, hnonce, hquantity, hpayload⟩ := fee_of_ofTransaction hmessage
  obtain ⟨price', hprice', hlimit', hnonce', hquantity', hpayload'⟩ :=
    fee_of_ofTransaction hmessage'
  refine ⟨⟨chain, hchain, hchain'⟩, ?_, ?_, ?_, ?_⟩
  · rw [← (toInt64_of_nonceOf hnonce).1, (toInt64_of_nonceOf hnonce').1]
  · rw [hprice, hprice', Option.map_some, Option.map_some,
      ← quantity_of_quantityOf (ht.gasPrice price hprice) hquantity,
      quantity_of_quantityOf (hu.gasPrice price' hprice') hquantity']
  · rw [hlimit, hlimit']
  · exact (Payload.tells_of_ofRequest ht.request hpayload).sameButSender hoptions
      (Payload.tells_of_ofRequest hu.request hpayload')

/-- The transfer of `signedTransfer`, without a sender and by another key. -/
def unsentTransfer : Transaction :=
  (sampleSigned .ed25519 abortKey (withSender "" (.send sampleTransfer)) abortParts).transaction

/-- Two keys sign the same 109 bytes for the same transfer: these name neither the key nor the
sender, but all that is moved. -/
theorem fields_eq_of_bytesToSign_sampleTransfer :
    sampleOptions.Distinct ∧ CanonicalUnsigned signedTransfer.transaction ∧
      CanonicalUnsigned unsentTransfer ∧
      ∃ job, bytesToSign sampleOptions signedTransfer.transaction 26 = .ok job ∧
        bytesToSign sampleOptions unsentTransfer 26 = .ok job ∧ job.bytes.length = 109 ∧
        (∃ chain, Chain.number signedTransfer.transaction.creator.chainId = .ok chain ∧
          Chain.number unsentTransfer.creator.chainId = .ok chain) ∧ (26 : Nonce) = 26 ∧
        (signedTransfer.transaction.fee.bind (·.gasPrice)).map (·.quantity) =
          (unsentTransfer.fee.bind (·.gasPrice)).map (·.quantity) ∧
        signedTransfer.transaction.fee.bind (·.gasLimit) = unsentTransfer.fee.bind (·.gasLimit) ∧
        SameButSender signedTransfer.transaction.request unsentTransfer.request := by
  have hoptions := wellFormed_sampleOptions.toDistinct
  have hprice : ∀ price ∈ (some (Fee.ofGas ⟨"6000000000", 18, "ETH"⟩ 52669)).bind (·.gasPrice),
      price.Canonical := by
    rintro price ⟨⟩
    decide
  have ht : CanonicalUnsigned signedTransfer.transaction :=
    ⟨hprice, ⟨sampleRecipient, rfl⟩, by decide, by decide⟩
  have hu : CanonicalUnsigned unsentTransfer :=
    ⟨hprice, ⟨sampleRecipient, rfl⟩, by decide, by decide⟩
  have hfirst := bytesToSign_sampleSigned .secp256k1 transferKey _ transferParts
    ofRequest_sampleTransfer
  have hsecond := bytesToSign_sampleSigned .ed25519 abortKey (withSender "" (.send sampleTransfer))
    abortParts (Payload.ofRequest_withSender.trans ofRequest_sampleTransfer)
  have hlength : ((sampleMessage ⟨sampleContract, 0,
      (TokenTransfer.mk sampleRecipient (.ofNat 1500)).encode⟩).unsigned 5777).length = 109 := by
    decide +kernel
  exact ⟨hoptions, ht, hu, _, hfirst, hsecond, hlength,
    fields_eq_of_bytesToSign hoptions ht hu hfirst hsecond rfl (by rw [hlength]; decide)⟩

end Codec

end Ethereum

end ChainKit
