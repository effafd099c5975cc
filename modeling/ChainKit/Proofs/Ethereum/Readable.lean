import ChainKit.Proofs.Ethereum.Unambiguous
import Mathlib
/-!
# What is posted is read, unless ether is sent to a known contract

Writing chooses the payload by the request, reading the request by the
recipient of the payload. The choices agree for transfers and calls, whose
recipient is a known contract, and for ether that is sent to a stranger. A
send of ether to a known contract is read as a call of it, but has a memo
for its data, and no memo is a call: it is posted and never read
(`toRequest_ne_ok`). So what is posted is read exactly if it is no such
send, and then as a request of the same kind (`Codec.readable_iff_foreign`).
-/

namespace ChainKit

open Text

namespace Ethereum

variable {o : Options} {p : Payload} {sender : Address}

/-! ## Payloads -/

/-- Contracts are told from an address by its account only. -/
theorem Options.Foreign.congr {a b : Address} (h : Account.ofAddress? a = Account.ofAddress? b)
    (hforeign : o.Foreign a) : o.Foreign b where
  swap c hc := h ▸ hforeign.swap c hc
  tokens e he := h ▸ hforeign.tokens e he

namespace Payload

/-- A send of ether goes to the recipient's account, and is read by whoever takes it for one. -/
theorem exists_toEtherSend {s : Send} (sender : Address) (h : ofEtherSend s = .ok p) :
    Account.ofAddress? s.recipient = some p.recipient ∧ ∃ s', p.toEtherSend sender = .ok s' := by
  simp only [ofEtherSend, Outcome.bind_eq_ok, ofAbi_eq_ok] at h
  obtain ⟨recipient, hread, value, -, h⟩ := h
  cases Outcome.pure_eq_ok.1 h
  exact ⟨Account.ofAddress_eq_ok.1 hread, _, toEtherSend_of_text rfl sender⟩

/-- A send of a token goes to the token's contract, and is read as a transfer. -/
theorem exists_toTokenSend {s : Send} {token : Token} (sender : Address)
    (h : ofTokenSend token s = .ok p) :
    Account.ofAddress? token.contract = some p.recipient ∧
      ∃ s', p.toTokenSend token sender = .ok s' := by
  simp only [ofTokenSend, Outcome.ite_error_eq_ok, Outcome.bind_eq_ok, ofAbi_eq_ok] at h
  obtain ⟨-, -, quantity, -, transfer, -, contract, hcontract, h⟩ := h
  cases Outcome.pure_eq_ok.1 h
  refine ⟨Account.ofAddress_eq_ok.1 hcontract, ?_⟩
  simp only [toTokenSend, TokenTransfer.decode_encode, Result.ofAbi, Outcome.ok_bind]
  exact ⟨_, rfl⟩

/-- An offer goes to the contract for swaps, and is read as an offer. -/
theorem exists_toSwapRequest {offer : SwapOffer} (h : ofOffer o offer = .ok p) :
    o.swapAccount = .ok p.recipient ∧ ∃ offer', p.toSwapRequest = .ok (.offerSwap offer') := by
  simp only [ofOffer, Outcome.ite_error_eq_ok, Outcome.bind_eq_ok, ofAbi_eq_ok] at h
  obtain ⟨contract, hcontract, id, -, amount, -, height, -, -, call, hcall, value, -, h⟩ := h
  cases Outcome.pure_eq_ok.1 h
  simp only [SwapCall.ofOffer, Outcome.bind_eq_ok] at hcall
  obtain ⟨idWord, -, recipient, -, hash, -, hcall⟩ := hcall
  cases Outcome.pure_eq_ok.1 hcall
  refine ⟨hcontract, ?_⟩
  simp only [toSwapRequest, SwapCall.decode_encode, Result.ofAbi, Outcome.ok_bind]
  exact ⟨_, rfl⟩

/-- **Ether that is sent to a known contract is never read**: it is taken for a call, and its memo
is none. -/
theorem toRequest_ne_ok {s : Send} (hoptions : o.WellFormed) (hknown : ¬ o.Foreign s.recipient)
    (h : ofEtherSend s = .ok p) (r : Request) : p.toRequest o sender ≠ .ok r := by
  obtain ⟨hrecipient, s', hs'⟩ := exists_toEtherSend sender h
  have hdata := take_not_mem_of_toEtherSend hs'
  intro hr
  -- the request would be a call, or else no contract has the recipient's account
  unfold toRequest at hr
  split at hr
  · exact hdata (take_mem_of_toSwapRequest hr)
  · rename_i hswap
    split at hr
    · obtain ⟨s'', hs'', -⟩ := Outcome.map_eq_ok.1 hr
      exact hdata (take_mem_of_toTokenSend hs'')
    · rename_i htoken
      refine hknown ⟨fun c hc hsame => hswap ?_, fun e he hsame => ?_⟩
      · exact (isSwapContract_iff hoptions).2 ⟨c, hc, hsame.trans hrecipient⟩
      · rw [tokenOf?_eq_some hoptions he (hsame.trans hrecipient)] at htoken
        cases htoken

/-- Every other request is read as one of its kind. -/
theorem exists_toRequest {r : Request} (sender : Address) (hoptions : o.WellFormed)
    (hforeign : ∀ s, r = .send s → s.amount.ticker = etherTicker → o.Foreign s.recipient)
    (h : ofRequest o r = .ok p) : ∃ r', p.toRequest o sender = .ok r' ∧ r'.name = r.name := by
  cases r
  case send s =>
    simp only [ofRequest, ofSend] at h
    split at h
    · rename_i hticker
      obtain ⟨hrecipient, s', hs'⟩ := exists_toEtherSend sender h
      have hstranger := (hforeign s rfl hticker).congr
        (hrecipient.trans (Account.ofAddress?_address _).symm)
      exact ⟨.send s', by rw [toRequest_ether hoptions hstranger, hs']; rfl, rfl⟩
    · split at h
      · cases h
      · rename_i token hfind
        obtain ⟨hcontract, s', hs'⟩ := exists_toTokenSend sender h
        have hmem := TextMap.mem_of_find? hfind
        exact ⟨.send s', by rw [toRequest_token hoptions hmem hcontract, hs']; rfl, rfl⟩
  case offerSwap offer =>
    obtain ⟨hcontract, offer', hread⟩ := exists_toSwapRequest h
    exact ⟨_, (toRequest_swap hoptions hcontract).trans hread, rfl⟩
  case claimSwap id preimage =>
    obtain ⟨hcontract, hread⟩ := toSwapRequest_ofClaim h
    exact ⟨_, (toRequest_swap hoptions hcontract).trans hread, rfl⟩
  case abortSwap id =>
    obtain ⟨hcontract, hread⟩ := toSwapRequest_ofAbort h
    exact ⟨_, (toRequest_swap hoptions hcontract).trans hread, rfl⟩
  -- no other request can be written
  all_goals cases h

/-- A request is read, as one of its kind, exactly if it sends no ether to a known contract. -/
theorem toRequest_iff_foreign {r : Request} (sender : Address) (hoptions : o.WellFormed)
    (h : ofRequest o r = .ok p) :
    ((∃ r', p.toRequest o sender = .ok r') ↔
      ∀ s, r = .send s → s.amount.ticker = etherTicker → o.Foreign s.recipient) ∧
      ∀ r', p.toRequest o sender = .ok r' → r'.name = r.name := by
  have hread {r' : Request} (hr' : p.toRequest o sender = .ok r') :
      ∀ s, r = .send s → s.amount.ticker = etherTicker → o.Foreign s.recipient := by
    rintro s rfl hticker
    simp only [ofRequest, ofSend, if_pos hticker] at h
    by_contra hknown
    exact toRequest_ne_ok hoptions hknown h r' hr'
  refine ⟨⟨?_, fun hforeign => ?_⟩, fun r' hr' => ?_⟩
  · rintro ⟨r', hr'⟩
    exact hread hr'
  · obtain ⟨r', hr', -⟩ := exists_toRequest sender hoptions hforeign h
    exact ⟨r', hr'⟩
  · obtain ⟨r'', hr'', hname⟩ := exists_toRequest sender hoptions (hread hr') h
    cases hr'.symm.trans hr''
    exact hname

end Payload

/-! ## Transactions -/

/-- The signature recovers to a key over what is signed, whoever's that is, and the number that
carries the chain and the parity is a word. -/
structure Recoverable (o : Options) (t : SignedTransaction) (chain : UInt64)
    (parts : SignatureParts) (job : SigningJob) (key : Secp256k1.Point) : Prop where
  number : Chain.number t.transaction.creator.chainId = .ok chain
  spelled : SignatureParts.ofBytes t.primary.data = .ok parts
  signed : Codec.bytesToSign o t.transaction t.primary.nonce = .ok job
  recovers : recoverKey (Keccak256.digest job.bytes) parts = .ok key
  word : 35 + 2 * chain.toNat + parts.recovery.toNat < 2 ^ 64

namespace Codec

variable {t : SignedTransaction} {chain : UInt64} {parts : SignatureParts} {job : SigningJob}
  {key : Secp256k1.Point} {b : Bytes}

/-- What is posted is read by reading its payload: all else in it is read back. -/
theorem parse_posted (hrecoverable : Recoverable o t chain parts job key)
    (hpost : bytesToPost o t = .ok b) (hlength : b.length < 2 ^ 64) :
    ∃ (p : Payload) (f : Request → SignedTransaction),
      Payload.ofRequest o t.transaction.request = .ok p ∧
        parse o b t.transaction.creator.chainId =
          (p.toRequest o (Account.ofPoint key).address).map f ∧
        ∀ r, (f r).transaction.request = r := by
  obtain ⟨chain', m, hchain', hm, hjob⟩ := bytesToSign_eq_ok.1 hrecoverable.signed
  cases hrecoverable.number.symm.trans hchain'
  obtain ⟨v, hread, hsplit⟩ := ofBytes_bytesToPost hrecoverable.number hm hrecoverable.spelled
    hrecoverable.word hpost hlength
  obtain ⟨price, -, -, hnonce, -, hpayload⟩ := fee_of_ofTransaction hm
  obtain ⟨-, hpositive⟩ := toInt64_of_nonceOf hnonce
  -- the same bytes are signed again, so the same key is recovered
  have hkey : recoverKey (Keccak256.digest (m.unsigned chain))
      ⟨parts.r, parts.s, parts.recovery⟩ = .ok key := by
    have := hrecoverable.recovers
    rwa [← hjob] at this
  refine ⟨m.toPayload, fun request => {
    transaction := {
      creator := ⟨t.transaction.creator.chainId, ⟨.secp256k1, key.uncompressed⟩⟩
      fee := some (.ofGas (ether m.gasPrice) m.gasLimit)
      request }
    primary := ⟨m.nonce.toInt64, ⟨.secp256k1, key.uncompressed⟩, parts.toBytes⟩
    others := [] }, hpayload, ?_, fun _ => rfl⟩
  simp only [parse, hrecoverable.number, hread, hsplit, Outcome.ok_bind, ne_eq,
    not_true_eq_false, if_false, hkey, hpositive, if_true]
  cases m.toPayload.toRequest o (Account.ofPoint key).address <;> rfl

/-- **What is posted is read exactly if it sends no ether to a known contract**, and what is read
is a request of the same kind. The bytes are counted in a word of 64 bits. -/
theorem readable_iff_foreign (hoptions : o.WellFormed)
    (hrecoverable : Recoverable o t chain parts job key) (hpost : bytesToPost o t = .ok b)
    (hlength : b.length < 2 ^ 64) :
    ((∃ u, parse o b t.transaction.creator.chainId = .ok u) ↔
      ∀ s, t.transaction.request = .send s → s.amount.ticker = etherTicker →
        o.Foreign s.recipient) ∧
      ∀ u, parse o b t.transaction.creator.chainId = .ok u →
        u.transaction.request.name = t.transaction.request.name := by
  obtain ⟨p, f, hpayload, hparse, hf⟩ := parse_posted hrecoverable hpost hlength
  obtain ⟨hforeign, hname⟩ :=
    Payload.toRequest_iff_foreign (Account.ofPoint key).address hoptions hpayload
  rw [hparse, Outcome.exists_map_eq_ok]
  refine ⟨hforeign, fun u hu => ?_⟩
  obtain ⟨r, hr, rfl⟩ := Outcome.map_eq_ok.1 hu
  rw [hf, hname r hr]

/-! ## Ether for a token's contract -/

/-- A request of a key is recoverable if its signature recovers to any key. -/
theorem recoverable_sampleSigned (algorithm : Algorithm) (key : Secp256k1.Point)
    (request : Request) (parts : SignatureParts) {payload : Payload} {signer : Secp256k1.Point}
    (hpayload : Payload.ofRequest sampleOptions request = .ok payload)
    (hbit : ¬ 1 < parts.recovery)
    (hrecovers : recoverKey (Keccak256.digest ((sampleMessage payload).unsigned 5777)) parts =
      .ok signer) :
    Recoverable sampleOptions (sampleSigned algorithm key request parts) 5777 parts
      ⟨(sampleMessage payload).unsigned 5777, .keccak256⟩ signer := by
  refine ⟨number_sampleCreator algorithm key, SignatureParts.ofBytes_toBytes hbit,
    bytesToSign_sampleSigned algorithm key request parts hpayload, hrecovers, ?_⟩
  have hword := parts.recovery.toNat_lt
  show 35 + 2 * 5777 + parts.recovery.toNat < 2 ^ 64
  omega

/-- The transfer of a token is recoverable and posted, and read as a send. -/
theorem readable_iff_foreign_sampleTransfer :
    sampleOptions.WellFormed ∧
      ∃ job, Recoverable sampleOptions signedTransfer 5777 transferParts job transferKey ∧
      ∃ b, bytesToPost sampleOptions signedTransfer = .ok b ∧ b.length = 173 ∧
      ∃ u, parse sampleOptions b signedTransfer.transaction.creator.chainId = .ok u ∧
        u.transaction.request.name = signedTransfer.transaction.request.name := by
  have hrecoverable : Recoverable sampleOptions signedTransfer 5777 transferParts _ transferKey :=
    recoverable_sampleSigned _ _ _ _ ofRequest_sampleTransfer (by decide)
      (by rw [Keccak256.digest_eq_gridDigest]; decide +kernel)
  obtain ⟨b, hpost, hlength⟩ : ∃ b, bytesToPost sampleOptions signedTransfer = .ok b ∧
      b.length = 173 :=
    bytesToPost_sampleSigned _ _ _ _ ofRequest_sampleTransfer (by decide) (by decide +kernel)
  obtain ⟨hread, hname⟩ := readable_iff_foreign wellFormed_sampleOptions hrecoverable hpost
    (by rw [hlength]; decide)
  have hticker : sampleTransfer.amount.ticker ≠ etherTicker := by decide
  obtain ⟨u, hu⟩ := hread.2 fun s hs => by
    cases hs
    exact fun h => absurd h hticker
  exact ⟨wellFormed_sampleOptions, _, hrecoverable, b, hpost, hlength, u, hu, hname u hu⟩

/-- The transfer is posted, and read as what it is. -/
theorem parse_signedTransfer :
    ∃ b u, bytesToPost sampleOptions signedTransfer = .ok b ∧
      parse sampleOptions b "ethereum-eip155-5777" = .ok u ∧
      u.transaction.request = .send sampleTransfer := by
  have hrecoverable : Recoverable sampleOptions signedTransfer 5777 transferParts _ transferKey :=
    recoverable_sampleSigned _ _ _ _ ofRequest_sampleTransfer (by decide)
      (by rw [Keccak256.digest_eq_gridDigest]; decide +kernel)
  obtain ⟨b, hpost, hlength⟩ : ∃ b, bytesToPost sampleOptions signedTransfer = .ok b ∧
      b.length = 173 :=
    bytesToPost_sampleSigned _ _ _ _ ofRequest_sampleTransfer (by decide) (by decide +kernel)
  obtain ⟨p, f, hpayload, hparse, hf⟩ := parse_posted hrecoverable hpost (by rw [hlength]; decide)
  have hread : p.toRequest sampleOptions (Account.ofPoint transferKey).address =
      .ok (.send sampleTransfer) := by
    refine Payload.toRequest_ofRequest wellFormed_sampleOptions canonicalSend_sampleTransfer
      (fun s hs => ?_) hpayload
    cases hs
    rfl
  exact ⟨b, f (.send sampleTransfer), hpost, hparse.trans (by rw [hread]; rfl), hf _⟩

/-- Ether for the token's contract, from the account of the key. -/
def sampleGift : Send where
  sender := (Account.ofPoint transferKey).address
  recipient := sampleContract.address
  amount := ⟨"1500", 18, "ETH"⟩
  memo := none

/-- The gift with some signature. -/
def signedGift : SignedTransaction :=
  sampleSigned .secp256k1 transferKey (.send sampleGift) transferParts

/-- The gift moves ether and calls nothing. -/
theorem ofRequest_sampleGift :
    Payload.ofRequest sampleOptions (.send sampleGift) = .ok ⟨sampleContract, 1500, []⟩ := by
  have hvalue : etherOf sampleGift.amount = .ok 1500 := rfl
  rw [Payload.ofRequest, Payload.ofSend, if_pos (by decide), Payload.ofEtherSend, hvalue,
    sampleGift, Account.ofAddress_address]
  rfl

/-- Ether for a token's contract is posted but never read. -/
theorem parse_signedGift_ne_ok :
    sampleOptions.WellFormed ∧
      ∃ job signer, Recoverable sampleOptions signedGift 5777 transferParts job signer ∧
      ∃ b, bytesToPost sampleOptions signedGift = .ok b ∧ b.length = 106 ∧
      ∀ u, parse sampleOptions b signedGift.transaction.creator.chainId ≠ .ok u := by
  obtain ⟨signer, hsigner⟩ : ∃ signer, recoverKey (Keccak256.digest
      ((sampleMessage ⟨sampleContract, 1500, []⟩).unsigned 5777)) transferParts = .ok signer := by
    have hsome : (recoverKey (Keccak256.digest
        ((sampleMessage ⟨sampleContract, 1500, []⟩).unsigned 5777))
          transferParts).toOption.isSome = true := by
      rw [Keccak256.digest_eq_gridDigest]
      decide +kernel
    obtain ⟨signer, hsigner⟩ := Option.isSome_iff_exists.1 hsome
    exact ⟨signer, Outcome.toOption_eq_some.1 hsigner⟩
  have hrecoverable : Recoverable sampleOptions signedGift 5777 transferParts _ signer :=
    recoverable_sampleSigned _ _ _ _ ofRequest_sampleGift (by decide) hsigner
  obtain ⟨b, hpost, hlength⟩ : ∃ b, bytesToPost sampleOptions signedGift = .ok b ∧
      b.length = 106 :=
    bytesToPost_sampleSigned _ _ _ _ ofRequest_sampleGift (by decide) (by decide +kernel)
  refine ⟨wellFormed_sampleOptions, _, signer, hrecoverable, b, hpost, hlength, fun u hu => ?_⟩
  obtain ⟨p, f, hpayload, hparse, -⟩ := parse_posted hrecoverable hpost (by rw [hlength]; decide)
  rw [hparse] at hu
  obtain ⟨r, hr, -⟩ := Outcome.map_eq_ok.1 hu
  -- the token stands in the way
  have hknown : ¬ sampleOptions.Foreign sampleGift.recipient := fun hforeign =>
    hforeign.tokens ("ASH", sampleToken) (by simp [entries_sampleOptions]) rfl
  exact Payload.toRequest_ne_ok wellFormed_sampleOptions hknown hpayload r hr

end Codec

end Ethereum

end ChainKit
