import ChainKit.Proofs.Ethereum.Readable
import ChainKit.Proofs.Quantity
import Mathlib
/-!
# Amounts on Ethereum and their units

The wire of Ethereum holds numbers and takes their units for granted:
ether to 18 digits for what is moved and what gas costs, and for a token
the digits that it is known by. What a request moves is checked to be in
that unit (`Payload.moves_of_ofRequest`). The price of gas is not: it may
stand in any unit, its number is signed as one of ether, and it is read as
ether again (`Codec.units_of_bytesToSign`).
-/

namespace ChainKit

/-- The transaction with its price of gas in this unit, the number unchanged. -/
def Transaction.pricedIn (digits : UInt32) (ticker : Ticker) (t : Transaction) : Transaction :=
  { t with fee := t.fee.map fun fee =>
      { fee with gasPrice := fee.gasPrice.map fun price =>
          { price with fractionalDigits := digits, ticker } } }

namespace Ethereum

variable {o : Options} {a : Amount} {n : Nat}

/-! ## Ether -/

/-- An amount in the unit of ether. -/
structure InEther (a : Amount) : Prop where
  ticker : a.ticker = etherTicker
  digits : a.fractionalDigits = etherDigits

/-- The number of an amount is one of ether if its unit is. -/
theorem etherOf_eq_ok : etherOf a = .ok n ↔ InEther a ∧ quantityOf a = .ok n := by
  simp only [etherOf, Outcome.ite_error_eq_ok, not_not]
  constructor
  · rintro ⟨hticker, hdigits, hquantity⟩
    exact ⟨⟨hticker, hdigits⟩, hquantity⟩
  · rintro ⟨⟨hticker, hdigits⟩, hquantity⟩
    exact ⟨hticker, hdigits, hquantity⟩

/-- What is read as ether is in its unit. -/
theorem inEther_ether (n : Nat) : InEther (ether n) := ⟨rfl, rfl⟩

/-! ## What is moved -/

namespace Payload

/-- What a request moves, as its payload counts it. -/
inductive Moves (o : Options) (p : Payload) : Request → Prop where
  /-- A send of ether moves the value. -/
  | ether {s : Send} (unit : InEther s.amount) (value : quantityOf s.amount = .ok p.value) :
      Moves o p (.send s)
  /-- A send of the token known by its ticker moves what the call of the contract says. -/
  | token {s : Send} {token : Token} {transfer : TokenTransfer}
      (known : o.tokens.find? s.amount.ticker = some token)
      (digits : s.amount.fractionalDigits = token.decimals)
      (contract : Account.ofAddress token.contract = .ok p.recipient)
      (data : p.data = transfer.encode)
      (quantity : quantityOf s.amount = .ok transfer.quantity.toNat) (value : p.value = 0) :
      Moves o p (.send s)
  /-- An offer of ether moves the value. -/
  | offer {offer : SwapOffer} {a : Amount} (alone : offer.amounts = [a]) (unit : InEther a)
      (value : quantityOf a = .ok p.value) : Moves o p (.offerSwap offer)
  /-- A request without amounts moves nothing. -/
  | nothing {r : Request} (amounts : r.amounts = []) (value : p.value = 0) : Moves o p r

variable {p : Payload} {r : Request}

/-- A send of a token moves the token. -/
theorem moves_of_ofTokenSend {s : Send} {token : Token}
    (hknown : o.tokens.find? s.amount.ticker = some token) (h : ofTokenSend token s = .ok p) :
    p.Moves o (.send s) := by
  simp only [ofTokenSend, Outcome.ite_error_eq_ok, Outcome.bind_eq_ok, ofAbi_eq_ok, not_not] at h
  obtain ⟨hdigits, -, quantity, hquantity, transfer, htransfer, contract, hcontract, h⟩ := h
  cases Outcome.pure_eq_ok.1 h
  simp only [TokenTransfer.ofAddress, Outcome.bind_eq_ok] at htransfer
  obtain ⟨recipient, -, word, hword, htransfer⟩ := htransfer
  cases Outcome.pure_eq_ok.1 htransfer
  rw [← Word.toNat_of_ofUint256 hword] at hquantity
  exact .token hknown hdigits hcontract rfl hquantity rfl

/-- **What is moved is in the unit of the wire**: ether in that of ether, a token in its own. -/
theorem moves_of_ofRequest (h : ofRequest o r = .ok p) : p.Moves o r := by
  cases r
  case send s =>
    simp only [ofRequest, ofSend] at h
    split at h
    · simp only [ofEtherSend, Outcome.bind_eq_ok, etherOf_eq_ok] at h
      obtain ⟨recipient, -, value, ⟨hunit, hvalue⟩, h⟩ := h
      cases Outcome.pure_eq_ok.1 h
      exact .ether hunit hvalue
    · split at h
      · cases h
      · rename_i token hknown
        exact moves_of_ofTokenSend hknown h
  case offerSwap offer =>
    simp only [ofRequest, ofOffer, Outcome.ite_error_eq_ok, Outcome.bind_eq_ok, theAmount_eq_ok,
      etherOf_eq_ok] at h
    obtain ⟨contract, -, id, -, amount, hamounts, height, -, -, call, -, value, ⟨hunit, hvalue⟩,
      h⟩ := h
    cases Outcome.pure_eq_ok.1 h
    exact .offer hamounts hunit hvalue
  case claimSwap id preimage =>
    simp only [ofRequest, ofClaim, Outcome.bind_eq_ok] at h
    obtain ⟨contract, -, call, -, h⟩ := h
    cases Outcome.pure_eq_ok.1 h
    exact .nothing rfl rfl
  case abortSwap id =>
    simp only [ofRequest, ofAbort, Outcome.bind_eq_ok] at h
    obtain ⟨contract, -, call, -, h⟩ := h
    cases Outcome.pure_eq_ok.1 h
    exact .nothing rfl rfl
  -- no other request can be written
  all_goals cases h

end Payload

/-! ## What gas costs -/

/-- A message is the same whatever unit the price of gas is in. -/
theorem Message.ofTransaction_pricedIn (o : Options) (t : Transaction) (nonce : Nonce)
    (digits : UInt32) (ticker : Ticker) :
    ofTransaction o (t.pricedIn digits ticker) nonce = ofTransaction o t nonce := by
  obtain ⟨creator, fee, request⟩ := t
  rcases fee with _ | ⟨tokens, _ | price, limit⟩ <;> rfl

namespace Codec

/-- What is signed is the same whatever unit the price of gas is in. -/
theorem bytesToSign_pricedIn (o : Options) (t : Transaction) (nonce : Nonce) (digits : UInt32)
    (ticker : Ticker) :
    bytesToSign o (t.pricedIn digits ticker) nonce = bytesToSign o t nonce := by
  rw [bytesToSign, Message.ofTransaction_pricedIn]
  rfl

/-- **What is moved is signed in the unit of the wire, and what gas costs by its number alone.** The
price of gas may be in any unit: the same bytes are signed, and whatever is read names a price in
ether. -/
theorem units_of_bytesToSign (o : Options) (t : Transaction) (nonce : Nonce) :
    (∀ job, bytesToSign o t nonce = .ok job →
      ∃ (chain : UInt64) (m : Message) (price : Amount),
        Chain.number t.creator.chainId = .ok chain ∧ job.bytes = m.unsigned chain ∧
        m.toPayload.Moves o t.request ∧
        t.fee.bind (·.gasPrice) = some price ∧ quantityOf price = .ok m.gasPrice) ∧
    (∀ digits ticker, bytesToSign o (t.pricedIn digits ticker) nonce = bytesToSign o t nonce) ∧
    ∀ b chainId u, parse o b chainId = .ok u →
      ∃ price, u.transaction.fee.bind (·.gasPrice) = some price ∧ InEther price := by
  refine ⟨fun job h => ?_, bytesToSign_pricedIn o t nonce, fun b chainId u h => ?_⟩
  · obtain ⟨chain, m, hchain, hm, rfl⟩ := bytesToSign_eq_ok.1 h
    obtain ⟨price, hprice, -, -, hquantity, hpayload⟩ := fee_of_ofTransaction hm
    exact ⟨chain, m, price, hchain, rfl, Payload.moves_of_ofRequest hpayload, hprice, hquantity⟩
  · obtain ⟨key, m, -, hfee, -⟩ := message_of_parse h
    exact ⟨ether m.gasPrice, by rw [hfee]; rfl, inEther_ether _⟩

/-- A transfer of a token is signed with the token's own digits, and read with its gas in ether. -/
theorem units_of_bytesToSign_signedTransfer :
    (∃ job, bytesToSign sampleOptions signedTransfer.transaction 26 = .ok job ∧
      ∃ (m : Message), job.bytes = m.unsigned 5777 ∧
        m.toPayload.Moves sampleOptions signedTransfer.transaction.request ∧
        quantityOf ⟨"6000000000", 18, "ETH"⟩ = .ok m.gasPrice) ∧
    ∃ b u, bytesToPost sampleOptions signedTransfer = .ok b ∧
      parse sampleOptions b "ethereum-eip155-5777" = .ok u ∧
      ∃ price, u.transaction.fee.bind (·.gasPrice) = some price ∧ InEther price := by
  obtain ⟨hsigned, -, hread⟩ := units_of_bytesToSign sampleOptions signedTransfer.transaction 26
  have hjob := bytesToSign_sampleSigned .secp256k1 transferKey _ transferParts
    ofRequest_sampleTransfer
  obtain ⟨chain, m, price, hchain, hbytes, hmoves, hprice, hquantity⟩ := hsigned _ hjob
  cases hchain.symm.trans (number_sampleCreator .secp256k1 transferKey)
  cases hprice
  obtain ⟨b, u, hpost, hparse, -⟩ := parse_signedTransfer
  exact ⟨⟨_, hjob, m, hbytes, hmoves, hquantity⟩, b, u, hpost, hparse, hread _ _ _ hparse⟩

/-- Gas at a price in another token is signed as if the price were in ether. The same amount is
refused where it is to be moved. -/
theorem bytesToSign_foreignPrice :
    (∃ job,
      bytesToSign sampleOptions (signedTransfer.transaction.pricedIn 9 "IOV") 26 = .ok job ∧
      bytesToSign sampleOptions signedTransfer.transaction 26 = .ok job) ∧
    (signedTransfer.transaction.pricedIn 9 "IOV").fee.bind (·.gasPrice) =
      some ⟨"6000000000", 9, "IOV"⟩ ∧
    ¬ InEther ⟨"6000000000", 9, "IOV"⟩ ∧
    etherOf ⟨"6000000000", 9, "IOV"⟩ = .error (.invalid (.notEther "IOV")) := by
  have hjob := bytesToSign_sampleSigned .secp256k1 transferKey _ transferParts
    ofRequest_sampleTransfer
  have hforeign := (bytesToSign_pricedIn sampleOptions signedTransfer.transaction 26 9 "IOV").trans
    hjob
  exact ⟨⟨_, hforeign, hjob⟩, rfl, fun h => absurd h.ticker (by decide), by decide +kernel⟩

end Codec

end Ethereum

end ChainKit
