import ChainKit.Proofs.Commitment
import Mathlib
/-!
# Quantities are signed by their numbers

An amount keeps its quantity as it was written, but what is signed holds
its number. The name service reads every run of digits, zeros in front of
it or not; Ethereum reads a plus sign and underscores as well. So what is
signed does not show whether a quantity was canonical: it is the same with
every quantity written plainly (`plain_of_bytesToSign`).
-/

namespace ChainKit

open Text

/-! ## Plain amounts -/

namespace Amount

variable {a : Amount} {n : Nat}

/-- The amount with its quantity written plainly, if that is a number. -/
def plain (a : Amount) : Amount :=
  match Numeral.grouped? a.quantity.toList with
  | some n => { a with quantity := Numeral.ofNat n }
  | none => a

theorem plain_eq (h : Numeral.grouped? a.quantity.toList = some n) :
    a.plain = { a with quantity := Numeral.ofNat n } := by
  rw [plain, h]

/-- The unit stays. -/
@[simp] theorem ticker_plain (a : Amount) : a.plain.ticker = a.ticker := by
  unfold plain
  split <;> rfl

@[simp] theorem fractionalDigits_plain (a : Amount) :
    a.plain.fractionalDigits = a.fractionalDigits := by
  unfold plain
  split <;> rfl

/-- So does the number. -/
@[simp] theorem grouped?_plain (a : Amount) :
    Numeral.grouped? a.plain.quantity.toList = Numeral.grouped? a.quantity.toList := by
  cases h : Numeral.grouped? a.quantity.toList with
  | none => rw [plain, h, h]
  | some n => rw [plain_eq h, Numeral.grouped?_ofNat]

/-- A plain amount is canonical, and a canonical one is plain. -/
theorem canonical_iff_plain (h : Numeral.grouped? a.quantity.toList = some n) :
    a.plain.Canonical ∧ (a.Canonical ↔ a.plain = a) := by
  have hplain : a.plain.Canonical := by
    rw [plain_eq h]
    exact Decimal.checkQuantity_ofNat n
  refine ⟨hplain, fun hcanonical => ?_, fun heq => heq ▸ hplain⟩
  have hvalue := Numeral.grouped?_of_isDigits (Decimal.isDigits_of_checkQuantity hcanonical)
  rw [plain_eq hvalue, Decimal.ofNat_of_checkQuantity hcanonical]

end Amount

/-- The amounts that a request names. -/
def Request.amounts : Request → List Amount
  | .send s => [s.amount]
  | .offerSwap offer => offer.amounts
  | .createEscrow e => e.amounts
  | .releaseEscrow _ amounts => amounts
  | _ => []

/-- The request with its amounts written plainly. -/
def Request.plain : Request → Request
  | .send s => .send { s with amount := s.amount.plain }
  | .offerSwap offer => .offerSwap { offer with amounts := offer.amounts.map Amount.plain }
  | .createEscrow e => .createEscrow { e with amounts := e.amounts.map Amount.plain }
  | .releaseEscrow id amounts => .releaseEscrow id (amounts.map Amount.plain)
  | r => r

/-- The fee with its amounts written plainly. -/
def Fee.plain (fee : Fee) : Fee :=
  { fee with tokens := fee.tokens.map Amount.plain, gasPrice := fee.gasPrice.map Amount.plain }

/-- The transaction with its amounts written plainly. -/
def Transaction.plain (t : Transaction) : Transaction :=
  { t with fee := t.fee.map Fee.plain, request := t.request.plain }

namespace Bns

/-! ## The name service -/

namespace Schema

variable {a : Amount} {creator : Identity}

/-- An amount that is written as a coin has digits for its quantity, and written plainly it is the
same coin. -/
theorem Coin.ofAmount_plain {c : Coin} (h : ofAmount a = .ok c) :
    Numeral.isDigits a.quantity.toList = true ∧ ofAmount a.plain = .ok c := by
  have hdigits : Numeral.isDigits a.quantity.toList = true := by
    simp only [ofAmount, Outcome.ite_error_eq_ok] at h
    simpa using h.2.1
  have hplain := Amount.plain_eq (Numeral.grouped?_of_isDigits hdigits)
  have hread := toAmount_of_ofAmount h
  rw [← hplain] at hread
  exact ⟨hdigits, (canonical_of_toAmount hread).2⟩

/-- So are several amounts. -/
theorem coins_plain {as : List Amount} {cs : List Coin} (h : coins as = .ok cs) :
    (∀ a ∈ as, Numeral.isDigits a.quantity.toList = true) ∧
      coins (as.map Amount.plain) = .ok cs := by
  induction as generalizing cs with
  | nil => exact ⟨by simp, h⟩
  | cons a as ih =>
    obtain ⟨c, cs', hc, hcs, rfl⟩ := Outcome.mapM_cons_eq_ok.1 h
    obtain ⟨hdigits, hplain⟩ := Coin.ofAmount_plain hc
    obtain ⟨hall, hrest⟩ := ih hcs
    exact ⟨List.forall_mem_cons.2 ⟨hdigits, hall⟩,
      Outcome.mapM_cons_eq_ok.2 ⟨c, cs', hplain, hrest, rfl⟩⟩

/-- A send is written alike with a plain amount. -/
theorem CashSend.ofSend_plain {s : Send} {m : CashSend} (h : ofSend creator s = .ok m) :
    Numeral.isDigits s.amount.quantity.toList = true ∧
      ofSend creator { s with amount := s.amount.plain } = .ok m := by
  simp only [ofSend, Outcome.bind_eq_ok, Outcome.ite_error_eq_ok] at h
  obtain ⟨source, hsource, sender, hsender, hsame, recipient, hrecipient, amount, hamount, h⟩ := h
  obtain ⟨hdigits, hplain⟩ := Coin.ofAmount_plain hamount
  simp only [ofSend, hsource, hsender, hrecipient, hplain, Outcome.ok_bind, if_neg hsame]
  exact ⟨hdigits, h⟩

/-- So is an offer. -/
theorem SwapCreate.ofOffer_plain {offer : SwapOffer} {m : SwapCreate}
    (h : ofOffer creator offer = .ok m) :
    (∀ a ∈ offer.amounts, Numeral.isDigits a.quantity.toList = true) ∧
      ofOffer creator { offer with amounts := offer.amounts.map Amount.plain } = .ok m := by
  simp only [ofOffer, Outcome.bind_eq_ok, Outcome.ite_error_eq_ok] at h
  obtain ⟨hhash, source, hsource, recipient, hrecipient, amount, hamount, timeout, htimeout, h⟩ := h
  obtain ⟨hdigits, hplain⟩ := coins_plain hamount
  simp only [ofOffer, hsource, hrecipient, hplain, htimeout, Outcome.ok_bind, if_neg hhash]
  exact ⟨hdigits, h⟩

/-- So is an escrow. -/
theorem EscrowCreate.ofEscrow_plain {e : Escrow} {m : EscrowCreate} (h : ofEscrow e = .ok m) :
    (∀ a ∈ e.amounts, Numeral.isDigits a.quantity.toList = true) ∧
      ofEscrow { e with amounts := e.amounts.map Amount.plain } = .ok m := by
  simp only [ofEscrow, Outcome.bind_eq_ok] at h
  obtain ⟨source, hsource, arbiter, harbiter, destination, hdestination, amount, hamount, timeout,
    htimeout, h⟩ := h
  obtain ⟨hdigits, hplain⟩ := coins_plain hamount
  simp only [ofEscrow, hsource, harbiter, hdestination, hplain, htimeout, Outcome.ok_bind]
  exact ⟨hdigits, h⟩

/-- So is a payment out of an escrow. -/
theorem EscrowRelease.ofRelease_plain {id : UInt64} {as : List Amount} {m : EscrowRelease}
    (h : ofRelease id as = .ok m) :
    (∀ a ∈ as, Numeral.isDigits a.quantity.toList = true) ∧
      ofRelease id (as.map Amount.plain) = .ok m := by
  obtain ⟨amount, hamount, h⟩ := Outcome.bind_eq_ok.1 h
  obtain ⟨hdigits, hplain⟩ := coins_plain hamount
  exact ⟨hdigits, Outcome.bind_eq_ok.2 ⟨amount, hplain, h⟩⟩

/-- A request whose quantities are digits is written alike with plain amounts. -/
theorem Action.ofRequest_plain {r : Request} {action : Action}
    (h : ofRequest creator r = .ok action) :
    (∀ a ∈ r.amounts, Numeral.isDigits a.quantity.toList = true) ∧
      ofRequest creator r.plain = .ok action := by
  cases r
  case send s =>
    obtain ⟨m, hm, rfl⟩ := Outcome.map_eq_ok.1 h
    obtain ⟨hdigits, hplain⟩ := CashSend.ofSend_plain hm
    exact ⟨by simpa [Request.amounts] using hdigits, Outcome.map_eq_ok.2 ⟨m, hplain, rfl⟩⟩
  case offerSwap offer =>
    obtain ⟨m, hm, rfl⟩ := Outcome.map_eq_ok.1 h
    obtain ⟨hdigits, hplain⟩ := SwapCreate.ofOffer_plain hm
    exact ⟨hdigits, Outcome.map_eq_ok.2 ⟨m, hplain, rfl⟩⟩
  case createEscrow e =>
    obtain ⟨m, hm, rfl⟩ := Outcome.map_eq_ok.1 h
    obtain ⟨hdigits, hplain⟩ := EscrowCreate.ofEscrow_plain hm
    exact ⟨hdigits, Outcome.map_eq_ok.2 ⟨m, hplain, rfl⟩⟩
  case releaseEscrow id amounts =>
    obtain ⟨m, hm, rfl⟩ := Outcome.map_eq_ok.1 h
    obtain ⟨hdigits, hplain⟩ := EscrowRelease.ofRelease_plain hm
    exact ⟨hdigits, Outcome.map_eq_ok.2 ⟨m, hplain, rfl⟩⟩
  -- no other request names an amount
  all_goals exact ⟨by simp [Request.amounts], h⟩

/-- A fee in tokens is written alike with a plain amount. -/
theorem Tx.feeOf_plain {fee : Option Fee} {fees : Option FeeInfo}
    (h : feeOf creator fee = .ok fees) :
    (∀ a ∈ fee.bind (·.tokens), Numeral.isDigits a.quantity.toList = true) ∧
      feeOf creator (fee.map Fee.plain) = .ok fees := by
  rcases fee with _ | ⟨_ | amount, gasPrice, gasLimit⟩
  · exact ⟨by simp, h⟩
  · exact ⟨by simp, h⟩
  · simp only [feeOf, Outcome.bind_eq_ok] at h
    obtain ⟨payer, hpayer, coin, hcoin, hfees⟩ := h
    obtain ⟨hdigits, hplain⟩ := Coin.ofAmount_plain hcoin
    refine ⟨by simpa using hdigits, ?_⟩
    simp only [Option.map_some, Fee.plain, feeOf, hpayer, hplain, Outcome.ok_bind]
    exact hfees

end Schema

namespace Codec

/-- The amounts that are signed: those of the request, and a fee in tokens. -/
def signedAmounts (t : Transaction) : List Amount :=
  t.request.amounts ++ (t.fee.bind (·.tokens)).toList

/-- What is signed is the same with plain amounts. -/
theorem bytesToSign_plain {t : Transaction} {nonce : Nonce} {job : SigningJob}
    (h : bytesToSign t nonce = .ok job) :
    (∀ a ∈ signedAmounts t, Numeral.isDigits a.quantity.toList = true) ∧
      bytesToSign t.plain nonce = .ok job := by
  obtain ⟨tx, bytes, htx, hbytes, hjob⟩ := bytesToSign_eq_ok.1 h
  simp only [Schema.Tx.ofTransaction, Outcome.bind_eq_ok] at htx
  obtain ⟨action, haction, fees, hfees, htx⟩ := htx
  obtain ⟨hrequest, hplain⟩ := Schema.Action.ofRequest_plain haction
  obtain ⟨hfee, hplainFee⟩ := Schema.Tx.feeOf_plain hfees
  constructor
  · intro a ha
    rcases List.mem_append.1 ha with ha | ha
    · exact hrequest a ha
    · exact hfee a (Option.mem_toList.1 ha)
  · refine bytesToSign_eq_ok.2 ⟨tx, bytes, ?_, hbytes, hjob⟩
    simp only [Schema.Tx.ofTransaction, Transaction.plain, hplain, hplainFee, Outcome.ok_bind]
    exact htx

end Codec

end Bns

namespace Ethereum

/-! ## Ethereum -/

variable {o : Options} {a : Amount} {n : Nat}

theorem quantityOf_eq_ok : quantityOf a = .ok n ↔ Numeral.grouped? a.quantity.toList = some n := by
  unfold quantityOf
  split <;> rename_i h <;> simp [h]

theorem quantityOf_plain (a : Amount) : quantityOf a.plain = quantityOf a := by
  cases h : Numeral.grouped? a.quantity.toList with
  | none => rw [Amount.plain, h]
  | some n => rw [quantityOf_eq_ok.2 h, quantityOf_eq_ok.2 (by rw [Amount.grouped?_plain, h])]

theorem etherOf_plain (a : Amount) : etherOf a.plain = etherOf a := by
  simp only [etherOf, Amount.ticker_plain, Amount.fractionalDigits_plain, quantityOf_plain]

/-- The quantity of ether is a number. -/
theorem quantityOf_of_etherOf (h : etherOf a = .ok n) : quantityOf a = .ok n :=
  (Outcome.ite_error_eq_ok.1 (Outcome.ite_error_eq_ok.1 h).2).2

namespace Payload

variable {p : Payload} {r : Request}

/-- A payload is the same with plain amounts. -/
theorem ofRequest_plain (r : Request) : ofRequest o r.plain = ofRequest o r := by
  cases r
  case send s =>
    simp only [Request.plain, ofRequest, ofSend, ofEtherSend, ofTokenSend, Amount.ticker_plain,
      Amount.fractionalDigits_plain, etherOf_plain, quantityOf_plain]
  case offerSwap offer =>
    obtain ⟨swapId, recipient, amounts, hash, timeout, memo⟩ := offer
    -- one amount is written, and any other number of them is refused
    rcases amounts with _ | ⟨a, _ | ⟨b, as⟩⟩
    · rfl
    · simp only [Request.plain, ofRequest, ofOffer, List.map_cons, List.map_nil, theAmount,
        Outcome.ok_bind, etherOf_plain]
    · simp only [Request.plain, ofRequest, ofOffer, List.map_cons, theAmount, List.length_cons,
        List.length_map]
  -- no other request can be written
  all_goals rfl

/-- Every amount of a request that can be written is a number. -/
theorem quantityOf_of_ofRequest (h : ofRequest o r = .ok p) :
    ∀ a ∈ r.amounts, ∃ n, quantityOf a = .ok n := by
  cases r
  case send s =>
    simp only [Request.amounts, List.forall_mem_singleton]
    simp only [ofRequest, ofSend] at h
    split at h
    · simp only [ofEtherSend, Outcome.bind_eq_ok] at h
      obtain ⟨recipient, -, value, hvalue, -⟩ := h
      exact ⟨value, quantityOf_of_etherOf hvalue⟩
    · split at h
      · cases h
      · simp only [ofTokenSend, Outcome.ite_error_eq_ok, Outcome.bind_eq_ok] at h
        obtain ⟨-, -, quantity, hquantity, -⟩ := h
        exact ⟨quantity, hquantity⟩
  case offerSwap offer =>
    simp only [ofRequest, ofOffer, Outcome.ite_error_eq_ok, Outcome.bind_eq_ok,
      theAmount_eq_ok] at h
    obtain ⟨contract, -, id, -, amount, hamounts, height, -, -, call, -, value, hvalue, -⟩ := h
    simp only [Request.amounts, hamounts, List.forall_mem_singleton]
    exact ⟨value, quantityOf_of_etherOf hvalue⟩
  case createEscrow e => cases h
  case releaseEscrow id amounts => cases h
  -- no other request names an amount
  all_goals exact fun a ha => absurd ha List.not_mem_nil

end Payload

/-- A message is the same with plain amounts. -/
theorem Message.ofTransaction_plain (t : Transaction) (nonce : Nonce) :
    ofTransaction o t.plain nonce = ofTransaction o t nonce := by
  obtain ⟨creator, fee, request⟩ := t
  rcases fee with _ | ⟨tokens, _ | price, limit⟩ <;>
    simp only [ofTransaction, Transaction.plain, Payload.ofRequest_plain, Option.map_some,
      Option.map_none, Fee.plain, gasPriceOf, gasLimitOf, Option.bind_some, quantityOf_plain,
      Outcome.ok_bind]

namespace Codec

/-- The amounts that are signed: those of the request, and the price of gas. -/
def signedAmounts (t : Transaction) : List Amount :=
  t.request.amounts ++ (t.fee.bind (·.gasPrice)).toList

/-- What is signed is the same with plain amounts. -/
theorem bytesToSign_plain (t : Transaction) (nonce : Nonce) :
    bytesToSign o t.plain nonce = bytesToSign o t nonce := by
  rw [bytesToSign, bytesToSign, Message.ofTransaction_plain]
  rfl

/-- Every amount that is signed is a number. -/
theorem quantityOf_of_bytesToSign {t : Transaction} {nonce : Nonce} {job : SigningJob}
    (h : bytesToSign o t nonce = .ok job) : ∀ a ∈ signedAmounts t, ∃ n, quantityOf a = .ok n := by
  obtain ⟨chain, m, -, hm, -⟩ := bytesToSign_eq_ok.1 h
  obtain ⟨price, hprice, -, -, hgasPrice, hpayload⟩ := fee_of_ofTransaction hm
  intro a ha
  rcases List.mem_append.1 ha with ha | ha
  · exact Payload.quantityOf_of_ofRequest hpayload a ha
  · rw [hprice, Option.toList_some, List.mem_singleton] at ha
    exact ⟨m.gasPrice, ha ▸ hgasPrice⟩

end Codec

end Ethereum

/-! ## Both codecs -/

/-- **Quantities are signed by their numbers**, with either codec: every amount that is signed has
digits for its quantity, on Ethereum with a plus sign or underscores, and what is signed is the
same if all amounts are written plainly. Only canonical amounts are. -/
theorem plain_of_bytesToSign (o : Ethereum.Options) (t : Transaction) (nonce : Nonce)
    (job : SigningJob) :
    (Bns.Codec.bytesToSign t nonce = .ok job →
      (∀ a ∈ Bns.Codec.signedAmounts t, Numeral.isDigits a.quantity.toList = true ∧
        a.plain.Canonical ∧ (a.Canonical ↔ a.plain = a)) ∧
      Bns.Codec.bytesToSign t.plain nonce = .ok job) ∧
    (Ethereum.Codec.bytesToSign o t nonce = .ok job →
      (∀ a ∈ Ethereum.Codec.signedAmounts t, (∃ n, Numeral.grouped? a.quantity.toList = some n) ∧
        a.plain.Canonical ∧ (a.Canonical ↔ a.plain = a)) ∧
      Ethereum.Codec.bytesToSign o t.plain nonce = .ok job) := by
  constructor
  · intro h
    obtain ⟨hdigits, hplain⟩ := Bns.Codec.bytesToSign_plain h
    refine ⟨fun a ha => ⟨hdigits a ha, ?_⟩, hplain⟩
    exact Amount.canonical_iff_plain (Numeral.grouped?_of_isDigits (hdigits a ha))
  · intro h
    refine ⟨fun a ha => ?_, (Ethereum.Codec.bytesToSign_plain t nonce).trans h⟩
    obtain ⟨n, hn⟩ := Ethereum.Codec.quantityOf_of_bytesToSign h a ha
    have hread := Ethereum.quantityOf_eq_ok.1 hn
    exact ⟨⟨n, hread⟩, Amount.canonical_iff_plain hread⟩

/-! ## A payment of `007` and gas at `+6_000` -/

/-- A payment of this many units out of an escrow. -/
def sampleRelease (quantity : String) : Transaction where
  creator := ⟨"iov-lovenet", .ed25519, [7, 7, 7]⟩
  fee := none
  request := .releaseEscrow 5 [⟨quantity, 9, "IOV"⟩]

/-- The payment is signed, as 50 bytes. -/
theorem bytesToSign_sampleRelease :
    ∃ job, Bns.Codec.bytesToSign (sampleRelease "007") 11 = .ok job ∧ job.bytes.length = 50 := by
  have hsigned : (Bns.Codec.bytesToSign (sampleRelease "007") 11).map
      (fun job => job.bytes.length) = .ok 50 := by decide +kernel
  exact Outcome.map_eq_ok.1 hsigned

open Ethereum.Codec in
/-- An abort for this price of gas. -/
def sampleRefund (price : String) : Transaction where
  creator := sampleCreator .secp256k1 abortKey
  fee := some (.ofGas ⟨price, 18, "ETH"⟩ 52669)
  request := .abortSwap sampleSwapId.data

open Ethereum.Codec in
/-- The abort is signed. -/
theorem bytesToSign_sampleRefund :
    ∃ job, bytesToSign sampleOptions (sampleRefund "+6_000") 26 = .ok job := by
  have hprice : Ethereum.quantityOf ⟨"+6_000", 18, "ETH"⟩ = .ok 6000 := rfl
  have hmessage : Ethereum.Message.ofTransaction sampleOptions (sampleRefund "+6_000") 26 =
      .ok ⟨⟨sampleSwapContract, 0, (Ethereum.SwapCall.abort sampleSwapId).encode⟩, 26, 6000,
        52669⟩ := by
    simp only [Ethereum.Message.ofTransaction, sampleRefund, ofRequest_sampleAbort,
      Ethereum.Message.gasPriceOf, Ethereum.Message.gasLimitOf, Fee.ofGas, Option.bind_some,
      Outcome.ok_bind, hprice]
    rfl
  exact ⟨_, bytesToSign_eq_ok.2 ⟨_, _, number_sampleCreator .secp256k1 abortKey, hmessage, rfl⟩⟩

open Ethereum.Codec in
/-- Quantities that are not canonical are signed, for the same bytes as canonical ones. -/
theorem bytesToSign_eq_of_padded :
    (¬ (⟨"007", 9, "IOV"⟩ : Amount).Canonical ∧
      ∃ job, Bns.Codec.bytesToSign (sampleRelease "007") 11 = .ok job ∧
        Bns.Codec.bytesToSign (sampleRelease "7") 11 = .ok job) ∧
    (¬ (⟨"+6_000", 18, "ETH"⟩ : Amount).Canonical ∧
      ∃ job, bytesToSign sampleOptions (sampleRefund "+6_000") 26 = .ok job ∧
        bytesToSign sampleOptions (sampleRefund "6000") 26 = .ok job) := by
  constructor
  · obtain ⟨job, hjob, -⟩ := bytesToSign_sampleRelease
    have hplain : (sampleRelease "007").plain = sampleRelease "7" := by decide +kernel
    exact ⟨by decide, job, hjob, hplain ▸ (Bns.Codec.bytesToSign_plain hjob).2⟩
  · obtain ⟨job, hjob⟩ := bytesToSign_sampleRefund
    have hplain : (sampleRefund "+6_000").plain = sampleRefund "6000" := by decide +kernel
    exact ⟨by decide, job, hjob, by rw [← hplain, Ethereum.Codec.bytesToSign_plain, hjob]⟩

open Ethereum.Codec in
/-- The payment and the abort are signed as if they were written plainly. -/
theorem plain_of_bytesToSign_samples :
    (∃ job, Bns.Codec.bytesToSign (sampleRelease "007") 11 = .ok job ∧
      Bns.Codec.bytesToSign (sampleRelease "007").plain 11 = .ok job) ∧
    (∃ job, bytesToSign sampleOptions (sampleRefund "+6_000") 26 = .ok job ∧
      bytesToSign sampleOptions (sampleRefund "+6_000").plain 26 = .ok job) := by
  obtain ⟨job, hjob, -⟩ := bytesToSign_sampleRelease
  obtain ⟨job', hjob'⟩ := bytesToSign_sampleRefund
  exact ⟨⟨job, hjob, ((plain_of_bytesToSign sampleOptions _ _ _).1 hjob).2⟩,
    ⟨job', hjob', ((plain_of_bytesToSign sampleOptions _ _ _).2 hjob').2⟩⟩

end ChainKit
