import ChainKit.Proofs.Ethereum.Message
import ChainKit.Proofs.Ethereum.Payload
import ChainKit.Proofs.Hash.Keccak256
import Mathlib
/-!
# Posted messages are read back

What is posted keeps the whole message with its signature, so reading
signs the same bytes again and recovers the same key. For canonical
transactions whose signature recovers to the creator, reading undoes
posting (`parse_of_bytesToPost`). The scheme of the creator's key is not
posted: reading takes every key for one of secp256k1
(`algorithm_of_parse`), so a key under another label does not come back.
-/

namespace ChainKit

namespace Ethereum

variable {o : Options} {t : SignedTransaction} {b : Bytes}

/-- The signature recovers to the creator's key over what is signed, and the number that carries
the chain and the parity is a word. -/
structure SignedByCreator (o : Options) (t : SignedTransaction) (chain : UInt64)
    (parts : SignatureParts) (job : SigningJob) (key : Secp256k1.Point) : Prop where
  number : Chain.number t.transaction.creator.chainId = .ok chain
  spelled : SignatureParts.ofBytes t.primary.data = .ok parts
  signed : Codec.bytesToSign o t.transaction t.primary.nonce = .ok job
  recovers : recoverKey (Keccak256.digest job.bytes) parts = .ok key
  creator : key.uncompressed = t.transaction.creator.publicKey.data
  word : 35 + 2 * chain.toNat + parts.recovery.toNat < 2 ^ 64

/-- A signed transaction that its message keeps, the scheme of the creator's key apart. -/
structure CanonicalTransaction (o : Options) (t : SignedTransaction) : Prop where
  /-- The creator signs, and nobody else. -/
  signer : t.primary.publicKey = t.transaction.creator.publicKey
  alone : t.others = []
  /-- The fee is a canonical price of gas in ether and a limit. -/
  fee : ∃ price limit, t.transaction.fee = some (.ofGas price limit) ∧ price.Canonical ∧
    price.ticker = etherTicker ∧ price.fractionalDigits = etherDigits
  request : CanonicalRequest o t.transaction.creator t.transaction.request
  signature : ∃ chain parts job key, SignedByCreator o t chain parts job key

namespace Codec

/-! ## What is signed and posted -/

theorem bytesToSign_eq_ok {u : Transaction} {nonce : Nonce} {job : SigningJob} :
    bytesToSign o u nonce = .ok job ↔ ∃ chain m, Chain.number u.creator.chainId = .ok chain ∧
      Message.ofTransaction o u nonce = .ok m ∧ ⟨m.unsigned chain, .keccak256⟩ = job := by
  simp only [bytesToSign, Outcome.bind_eq_ok]
  constructor
  · rintro ⟨chain, hchain, m, hm, h⟩
    exact ⟨chain, m, hchain, hm, Outcome.pure_eq_ok.1 h⟩
  · rintro ⟨chain, m, hchain, hm, rfl⟩
    exact ⟨chain, hchain, m, hm, rfl⟩

theorem bytesToPost_eq_ok : bytesToPost o t = .ok b ↔ ∃ chain m parts,
    Chain.number t.transaction.creator.chainId = .ok chain ∧
      Message.ofTransaction o t.transaction t.primary.nonce = .ok m ∧
      SignatureParts.ofBytes t.primary.data = .ok parts ∧ m.signed chain parts = .ok b := by
  simp only [bytesToPost, Outcome.bind_eq_ok]
  constructor
  · rintro ⟨chain, hchain, m, hm, parts, hparts, h⟩
    exact ⟨chain, m, parts, hchain, hm, hparts, h⟩
  · rintro ⟨chain, m, parts, hchain, hm, hparts, h⟩
    exact ⟨chain, hchain, m, hm, parts, hparts, h⟩

/-- What is posted holds the message, the chain and the signature that it was made of. -/
theorem ofBytes_bytesToPost {chain : UInt64} {parts : SignatureParts} {m : Message}
    (hchain : Chain.number t.transaction.creator.chainId = .ok chain)
    (hm : Message.ofTransaction o t.transaction t.primary.nonce = .ok m)
    (hparts : SignatureParts.ofBytes t.primary.data = .ok parts)
    (hword : 35 + 2 * chain.toNat + parts.recovery.toNat < 2 ^ 64)
    (hpost : bytesToPost o t = .ok b) (hlength : b.length < 2 ^ 64) :
    ∃ v, SignedMessage.ofBytes b = .ok ⟨m, v, parts.r, parts.s⟩ ∧
      splitV v = .ok (chain, parts.recovery) := by
  obtain ⟨chain', m', parts', hchain', hm', hparts', hsigned⟩ := bytesToPost_eq_ok.1 hpost
  cases hchain.symm.trans hchain'
  cases hm.symm.trans hm'
  cases hparts.symm.trans hparts'
  obtain ⟨v, hv, hread⟩ := SignedMessage.ofBytes_signed hsigned hlength
  have hbit := (SignatureParts.toBytes_of_ofBytes hparts).2
  exact ⟨v, hread, splitV_signatureV hbit hword hv⟩

/-! ## Fields -/

/-- A nonce that can be written is read back. -/
theorem toInt64_of_nonceOf {n : Nonce} {m : UInt64} (h : Message.nonceOf n = .ok m) :
    m.toInt64 = n ∧ 0 ≤ m.toInt64 := by
  obtain ⟨hneg, h⟩ := Outcome.ite_error_eq_ok.1 h
  cases h
  rw [show n.toUInt64.toInt64 = n from rfl]
  exact ⟨rfl, Int64.not_lt.1 hneg⟩

/-- A message is written from the nonce, from a fee that names gas, and from the request. -/
theorem fee_of_ofTransaction {u : Transaction} {nonce : Nonce} {m : Message}
    (h : Message.ofTransaction o u nonce = .ok m) :
    ∃ price, u.fee.bind (·.gasPrice) = some price ∧ u.fee.bind (·.gasLimit) = some m.gasLimit ∧
      Message.nonceOf nonce = .ok m.nonce ∧ quantityOf price = .ok m.gasPrice ∧
      Payload.ofRequest o u.request = .ok m.toPayload := by
  simp only [Message.ofTransaction, Outcome.bind_eq_ok] at h
  obtain ⟨n, hn, price, hprice, limit, hlimit, payload, hpayload, gasPrice, hgasPrice, h⟩ := h
  cases Outcome.pure_eq_ok.1 h
  unfold Message.gasPriceOf at hprice
  unfold Message.gasLimitOf at hlimit
  split at hprice
  · rename_i hsome
    cases hprice
    split at hlimit
    · rename_i hlimitSome
      cases hlimit
      exact ⟨price, hsome, hlimitSome, hn, hgasPrice, hpayload⟩
    · cases hlimit
  · cases hprice

/-- The fields of a message are those of its transaction. -/
theorem fields_of_ofTransaction {u : Transaction} {nonce : Nonce} {m : Message} {price : Amount}
    {limit : UInt64} (hfee : u.fee = some (.ofGas price limit))
    (h : Message.ofTransaction o u nonce = .ok m) :
    Message.nonceOf nonce = .ok m.nonce ∧ quantityOf price = .ok m.gasPrice ∧ m.gasLimit = limit ∧
      Payload.ofRequest o u.request = .ok m.toPayload := by
  obtain ⟨price', hprice, hlimit, hnonce, hgasPrice, hpayload⟩ := fee_of_ofTransaction h
  rw [hfee] at hprice hlimit
  cases hprice
  cases hlimit
  exact ⟨hnonce, hgasPrice, rfl, hpayload⟩

/-- The sender of a send of the creator is the account of the creator's key. -/
theorem address_of_addressOf {creator : Identity} {s : Address} {key : Secp256k1.Point}
    (h : addressOf creator = .ok s) (hkey : key.uncompressed = creator.publicKey.data) :
    s = (Account.ofPoint key).address := by
  obtain ⟨account, haccount, rfl⟩ := Outcome.map_eq_ok.1 h
  obtain ⟨-, haccount⟩ := Outcome.ite_error_eq_ok.1 haccount
  unfold Account.ofKey at haccount
  -- the key spells one point only
  split at haccount
  · rename_i p hp
    cases haccount
    rw [← hkey] at hp
    rw [Secp256k1.Point.eq_of_ofBytes?_uncompressed hp]
  · cases haccount

/-! ## Reading -/

/-- Whatever is read, the key that signed is taken for the creator's and its account for the
sender's, and the price of gas for one in ether. -/
theorem message_of_parse {chainId : ChainId} (h : parse o b chainId = .ok t) :
    ∃ (key : Secp256k1.Point) (m : Message),
      t.transaction.creator = ⟨chainId, .secp256k1, key.uncompressed⟩ ∧
        t.transaction.fee = some (.ofGas (ether m.gasPrice) m.gasLimit) ∧
        m.toPayload.toRequest o (Account.ofPoint key).address = .ok t.transaction.request := by
  simp only [parse, Outcome.bind_eq_ok] at h
  obtain ⟨expected, -, m, -, ⟨chain, recovery⟩, -, h⟩ := h
  obtain ⟨-, h⟩ := Outcome.ite_error_eq_ok.1 h
  simp only [Outcome.bind_eq_ok] at h
  obtain ⟨key, -, request, hrequest, h⟩ := h
  -- only a nonce of the right sign is left to check
  split at h
  · cases Outcome.pure_eq_ok.1 h
    exact ⟨key, m.message, rfl, rfl, hrequest⟩
  · cases h

/-- So the creator's key is one of secp256k1. -/
theorem algorithm_of_parse {chainId : ChainId} (h : parse o b chainId = .ok t) :
    t.transaction.creator.publicKey.algorithm = .secp256k1 := by
  obtain ⟨key, m, hcreator, -⟩ := message_of_parse h
  rw [hcreator]

/-- **A canonical transaction is read back from what is posted**, if its creator's key is one of
secp256k1: a send of ether or of a known token, an offer, a claim or an abort. The bytes are
counted in a word of 64 bits. -/
theorem parse_of_bytesToPost (hoptions : o.WellFormed) (hcanonical : CanonicalTransaction o t)
    (hscheme : t.transaction.creator.publicKey.algorithm = .secp256k1)
    (hpost : bytesToPost o t = .ok b) (hlength : b.length < 2 ^ 64) :
    parse o b t.transaction.creator.chainId = .ok t := by
  obtain ⟨chain, parts, job, key, hsigned⟩ := hcanonical.signature
  obtain ⟨price, limit, hfee, hprice, hticker, hdigits⟩ := hcanonical.fee
  obtain ⟨chain', m, hchain', hm, hjob⟩ := bytesToSign_eq_ok.1 hsigned.signed
  cases hsigned.number.symm.trans hchain'
  obtain ⟨v, hread, hsplit⟩ := ofBytes_bytesToPost hsigned.number hm hsigned.spelled hsigned.word
    hpost hlength
  obtain ⟨hnonce, hgasPrice, hgasLimit, hpayload⟩ := fields_of_ofTransaction hfee hm
  obtain ⟨hnonce, hpositive⟩ := toInt64_of_nonceOf hnonce
  -- the same bytes are signed again, so the same key is recovered
  have hkey : recoverKey (Keccak256.digest (m.unsigned chain))
      ⟨parts.r, parts.s, parts.recovery⟩ = .ok key := by
    have := hsigned.recovers
    rwa [← hjob] at this
  -- and that key's account is the sender
  have hrequest : m.toPayload.toRequest o (Account.ofPoint key).address =
      .ok t.transaction.request := by
    refine Payload.toRequest_ofRequest hoptions hcanonical.request (fun s hs => ?_) hpayload
    have hsend := hcanonical.request
    rw [hs] at hsend
    exact address_of_addressOf hsend.sender hsigned.creator
  have hcreator : (⟨t.transaction.creator.chainId, .secp256k1, key.uncompressed⟩ : Identity) =
      t.transaction.creator := by
    rw [hsigned.creator, ← hscheme]
  have hgas : ether m.gasPrice = price := by
    rw [ether, quantity_of_quantityOf hprice hgasPrice, ← hticker, ← hdigits]
  -- the signature is spelled by its parts, and the label of its key is that of the creator's
  have hprimary : (⟨m.nonce.toInt64, ⟨.secp256k1, key.uncompressed⟩, parts.toBytes⟩ : Signature) =
      t.primary := by
    rw [hnonce, (SignatureParts.toBytes_of_ofBytes hsigned.spelled).1, hsigned.creator, ← hscheme]
    rw [← hcanonical.signer]
  simp only [parse, hsigned.number, hread, hsplit, Outcome.ok_bind, ne_eq, not_true_eq_false,
    if_false, hkey, hrequest, hpositive, if_true, hcreator, hgas, hgasLimit, ← hfee]
  rw [hprimary, ← hcanonical.alone]
  rfl

/-! ## A transfer and an abort -/

/-- The account of the contract for swaps. -/
def sampleSwapContract : Account :=
  ⟨Bytes.ofNat 20 0xe1c9ea25a621cf5c934a7e112ecab640ec7d8d18, by simp⟩

/-- The account of the token's contract. -/
def sampleContract : Account :=
  ⟨Bytes.ofNat 20 0x43aa18faae961c23715735682dc75662d90f4dde, by simp⟩

/-- The token. -/
def sampleToken : Token := ⟨sampleContract.address, 12, "ASH"⟩

/-- One contract for swaps and one token. -/
def sampleOptions : Options where
  swapContract := some sampleSwapContract.address
  tokens := .ofList [("ASH", sampleToken)]

theorem swapContract_sampleOptions :
    sampleOptions.swapContract = some sampleSwapContract.address := rfl

theorem entries_sampleOptions : sampleOptions.tokens.entries = [("ASH", sampleToken)] := rfl

/-- The two contracts can be told apart. -/
theorem wellFormed_sampleOptions : sampleOptions.WellFormed where
  symbols := by simp [entries_sampleOptions, sampleToken]
  tokens := by simp [entries_sampleOptions, sampleToken, Account.isAddress]
  swap := by simp [swapContract_sampleOptions, Account.isAddress]
  distinct := by simp [entries_sampleOptions]
  apart := by
    have hne : sampleSwapContract ≠ sampleContract := by decide
    simp [entries_sampleOptions, swapContract_sampleOptions, sampleToken, hne]

/-- A key under the name of a scheme, on a chain. -/
def sampleCreator (algorithm : Algorithm) (key : Secp256k1.Point) : Identity :=
  ⟨"ethereum-eip155-5777", algorithm, key.uncompressed⟩

/-- A request of that key with its signature. -/
def sampleSigned (algorithm : Algorithm) (key : Secp256k1.Point) (request : Request)
    (parts : SignatureParts) : SignedTransaction where
  transaction :=
    { creator := sampleCreator algorithm key
      fee := some (.ofGas ⟨"6000000000", 18, "ETH"⟩ 52669)
      request }
  primary := ⟨26, (sampleCreator algorithm key).publicKey, parts.toBytes⟩
  others := []

/-- The message of such a request. -/
def sampleMessage (payload : Payload) : Message :=
  { payload with nonce := 26, gasPrice := 6000000000, gasLimit := 52669 }

section

variable (algorithm : Algorithm) (key : Secp256k1.Point) (request : Request)
  (parts : SignatureParts) {payload : Payload}

/-- The key is on the chain 5777. -/
theorem number_sampleCreator : Chain.number (sampleCreator algorithm key).chainId = .ok 5777 := by
  show Chain.number "ethereum-eip155-5777" = .ok 5777
  rfl

/-- A request of the key is written as its message. -/
theorem ofTransaction_sampleSigned
    (hpayload : Payload.ofRequest sampleOptions request = .ok payload) :
    Message.ofTransaction sampleOptions (sampleSigned algorithm key request parts).transaction 26 =
      .ok (sampleMessage payload) := by
  have hprice : quantityOf ⟨"6000000000", 18, "ETH"⟩ = .ok 6000000000 := rfl
  simp only [Message.ofTransaction, sampleSigned, hpayload, Message.gasPriceOf,
    Message.gasLimitOf, Fee.ofGas, Option.bind_some, Outcome.ok_bind, hprice]
  rfl

/-- The message of a request of the key is what is signed. -/
theorem bytesToSign_sampleSigned
    (hpayload : Payload.ofRequest sampleOptions request = .ok payload) :
    bytesToSign sampleOptions (sampleSigned algorithm key request parts).transaction 26 =
      .ok ⟨(sampleMessage payload).unsigned 5777, .keccak256⟩ :=
  bytesToSign_eq_ok.2 ⟨_, _, number_sampleCreator algorithm key,
    ofTransaction_sampleSigned algorithm key request parts hpayload, rfl⟩

/-- A request of the key is posted if its message can be written. -/
theorem bytesToPost_sampleSigned {n : Nat}
    (hpayload : Payload.ofRequest sampleOptions request = .ok payload)
    (hbit : ¬ 1 < parts.recovery)
    (hsigned : ((sampleMessage payload).signed 5777 parts).map List.length = .ok n) :
    ∃ b, bytesToPost sampleOptions (sampleSigned algorithm key request parts) = .ok b ∧
      b.length = n := by
  obtain ⟨b, hb, hlength⟩ := Outcome.map_eq_ok.1 hsigned
  exact ⟨b, bytesToPost_eq_ok.2 ⟨_, _, _, number_sampleCreator algorithm key,
    ofTransaction_sampleSigned algorithm key request parts hpayload,
    SignatureParts.ofBytes_toBytes hbit, hb⟩, hlength⟩

/-- A canonical request of the key is canonical with a signature that recovers to the key. -/
theorem canonical_sampleSigned
    (hrequest : CanonicalRequest sampleOptions (sampleCreator algorithm key) request)
    (hpayload : Payload.ofRequest sampleOptions request = .ok payload)
    (hbit : ¬ 1 < parts.recovery)
    (hrecovers : recoverKey (Keccak256.digest ((sampleMessage payload).unsigned 5777)) parts =
      .ok key) :
    CanonicalTransaction sampleOptions (sampleSigned algorithm key request parts) := by
  refine ⟨rfl, rfl, ⟨_, _, rfl, by decide, rfl, rfl⟩, hrequest, ?_⟩
  refine ⟨_, _, _, _, number_sampleCreator algorithm key, SignatureParts.ofBytes_toBytes hbit,
    bytesToSign_sampleSigned algorithm key request parts hpayload, hrecovers, rfl, ?_⟩
  have hword := parts.recovery.toNat_lt
  show 35 + 2 * 5777 + parts.recovery.toNat < 2 ^ 64
  omega

end

/-- The account that the token is sent to. -/
def sampleRecipient : Account :=
  ⟨Bytes.ofNat 20 0x8fec1c262599f4169401ff48a9d63503ceaaf742, by simp⟩

/-- The key that sends the token. -/
def transferKey : Secp256k1.Point where
  x := 0x2b1671bea58f4b8a1de2284145e0ba166ccc68298bb43ec973d3e3348fe80213
  y := 0xe8f576559c8a6929f9c61c27a15cc92a571e9a9d1d7f00ce7faae9071c53fe92

/-- A transfer of the token from the account of the key. -/
def sampleTransfer : Send where
  sender := (Account.ofPoint transferKey).address
  recipient := sampleRecipient.address
  amount := ⟨"1500", 12, "ASH"⟩
  memo := none

/-- The signature of the transfer. -/
def transferParts : SignatureParts where
  r := .ofNat 0xb5b7a7bf3a8d0299b1541e2666273392f3c34181c7860e70f6ed4c6ec11683c8
  s := .ofNat 0x6b6f4f7e751a053362a83c4ccc4e67272cd7a61cdfc37ca62e083a50b1f6c64f
  recovery := 0

/-- The transfer with its signature. -/
def signedTransfer : SignedTransaction :=
  sampleSigned .secp256k1 transferKey (.send sampleTransfer) transferParts

/-- The transfer comes from its creator. -/
theorem canonicalSend_sampleTransfer :
    CanonicalSend sampleOptions (sampleCreator .secp256k1 transferKey) sampleTransfer where
  sender := by
    have hpoint : Secp256k1.Point.ofBytes? transferKey.uncompressed = some transferKey := by
      decide +kernel
    have haccount : Account.ofIdentity (sampleCreator .secp256k1 transferKey) =
        .ok (Account.ofPoint transferKey) := by
      rw [Account.ofIdentity, if_neg (by simp [sampleCreator]), Account.ofKey, sampleCreator,
        hpoint]
    rw [addressOf, haccount]
    rfl
  recipient := ⟨sampleRecipient, rfl⟩
  amount := by decide
  foreign := fun h => absurd h (by decide)
  memo := fun h => absurd h (by decide)

/-- The transfer calls the token's contract. -/
theorem ofRequest_sampleTransfer : Payload.ofRequest sampleOptions (.send sampleTransfer) =
    .ok ⟨sampleContract, 0, (TokenTransfer.mk sampleRecipient (.ofNat 1500)).encode⟩ := by
  have htransfer : TokenTransfer.ofAddress sampleTransfer.recipient 1500 =
      .ok ⟨sampleRecipient, .ofNat 1500⟩ := by
    rw [TokenTransfer.ofAddress, sampleTransfer, Account.ofAddress_address, Outcome.ok_bind,
      Word.ofUint256, if_pos (by decide)]
    rfl
  have hfind : sampleOptions.tokens.find? sampleTransfer.amount.ticker = some sampleToken := rfl
  exact Payload.ofSend_of_token (by decide) hfind rfl rfl rfl htransfer
    (Account.ofAddress_address sampleContract)

/-- The transfer of a token is canonical and posted in 173 bytes, and read back. -/
theorem parse_of_bytesToPost_sampleTransfer :
    sampleOptions.WellFormed ∧ CanonicalTransaction sampleOptions signedTransfer ∧
      ∃ b, bytesToPost sampleOptions signedTransfer = .ok b ∧ b.length = 173 ∧
        parse sampleOptions b signedTransfer.transaction.creator.chainId = .ok signedTransfer := by
  have hcanonical : CanonicalTransaction sampleOptions signedTransfer :=
    canonical_sampleSigned _ _ _ _ canonicalSend_sampleTransfer ofRequest_sampleTransfer
      (by decide) (by rw [Keccak256.digest_eq_gridDigest]; decide +kernel)
  obtain ⟨b, hpost, hlength⟩ : ∃ b, bytesToPost sampleOptions signedTransfer = .ok b ∧
      b.length = 173 :=
    bytesToPost_sampleSigned _ _ _ _ ofRequest_sampleTransfer (by decide) (by decide +kernel)
  exact ⟨wellFormed_sampleOptions, hcanonical, b, hpost, hlength,
    parse_of_bytesToPost wellFormed_sampleOptions hcanonical rfl hpost (by rw [hlength]; decide)⟩

/-- The identifier of a swap that is taken back. -/
def sampleSwapId : Word := ⟨List.replicate 32 0x22, by simp⟩

/-- The abort calls the contract for swaps. -/
theorem ofRequest_sampleAbort :
    Payload.ofRequest sampleOptions (.abortSwap sampleSwapId.data) =
      .ok ⟨sampleSwapContract, 0, (SwapCall.abort sampleSwapId).encode⟩ := by
  have hcontract : sampleOptions.swapAccount = .ok sampleSwapContract := by
    rw [Options.swapAccount, swapContract_sampleOptions]
    exact ofAbi_eq_ok.2 (Account.ofAddress_address sampleSwapContract)
  simp only [Payload.ofRequest, Payload.ofAbort, hcontract, Outcome.ok_bind]
  rfl

/-- The key that takes the swap back. -/
def abortKey : Secp256k1.Point where
  x := 0x1e642ba7f9520dda43a3a30755079dbd71842f2eff49c940a908fce0efd64e5f
  y := 0x5f952792add82d39e3b4b7a7ead2e3ea39c8cc2cb5a7a445db6d516dd9fce23d

/-- The signature of the abort. -/
def abortParts : SignatureParts where
  r := .ofNat 0xbdb22948b3dcb4f4c10d0a70c8bc45e250899e1b3f2bce244c62882264e83634
  s := .ofNat 0x7b64529167b969e9821a14e191788bc5e6645f4fcf0efc0cd8f2b1b7f99a2b27
  recovery := 0

/-- The abort with its signature, its key under the name of another scheme. -/
def mislabelledAbort : SignedTransaction :=
  sampleSigned .ed25519 abortKey (.abortSwap sampleSwapId.data) abortParts

/-- The abort is posted in 140 bytes, although its key is under another name. -/
theorem bytesToPost_mislabelledAbort :
    ∃ b, bytesToPost sampleOptions mislabelledAbort = .ok b ∧ b.length = 140 :=
  bytesToPost_sampleSigned _ _ _ _ ofRequest_sampleAbort (by decide) (by decide +kernel)

/-- An abort by a key under the name of another scheme is canonical and posted, but what is read
back names secp256k1. -/
theorem parse_ne_of_ed25519 :
    sampleOptions.WellFormed ∧ CanonicalTransaction sampleOptions mislabelledAbort ∧
      ∃ b, bytesToPost sampleOptions mislabelledAbort = .ok b ∧ b.length = 140 ∧
        parse sampleOptions b mislabelledAbort.transaction.creator.chainId ≠
          .ok mislabelledAbort := by
  have hcanonical : CanonicalTransaction sampleOptions mislabelledAbort :=
    canonical_sampleSigned _ _ _ _ trivial ofRequest_sampleAbort (by decide)
      (by rw [Keccak256.digest_eq_gridDigest]; decide +kernel)
  obtain ⟨b, hpost, hlength⟩ := bytesToPost_mislabelledAbort
  refine ⟨wellFormed_sampleOptions, hcanonical, b, hpost, hlength, fun hparse => ?_⟩
  exact absurd (algorithm_of_parse hparse) (by decide)

end Codec

end Ethereum

end ChainKit
