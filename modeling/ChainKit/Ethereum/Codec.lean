import ChainKit.Codec
import ChainKit.Curve.Ecdsa
import ChainKit.Ethereum.Call
import ChainKit.Ethereum.Chain
import ChainKit.Ethereum.Message
import ChainKit.Ethereum.Options

/-!
# The Ethereum codec — requests as messages

Sends of ether, transfers of known tokens and calls of the swap contract
become messages; what is signed and what is stored follow from them.
Reading recovers the sender from the signature and tells by the recipient
what a message does.
-/

namespace ChainKit

open Text

namespace Ethereum

/-! ## Amounts -/

/-- The ticker of ether. -/
def etherTicker : Ticker := "ETH"

/-- The fractional digits of ether. -/
def etherDigits : UInt32 := 18

/-- The quantity of an amount, whatever its unit. -/
def quantityOf (a : Amount) : Result Nat :=
  match Numeral.grouped? a.quantity.toList with
  | some n => .ok n
  | none => .error (.invalid (.quantity a.quantity))

/-- The quantity of an amount of ether. -/
def etherOf (a : Amount) : Result Nat :=
  if a.ticker ≠ etherTicker then .error (.invalid (.notEther a.ticker))
  else if a.fractionalDigits ≠ etherDigits then
    .error (.invalid (.fractionalDigits etherDigits a.fractionalDigits))
  else quantityOf a

/-- An amount of ether. -/
def ether (n : Nat) : Amount := ⟨Numeral.ofNat n, etherDigits, etherTicker⟩

/-! ## Payloads -/

/-- The account of the contract for swaps. -/
def Options.swapAccount (o : Options) : Result Account :=
  match o.swapContract with
  | none => .error (.invalid .noSwapContract)
  | some contract => .ofAbi (Account.ofAddress contract)

namespace Payload

/-- A send of ether with its memo as data. -/
def ofEtherSend (s : Send) : Result Payload := do
  let recipient ← .ofAbi (Account.ofAddress s.recipient)
  let value ← etherOf s.amount
  return { recipient, value, data := Utf8.encode (s.memo.getD "") }

/-- A transfer of a token. -/
def ofTokenSend (token : Token) (s : Send) : Result Payload :=
  if s.amount.fractionalDigits ≠ token.decimals then
    .error (.invalid (.fractionalDigits token.decimals s.amount.fractionalDigits))
  else if s.memo.isSome then .error (.invalid .tokenMemo)
  else do
    let quantity ← quantityOf s.amount
    let transfer ← .ofAbi (TokenTransfer.ofAddress s.recipient quantity)
    let recipient ← .ofAbi (Account.ofAddress token.contract)
    return { recipient, value := 0, data := transfer.encode }

/-- A send of ether or of a known token. -/
def ofSend (o : Options) (s : Send) : Result Payload :=
  if s.amount.ticker = etherTicker then ofEtherSend s
  else match o.tokens.find? s.amount.ticker with
    | none => .error (.invalid (.unsupportedToken s.amount.ticker))
    | some token => ofTokenSend token s

/-- The one amount of an offer. -/
def theAmount : List Amount → Result Amount
  | [amount] => .ok amount
  | amounts => .error (.invalid (.amountCount amounts.length))

/-- The height at which an offer ends. -/
def theHeight : Timeout → Result UInt64
  | .height n => .ok n
  | .timestamp _ => .error (.invalid .timestampTimeout)

/-- The identifier that an offer has to choose. -/
def theSwapId : Option SwapId → Result SwapId
  | some id => .ok id
  | none => .error (.missing "swapId")

/-- An offer of ether. -/
def ofOffer (o : Options) (offer : SwapOffer) : Result Payload := do
  let recipient ← o.swapAccount
  let id ← theSwapId offer.swapId
  let amount ← theAmount offer.amounts
  let height ← theHeight offer.timeout
  if offer.memo.isSome then .error (.invalid .offerMemo)
  else
    let call ← .ofAbi (SwapCall.ofOffer id offer.recipient offer.hash height)
    let value ← etherOf amount
    return { recipient, value, data := call.encode }

/-- A claim. -/
def ofClaim (o : Options) (id : SwapId) (preimage : Bytes) : Result Payload := do
  let recipient ← o.swapAccount
  let call ← .ofAbi (SwapCall.ofClaim id preimage)
  return { recipient, value := 0, data := call.encode }

/-- An abort. -/
def ofAbort (o : Options) (id : SwapId) : Result Payload := do
  let recipient ← o.swapAccount
  let call ← .ofAbi (SwapCall.ofAbort id)
  return { recipient, value := 0, data := call.encode }

/-- What a request moves and calls. -/
def ofRequest (o : Options) : Request → Result Payload
  | .send s => ofSend o s
  | .offerSwap offer => ofOffer o offer
  | .claimSwap id preimage => ofClaim o id preimage
  | .abortSwap id => ofAbort o id
  | request => .error (.unsupportedKind request.name)

/-- Reads a call of the contract for swaps. -/
def toSwapRequest (p : Payload) : Result Request := do
  match ← .ofAbi (SwapCall.decode p.data) with
  | some (.offer id recipient hash height) => return .offerSwap {
      swapId := some id.data
      recipient := recipient.address
      amounts := [ether p.value]
      hash := hash.data
      timeout := .height height
      memo := none }
  | some (.claim id preimage) => return .claimSwap id.data preimage.data
  | some (.abort id) => return .abortSwap id.data
  | none => .error (.invalid .swapMethod)

/-- Reads a call of a token's contract. -/
def toTokenSend (token : Token) (sender : Address) (p : Payload) : Result Send := do
  match ← .ofAbi (TokenTransfer.decode p.data) with
  | some t => return {
      sender
      recipient := t.recipient.address
      amount := ⟨Numeral.ofNat t.quantity.toNat, token.decimals, token.symbol⟩
      memo := none }
  | none => .error (.unsupportedOperation s!"unknown ERC20 method on {p.recipient.address}")

/-- The memo that the data of a send spells. -/
def memo (data : Bytes) : Result (Option String) :=
  if data = [] then .ok none
  else match Utf8.decode data with
    | .ok text => .ok (some text)
    | .error _ => .error (.unsupportedOperation "contract call data is not a text memo")

/-- Reads a send of ether. -/
def toEtherSend (sender : Address) (p : Payload) : Result Send := do
  let memo ← memo p.data
  return { sender, recipient := p.recipient.address, amount := ether p.value, memo }

/-- Reads what the sender asked for. -/
def toRequest (o : Options) (sender : Address) (p : Payload) : Result Request :=
  if o.isSwapContract p.recipient.address then p.toSwapRequest
  else match o.tokenOf? p.recipient.address with
    | some token => (p.toTokenSend token sender).map .send
    | none => (p.toEtherSend sender).map .send

end Payload

/-! ## Messages -/

namespace Message

/-- A nonce that is not negative. -/
def nonceOf (n : Nonce) : Result UInt64 :=
  if n < 0 then .error (.invalid (.negativeNonce n)) else .ok n.toUInt64

/-- The price of gas that a fee names. -/
def gasPriceOf (fee : Option Fee) : Result Amount :=
  match fee.bind (·.gasPrice) with
  | some price => .ok price
  | none => .error (.invalid .gasPrice)

/-- The limit of gas that a fee names. -/
def gasLimitOf (fee : Option Fee) : Result UInt64 :=
  match fee.bind (·.gasLimit) with
  | some limit => .ok limit
  | none => .error (.invalid .gasLimit)

/-- The message of a transaction. -/
def ofTransaction (o : Options) (t : Transaction) (nonce : Nonce) : Result Message := do
  let nonce ← nonceOf nonce
  let price ← gasPriceOf t.fee
  let gasLimit ← gasLimitOf t.fee
  let payload ← Payload.ofRequest o t.request
  let gasPrice ← quantityOf price
  return { payload with nonce, gasPrice, gasLimit }

end Message

/-- The key whose signature of a digest this is. -/
def recoverKey (digest : Bytes) (parts : SignatureParts) : Result Secp256k1.Point :=
  match Secp256k1.Scalar.ofBytes? parts.r.data, Secp256k1.Scalar.ofBytes? parts.s.data with
  | some r, some s =>
    match Ecdsa.recover? digest r s (parts.recovery = 1) with
    | some key => .ok key
    | none => .error (.invalid .unrecoverable)
  | _, _ => .error (.invalid .signatureRange)

namespace Codec

/-- What the creator signs. -/
def bytesToSign (o : Options) (t : Transaction) (nonce : Nonce) : Result SigningJob := do
  let chain ← Chain.number t.creator.chainId
  let message ← Message.ofTransaction o t nonce
  return { bytes := message.unsigned chain, prehash := .keccak256 }

/-- What is posted to the chain. -/
def bytesToPost (o : Options) (t : SignedTransaction) : Result Bytes := do
  let chain ← Chain.number t.transaction.creator.chainId
  let message ← Message.ofTransaction o t.transaction t.primary.nonce
  let parts ← SignatureParts.ofBytes t.primary.data
  message.signed chain parts

/-- The identifier of a transaction: the digest of what is posted. -/
def identifier (o : Options) (t : SignedTransaction) : Result String := do
  let bytes ← bytesToPost o t
  return "0x" ++ Hex.encode (Keccak256.digest bytes)

/-- Reads what was posted to a chain. -/
def parse (o : Options) (bytes : Bytes) (chainId : ChainId) : Result SignedTransaction := do
  let expected ← Chain.number chainId
  let m ← SignedMessage.ofBytes bytes
  let (chain, recovery) ← splitV m.v
  if chain ≠ expected then .error (.invalid (.foreignChain expected chain))
  else
    let parts : SignatureParts := ⟨m.r, m.s, recovery⟩
    let key ← recoverKey (Keccak256.digest (m.message.unsigned chain)) parts
    let request ← m.message.toPayload.toRequest o (Account.ofPoint key).address
    if 0 ≤ m.message.nonce.toInt64 then
      let publicKey : PublicKey := ⟨.secp256k1, key.uncompressed⟩
      return {
        transaction := {
          creator := ⟨chainId, publicKey⟩
          fee := some (.ofGas (ether m.message.gasPrice) m.message.gasLimit)
          request }
        primary := ⟨m.message.nonce.toInt64, publicKey, parts.toBytes⟩
        others := [] }
    else .error (.unreadable (.outOfRange "nonce" m.message.nonce.toNat))

/-- The address of an identity. -/
def addressOf (i : Identity) : Result Address := (Account.ofIdentity i).map (·.address)

end Codec

/-- The codec of Ethereum, for these contracts. -/
def codec (o : Options) : ChainKit.Codec Rule Flaw where
  message := Rejection.message Rule.message Flaw.message
  bytesToSign := Codec.bytesToSign o
  bytesToPost := Codec.bytesToPost o
  identifier := Codec.identifier o
  parse := Codec.parse o
  addressOf := Codec.addressOf
  isAddress := Account.isAddress

end Ethereum

end ChainKit
