import ChainKit.Ethereum.Word

/-!
# Messages — transactions as the chain signs and stores them

A message is a list of its fields, numbers in the fewest bytes. What is
signed ends in the number of the chain and two empty fields, unless the
signature is to be good on every chain. What is stored ends in the
signature: a number `v` that carries the chain and the parity, and two
scalars without leading zeros.
-/

namespace ChainKit

namespace Ethereum

/-- What a message moves and calls. -/
structure Payload where
  recipient : Account
  value : Nat
  data : Bytes
  deriving DecidableEq

/-- The fields of a message. -/
structure Message extends Payload where
  nonce : UInt64
  gasPrice : Nat
  gasLimit : UInt64
  deriving DecidableEq

/-- A signature: two scalars and the parity that recovers the key. -/
structure SignatureParts where
  r : Word
  s : Word
  recovery : UInt8
  deriving DecidableEq

namespace SignatureParts

/-- The signature that 65 bytes spell. -/
def ofBytes (b : Bytes) : Result SignatureParts :=
  if h : b.length = 65 then
    let recovery := b[64]
    if 1 < recovery then .error (.invalid (.recovery recovery))
    else .ok {
      r := ⟨b.take 32, by simp [h]⟩
      s := ⟨(b.drop 32).take 32, by simp [h]⟩
      recovery }
  else .error (.invalid (.signatureLength b.length))

/-- The signature in 65 bytes. -/
def toBytes (s : SignatureParts) : Bytes := s.r.data ++ s.s.data ++ [s.recovery]

end SignatureParts

/-- The number on the wire for a chain and a parity. -/
def signatureV (chain : UInt64) (recovery : UInt8) : Result UInt64 :=
  if chain = 0 then .ok (27 + recovery.toUInt64)
  else if 2 * chain.toNat + 35 < UInt64.size then
    .ok (UInt64.ofNat (2 * chain.toNat + 35 + recovery.toNat))
  else .error (.invalid (.chainTooLarge chain))

/-- The chain and the parity that a number on the wire carries. -/
def splitV (v : UInt64) : Result (UInt64 × UInt8) :=
  if v = 27 ∨ v = 28 then .ok (0, (v - 27).toUInt8)
  else if 35 ≤ v then .ok ((v - 35) / 2, ((v - 35) % 2).toUInt8)
  else .error (.invalid (.signatureV v))

namespace Message

/-- The fields that are signed and stored alike. -/
def strings (m : Message) : List Bytes :=
  [Bytes.ofNatTrimmed m.nonce.toNat, Bytes.ofNatTrimmed m.gasPrice,
    Bytes.ofNatTrimmed m.gasLimit.toNat, m.recipient.data, Bytes.ofNatTrimmed m.value, m.data]

/-- What is signed for a chain. -/
def unsigned (m : Message) (chain : UInt64) : Bytes :=
  if chain = 0 then Rlp.list m.strings
  else Rlp.list (m.strings ++ [Bytes.ofNatTrimmed chain.toNat, [], []])

/-- Bytes without leading zeros. -/
def trim (b : Bytes) : Bytes := b.dropWhile (· = 0)

/-- What is stored on a chain. -/
def signed (m : Message) (chain : UInt64) (parts : SignatureParts) : Result Bytes := do
  let v ← signatureV chain parts.recovery
  return Rlp.list (m.strings ++ [Bytes.ofNatTrimmed v.toNat, trim parts.r.data, trim parts.s.data])

end Message

/-- A message as it was stored. -/
structure SignedMessage where
  message : Message
  v : UInt64
  r : Word
  s : Word
  deriving DecidableEq

namespace SignedMessage

/-- A number without leading zeros. -/
def number (field : String) (b : Bytes) : Result Nat :=
  if b.head? = some 0 then .error (.unreadable (.leadingZeros field))
  else .ok (Bytes.toNat b)

/-- A number of 64 bits without leading zeros. -/
def uint64 (field : String) (b : Bytes) : Result UInt64 := do
  let n ← number field b
  if n < UInt64.size then return UInt64.ofNat n
  else .error (.unreadable (.outOfRange field n))

/-- A scalar, with or without leading zeros. -/
def scalar (field : String) (b : Bytes) : Result Word :=
  if h : b.length ≤ 32 then
    .ok ⟨b.padLeft 32, by simp only [Bytes.padLeft, Bytes.zeros, List.length_append,
      List.length_replicate]; omega⟩
  else .error (.unreadable (.scalarLength field))

/-- The account that a message goes to; none would create a contract. -/
def recipient (b : Bytes) : Result Account :=
  if b = [] then .error (.unsupportedOperation "contract creation")
  else match Account.ofBytes? b with
    | some a => .ok a
    | none => .error (.unreadable (.recipientLength b.length))

/-- The strings of a list that is all there is. -/
def strings (bytes : Bytes) : Result (List Bytes) :=
  match Rlp.item bytes with
  | .error e => .error (.unreadable (.rlp e))
  | .ok (payload, rest) =>
    if rest ≠ [] then .error (.unreadable .trailing)
    else if !Rlp.isList bytes then .error (.unreadable .notList)
    else .ok (Rlp.payloads payload)

/-- Reads a message that was stored. -/
def ofBytes (bytes : Bytes) : Result SignedMessage := do
  match ← strings bytes with
  | [nonce, gasPrice, gasLimit, target, value, data, v, r, s] =>
    let recipient ← recipient target
    let nonce ← uint64 "nonce" nonce
    let gasPrice ← number "gasPrice" gasPrice
    let gasLimit ← uint64 "gasLimit" gasLimit
    let value ← number "value" value
    let v ← uint64 "v" v
    let r ← scalar "r" r
    let s ← scalar "s" s
    return { message := { recipient, value, data, nonce, gasPrice, gasLimit }, v, r, s }
  | items => .error (.unreadable (.itemCount items.length))

end SignedMessage

end Ethereum

end ChainKit
