import ChainKit.Account
import ChainKit.Rejection
import ChainKit.Rlp

/-!
# What Ethereum rejects

The rules that a transaction or a contract call may break, and the flaws
of a signed transaction on the wire, each with its wording.
-/

namespace ChainKit

open Text

namespace Ethereum

/-- Why data of a contract call is refused. -/
inductive AbiError where
  /-- There is nothing to read. -/
  | empty
  /-- Data comes in words of 32 bytes. -/
  | notDivisible
  /-- The first position does not tell where the head ends. -/
  | headLength
  /-- An argument starts in the head. -/
  | startInHead
  /-- An argument starts inside a word. -/
  | startNotAligned
  /-- A position lies behind the end, or a height is too large. -/
  | startOutOfRange (position : Nat)
  /-- Arguments come in order and are not empty. -/
  | startOrder
  /-- Data has not the length it should have. -/
  | tooShort (needed found : Nat)
  /-- An address is no account. -/
  | address
  /-- A number fits in a word. -/
  | uint256Overflow
  /-- A field fills a word. -/
  | notWord (field : String) (length : Nat)
  deriving DecidableEq, Repr

/-- The wording of an error. -/
def AbiError.message : AbiError → String
  | empty => "input data empty"
  | notDivisible => "input data length not divisible by 32"
  | headLength => "invalid head length"
  | startInHead => "start position inside the header"
  | startNotAligned => "start position not divisible by 32"
  | startOutOfRange position => s!"start position out of range: {position}"
  | startOrder => "start positions not in ascending order"
  | tooShort needed found => s!"input data too short: need {needed}, have {found}"
  | address => "invalid address"
  | uint256Overflow => "value does not fit into 256 bits"
  | notWord field length => s!"{field} must be 32 bytes but got {length}"

/-- A rule that is broken. -/
inductive Rule where
  /-- A contract call is well formed. -/
  | abi (error : AbiError)
  /-- The chain is known by its number. -/
  | chainId (chainId : ChainId)
  /-- The number of a chain leaves room for the parity of a signature. -/
  | chainTooLarge (chain : UInt64)
  /-- A transaction belongs to the chain it is read for. -/
  | foreignChain (expected found : UInt64)
  /-- Keys are secp256k1 keys. -/
  | unsupportedAlgorithm (algorithm : Algorithm)
  /-- A key spells a point. -/
  | publicKey
  /-- A signature has two scalars and a parity. -/
  | signatureLength (length : Nat)
  /-- A parity is zero or one. -/
  | recovery (parity : UInt8)
  /-- The parity on the wire tells the chain. -/
  | signatureV (v : UInt64)
  /-- The scalars of a signature are in range. -/
  | signatureRange
  /-- A signature belongs to some key. -/
  | unrecoverable
  /-- A quantity is a numeral. -/
  | quantity (text : String)
  /-- Gas and swaps are paid in ether. -/
  | notEther (ticker : String)
  /-- An amount is counted in the unit of its token. -/
  | fractionalDigits (expected found : UInt32)
  /-- A nonce counts from zero. -/
  | negativeNonce (nonce : Int64)
  /-- A fee names the price of gas. -/
  | gasPrice
  /-- A fee limits the gas. -/
  | gasLimit
  /-- Swaps need their contract. -/
  | noSwapContract
  /-- Tokens need their contract. -/
  | unsupportedToken (ticker : String)
  /-- Token transfers have no room for a memo. -/
  | tokenMemo
  /-- Swap offers have no room for a memo. -/
  | offerMemo
  /-- A swap offers one amount. -/
  | amountCount (count : Nat)
  /-- A swap ends at a height. -/
  | timestampTimeout
  /-- The swap contract is called by its methods. -/
  | swapMethod
  deriving DecidableEq, Repr

/-- The wording of a rule. -/
def Rule.message : Rule → String
  | abi error => error.message
  | chainId id => s!"invalid ethereum chain id: {id}"
  | chainTooLarge chain => s!"chain id too large: {chain.toNat}"
  | foreignChain expected found =>
    s!"chain id mismatch: expected {expected.toNat} but transaction is for {found.toNat}"
  | unsupportedAlgorithm algorithm => s!"unsupported algorithm: {algorithm.name}"
  | publicKey => "invalid secp256k1 public key"
  | signatureLength length =>
    s!"signature must be 65 bytes (r, s, recovery) but was {length}"
  | recovery parity => s!"invalid recovery param: {parity.toNat}"
  | signatureV v => s!"invalid signature v: {v.toNat}"
  | signatureRange => "invalid signature: signature error"
  | unrecoverable => "cannot recover public key: signature error"
  | quantity text => s!"invalid quantity: {Quoted.text text}"
  | notEther ticker => s!"expected ETH amount but got {ticker}"
  | fractionalDigits expected found =>
    s!"fractional digits must be {expected.toNat} but was {found.toNat}"
  | negativeNonce nonce => s!"nonce must not be negative but was {Numeral.ofInt nonce.toInt}"
  | gasPrice => "gasPrice must be set"
  | gasLimit => "gasLimit must be set"
  | noSwapContract => "no atomic swap contract configured"
  | unsupportedToken ticker => s!"unsupported token ticker: {ticker}"
  | tokenMemo => "memo is not supported for ERC20 transfers"
  | offerMemo => "memo is not supported for swap offers"
  | amountCount count => s!"swap offer must contain exactly one amount but got {count}"
  | timestampTimeout => "swap timeout must be a block height"
  | swapMethod => "unknown atomic swap contract method"

/-- What makes a signed transaction unreadable. -/
inductive Flaw where
  /-- The bytes are no item. -/
  | rlp (error : Rlp.Error)
  /-- Bytes follow the item. -/
  | trailing
  /-- The item is no list. -/
  | notList
  /-- The list has nine items. -/
  | itemCount (count : Nat)
  /-- An account has 20 bytes. -/
  | recipientLength (length : Nat)
  /-- A number starts with no zero. -/
  | leadingZeros (field : String)
  /-- A number fits in 64 bits. -/
  | outOfRange (field : String) (value : Nat)
  /-- A scalar fits in 32 bytes. -/
  | scalarLength (field : String)
  deriving DecidableEq, Repr

/-- The wording of a flaw. -/
def Flaw.message : Flaw → String
  | rlp error => s!"rlp: {error.message}"
  | trailing => "trailing bytes after transaction"
  | notList => "transaction is not an rlp list"
  | itemCount count => s!"expected 9 rlp items but got {count}"
  | recipientLength length => s!"recipient must be 20 bytes but was {length}"
  | leadingZeros field => s!"{field} has leading zeros"
  | outOfRange field value => s!"{field} out of range: {value}"
  | scalarLength field => s!"{field} longer than 32 bytes"

/-- An answer of the codec. -/
abbrev Result (α : Type) := Except (Rejection Rule Flaw) α

/-- An answer about contract calls as one of the codec. -/
def Result.ofAbi {α : Type} : Except AbiError α → Result α
  | .ok x => .ok x
  | .error e => .error (.invalid (.abi e))

end Ethereum

end ChainKit
