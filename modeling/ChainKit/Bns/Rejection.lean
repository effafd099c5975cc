import ChainKit.Account
import ChainKit.Rejection
import ChainKit.Text.Bech32
import ChainKit.Text.Encoding
import ChainKit.Text.Numeral

/-!
# What BNS rejects

The rules of the Blockchain Name Service that a transaction or a stored
object may break, each with its wording.
-/

namespace ChainKit

open Text

namespace Bns

/-- The halves of a coin. -/
inductive CoinPart where
  | whole
  | fractional
  deriving DecidableEq, Repr

/-- The name of a half. -/
def CoinPart.name : CoinPart → String
  | whole => "whole"
  | fractional => "fractional"

/-- A rule that is broken. -/
inductive Rule where
  /-- An account has 20 bytes. -/
  | addressLength (length : Nat)
  /-- An address is spelled in bech32. -/
  | notBech32 (address : String) (error : Bech32.Error)
  /-- An address has a known prefix. -/
  | addressPrefix (hrp : String)
  /-- An address belongs to the network of its chain. -/
  | foreignAddress (address hrp chainId expected : String)
  /-- Keys are ed25519 keys. -/
  | unsupportedAlgorithm (algorithm : Algorithm)
  /-- Tokens have nine fractional digits. -/
  | fractionalDigits (found : UInt32)
  /-- A quantity consists of digits. -/
  | quantity (text : String)
  /-- A half of a coin fits in 64 bits. -/
  | componentRange (part : CoinPart) (digits : String)
  /-- A half of a coin is not negative. -/
  | negativeComponent (part : CoinPart)
  /-- Fewer than a billion billionths make up a fraction. -/
  | fractionalTooLarge
  /-- Deadlines are times, not heights. -/
  | heightTimeout
  /-- Tokens are sent by the account that signs. -/
  | senderNotCreator
  /-- A swap's hash has 32 bytes. -/
  | hashLength
  /-- A username ends in its namespace. -/
  | usernameNamespace
  /-- One party of an escrow is replaced at a time. -/
  | partyCount (count : Nat)
  /-- A validator is named by its key. -/
  | validatorKey (key : String)
  /-- A public key names its scheme. -/
  | unknownKeyAlgorithm
  /-- A signature names its scheme. -/
  | unknownSignatureAlgorithm
  /-- An identifier fits in 64 bits. -/
  | idRange (field : String) (value : Nat)
  /-- An elector stands in a list once. -/
  | duplicateElector (address : String) (index : Nat)
  /-- The zero of an enumeration stands for nothing. -/
  | reservedValue (name : String)
  /-- A choice is one of those known. -/
  | unknownValue (what : String) (value : Int32)
  /-- A proposal does one thing. -/
  | multipleOptions
  /-- A proposal does something known. -/
  | unsupportedOption
  /-- A transaction holds one action. -/
  | messageCount (count : Nat)
  /-- The name of a chain fits its length byte. -/
  | chainIdLength (length : Nat)
  deriving DecidableEq, Repr

/-- The wording of a rule. -/
def Rule.message : Rule → String
  | addressLength length => s!"invalid address length: expected 20, got {length}"
  | notBech32 address error => s!"invalid bech32 address {address}: {error.message}"
  | addressPrefix hrp => s!"invalid address prefix: {hrp}"
  | foreignAddress address hrp chainId expected =>
    s!"address {address} has prefix {hrp} but chain {chainId} uses {expected}"
  | unsupportedAlgorithm algorithm => s!"unsupported algorithm: {algorithm.name}"
  | fractionalDigits found => s!"fractional digits must be 9 but was {found.toNat}"
  | quantity text => s!"invalid quantity: {Quoted.text text}"
  | componentRange part digits => s!"component `{part.name}` out of range: {digits}"
  | negativeComponent part => s!"component `{part.name}` must not be negative"
  | fractionalTooLarge => "component `fractional` must be less than 1000000000"
  | heightTimeout => "got unsupported timeout type"
  | senderNotCreator => "sender and creator do not match (currently unsupported)"
  | hashLength => "hash must be 32 bytes (sha256)"
  | usernameNamespace =>
    "username must be a full human readable address including the namespace suffix \"*iov\""
  | partyCount count => s!"only one party can be updated at a time, got {count}"
  | validatorKey key =>
    "validators key " ++ Quoted.text key ++
      " has unexpected format, must be 'ed25519_<pubkey_hex>'"
  | unknownKeyAlgorithm => "unknown public key algorithm"
  | unknownSignatureAlgorithm => "unknown signature algorithm"
  | idRange field value => s!"{field} out of range: {value}"
  | duplicateElector address index => s!"duplicate elector {address} at electors.${index}"
  | reservedValue name => s!"{name} must not be used"
  | unknownValue what value => s!"unknown {what} {Numeral.ofInt value.toInt}"
  | multipleOptions => "multiple proposal options set"
  | unsupportedOption => "unsupported proposal option"
  | messageCount count => s!"expected exactly one message, got {count}"
  | chainIdLength length => s!"chain id too long: {length} bytes"

/-- What makes bytes unreadable. -/
inductive Flaw where
  /-- The bytes are no message of the schema. -/
  | malformed
  /-- A username is not text. -/
  | usernameNotText (error : Utf8.Error)
  deriving DecidableEq, Repr

/-- The wording of a flaw. -/
def Flaw.message : Flaw → String
  | malformed => "protobuf"
  | usernameNotText error => s!"username: {error.message}"

/-- An answer of the codec. -/
abbrev Result (α : Type) := Except (Rejection Rule Flaw) α

end Bns

end ChainKit
