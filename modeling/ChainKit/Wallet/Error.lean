import ChainKit.Keys.Derivation
import ChainKit.Keys.Mnemonic

/-!
# What wallets refuse

The causes for which a wallet, a device or a keyring refuses to do
something, each with its wording.
-/

namespace ChainKit

open Text Keys

/-- The identifier of a wallet. -/
abbrev WalletId := String

namespace Wallet

/-- Why a device does not answer. -/
inductive DeviceError where
  /-- Its user cancelled. -/
  | cancelled
  /-- It stayed silent. -/
  | timeout
  /-- Its user rejected the request. -/
  | rejected
  /-- It was not understood. -/
  | communication (text : String)
  /-- There is none. -/
  | notConnected
  deriving DecidableEq, Repr

/-- The wording of an error. -/
def DeviceError.message : DeviceError → String
  | cancelled => "cancelled by user"
  | timeout => "device did not respond in time"
  | rejected => "rejected on device"
  | communication text => s!"device communication: {text}"
  | notConnected => "device not connected"

/-- Why a document is no wallet. -/
inductive DocumentError where
  /-- It has not the form of one. -/
  | malformed
  /-- A private key is not hexadecimal. -/
  | privateKeyHex (error : Hex.Error)
  /-- The path of an identity leads to another key. -/
  | foreignKey (path : Path)
  /-- The wallet is of another kind than its entry says. -/
  | foreignCurve (kind : String)
  deriving DecidableEq, Repr

/-- The wording of an error. -/
def DocumentError.message : DocumentError → String
  | malformed => "malformed document"
  | privateKeyHex error => s!"invalid privkey hex: {error.message}"
  | foreignKey path => s!"stored pubkey does not match derivation path {Path.text path}"
  | foreignCurve kind => s!"curve of wallet data does not match implementation {kind}"

/-- Why a wallet refuses. -/
inductive Error where
  | mnemonic (error : MnemonicError)
  | derivation (error : DerivationError)
  | key (error : KeyError)
  | device (error : DeviceError)
  | document (error : DocumentError)
  /-- The wallet holds no such identity. -/
  | identityNotFound (id : String)
  /-- The wallet holds the identity already. -/
  | duplicateIdentity (id : String)
  /-- The wallet makes identities from something else. -/
  | unsupportedOptions (reason : String)
  /-- The wallet does not do this. -/
  | unsupportedOperation (reason : String)
  /-- No wallet is of this kind. -/
  | unknownKind (kind : String)
  /-- The keyring holds the wallet already. -/
  | duplicateWallet (id : WalletId)
  deriving DecidableEq, Repr

/-- The wording of a refusal. -/
def Error.message : Error → String
  | mnemonic error => s!"invalid mnemonic: {error.message}"
  | derivation (.path error) => s!"invalid path: {error.message}"
  | derivation .exhausted => "key derivation: no key in range"
  | key (.unsupportedPrehash prehash) => KeyError.message (.unsupportedPrehash prehash)
  | key error => s!"invalid key: {error.message}"
  | device error => error.message
  | document error => s!"serialization: {error.message}"
  | identityNotFound id => s!"identity not found: {id}"
  | duplicateIdentity id => s!"identity already exists: {id}"
  | unsupportedOptions reason => s!"unsupported identity options: {reason}"
  | unsupportedOperation reason => s!"unsupported operation: {reason}"
  | unknownKind kind => s!"unknown wallet implementation: {kind}"
  | duplicateWallet id => s!"wallet already in keyring: {id}"

/-- An answer of a wallet. -/
abbrev Result (α : Type) := Except Error α

end Wallet

end ChainKit
