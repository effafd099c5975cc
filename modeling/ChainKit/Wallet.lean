import ChainKit.Wallet.Imported
import ChainKit.Wallet.Ledger
import ChainKit.Wallet.Seeded

/-!
# Wallets of every kind

A wallet imports its keys, derives them from a seed or leaves them on a
device. The name of its kind tells how its document is to be read. What
derives keys takes the number of tries for each of them.
-/

namespace ChainKit

open Keys

/-- A wallet of any kind. -/
inductive Wallet where
  | imported (wallet : Wallet.Imported)
  | seeded (wallet : Wallet.Seeded)
  | ledger (wallet : Wallet.Ledger)

namespace Wallet

/-- The identifier. -/
def id : Wallet → WalletId
  | imported w => w.base.id
  | seeded w => w.base.id
  | ledger w => w.base.id

/-- The label. -/
def label : Wallet → Option String
  | imported w => w.base.label
  | seeded w => w.base.label
  | ledger w => w.base.label

/-- The name of the kind. -/
def kind : Wallet → String
  | imported _ => Imported.kind
  | seeded w => Seeded.kind w.curve
  | ledger _ => Ledger.kind

/-- The identities in the order of their creation. -/
def identities : Wallet → List LocalIdentity
  | imported w => w.base.book.identities
  | seeded w => w.base.book.identities
  | ledger w => w.base.book.identities

/-- Whether the wallet can sign now. -/
def canSign : Wallet → Bool
  | ledger w => w.connectedDevice.isOk
  | _ => true

/-- The wallet under another label. -/
def setLabel (label : Option String) : Wallet → Wallet
  | imported w => imported { w with base := { w.base with label } }
  | seeded w => seeded { w with base := { w.base with label } }
  | ledger w => ledger { w with base := { w.base with label } }

/-- Creates an identity. -/
def createIdentity (tries : Nat) (chainId : ChainId) (source : Source) :
    Wallet → Result (LocalIdentity × Wallet)
  | imported w => (w.createIdentity chainId source).map fun (l, w) => (l, imported w)
  | seeded w => (w.createIdentity tries chainId source).map fun (l, w) => (l, seeded w)
  | ledger w => (w.createIdentity chainId source).map fun (l, w) => (l, ledger w)

/-- The wallet in which an identity has this label. -/
def setIdentityLabel (i : Identity) (label : Option String) : Wallet → Result Wallet
  | imported w => (w.base.book.setLabel i label).map fun book =>
    imported { w with base := { w.base with book } }
  | seeded w => (w.base.book.setLabel i label).map fun book =>
    seeded { w with base := { w.base with book } }
  | ledger w => (w.base.book.setLabel i label).map fun book =>
    ledger { w with base := { w.base with book } }

/-- The label of an identity. -/
def identityLabel (i : Identity) : Wallet → Option String
  | imported w => w.base.book.label? i
  | seeded w => w.base.book.label? i
  | ledger w => w.base.book.label? i

/-- Signs for an identity. -/
def sign (tries : Nat) (i : Identity) (message : Bytes) (prehash : Prehash) : Wallet → Result Bytes
  | imported w => w.sign i message prehash
  | seeded w => w.sign tries i message prehash
  | ledger w => w.sign false i message

/-- The secret to write down. -/
def secret : Wallet → Result String
  | imported _ => .error (.unsupportedOperation "imported keys have no common secret")
  | seeded w => .ok w.mnemonic.phrase
  | ledger _ => .error (.unsupportedOperation "the secret never leaves the device")

def toJson : Wallet → Json
  | imported w => w.toJson
  | seeded w => w.toJson
  | ledger w => w.toJson

/-- The document of the wallet. -/
def text (w : Wallet) : String := w.toJson.render

/-- The wallet as logs show it. -/
def inspect : Wallet → String
  | imported w => w.inspect
  | seeded w => w.inspect
  | ledger w => w.inspect

/-- Reads a wallet below a seed, on the curve that its kind tells. -/
def seededOfText (tries : Nat) (kind text : String) : Drawing Wallet := do
  let w ← Seeded.ofText tries text
  if Seeded.kind w.curve ≠ kind then throw (.document (.foreignCurve kind))
  else return seeded w

/-- Reads a wallet of a kind. -/
def ofText (tries : Nat) (kind text : String) : Drawing Wallet :=
  if kind = Imported.kind then imported <$> Imported.ofText text
  else if kind = Seeded.kind .ed25519 ∨ kind = Seeded.kind .secp256k1 then
    seededOfText tries kind text
  else if kind = Ledger.kind then ledger <$> Ledger.ofText text
  else throw (.unknownKind kind)

end Wallet

end ChainKit
