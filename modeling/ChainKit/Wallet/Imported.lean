import ChainKit.Wallet.Basic

/-!
# Wallets of imported keys

Each identity has its own ed25519 key; the keys have nothing in common.
-/

namespace ChainKit

open Text Keys

namespace Wallet

/-- A wallet of imported keys. -/
structure Imported where
  base : Base Bytes
  deriving DecidableEq

namespace Imported

/-- The name of the kind. -/
def kind : String := "ed25519"

/-- A wallet without identities. -/
def new (id : WalletId) : Imported := ⟨{ id }⟩

/-- Creates the identity of a private key. -/
def createIdentity (w : Imported) (chainId : ChainId) : Source → Result (LocalIdentity × Imported)
  | .privateKey data => do
    let publicKey ← (PrivateKey.publicKey ⟨.ed25519, data⟩).mapError .key
    let holder : LocalIdentity := { identity := ⟨chainId, publicKey⟩ }
    let book ← w.base.book.insert holder data
    return (holder, ⟨{ w.base with book }⟩)
  | _ => .error (.unsupportedOptions "ed25519 wallet needs a keypair")

/-- Signs for an identity. -/
def sign (w : Imported) (i : Identity) (message : Bytes) (prehash : Prehash) : Result Bytes := do
  let data ← w.base.book.get i
  (PrivateKey.sign ⟨.ed25519, data⟩ message prehash).mapError .key

/-- The private key that a text spells, with or without blanks around. -/
def keyOfText (_ : LocalIdentity) (text : String) : Result Bytes :=
  (Hex.decode (String.ofList (trim text.toList))).mapError fun e => .document (.privateKeyHex e)

/-- Reads a wallet. -/
def ofText (text : String) : Drawing Imported := do
  let read (j : Json) : Option (Stored String) := do
    Stored.ofFields? (← j.fields? 3) 2 "privkey" Json.text?
  let stored ← readDocument read text
  let book ← stored.book keyOfText
  return ⟨{ id := ← stored.identifier, label := stored.label, book }⟩

def toJson (w : Imported) : Json := w.base.toJson [] "privkey" Json.hex

/-- The wallet as logs show it: without its keys. -/
def inspect (w : Imported) : String :=
  "Ed25519(Ed25519Wallet \x7b " ++ w.base.inspectFront ++ ", book: " ++
    w.base.book.inspect (fun _ => "SecretBytes([REDACTED])") ++ " \x7d)"

end Imported

end Wallet

end ChainKit
