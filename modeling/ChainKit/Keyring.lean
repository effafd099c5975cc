import ChainKit.Wallet

/-!
# Keyrings — wallets in one document

A keyring lists wallets. Wallets are added under identifiers that the
keyring does not hold yet. Its document holds the document of every wallet
with the name of its kind; one that cannot be read spoils the keyring.
-/

namespace ChainKit

open Keys

/-- Wallets in the order in which they were added. -/
structure Keyring where
  wallets : List Wallet := []

namespace Keyring

open Wallet

/-- The first wallet of an identifier. -/
def find? (k : Keyring) (id : WalletId) : Option Wallet := k.wallets.find? fun w => w.id = id

/-- The keyring with one more wallet. -/
def add (k : Keyring) (w : Wallet) : Result Keyring :=
  if (k.find? w.id).isSome then .error (.duplicateWallet w.id) else .ok ⟨k.wallets ++ [w]⟩

/-- Changes the first wallet of an identifier. -/
def modify (k : Keyring) (id : WalletId) (change : Wallet → Wallet) : Keyring :=
  ⟨Book.changeFirst (fun w => w.id = id) change k.wallets⟩

/-- The first wallet that holds an identity. -/
def holderOf? (k : Keyring) (i : Identity) : Option Wallet :=
  k.wallets.find? fun w => w.identities.any fun l => l.identity = i

/-- Connects every wallet on a device to this one. -/
def connect (k : Keyring) (device : Device) : Keyring :=
  ⟨k.wallets.map fun
    | .ledger w => .ledger (w.connect device)
    | w => w⟩

/-- How many wallets are on a device. -/
def ledgerCount (k : Keyring) : Nat :=
  (k.wallets.filter fun
    | .ledger _ => true
    | _ => false).length

def toJson (k : Keyring) : Json :=
  .record [("entries", .array (k.wallets.map fun w =>
    .record [("implementationId", .str w.kind), ("data", .str w.text)]))]

/-- The document of the keyring. -/
def text (k : Keyring) : String := k.toJson.render

/-- The kind and the document of a wallet. -/
structure Entry where
  kind : String
  data : String
  deriving DecidableEq

/-- Reads the kind and the document of a wallet. -/
def readEntry (j : Json) : Option Entry := do
  let f ← j.fields? 2
  return {
    kind := ← f.required 0 "implementationId" Json.text?
    data := ← f.required 1 "data" Json.text? }

/-- Reads the entries of a keyring. -/
def readEntries (j : Json) : Option (List Entry) := do
  let f ← j.fields? 1
  f.required 0 "entries" (Json.list? readEntry)

/-- Reads a keyring. -/
def ofText (tries : Nat) (text : String) : Drawing Keyring := do
  let entries ← readDocument readEntries text
  let wallets ← entries.mapM fun e => Wallet.ofText tries e.kind e.data
  return { wallets }

end Keyring

end ChainKit
