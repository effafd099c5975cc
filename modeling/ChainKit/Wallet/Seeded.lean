import ChainKit.Wallet.Basic

/-!
# Wallets below one seed

All keys are derived from one mnemonic, each along the path that is stored
with its identity. A document whose paths lead to other keys than it says
is refused. How often a key is tried is up to the caller.
-/

namespace ChainKit

open Text Keys

namespace Wallet

/-- A wallet below one seed. The seed is kept, since it is slow to stretch. -/
structure Seeded where
  base : Base Path
  curve : Algorithm
  mnemonic : Mnemonic
  seed : Bytes
  seed_eq : seed = mnemonic.seed

namespace Seeded

/-- The name of the kind. -/
def kind : Algorithm → String
  | .ed25519 => "ed25519-hd"
  | .secp256k1 => "secp256k1-hd"

/-- A wallet without identities. -/
def new (id : WalletId) (curve : Algorithm) (mnemonic : Mnemonic) : Seeded :=
  { base := { id }, curve, mnemonic, seed := mnemonic.seed, seed_eq := rfl }

variable (tries : Nat)

/-- The private key at a path. -/
def privateKeyAt (curve : Algorithm) (seed : Bytes) (path : Path) : Result PrivateKey :=
  match Node.deriveWithin tries curve seed path with
  | .ok node => .ok node.privateKey
  | .error e => .error (.derivation e)

/-- The public key at a path. -/
def publicKeyAt (curve : Algorithm) (seed : Bytes) (path : Path) : Result PublicKey := do
  let key ← privateKeyAt tries curve seed path
  key.publicKey.mapError .key

/-- Creates the identity at a path. -/
def createIdentity (w : Seeded) (chainId : ChainId) : Source → Result (LocalIdentity × Seeded)
  | .path path => do
    let publicKey ← publicKeyAt tries w.curve w.seed path
    let holder : LocalIdentity := { identity := ⟨chainId, publicKey⟩ }
    let book ← w.base.book.insert holder path
    return (holder, { w with base := { w.base with book } })
  | _ => .error (.unsupportedOptions "HD wallet needs a derivation path")

/-- Signs for an identity. -/
def sign (w : Seeded) (i : Identity) (message : Bytes) (prehash : Prehash) : Result Bytes := do
  let path ← w.base.book.get i
  let key ← privateKeyAt tries w.curve w.seed path
  (key.sign message prehash).mapError .key

/-- The path of an identity, if it leads to the identity's key. -/
def checkPath (curve : Algorithm) (seed : Bytes) (holder : LocalIdentity) (path : Path) :
    Result Path := do
  let publicKey ← publicKeyAt tries curve seed path
  if publicKey ≠ holder.identity.publicKey then .error (.document (.foreignKey path))
  else return path

/-- What a document says of a wallet below a seed. -/
structure Document where
  stored : Stored Path
  secret : String
  curve : Algorithm

/-- Reads a curve. -/
def curve? : Json → Option Algorithm := Json.choice? seedName [.ed25519, .secp256k1]

/-- Reads the fields of a document. -/
def document? (j : Json) : Option Document := do
  let f ← j.fields? 5
  return {
    stored := ← Stored.ofFields? f 4 "privkeyPath" Path.ofJson?
    secret := ← f.required 2 "secret" Json.text?
    curve := ← f.required 3 "curve" curve? }

/-- Reads a wallet. -/
def ofText (text : String) : Drawing Seeded := do
  let d ← readDocument document? text
  let mnemonic ← (Mnemonic.ofPhrase d.secret).mapError Error.mnemonic
  let w := new "" d.curve mnemonic
  let book ← d.stored.book (checkPath tries w.curve w.seed)
  return { w with base := { id := ← d.stored.identifier, label := d.stored.label, book } }

def toJson (w : Seeded) : Json :=
  w.base.toJson [("secret", .str w.mnemonic.phrase), ("curve", .str (seedName w.curve))]
    "privkeyPath" Path.toJson

/-- A path as logs show it. -/
def inspectPath (p : Path) : String :=
  "[" ++ ", ".intercalate (p.map fun i => s!"Slip10RawIndex({i.raw.toNat})") ++ "]"

/-- A curve as logs show it. -/
def inspectCurve : Algorithm → String
  | .ed25519 => "Ed25519"
  | .secp256k1 => "Secp256k1"

/-- The wallet as logs show it: without its secret. -/
def inspect (w : Seeded) : String :=
  "Slip10(Slip10Wallet \x7b " ++ w.base.inspectFront ++ ", curve: " ++ inspectCurve w.curve ++
    ", secret: " ++ w.mnemonic.inspect ++ ", seed: " ++ Mnemonic.inspectSeed ++ ", book: " ++
    w.base.book.inspect inspectPath ++ " \x7d)"

end Seeded

end Wallet

end ChainKit
