import ChainKit.Wallet.Book

/-!
# Wallets — what all of them share

A wallet has an identifier, perhaps a label, and a book of identities. Its
document lists the same; which further fields there are, and how the data
of an identity is written, depends on the kind of wallet. A wallet whose
document lacks an identifier gets a fresh one.
-/

namespace ChainKit

open Text Keys

namespace Wallet

/-- What an identity is made from. -/
inductive Source where
  /-- A private key of 32 bytes for ed25519. -/
  | privateKey (data : Bytes)
  /-- A path below a seed. -/
  | path (path : Path)
  /-- An index on a device. -/
  | index (index : UInt32)
  deriving DecidableEq

/-- What all wallets have. -/
structure Base (α : Type) where
  id : WalletId
  label : Option String := none
  book : Book α := {}
  deriving DecidableEq

/-- A source of fresh identifiers, of which some are used. -/
structure IdSource where
  draw : Nat → WalletId
  used : Nat := 0

/-- An answer of something that may need fresh identifiers. -/
abbrev Drawing (α : Type) := StateT IdSource (Except Error) α

/-- A fresh identifier. -/
def freshId : Drawing WalletId := fun ids =>
  .ok (ids.draw ids.used, { ids with used := ids.used + 1 })

namespace Base

variable {α : Type}

/-- The document of a wallet: `more` are the fields of its kind, and
`dataName` is the name of an identity's data. -/
def toJson (w : Base α) (more : List (String × Json)) (dataName : String) (writeData : α → Json) :
    Json :=
  .record ([("id", .str w.id)] ++ LocalIdentity.labelField w.label ++ more ++
    [("identities", .array (w.book.entries.map fun e =>
      .record [("localIdentity", e.holder.toJson), (dataName, writeData e.data)]))])

/-- The wallet as logs show it up to its book. -/
def inspectFront (w : Base α) : String :=
  "id: WalletId(" ++ Quoted.text w.id ++ "), label: " ++ LocalIdentity.inspectLabel w.label

end Base

/-- What a document says of a wallet. -/
structure Stored (α : Type) where
  id : Option WalletId
  label : Option String
  entries : List (Entry α)

namespace Stored

variable {α : Type}

/-- Reads an identity with its data. -/
def readEntry (dataName : String) (readData : Json → Option α) (j : Json) : Option (Entry α) := do
  let f ← j.fields? 2
  return {
    holder := ← f.required 0 "localIdentity" LocalIdentity.ofJson?
    data := ← f.required 1 dataName readData }

/-- Reads what all documents have; the identities stand at `place`. -/
def ofFields? (f : Json.Fields) (place : Nat) (dataName : String) (readData : Json → Option α) :
    Option (Stored α) := do
  let id ← f.withDefault 0 ["id"] none (Json.nullable? Json.text?)
  let label ← f.withDefault 1 ["label"] none (Json.nullable? Json.text?)
  let entries ← f.required place "identities" (Json.list? (readEntry dataName readData))
  return { id, label, entries }

/-- The identifier of a wallet, a fresh one if the document has none. -/
def identifier (s : Stored α) : Drawing WalletId :=
  match s.id with
  | some id => return id
  | none => freshId

/-- The book of the entries, which `check` may refuse or change. -/
def book {β : Type} (check : LocalIdentity → α → Result β) (s : Stored α) : Result (Book β) :=
  s.entries.foldlM (fun b e => do b.insert e.holder (← check e.holder e.data)) {}

end Stored

/-- Reads a document. -/
def readDocument {α : Type} (read : Json → Option α) (text : String) : Result α :=
  match (Json.parse? text).bind read with
  | some x => .ok x
  | none => .error (.document .malformed)

end Wallet

end ChainKit
