import ChainKit.Wallet.Error

/-!
# Identity books — what a wallet holds

A book lists identities in the order in which they were created, each with
the data that its wallet needs to sign for it. An identity is found by its
local identifier, which joins the chain, the scheme and the key; no two
entries have the same one.
-/

namespace ChainKit

open Text Keys

/-- The identifier of an identity in its wallet. -/
def Identity.localId (i : Identity) : String :=
  i.chainId ++ "|" ++ i.publicKey.algorithm.name ++ "|" ++ Hex.encode i.publicKey.data

/-- An identity with its label. -/
structure LocalIdentity where
  identity : Identity
  label : Option String := none
  deriving DecidableEq

namespace LocalIdentity

/-- The identity without its label, spelled. -/
def id (l : LocalIdentity) : String := l.identity.localId

/-- An optional text as logs show it. -/
def inspectLabel : Option String → String
  | none => "None"
  | some s => "Some(" ++ Quoted.text s ++ ")"

/-- The identity as logs show it. -/
def inspect (l : LocalIdentity) : String :=
  "LocalIdentity \x7b chain_id: ChainId(" ++ Quoted.text l.identity.chainId ++ "), pubkey: " ++
    l.identity.publicKey.inspect ++ ", label: " ++ inspectLabel l.label ++ " \x7d"

/-- The label as a field, left out where there is none. -/
def labelField (label : Option String) : List (String × Json) :=
  match label with
  | none => []
  | some s => [("label", .str s)]

def toJson (l : LocalIdentity) : Json :=
  .record ([("chainId", .str l.identity.chainId), ("pubkey", l.identity.publicKey.toJson)] ++
    labelField l.label)

def ofJson? (j : Json) : Option LocalIdentity := do
  let f ← j.fields? 3
  let chainId ← f.withDefault 0 ["chainId"] "" Json.text?
  let publicKey ← f.required 1 "pubkey" PublicKey.ofJson?
  let label ← f.withDefault 2 ["label", "nickname"] none (Json.nullable? Json.text?)
  return { identity := ⟨chainId, publicKey⟩, label }

end LocalIdentity

namespace Wallet

/-- An identity and what is needed to sign for it. -/
structure Entry (α : Type) where
  holder : LocalIdentity
  data : α
  deriving DecidableEq

/-- Identities in the order of their creation. -/
structure Book (α : Type) where
  entries : List (Entry α) := []
  deriving DecidableEq

namespace Book

variable {α : Type}

/-- The identities. -/
def identities (b : Book α) : List LocalIdentity := b.entries.map (·.holder)

/-- The entry of an identity. -/
def find? (b : Book α) (i : Identity) : Option (Entry α) :=
  b.entries.find? fun e => e.holder.id = i.localId

/-- The book with one more entry. -/
def insert (b : Book α) (holder : LocalIdentity) (data : α) : Result (Book α) :=
  if b.entries.any fun e => e.holder.id = holder.id then .error (.duplicateIdentity holder.id)
  else .ok ⟨b.entries ++ [⟨holder, data⟩]⟩

/-- The data of an identity. -/
def get (b : Book α) (i : Identity) : Result α :=
  match b.find? i with
  | some e => .ok e.data
  | none => .error (.identityNotFound i.localId)

/-- The label of an identity. -/
def label? (b : Book α) (i : Identity) : Option String := (b.find? i).bind (·.holder.label)

/-- Changes the first element for which a test holds. -/
def changeFirst {β : Type} (test : β → Bool) (change : β → β) : List β → List β
  | [] => []
  | x :: xs => if test x then change x :: xs else x :: changeFirst test change xs

/-- The book in which an identity has this label. -/
def setLabel (b : Book α) (i : Identity) (label : Option String) : Result (Book α) :=
  if (b.find? i).isSome then
    .ok ⟨changeFirst (fun e => e.holder.id = i.localId)
      (fun e => { e with holder := { e.holder with label } }) b.entries⟩
  else .error (.identityNotFound i.localId)

/-- The book as logs show it, given how they show data. -/
def inspect (inspectData : α → String) (b : Book α) : String :=
  "IdentityBook \x7b entries: [" ++
    ", ".intercalate (b.entries.map fun e =>
      "(" ++ e.holder.inspect ++ ", " ++ inspectData e.data ++ ")") ++ "] \x7d"

end Book

end Wallet

end ChainKit
