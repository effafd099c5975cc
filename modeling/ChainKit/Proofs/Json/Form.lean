import ChainKit.Ethereum.Options
import ChainKit.Proofs.Json.Reader
import ChainKit.Proofs.Json.Record
import ChainKit.Swap.Merger
import ChainKit.Transaction
import ChainKit.Wallet.Book
import Mathlib
/-!
# Values are read back from their texts

Keys, amounts, deadlines, options and identities each have a form in
documents: a record with its fields under names, of which some are null or
left out where there is nothing, a name out of a choice, a number, a text,
or bytes in digits. Each is read back from the tree that it is written as
(`ofJson?_toJson`, type by type), and the tree from its text. So a text
tells its value, and writing what was read from any text changes nothing
the second time (`Form.reads_back`).
-/

namespace ChainKit

open Keys

/-! ## Keys and signatures -/

theorem Algorithm.ofJson?_toJson (a : Algorithm) : ofJson? a.toJson = some a := by
  cases a <;> rfl

theorem Prehash.ofJson?_toJson (p : Prehash) : ofJson? p.toJson = some p := by
  cases p <;> rfl

theorem PublicKey.ofJson?_toJson (k : PublicKey) : ofJson? k.toJson = some k := by
  simp [ofJson?, toJson, Json.Fields.required, Json.Fields.find?, Algorithm.ofJson?_toJson]

theorem Identity.ofJson?_toJson (i : Identity) : ofJson? i.toJson = some i := by
  simp [ofJson?, toJson, Json.Fields.required, Json.Fields.find?, PublicKey.ofJson?_toJson]

theorem Signature.ofJson?_toJson (s : Signature) : ofJson? s.toJson = some s := by
  simp [ofJson?, toJson, Json.Fields.required, Json.Fields.find?, PublicKey.ofJson?_toJson]

/-- An identity is read back with its label, whatever characters they have. -/
theorem LocalIdentity.ofJson?_toJson (l : LocalIdentity) : ofJson? l.toJson = some l := by
  obtain ⟨⟨chainId, key⟩, label⟩ := l
  cases label <;> simp [ofJson?, toJson, labelField, Json.Fields.required, Json.Fields.withDefault,
    Json.Fields.find?, PublicKey.ofJson?_toJson]

theorem Keys.Path.ofJson?_toJson (p : Path) : Path.ofJson? (Path.toJson p) = some p :=
  (Json.list?_map fun i _ => by simp).trans (congrArg some (List.map_id p))

/-! ## Amounts and deadlines -/

theorem Amount.ofJson?_toJson (a : Amount) : ofJson? a.toJson = some a := by
  -- the word among the fields is given, since to unfold its reader is to count up to its bound
  simp only [ofJson?, toJson, Json.fields?_record, Option.bind_eq_bind, Option.bind_eq_some_iff,
    Json.Fields.required_eq_some, Option.pure_def, Option.some.injEq]
  exact ⟨_, rfl, _, ⟨_, rfl, rfl⟩, _, ⟨_, rfl, Json.uint32?_integer _⟩, _, ⟨_, rfl, rfl⟩, rfl⟩

/-- Each part of a fee is read back, and null where there is none. -/
theorem Fee.ofJson?_toJson (f : Fee) : ofJson? f.toJson = some f := by
  have hamount := Json.nullable?_nullable rfl Amount.ofJson?_toJson
  have hlimit : ∀ x, Json.nullable? Json.uint64? (Json.nullable (.integer ·.toNat) x) = some x :=
    Json.nullable?_nullable rfl Json.uint64?_integer
  simp [ofJson?, toJson, Json.Fields.optional, Json.Fields.find?, hamount, hlimit]

theorem Timeout.ofJson?_toJson (t : Timeout) : ofJson? t.toJson = some t := by
  cases t <;> simp [ofJson?, toJson, Json.record]

theorem ChainAddress.ofJson?_toJson (a : ChainAddress) : ofJson? a.toJson = some a := by
  simp [ofJson?, toJson, Json.Fields.required, Json.Fields.find?]

theorem Swap.Bounds.ofJson?_toJson (b : Bounds) : ofJson? b.toJson = some b := by
  simp only [ofJson?, toJson, Json.fields?_record, Option.bind_eq_bind, Option.bind_eq_some_iff,
    Json.Fields.withDefault_eq_some, Option.pure_def, Option.some.injEq]
  exact ⟨_, rfl, _, .inl ⟨_, rfl, Json.uint64?_integer _⟩, _,
    .inl ⟨_, rfl, Json.uint64?_integer _⟩, rfl⟩

/-! ## Contracts -/

namespace Ethereum

theorem Token.ofJson?_toJson (t : Token) : ofJson? t.toJson = some t := by
  simp only [ofJson?, toJson, Json.fields?_record, Option.bind_eq_bind, Option.bind_eq_some_iff,
    Json.Fields.required_eq_some, Option.pure_def, Option.some.injEq]
  exact ⟨_, rfl, _, ⟨_, rfl, rfl⟩, _, ⟨_, rfl, Json.uint32?_integer _⟩, _, ⟨_, rfl, rfl⟩, rfl⟩

/-- Options are read back, with the tokens in the order of their names. -/
theorem Options.ofJson?_toJson (o : Options) : ofJson? o.toJson = some o := by
  have hcontract := Json.nullable?_nullable rfl Json.text?_str
  have htokens := Json.map?_map Token.ofJson?_toJson
  simp [ofJson?, toJson, Json.Fields.withDefault, Json.Fields.find?, hcontract, htokens]

end Ethereum

namespace Json

/-! ## Forms -/

/-- What stands in a document by itself. -/
inductive Form where
  | identity
  | publicKey
  | amount
  | fee
  | swapId
  | timeout
  | prehash
  | algorithm
  | signature
  | nonce
  | chainAddress
  | bounds
  | token
  | options
  | localIdentity
  | path
  | walletId

namespace Form

/-- The values that have the form. -/
def Value : Form → Type
  | identity => Identity
  | publicKey => PublicKey
  | amount => Amount
  | fee => Fee
  | swapId => SwapId
  | timeout => Timeout
  | prehash => Prehash
  | algorithm => Algorithm
  | signature => Signature
  | nonce => Nonce
  | chainAddress => ChainAddress
  | bounds => Swap.Bounds
  | token => Ethereum.Token
  | options => Ethereum.Options
  | localIdentity => LocalIdentity
  | path => Path
  | walletId => WalletId

/-- A value as a tree. -/
def toJson : (form : Form) → form.Value → Json
  | identity => Identity.toJson
  | publicKey => PublicKey.toJson
  | amount => Amount.toJson
  | fee => Fee.toJson
  | swapId => hex
  | timeout => Timeout.toJson
  | prehash => Prehash.toJson
  | algorithm => Algorithm.toJson
  | signature => Signature.toJson
  | nonce => fun n => .integer n.toInt
  | chainAddress => ChainAddress.toJson
  | bounds => Swap.Bounds.toJson
  | token => Ethereum.Token.toJson
  | options => Ethereum.Options.toJson
  | localIdentity => LocalIdentity.toJson
  | path => Path.toJson
  | walletId => str

/-- The value that a tree stands for, if it has the form. -/
def ofJson? : (form : Form) → Json → Option form.Value
  | identity => Identity.ofJson?
  | publicKey => PublicKey.ofJson?
  | amount => Amount.ofJson?
  | fee => Fee.ofJson?
  | swapId => hex?
  | timeout => Timeout.ofJson?
  | prehash => Prehash.ofJson?
  | algorithm => Algorithm.ofJson?
  | signature => Signature.ofJson?
  | nonce => int64?
  | chainAddress => ChainAddress.ofJson?
  | bounds => Swap.Bounds.ofJson?
  | token => Ethereum.Token.ofJson?
  | options => Ethereum.Options.ofJson?
  | localIdentity => LocalIdentity.ofJson?
  | path => Path.ofJson?
  | walletId => text?

variable (form : Form)

/-- The text of a value. -/
def text (x : form.Value) : String := (form.toJson x).render

/-- The value that a text stands for, if it has the form. -/
def ofText? (text : String) : Option form.Value := (parse? text).bind form.ofJson?

/-- The text of what was read from a text. -/
def rewrite? (text : String) : Option String := (form.ofText? text).map form.text

/-- Every value is read back from its tree. -/
theorem ofJson?_toJson (x : form.Value) : form.ofJson? (form.toJson x) = some x := by
  cases form with
  | identity => exact Identity.ofJson?_toJson x
  | publicKey => exact PublicKey.ofJson?_toJson x
  | amount => exact Amount.ofJson?_toJson x
  | fee => exact Fee.ofJson?_toJson x
  | swapId => exact hex?_hex x
  | timeout => exact Timeout.ofJson?_toJson x
  | prehash => exact Prehash.ofJson?_toJson x
  | algorithm => exact Algorithm.ofJson?_toJson x
  | signature => exact Signature.ofJson?_toJson x
  | nonce => exact int64?_integer x
  | chainAddress => exact ChainAddress.ofJson?_toJson x
  | bounds => exact Swap.Bounds.ofJson?_toJson x
  | token => exact Ethereum.Token.ofJson?_toJson x
  | options => exact Ethereum.Options.ofJson?_toJson x
  | localIdentity => exact LocalIdentity.ofJson?_toJson x
  | path => exact Path.ofJson?_toJson x
  | walletId => exact text?_str x

/-- Every value is read back from its text. -/
theorem ofText?_text (x : form.Value) : form.ofText? (form.text x) = some x := by
  rw [ofText?, text, parse?_render, Option.bind_some, form.ofJson?_toJson]

/-- The text of a value stays as it is. -/
theorem rewrite?_text (x : form.Value) : form.rewrite? (form.text x) = some (form.text x) := by
  rw [rewrite?, form.ofText?_text, Option.map_some]

/-- **Every value is read back from its text**, in every form, so that other values have other
texts; and a text that was read, however it was spelled, is written as one that stays as it is. -/
theorem reads_back (x y : form.Value) (s : String) :
    form.ofText? (form.text x) = some x ∧ (form.text x = form.text y ↔ x = y) ∧
      (form.rewrite? s).bind form.rewrite? = form.rewrite? s := by
  refine ⟨form.ofText?_text x, ⟨fun h => ?_, fun h => h ▸ rfl⟩, ?_⟩
  · have hread := form.ofText?_text y
    rw [← h, form.ofText?_text, Option.some.injEq] at hread
    exact hread
  · cases hread : form.ofText? s with
    | none => rw [rewrite?, hread, Option.map_none, Option.bind_none]
    | some z =>
      have hwritten : form.rewrite? s = some (form.text z) := by
        rw [rewrite?, hread, Option.map_some]
      rw [hwritten, Option.bind_some, form.rewrite?_text]

end Form

end Json

end ChainKit
