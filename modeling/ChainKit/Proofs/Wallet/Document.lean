import ChainKit.Proofs.Json.Form
import ChainKit.Proofs.Keys.Mnemonic
import ChainKit.Proofs.Wallet.Made
import Mathlib
/-!
# Wallets are read back from their documents

The document of a wallet lists what its book holds, and reading inserts it
again. Identities that are apart are all taken, keys below a seed are
derived anew and found to be the stored ones, and a phrase tells its
secret, so every wallet that came about is read back (`ofText_text`). Only
a device, and the patience with it, is in no document.
-/

namespace ChainKit

open Text Keys

namespace Wallet

/-! ## What all documents have -/

variable {α β : Type}

/-- The fields of a wallet's document. -/
def Base.fields (w : Base α) (more : List (String × Json)) (dataName : String)
    (writeData : α → Json) : List (String × Json) :=
  [("id", .str w.id)] ++ LocalIdentity.labelField w.label ++ more ++
    [("identities", .array (w.book.entries.map fun e =>
      .record [("localIdentity", e.holder.toJson), (dataName, writeData e.data)]))]

namespace Stored

/-- An entry is read back if its data is. -/
theorem readEntry_record {dataName : String} {readData : Json → Option α} {j : Json} {data : α}
    (hname : dataName ≠ "localIdentity") (hdata : readData j = some data) (l : LocalIdentity) :
    readEntry dataName readData (.record [("localIdentity", l.toJson), (dataName, j)]) =
      some ⟨l, data⟩ := by
  simp [readEntry, Json.Fields.required, Json.Fields.find?, LocalIdentity.ofJson?_toJson, hname,
    hname.symm, hdata]

/-- **What all documents have is read back**: identifier, label and entries, among whatever
further fields. -/
theorem ofFields?_fields (w : Base β) (more : List (String × Json)) (place : Nat)
    (dataName : String) {writeData : β → Json} {readData : Json → Option α} {write : β → α}
    (hmore : ∀ m ∈ more, m.1 ∉ ["id", "label", "identities"]) (hname : dataName ≠ "localIdentity")
    (hdata : ∀ x, readData (writeData x) = some (write x)) :
    ofFields? (.named (w.fields more dataName writeData)) place dataName readData =
      some ⟨some w.id, w.label, w.book.entries.map fun e => ⟨e.holder, write e.data⟩⟩ := by
  have hother (name : String) (h : name ∈ ["id", "label", "identities"]) :
      (more.filter fun m => m.1 = name) = [] :=
    List.filter_eq_nil_iff.2 fun m hm hn => hmore m hm (of_decide_eq_true hn ▸ h)
  have hentries : Json.list? (readEntry dataName readData) (.array (w.book.entries.map fun e =>
      .record [("localIdentity", e.holder.toJson), (dataName, writeData e.data)])) =
        some (w.book.entries.map fun e => ⟨e.holder, write e.data⟩) :=
    Json.list?_map fun e _ => readEntry_record hname (hdata e.data) e.holder
  cases hlabel : w.label <;>
    simp [ofFields?, Base.fields, hlabel, LocalIdentity.labelField, Json.Fields.withDefault,
      Json.Fields.required, Json.Fields.find?, hother "id" (by simp), hother "label" (by simp),
      hother "identities" (by simp), hentries]

end Stored

/-- A document is read by what reads its tree. -/
theorem readDocument_render {read : Json → Option α} {j : Json} {x : α} (h : read j = some x) :
    readDocument read j.render = .ok x := by
  rw [readDocument, Json.parse?_render, Option.bind_some, h]

/-- A document without further fields is read back. -/
theorem readDocument_toJson (w : Base β) (count place : Nat) (dataName : String)
    {writeData : β → Json} {readData : Json → Option α} {write : β → α}
    (hname : dataName ≠ "localIdentity") (hdata : ∀ x, readData (writeData x) = some (write x)) :
    readDocument (fun j => do Stored.ofFields? (← j.fields? count) place dataName readData)
      (w.toJson [] dataName writeData).render =
        .ok ⟨some w.id, w.label, w.book.entries.map fun e => ⟨e.holder, write e.data⟩⟩ := by
  refine readDocument_render ?_
  have hfields : (w.toJson [] dataName writeData).fields? count =
      some (.named (w.fields [] dataName writeData)) := Json.fields?_record count _
  rw [hfields]
  exact Stored.ofFields?_fields w [] place dataName (by simp) hname hdata

/-- An answer that is there is taken, and draws no identifier. -/
theorem liftM_ok_bind (x : α) (f : α → Drawing β) :
    ((liftM (Except.ok x : Result α) : Drawing α) >>= f) = f x := rfl

/-! ## Wallets of imported keys -/

namespace Imported

/-- A key is read back from its digits, around which no blanks are dropped. -/
theorem keyOfText_encode (l : LocalIdentity) (key : Bytes) :
    keyOfText l (Hex.encode key) = .ok key := by
  have hdigit : ∀ n < 16, isBlank (Hex.digit n) = false := by decide
  have hdigits : ∀ c ∈ Hex.digits key, isBlank c = false := by
    induction key with
    | nil => simp [Hex.digits]
    | cons x key ih =>
      have hx := x.toNat_lt
      simp only [Hex.digits, List.mem_cons, forall_eq_or_imp]
      exact ⟨hdigit _ (by omega), hdigit _ (by omega), ih⟩
  rw [keyOfText, Hex.encode, String.toList_ofList, trim_of_forall hdigits, ← Hex.encode,
    Hex.decode_encode]
  rfl

/-- **A wallet of imported keys is read back**, if its identities are apart. -/
theorem ofText_toJson {w : Imported} (hw : w.base.book.Distinct) :
    ofText w.toJson.render = pure w := by
  have hkey (key : Bytes) : Json.text? (Json.hex key) = some (Hex.encode key) := rfl
  have hread := readDocument_toJson w.base 3 2 "privkey" (by decide) hkey
  have hbook : Stored.book keyOfText ⟨some w.base.id, w.base.label,
      w.base.book.entries.map fun e => ⟨e.holder, Hex.encode e.data⟩⟩ = .ok w.base.book :=
    Stored.book_eq_ok Hex.encode hw rfl fun e _ => keyOfText_encode e.holder e.data
  simp only [ofText, toJson, hread, liftM_ok_bind, hbook]
  rfl

end Imported

/-! ## Wallets on a device -/

/-- **A wallet on a device is read back** without the device, if its identities are apart. -/
theorem Ledger.ofText_toJson {w : Ledger} (hw : w.base.book.Distinct) :
    ofText w.toJson.render = pure { base := w.base } := by
  have hindex (index : UInt32) : Json.uint32? (.integer index.toNat) = some index :=
    Json.uint32?_integer index
  have hread := readDocument_toJson w.base 3 2 "simpleAddressIndex" (by decide) hindex
  have hbook : Stored.book (fun _ index => .ok index) ⟨some w.base.id, w.base.label,
      w.base.book.entries.map fun e => ⟨e.holder, e.data⟩⟩ = .ok w.base.book :=
    Stored.book_eq_ok (fun index => index) hw rfl fun _ _ => rfl
  simp only [ofText, toJson, hread, liftM_ok_bind, hbook]
  rfl

/-! ## Wallets below a seed -/

namespace Seeded

theorem curve?_seedName (curve : Algorithm) : curve? (.str (seedName curve)) = some curve := by
  cases curve <;> rfl

/-- The document of a wallet below a seed is read back. -/
theorem document?_toJson (w : Seeded) : document? w.toJson =
    some ⟨⟨some w.base.id, w.base.label, w.base.book.entries⟩, w.mnemonic.phrase, w.curve⟩ := by
  have hfields : w.toJson.fields? 5 = some (.named (w.base.fields
      [("secret", .str w.mnemonic.phrase), ("curve", .str (seedName w.curve))] "privkeyPath"
        Path.toJson)) := Json.fields?_record 5 _
  have hstored := Stored.ofFields?_fields w.base
    [("secret", .str w.mnemonic.phrase), ("curve", .str (seedName w.curve))] 4 "privkeyPath"
    (by simp) (by decide) Path.ofJson?_toJson
  rw [document?, hfields]
  simp only [Option.bind_eq_bind, Option.bind_some, hstored]
  cases hlabel : w.base.label <;>
    simp [Base.fields, hlabel, LocalIdentity.labelField, Json.Fields.required, Json.Fields.find?,
      curve?_seedName]

/-- The seed follows from the mnemonic. -/
theorem eq_of_mnemonic {v w : Seeded} (hbase : v.base = w.base) (hcurve : v.curve = w.curve)
    (hmnemonic : v.mnemonic = w.mnemonic) : v = w := by
  have hseed : v.seed = w.seed := by rw [v.seed_eq, w.seed_eq, hmnemonic]
  cases v
  cases w
  rw [mk.injEq]
  exact ⟨hbase, hcurve, hmnemonic, hseed⟩

/-- A path that leads to the key of an identity passes. -/
theorem checkPath_eq_ok {tries : Nat} {curve : Algorithm} {seed : Bytes} {holder : LocalIdentity}
    {path : Path} (h : publicKeyAt tries curve seed path = .ok holder.identity.publicKey) :
    checkPath tries curve seed holder path = .ok path := by
  simp only [checkPath, h, Outcome.ok_bind, ne_eq, not_true_eq_false, if_false]
  rfl

/-- **A wallet below a seed is read back**, if its identities are apart and have the keys at their
paths. -/
theorem ofText_toJson {tries : Nat} {w : Seeded} (hw : (seeded w).Sound tries) :
    ofText tries w.toJson.render = pure w := by
  obtain ⟨hdistinct, hkeys⟩ := hw
  have hread := readDocument_render w.document?_toJson
  have hbook : Stored.book (checkPath tries w.curve w.seed) ⟨some w.base.id, w.base.label,
      w.base.book.entries⟩ = .ok w.base.book :=
    Stored.book_eq_ok (fun path => path) hdistinct (List.map_id _).symm fun e he =>
      checkPath_eq_ok (hkeys e he)
  rw [w.seed_eq] at hbook
  simp only [ofText, hread, liftM_ok_bind, Mnemonic.ofPhrase_phrase, Except.mapError, new, hbook]
  exact congrArg (pure : Seeded → Drawing Seeded) (eq_of_mnemonic rfl rfl rfl)

end Seeded

/-! ## Wallets of every kind -/

/-- What a wallet signs with, for its identities in their order. -/
inductive SigningData where
  | keys (keys : List Bytes)
  | seed (mnemonic : Mnemonic) (curve : Algorithm) (paths : List Path)
  | indices (indices : List UInt32)
  deriving DecidableEq

/-- What a document has to keep of a wallet. -/
structure Content where
  id : WalletId
  label : Option String
  kind : String
  identities : List LocalIdentity
  signing : SigningData
  deriving DecidableEq

/-- The data that a wallet signs with. -/
def signingData : Wallet → SigningData
  | imported w => .keys (w.base.book.entries.map (·.data))
  | seeded w => .seed w.mnemonic w.curve (w.base.book.entries.map (·.data))
  | ledger w => .indices (w.base.book.entries.map (·.data))

/-- What a document has to keep of the wallet. -/
def content (w : Wallet) : Content :=
  ⟨w.id, w.label, w.kind, w.identities, w.signingData⟩

/-- The wallet without its device, and with the usual patience. -/
def stored : Wallet → Wallet
  | ledger w => ledger { base := w.base }
  | w => w

@[simp] theorem content_stored (w : Wallet) : w.stored.content = w.content := by
  cases w <;> rfl

@[simp] theorem id_stored (w : Wallet) : w.stored.id = w.id := by
  cases w <;> rfl

@[simp] theorem kind_stored (w : Wallet) : w.stored.kind = w.kind := by
  cases w <;> rfl

@[simp] theorem text_stored (w : Wallet) : w.stored.text = w.text := by
  cases w <;> rfl

/-- **A sound wallet is read back from its document**, under the name of its kind. -/
theorem ofText_text {tries : Nat} {w : Wallet} (h : w.Sound tries) :
    ofText tries w.kind w.text = pure w.stored := by
  cases w with
  | imported w =>
    have hread := Imported.ofText_toJson h
    rw [ofText, kind, if_pos rfl, text, toJson, hread, map_pure]
    rfl
  | seeded w =>
    have hread := Seeded.ofText_toJson h
    have himported : Seeded.kind w.curve ≠ Imported.kind := by cases w.curve <;> decide
    have hkind : Seeded.kind w.curve = Seeded.kind .ed25519 ∨
        Seeded.kind w.curve = Seeded.kind .secp256k1 := by cases w.curve <;> simp
    rw [ofText, kind, if_neg himported, if_pos hkind, seededOfText, text, toJson, hread, pure_bind,
      if_neg (by simp)]
    rfl
  | ledger w =>
    have hread := Ledger.ofText_toJson h
    rw [ofText, kind, if_neg (by decide), if_neg (by decide), if_pos rfl, text, toJson, hread,
      map_pure]
    rfl

end Wallet

end ChainKit
