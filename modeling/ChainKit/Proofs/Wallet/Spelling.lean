import ChainKit.Proofs.Json.Record
import ChainKit.Wallet
import Mathlib
/-!
# What the documents of wallets say

A document need not be one that a wallet writes: fields may be missing or
null, their names may be others, and the digits of a key may be of either
case. `Spells` says when the tree of a document stands for an identity, an
entry or what all wallets have, by the fields that hold it, and the readers
take a tree for what it spells and for nothing else
(`LocalIdentity.ofJson?_eq_some`, `Wallet.Stored.ofFields?_eq_some`).
-/

namespace ChainKit

open Text Keys

/-! ## Identities -/

/-- The tree spells a public key: the name of its scheme, and its bytes in digits. -/
def PublicKey.Spells (j : Json) (k : PublicKey) : Prop :=
  ∃ f algorithm, j.fields? 2 = some f ∧
    f.find? 0 ["algo"] = some (some algorithm) ∧ algorithm.IsName k.algorithm.name ∧
    ∃ s : String, f.find? 1 ["data"] = some (some (.str s)) ∧ Hex.Spells s.toList k.data

/-- The tree spells an identity: its chain, empty if there is none, its key, and its label under
either of two names. -/
def LocalIdentity.Spells (j : Json) (l : LocalIdentity) : Prop :=
  ∃ f key, j.fields? 3 = some f ∧
    (f.find? 0 ["chainId"] = some (some (.str l.identity.chainId)) ∨
      f.find? 0 ["chainId"] = some none ∧ l.identity.chainId = "") ∧
    f.find? 1 ["pubkey"] = some (some key) ∧ PublicKey.Spells key l.identity.publicKey ∧
    f.SpellsText 2 ["label", "nickname"] l.label

theorem Algorithm.ofJson?_eq_some {j : Json} {a : Algorithm} :
    ofJson? j = some a ↔ j.IsName a.name :=
  Json.choice?_eq_some (by cases a <;> rfl)

/-- A public key is read from a tree that spells it. -/
theorem PublicKey.ofJson?_eq_some {j : Json} {k : PublicKey} :
    ofJson? j = some k ↔ Spells j k := by
  simp only [ofJson?, Option.bind_eq_bind, Option.bind_eq_some_iff,
    Json.Fields.required_eq_some, Algorithm.ofJson?_eq_some, Json.hex?_eq_some, Option.pure_def,
    Option.some.injEq]
  constructor
  · rintro ⟨f, hf, _, ⟨algorithm, hfield, hname⟩, _, ⟨_, hdata, s, rfl, hs⟩, rfl⟩
    exact ⟨f, algorithm, hf, hfield, hname, s, hdata, hs⟩
  · rintro ⟨f, algorithm, hf, hfield, hname, s, hdata, hs⟩
    exact ⟨f, hf, _, ⟨algorithm, hfield, hname⟩, _, ⟨_, hdata, s, rfl, hs⟩, rfl⟩

/-- **An identity is read from a tree that spells it.** -/
theorem LocalIdentity.ofJson?_eq_some {j : Json} {l : LocalIdentity} :
    ofJson? j = some l ↔ Spells j l := by
  simp only [ofJson?, Option.bind_eq_bind, Option.bind_eq_some_iff,
    Json.Fields.required_eq_some, Json.Fields.withDefault_nullable?_eq_some,
    Json.Fields.withDefault_text?_eq_some, PublicKey.ofJson?_eq_some, Option.pure_def,
    Option.some.injEq]
  constructor
  · rintro ⟨f, hf, _, hchain, _, ⟨key, hfield, hkey⟩, _, hlabel, rfl⟩
    exact ⟨f, key, hf, hchain, hfield, hkey, hlabel⟩
  · rintro ⟨f, key, hf, hchain, hfield, hkey, hlabel⟩
    exact ⟨f, hf, _, hchain, _, ⟨key, hfield, hkey⟩, _, hlabel, rfl⟩

/-- A path is read from the list of its numbers. -/
theorem Keys.Path.ofJson?_eq_some {j : Json} {p : Path} :
    Path.ofJson? j = some p ↔ j = Path.toJson p := by
  have hindex (item : Json) (i : Index) :
      (Json.uint32? item).map Index.mk = some i ↔ item = .integer i.raw.toNat := by
    rw [← Json.uint32?_eq_some, Option.map_eq_some_iff]
    exact ⟨fun ⟨n, hn, hi⟩ => hi ▸ hn, fun hn => ⟨i.raw, hn, rfl⟩⟩
  simp only [Path.ofJson?, Path.toJson, Json.list?_eq_some, hindex]
  constructor
  · rintro ⟨items, rfl, hitems⟩
    rw [← List.forall₂_map_right_iff, List.forall₂_eq_eq_eq] at hitems
    rw [hitems]
  · rintro rfl
    refine ⟨_, rfl, ?_⟩
    rw [← List.forall₂_map_right_iff, List.forall₂_eq_eq_eq]

namespace Wallet

variable {α : Type}

/-! ## What all documents have -/

/-- The tree spells an identity with its data. -/
def Entry.Spells (dataName : String) (spellsData : Json → α → Prop) (j : Json)
    (e : Entry α) : Prop :=
  ∃ f holder data, j.fields? 2 = some f ∧
    f.find? 0 ["localIdentity"] = some (some holder) ∧ LocalIdentity.Spells holder e.holder ∧
    f.find? 1 [dataName] = some (some data) ∧ spellsData data e.data

/-- The fields spell what all wallets have: the identifier, if they have one, the label and the
entries in order. -/
structure Base.SpelledBy (w : Base α) (f : Json.Fields) (place : Nat) (dataName : String)
    (spellsData : Json → α → Prop) : Prop where
  id : f.SpellsText 0 ["id"] (some w.id) ∨ f.SpellsText 0 ["id"] none
  label : f.SpellsText 1 ["label"] w.label
  entries : ∃ items, f.find? place ["identities"] = some (some (.array items)) ∧
    List.Forall₂ (Entry.Spells dataName spellsData) items w.book.entries

namespace Stored

variable {dataName : String} {readData : Json → Option α}

/-- An entry is read from a tree that spells it. -/
theorem readEntry_eq_some {j : Json} {e : Entry α} : readEntry dataName readData j = some e ↔
    Entry.Spells dataName (fun d x => readData d = some x) j e := by
  simp only [readEntry, Option.bind_eq_bind, Option.bind_eq_some_iff,
    Json.Fields.required_eq_some, LocalIdentity.ofJson?_eq_some, Option.pure_def,
    Option.some.injEq]
  constructor
  · rintro ⟨f, hf, _, ⟨holder, hfield, hholder⟩, _, ⟨data, hname, hdata⟩, rfl⟩
    exact ⟨f, holder, data, hf, hfield, hholder, hname, hdata⟩
  · rintro ⟨f, holder, data, hf, hfield, hholder, hname, hdata⟩
    exact ⟨f, hf, _, ⟨holder, hfield, hholder⟩, _, ⟨data, hname, hdata⟩, rfl⟩

/-- **What all documents have is read from fields that spell it.** -/
theorem ofFields?_eq_some {f : Json.Fields} {place : Nat} {s : Stored α} :
    ofFields? f place dataName readData = some s ↔
      f.SpellsText 0 ["id"] s.id ∧ f.SpellsText 1 ["label"] s.label ∧
        ∃ items, f.find? place ["identities"] = some (some (.array items)) ∧
          List.Forall₂ (Entry.Spells dataName fun d x => readData d = some x) items
            s.entries := by
  simp only [ofFields?, Option.bind_eq_bind, Option.bind_eq_some_iff,
    Json.Fields.withDefault_nullable?_eq_some, Json.Fields.required_eq_some,
    Json.list?_eq_some, readEntry_eq_some, Option.pure_def, Option.some.injEq]
  constructor
  · rintro ⟨_, hid, _, hlabel, _, ⟨_, hfield, items, rfl, hitems⟩, rfl⟩
    exact ⟨hid, hlabel, items, hfield, hitems⟩
  · rintro ⟨hid, hlabel, items, hfield, hitems⟩
    exact ⟨_, hid, _, hlabel, _, ⟨_, hfield, items, rfl, hitems⟩, rfl⟩

end Stored

/-! ## Wallets of every kind -/

/-- A document spells a wallet: what all wallets have, and what the keys of its kind are told by.
Private keys stand in digits of either case between blanks, and the words of a secret are read as
they may come. -/
def SpelledBy (data : String) : Wallet → Prop
  | imported w => ∃ j f, Json.parse? data = some j ∧ j.fields? 3 = some f ∧
    w.base.SpelledBy f 2 "privkey" fun j key =>
      ∃ s : String, j = .str s ∧ Hex.Spells (trim s.toList) key
  | seeded w => ∃ j f, Json.parse? data = some j ∧ j.fields? 5 = some f ∧
    w.base.SpelledBy f 4 "privkeyPath" (fun j path => j = Path.toJson path) ∧
    (∃ phrase : String, f.find? 2 ["secret"] = some (some (.str phrase)) ∧
      Mnemonic.ofPhrase phrase = .ok w.mnemonic) ∧
    ∃ curve, f.find? 3 ["curve"] = some (some curve) ∧ curve.IsName (seedName w.curve)
  | ledger w => ∃ j f, Json.parse? data = some j ∧ j.fields? 3 = some f ∧
    w.base.SpelledBy f 2 "simpleAddressIndex" fun j index => j = .integer index.toNat

end Wallet

end ChainKit
