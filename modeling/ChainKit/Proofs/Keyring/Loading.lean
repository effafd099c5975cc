import ChainKit.Proofs.Keyring.Document
import ChainKit.Proofs.Wallet.Loading
import Mathlib
/-!
# Keyrings are loaded as their documents say

A document that is accepted has a wallet for each of its entries, in their
order: of the kind that the entry names, and spelled by the document inside
it. Nothing is left out, so an entry of no known kind, or one whose curve
is not that of its kind, spoils the keyring. What was loaded is written in
one way, whatever the first document looked like, and that document is
read back and written as it is. `ofText_faithful` says all of this.
-/

namespace ChainKit

open Text Keys

namespace Keyring

open Wallet

/-- The tree spells the kind and the document of a wallet. -/
def Entry.Spells (j : Json) (e : Entry) : Prop :=
  ∃ f, j.fields? 2 = some f ∧ f.find? 0 ["implementationId"] = some (some (.str e.kind)) ∧
    f.find? 1 ["data"] = some (some (.str e.data))

/-- The document of a keyring lists entries, in this order. -/
def Lists (text : String) (entries : List Entry) : Prop :=
  ∃ j f items, Json.parse? text = some j ∧ j.fields? 1 = some f ∧
    f.find? 0 ["entries"] = some (some (.array items)) ∧ List.Forall₂ Entry.Spells items entries

/-- The document of a wallet names a curve that is not the one of this kind. -/
def Entry.ForeignCurve (e : Entry) : Prop :=
  ∃ curve j f named, e.kind = Seeded.kind curve ∧ Json.parse? e.data = some j ∧
    j.fields? 5 = some f ∧ f.find? 3 ["curve"] = some (some named) ∧
    ¬named.IsName (seedName curve)

/-- An entry is read from a tree that spells it. -/
theorem readEntry_eq_some {j : Json} {e : Entry} : readEntry j = some e ↔ Entry.Spells j e := by
  simp only [readEntry, Option.bind_eq_bind, Option.bind_eq_some_iff,
    Json.Fields.required_eq_some, Json.text?_eq_some, exists_eq_right, Option.pure_def,
    Option.some.injEq]
  constructor
  · rintro ⟨f, hf, _, hkind, _, hdata, rfl⟩
    exact ⟨f, hf, hkind, hdata⟩
  · rintro ⟨f, hf, hkind, hdata⟩
    exact ⟨f, hf, _, hkind, _, hdata, rfl⟩

/-- Entries are read from a document that lists them. -/
theorem readDocument_eq_ok_iff {text : String} {entries : List Entry} :
    readDocument readEntries text = .ok entries ↔ Lists text entries := by
  simp only [readDocument_eq_ok, readEntries, Option.bind_eq_bind, Option.bind_eq_some_iff,
    Json.Fields.required_eq_some, Json.list?_eq_some, readEntry_eq_some]
  constructor
  · rintro ⟨j, hj, f, hf, _, hfield, items, rfl, hitems⟩
    exact ⟨j, f, items, hj, hf, hfield, hitems⟩
  · rintro ⟨j, f, items, hj, hf, hfield, hitems⟩
    exact ⟨j, hj, f, hf, _, hfield, items, rfl, hitems⟩

variable {tries : Nat} {text : String} {ids rest : IdSource} {k : Keyring} {entries : List Entry}

/-- A document lists its entries in one way. -/
theorem Lists.unique {others : List Entry} (h : Lists text entries) (h' : Lists text others) :
    entries = others := by
  have hread := readDocument_eq_ok_iff.2 h
  rw [readDocument_eq_ok_iff.2 h'] at hread
  exact (Except.ok.inj hread).symm

/-- **The wallets of a keyring are those of its document**, one for one, and sound. -/
theorem forall₂_of_ofText (h : ofText tries text ids = .ok (k, rest)) :
    ∃ entries, Lists text entries ∧ List.Forall₂
      (fun e w => w.kind = e.kind ∧ w.SpelledBy e.data ∧ w.Sound tries) entries k.wallets := by
  obtain ⟨entries, mid, hread, h⟩ := Drawing.bind_eq_ok.1 h
  obtain ⟨wallets, last, hwallets, h⟩ := Drawing.bind_eq_ok.1 h
  obtain ⟨rfl, -⟩ := Drawing.pure_eq_ok.1 h
  refine ⟨entries, readDocument_eq_ok_iff.1 (Drawing.liftM_eq_ok.1 hread).1, ?_⟩
  refine (Drawing.forall₂_of_mapM hwallets).imp fun e w hw => ?_
  obtain ⟨before, after, hw⟩ := hw
  exact spelledBy_of_ofText hw

/-- Every entry of a document that was read has become a wallet. -/
theorem exists_wallet_of_ofText (h : ofText tries text ids = .ok (k, rest))
    (hlists : Lists text entries) {e : Entry} (he : e ∈ entries) :
    ∃ w ∈ k.wallets, w.kind = e.kind ∧ w.SpelledBy e.data := by
  obtain ⟨others, hothers, hall⟩ := forall₂_of_ofText h
  rw [← hlists.unique hothers] at hall
  obtain ⟨w, hw, hkind, hspelled, -⟩ := exists_mem_of_forall₂ hall.flip he
  exact ⟨w, hw, hkind, hspelled⟩

/-- A wallet is not spelled by a document of another curve than its kind has. -/
theorem Entry.ForeignCurve.not_spelledBy {e : Entry} (he : e.ForeignCurve) {w : Wallet}
    (hkind : w.kind = e.kind) : ¬w.SpelledBy e.data := by
  obtain ⟨curve, j, f, named, hcurve, hj, hf, hfield, hnamed⟩ := he
  obtain ⟨w, rfl, hsame⟩ := exists_seeded_of_kind (hkind.trans hcurve)
  rintro ⟨j', f', hj', hf', -, -, named', hfield', hname⟩
  -- the same tree, so the same fields, and in them the same name
  rw [hj, Option.some.injEq] at hj'
  subst hj'
  rw [hf, Option.some.injEq] at hf'
  subst hf'
  rw [hfield, Option.some.injEq, Option.some.injEq] at hfield'
  subst hfield'
  rw [hsame] at hname
  exact hnamed hname

/-- **A keyring is loaded as its document says**, however often keys are tried. If a document is
accepted, the wallets are those of its entries in their order, each of the named kind and spelled by
the document in its entry; and the keyring's own document is accepted again, for a keyring of the
same content and the same document. If one entry names no kind, or its document names a curve that
is not that of the kind, there is no keyring. -/
theorem ofText_faithful (tries : Nat) (text : String) (ids : IdSource) :
    (∀ (k : Keyring) (rest : IdSource), ofText tries text ids = .ok (k, rest) →
      (∃ entries, Lists text entries ∧
        List.Forall₂ (fun e w => w.kind = e.kind ∧ w.SpelledBy e.data) entries k.wallets) ∧
      ∀ ids', ∃ next, ofText tries k.text ids' = .ok (next, ids') ∧
        next.wallets.map content = k.wallets.map content ∧ next.text = k.text) ∧
    ∀ (entries : List Entry) (e : Entry), Lists text entries → e ∈ entries →
      (e.kind ∉ kinds ∨ e.ForeignCurve) → ∃ error, ofText tries text ids = .error error := by
  constructor
  · intro k rest h
    obtain ⟨entries, hlists, hall⟩ := forall₂_of_ofText h
    refine ⟨⟨entries, hlists, hall.imp fun e w hw => ⟨hw.1, hw.2.1⟩⟩, fun ids' => ?_⟩
    have hsound : ∀ w ∈ k.wallets, w.Sound tries := by
      intro w hw
      obtain ⟨e, -, -, -, hw⟩ := exists_mem_of_forall₂ hall hw
      exact hw
    exact exists_ofText_text hsound ids'
  · intro entries e hlists he hbad
    cases h : ofText tries text ids with
    | error error => exact ⟨error, rfl⟩
    | ok loaded =>
      obtain ⟨k, rest⟩ := loaded
      obtain ⟨w, -, hkind, hspelled⟩ := exists_wallet_of_ofText h hlists he
      rcases hbad with hunknown | hforeign
      · exact absurd (hkind ▸ kind_mem_kinds w) hunknown
      · exact absurd hspelled (hforeign.not_spelledBy hkind)

/-- A document of an imported key that no wallet writes: its fields come in another order, the label
of the identity has its old name, and the digits of the keys are of both cases. -/
def foreignImported : Json := .record [("label", .str "paper"),
  ("identities", .array [.record [("privkey", .str " 0aFF\n"),
    ("localIdentity", .record [("nickname", .str "foo"),
      ("pubkey", .record [("algo", .str "ed25519"), ("data", .str "AaBB")])])]]),
  ("id", .str "w-1")]

/-- A document of a wallet on a device, in which fields have no names, and the wallet no
identifier. -/
def foreignLedger : Json := .array [.null, .null, .array [.array [
  .array [.str "iov", .array [.object [(some "ed25519", .null)], .str "cC"], .null], .integer 5]]]

/-- The document of a keyring of both, the second under the name of this kind. -/
def foreignKeyring (kind : String) : Json := .array [.array [
  .record [("data", .str foreignImported.render), ("implementationId", .str "ed25519")],
  .record [("implementationId", .str kind), ("data", .str foreignLedger.render)]]]

/-- What the document says. -/
def loadedKeyring : Keyring := ⟨[
  .imported ⟨⟨"w-1", some "paper", ⟨[⟨⟨⟨"", .ed25519, [0xAA, 0xBB]⟩, some "foo"⟩, [0x0A, 0xFF]⟩]⟩⟩⟩,
  .ledger { base := ⟨"new", none, ⟨[⟨⟨⟨"iov", .ed25519, [0xCC]⟩, none⟩, 5⟩]⟩⟩ }]⟩

theorem readEntries_foreignKeyring (kind : String) : readEntries (foreignKeyring kind) =
    some [⟨"ed25519", foreignImported.render⟩, ⟨kind, foreignLedger.render⟩] := rfl

theorem ofText_foreignKeyring : ofText 64 (foreignKeyring "ledger").render ⟨fun _ => "new", 0⟩ =
    .ok (loadedKeyring, ⟨fun _ => "new", 1⟩) := by
  have hentries := readDocument_render (readEntries_foreignKeyring "ledger")
  have himported : readDocument
      (fun j => do Stored.ofFields? (← j.fields? 3) 2 "privkey" Json.text?) foreignImported.render =
        .ok ⟨some "w-1", some "paper",
          [⟨⟨⟨"", .ed25519, [0xAA, 0xBB]⟩, some "foo"⟩, " 0aFF\n"⟩]⟩ := readDocument_render rfl
  have hledger : readDocument
      (fun j => do Stored.ofFields? (← j.fields? 3) 2 "simpleAddressIndex" Json.uint32?)
        foreignLedger.render =
          .ok ⟨none, none, [⟨⟨⟨"iov", .ed25519, [0xCC]⟩, none⟩, 5⟩]⟩ := readDocument_render rfl
  rw [ofText, hentries, liftM_ok_bind]
  simp only [List.mapM_cons, List.mapM_nil, Wallet.ofText, Imported.ofText, Ledger.ofText,
    himported, hledger, liftM_ok_bind]
  rfl

/-- The document of both is loaded; what was loaded is written, read and written the same; and under
a kind that there is not the second wallet spoils the keyring. -/
theorem ofText_faithful_foreign :
    let ids : IdSource := ⟨fun _ => "new", 0⟩
    (∃ entries, Lists (foreignKeyring "ledger").render entries ∧
      List.Forall₂ (fun e w => w.kind = e.kind ∧ w.SpelledBy e.data) entries
        loadedKeyring.wallets) ∧
    (∃ next, ofText 64 loadedKeyring.text ids = .ok (next, ids) ∧
      next.wallets.map content = loadedKeyring.wallets.map content ∧
        next.text = loadedKeyring.text) ∧
    ∃ error, ofText 64 (foreignKeyring "paper").render ids = .error error := by
  intro ids
  obtain ⟨hloaded, hagain⟩ := (ofText_faithful 64 _ ids).1 _ _ ofText_foreignKeyring
  have hlists := readDocument_eq_ok_iff.1 (readDocument_render (readEntries_foreignKeyring "paper"))
  exact ⟨hloaded, hagain ids, (ofText_faithful 64 _ ids).2 _ _ hlists
    (List.mem_cons_of_mem _ List.mem_cons_self) (.inl (by decide))⟩

end Keyring

end ChainKit
