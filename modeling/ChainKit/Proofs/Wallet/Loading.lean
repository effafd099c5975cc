import ChainKit.Proofs.Wallet.Document
import ChainKit.Proofs.Wallet.Spelling
import Mathlib
/-!
# Wallets are loaded as their documents say

Whatever document is read as a wallet spells it: its entries are those of
the document in their order, with their labels and what they sign with, and
only an identifier that is missing is a fresh one. The wallet is sound, so
it is read back from the document that it writes itself, however the first
one was written. `spelledBy_of_ofText` says so of every kind.
-/

namespace ChainKit

open Text Keys

namespace Wallet

variable {α β : Type}

/-- What stands in one of two lists has a counterpart in the other. -/
theorem exists_mem_of_forall₂ {r : α → β → Prop} {xs : List α} {ys : List β}
    (h : List.Forall₂ r xs ys) {y : β} (hy : y ∈ ys) : ∃ x ∈ xs, r x y := by
  induction h with
  | nil => cases hy
  | cons hxy _ ih =>
    rcases List.mem_cons.1 hy with rfl | hy
    · exact ⟨_, List.mem_cons_self, hxy⟩
    · obtain ⟨x, hx, hrest⟩ := ih hy
      exact ⟨x, List.mem_cons_of_mem _ hx, hrest⟩

/-! ## Drawing identifiers -/

namespace Drawing

variable {ids rest : IdSource} {b : β}

theorem bind_eq_ok {x : Drawing α} {f : α → Drawing β} : (x >>= f) ids = .ok (b, rest) ↔
    ∃ a mid, x ids = .ok (a, mid) ∧ f a mid = .ok (b, rest) := by
  show (x ids >>= fun p => f p.1 p.2) = .ok (b, rest) ↔ _
  rw [Outcome.bind_eq_ok, Prod.exists]

theorem pure_eq_ok {a : β} : (pure a : Drawing β) ids = .ok (b, rest) ↔ a = b ∧ ids = rest := by
  show (Except.ok (a, ids) : Except Error _) = .ok (b, rest) ↔ _
  rw [Except.ok.injEq, Prod.mk.injEq]

/-- What draws no identifier leaves the source as it is. -/
theorem liftM_eq_ok {x : Result β} :
    (liftM x : Drawing β) ids = .ok (b, rest) ↔ x = .ok b ∧ ids = rest := by
  cases x with
  | error e => exact iff_of_false (fun h => nomatch h) fun h => nomatch h.1
  | ok a =>
    rw [Except.ok.injEq]
    exact pure_eq_ok

theorem map_eq_ok {x : Drawing α} {f : α → β} : (f <$> x) ids = .ok (b, rest) ↔
    ∃ a, x ids = .ok (a, rest) ∧ f a = b := by
  rw [map_eq_pure_bind, bind_eq_ok]
  constructor
  · rintro ⟨a, mid, hx, hpure⟩
    obtain ⟨hb, rfl⟩ := pure_eq_ok.1 hpure
    exact ⟨a, hx, hb⟩
  · rintro ⟨a, hx, hb⟩
    exact ⟨a, rest, hx, pure_eq_ok.2 ⟨hb, rfl⟩⟩

/-- Of each element of a list its own result comes out, in order. -/
theorem forall₂_of_mapM {f : α → Drawing β} {xs : List α} {ys : List β}
    (h : xs.mapM f ids = .ok (ys, rest)) :
    List.Forall₂ (fun x y => ∃ before after, f x before = .ok (y, after)) xs ys := by
  induction xs generalizing ids ys with
  | nil =>
    rw [List.mapM_nil, pure_eq_ok] at h
    rw [← h.1]
    exact .nil
  | cons x xs ih =>
    rw [List.mapM_cons] at h
    obtain ⟨y, mid, hy, h⟩ := bind_eq_ok.1 h
    obtain ⟨zs, last, hzs, h⟩ := bind_eq_ok.1 h
    obtain ⟨rfl, rfl⟩ := pure_eq_ok.1 h
    exact .cons ⟨ids, mid, hy⟩ (ih hzs)

end Drawing

/-- A document is read from its tree. -/
theorem readDocument_eq_ok {read : Json → Option α} {data : String} {x : α} :
    readDocument read data = .ok x ↔ ∃ j, Json.parse? data = some j ∧ read j = some x := by
  rw [readDocument, ← Option.bind_eq_some_iff]
  cases (Json.parse? data).bind read <;> simp

namespace Stored

variable {check : LocalIdentity → α → Result β}

/-- A wallet has the identifier of its document, or one was drawn. -/
theorem id_of_identifier {s : Stored α} {id : WalletId} {ids rest : IdSource}
    (h : s.identifier ids = .ok (id, rest)) : s.id = some id ∨ s.id = none := by
  cases hstored : s.id with
  | none => exact .inr rfl
  | some stored =>
    rw [identifier, hstored] at h
    rw [(Drawing.pure_eq_ok.1 h).1]
    exact .inl rfl

/-- Entries are checked and inserted one by one behind those of a book. -/
theorem forall₂_of_foldlM {front : List (Entry β)} {entries : List (Entry α)} {b : Book β}
    (hfront : Book.Distinct ⟨front⟩)
    (h : entries.foldlM (fun b e => do b.insert e.holder (← check e.holder e.data))
      (⟨front⟩ : Book β) = .ok b) :
    b.Distinct ∧ ∃ rest, b.entries = front ++ rest ∧
      List.Forall₂ (fun a e => e.holder = a.holder ∧ check a.holder a.data = .ok e.data)
        entries rest := by
  induction entries generalizing front with
  | nil =>
    cases Outcome.pure_eq_ok.1 h
    exact ⟨hfront, [], (List.append_nil _).symm, .nil⟩
  | cons a entries ih =>
    rw [List.foldlM_cons] at h
    obtain ⟨c, hinsert, h⟩ := Outcome.bind_eq_ok.1 h
    obtain ⟨x, hcheck, hinsert⟩ := Outcome.bind_eq_ok.1 hinsert
    have hc := hfront.insert hinsert
    obtain ⟨-, rfl⟩ := Book.insert_eq_ok.1 hinsert
    obtain ⟨hb, rest, hentries, hrest⟩ := ih hc h
    refine ⟨hb, ⟨a.holder, x⟩ :: rest, ?_, .cons ⟨rfl, hcheck⟩ hrest⟩
    rw [hentries, List.append_assoc, List.singleton_append]

/-- **A book holds the entries of its document**, one for one, and keeps them apart. -/
theorem forall₂_of_book {s : Stored α} {b : Book β} (h : s.book check = .ok b) :
    b.Distinct ∧ List.Forall₂ (fun a e => e.holder = a.holder ∧
      check a.holder a.data = .ok e.data) s.entries b.entries := by
  obtain ⟨hdistinct, rest, hentries, hrest⟩ := forall₂_of_foldlM Book.distinct_empty h
  rw [List.nil_append] at hentries
  rw [hentries]
  exact ⟨hdistinct, hrest⟩

/-- What was read and checked spells what stands in the book, if it does so for each entry. -/
theorem spells_of_forall₂ {dataName : String} {readData : Json → Option α}
    {spellsData : Json → β → Prop} {items : List Json} {entries : List (Entry α)}
    {checked : List (Entry β)}
    (hread : List.Forall₂ (Entry.Spells dataName fun d x => readData d = some x) items entries)
    (hcheck : List.Forall₂ (fun a e => e.holder = a.holder ∧
      check a.holder a.data = .ok e.data) entries checked)
    (hspells : ∀ d holder x y, readData d = some x → check holder x = .ok y → spellsData d y) :
    List.Forall₂ (Entry.Spells dataName spellsData) items checked := by
  induction hread generalizing checked with
  | nil =>
    cases hcheck
    exact .nil
  | cons hitem hitems ih =>
    obtain ⟨e, rest, ⟨hholder, hdata⟩, hrest, rfl⟩ := List.forall₂_cons_left_iff.1 hcheck
    obtain ⟨f, holder, d, hf, hfield, hspelled, hname, hd⟩ := hitem
    refine .cons ⟨f, holder, d, hf, hfield, ?_, hname, hspells d _ _ _ hd hdata⟩ (ih hrest)
    rw [hholder]
    exact hspelled

/-- **A wallet is spelled by the fields that it was read from.** -/
theorem spelledBy_of_book {f : Json.Fields} {place : Nat} {dataName : String}
    {readData : Json → Option α} {spellsData : Json → β → Prop} {s : Stored α} {w : Base β}
    {ids rest : IdSource} (hread : ofFields? f place dataName readData = some s)
    (hid : s.identifier ids = .ok (w.id, rest)) (hlabel : w.label = s.label)
    (hbook : s.book check = .ok w.book)
    (hspells : ∀ d holder x y, readData d = some x → check holder x = .ok y → spellsData d y) :
    w.SpelledBy f place dataName spellsData := by
  obtain ⟨hidField, hlabelField, items, hfield, hitems⟩ := ofFields?_eq_some.1 hread
  refine ⟨?_, hlabel ▸ hlabelField, items, hfield,
    spells_of_forall₂ hitems (forall₂_of_book hbook).2 hspells⟩
  rcases id_of_identifier hid with hstored | hnone
  · exact .inl (hstored ▸ hidField)
  · exact .inr (hnone ▸ hidField)

end Stored

/-! ## Wallets of each kind -/

variable {data : String} {ids rest : IdSource}

/-- A wallet of which a document says no more than all documents do is spelled by its document, and
its identities are apart. -/
theorem Base.spelledBy_of_plain {γ : Type} {dataName : String} {readData : Json → Option α}
    {check : LocalIdentity → α → Result β} {spellsData : Json → β → Prop} (make : Base β → γ)
    {w : γ}
    (h : (do
      let stored ← readDocument
        (fun j => do Stored.ofFields? (← j.fields? 3) 2 dataName readData) data
      let book ← stored.book check
      return make { id := ← stored.identifier, label := stored.label, book } : Drawing γ) ids =
        .ok (w, rest))
    (hspells : ∀ d holder x y, readData d = some x → check holder x = .ok y → spellsData d y) :
    ∃ base, w = make base ∧ base.book.Distinct ∧ ∃ j f, Json.parse? data = some j ∧
      j.fields? 3 = some f ∧ base.SpelledBy f 2 dataName spellsData := by
  obtain ⟨s, mid, hread, h⟩ := Drawing.bind_eq_ok.1 h
  obtain ⟨book, last, hbook, h⟩ := Drawing.bind_eq_ok.1 h
  obtain ⟨id, final, hid, h⟩ := Drawing.bind_eq_ok.1 h
  obtain ⟨rfl, -⟩ := Drawing.pure_eq_ok.1 h
  obtain ⟨j, hj, hs⟩ := readDocument_eq_ok.1 (Drawing.liftM_eq_ok.1 hread).1
  obtain ⟨f, hf, hs⟩ := Option.bind_eq_some_iff.1 hs
  have hbook := (Drawing.liftM_eq_ok.1 hbook).1
  refine ⟨_, rfl, (Stored.forall₂_of_book hbook).1, j, f, hj, hf, ?_⟩
  exact Stored.spelledBy_of_book hs hid rfl hbook hspells

theorem Imported.spelledBy_of_ofText {w : Imported} (h : ofText data ids = .ok (w, rest)) :
    (imported w).SpelledBy data ∧ w.base.book.Distinct := by
  -- the blanks around the digits are dropped before they are read
  have hspells (d : Json) (holder : LocalIdentity) (s : String) (key : Bytes)
      (hd : Json.text? d = some s) (hkey : keyOfText holder s = .ok key) :
      ∃ s : String, d = .str s ∧ Hex.Spells (trim s.toList) key := by
    rw [keyOfText, Outcome.mapError_eq_ok, Hex.decode_eq_ok_iff, String.toList_ofList] at hkey
    exact ⟨s, Json.text?_eq_some.1 hd, hkey⟩
  obtain ⟨base, rfl, hdistinct, hspelled⟩ := Base.spelledBy_of_plain Imported.mk h hspells
  exact ⟨hspelled, hdistinct⟩

theorem Ledger.spelledBy_of_ofText {w : Ledger} (h : ofText data ids = .ok (w, rest)) :
    (ledger w).SpelledBy data ∧ w.base.book.Distinct := by
  have hspells (d : Json) (_ : LocalIdentity) (n index : UInt32)
      (hd : Json.uint32? d = some n) (hindex : (.ok n : Result UInt32) = .ok index) :
      d = .integer index.toNat := by
    cases hindex
    exact Json.uint32?_eq_some.1 hd
  obtain ⟨base, rfl, hdistinct, hspelled⟩ :=
    Base.spelledBy_of_plain (fun base => ({ base } : Ledger)) h hspells
  exact ⟨hspelled, hdistinct⟩

variable {tries : Nat}

namespace Seeded

/-- A path that passes leads to the key of its identity. -/
theorem publicKeyAt_of_checkPath {curve : Algorithm} {seed : Bytes} {holder : LocalIdentity}
    {path path' : Path} (h : checkPath tries curve seed holder path = .ok path') :
    path' = path ∧ publicKeyAt tries curve seed path = .ok holder.identity.publicKey := by
  obtain ⟨key, hkey, h⟩ := Outcome.bind_eq_ok.1 h
  obtain ⟨hsame, h⟩ := Outcome.ite_error_eq_ok.1 h
  rw [hkey, not_not.1 hsame]
  exact ⟨(Outcome.pure_eq_ok.1 h).symm, rfl⟩

/-- Every path of a book that was checked leads to the key of its identity. -/
theorem publicKeyAt_of_book {curve : Algorithm} {seed : Bytes} {s : Stored Path} {b : Book Path}
    (h : s.book (checkPath tries curve seed) = .ok b) :
    ∀ e ∈ b.entries, publicKeyAt tries curve seed e.data = .ok e.holder.identity.publicKey := by
  intro e he
  obtain ⟨a, -, hholder, hcheck⟩ := exists_mem_of_forall₂ (Stored.forall₂_of_book h).2 he
  obtain ⟨hpath, hkey⟩ := publicKeyAt_of_checkPath hcheck
  rw [hpath, hholder, hkey]

theorem spelledBy_of_ofText {w : Seeded} (h : ofText tries data ids = .ok (w, rest)) :
    (seeded w).SpelledBy data ∧ (seeded w).Sound tries := by
  obtain ⟨d, mid, hread, h⟩ := Drawing.bind_eq_ok.1 h
  obtain ⟨mnemonic, mid', hmnemonic, h⟩ := Drawing.bind_eq_ok.1 h
  obtain ⟨book, last, hbook, h⟩ := Drawing.bind_eq_ok.1 h
  obtain ⟨id, final, hid, h⟩ := Drawing.bind_eq_ok.1 h
  obtain ⟨rfl, -⟩ := Drawing.pure_eq_ok.1 h
  obtain ⟨j, hj, hd⟩ := readDocument_eq_ok.1 (Drawing.liftM_eq_ok.1 hread).1
  have hmnemonic := Outcome.mapError_eq_ok.1 (Drawing.liftM_eq_ok.1 hmnemonic).1
  have hbook := (Drawing.liftM_eq_ok.1 hbook).1
  simp only [document?, Option.bind_eq_bind, Option.bind_eq_some_iff,
    Json.Fields.required_eq_some, Json.text?_eq_some, Option.pure_def, Option.some.injEq] at hd
  obtain ⟨f, hf, s, hs, secret, ⟨_, hsecret, rfl⟩, curve, ⟨c, hfield, hcurve⟩, rfl⟩ := hd
  have hname : c.IsName (seedName curve) :=
    (Json.choice?_eq_some (by cases curve <;> rfl)).1 hcurve
  refine ⟨⟨j, f, hj, hf, Stored.spelledBy_of_book hs hid rfl hbook ?_,
    ⟨secret, hsecret, hmnemonic⟩, c, hfield, hname⟩, (Stored.forall₂_of_book hbook).1, ?_⟩
  · intro d holder path path' hpath hcheck
    rw [(publicKeyAt_of_checkPath hcheck).1]
    exact Path.ofJson?_eq_some.1 hpath
  · -- only the fields are to be compared, not the seed computed
    dsimp only
    exact publicKeyAt_of_book hbook

end Seeded

/-! ## Wallets of every kind -/

/-- The names of the kinds of wallets. -/
def kinds : List String :=
  [Imported.kind, Seeded.kind .ed25519, Seeded.kind .secp256k1, Ledger.kind]

theorem kind_mem_kinds (w : Wallet) : w.kind ∈ kinds := by
  cases w with
  | imported w => simp [kinds, kind]
  | seeded w => cases hcurve : w.curve <;> simp [kinds, kind, hcurve]
  | ledger w => simp [kinds, kind]

/-- A wallet of a kind below a seed is on the curve of the kind. -/
theorem exists_seeded_of_kind {w : Wallet} {curve : Algorithm}
    (h : w.kind = Seeded.kind curve) : ∃ v : Seeded, w = seeded v ∧ v.curve = curve := by
  cases w with
  | imported v => cases curve <;> simp [kind, Imported.kind, Seeded.kind] at h
  | seeded v =>
    refine ⟨v, rfl, ?_⟩
    rw [kind] at h
    cases hv : v.curve <;> cases curve <;> simp [hv, Seeded.kind] at h ⊢
  | ledger v => cases curve <;> simp [kind, Ledger.kind, Seeded.kind] at h

/-- **A wallet is of the kind that it was read as, spelled by its document, and sound.** -/
theorem spelledBy_of_ofText {kind : String} {w : Wallet}
    (h : ofText tries kind data ids = .ok (w, rest)) :
    w.kind = kind ∧ w.SpelledBy data ∧ w.Sound tries := by
  unfold ofText at h
  split at h
  · rename_i hkind
    obtain ⟨w, hw, rfl⟩ := Drawing.map_eq_ok.1 h
    exact ⟨hkind.symm, Imported.spelledBy_of_ofText hw⟩
  · split at h
    · obtain ⟨w, mid, hw, h⟩ := Drawing.bind_eq_ok.1 h
      split at h
      · cases h
      · rename_i hcurve
        obtain ⟨rfl, -⟩ := Drawing.pure_eq_ok.1 h
        exact ⟨not_not.1 hcurve, Seeded.spelledBy_of_ofText hw⟩
    · split at h
      · rename_i hkind
        obtain ⟨w, hw, rfl⟩ := Drawing.map_eq_ok.1 h
        exact ⟨hkind.symm, Ledger.spelledBy_of_ofText hw⟩
      · cases h

end Wallet

end ChainKit
