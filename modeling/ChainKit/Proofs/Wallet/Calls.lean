import ChainKit.Proofs.Wallet.Lookup
import ChainKit.Proofs.Wallet.Made
import Mathlib
/-!
# Calls change wallets in place

A wallet is a thing that calls change where it stands, and a call that
fails half-way might leave half a change behind. Here the calls are written
like that, step by step on a state that outlives a failure: the book is
searched, then written to; a key is asked for, then the book is called. All
kinds of wallets create identities alike, but for what they take, how they
come by its key and where their book is (`Kind`). Every call turns out to be
all or nothing: it gives the answer that the wallet gives to the command,
and leaves the wallet that the command makes of it (`on_perform`).
-/

namespace ChainKit

open Text Keys

namespace Wallet

/-- A call on something that it may change. What it has changed stays so if it fails. -/
abbrev Call (σ α : Type) := ExceptT Error (StateM σ) α

namespace Call

variable {σ τ α β : Type}

/-- What a call answers and leaves. -/
def on (c : Call σ α) (s : σ) : Result α × σ := c.run.run s

/-- The call on a part, which is taken out and put back. -/
def onPart (take : σ → τ) (put : σ → τ → σ) (c : Call τ α) : Call σ α :=
  ExceptT.mk fun s => ((c.on (take s)).1, put s (c.on (take s)).2)

/-- An answer with what it changes; an error changes nothing. -/
def settled (s : σ) : Result (α × σ) → Result α × σ
  | .ok (a, next) => (.ok a, next)
  | .error e => (.error e, s)

@[simp] theorem on_get (s : σ) : on get s = (.ok s, s) := rfl

@[simp] theorem on_liftM (x : Result α) (s : σ) : on (liftM x) s = (x, s) := rfl

@[simp] theorem on_onPart (take : σ → τ) (put : σ → τ → σ) (c : Call τ α) (s : σ) :
    (c.onPart take put).on s = ((c.on (take s)).1, put s (c.on (take s)).2) := rfl

/-- The second of two calls is made on what the first one leaves, if that succeeds. -/
theorem on_bind (c : Call σ α) (f : α → Call σ β) (s : σ) :
    on (c >>= f) s = match c.on s with
      | (.ok a, t) => (f a).on t
      | (.error e, t) => (.error e, t) := by
  simp only [on, bind, ExceptT.bind, ExceptT.mk, ExceptT.run, StateT.run, StateT.bind]
  rcases c s with ⟨_ | _, t⟩ <;> rfl

/-- Behind a look at the state, the call is on what was seen. -/
theorem on_get_bind (f : σ → Call σ β) (s : σ) : on (get >>= f) s = (f s).on s := by
  rw [on_bind, on_get]

/-! ## Books -/

/-- Puts an entry behind the others, unless its identifier is there. -/
def insert (holder : LocalIdentity) (data : α) : Call (Book α) Unit := do
  if (← get).entries.any fun e => e.holder.id = holder.id then
    throw (.duplicateIdentity holder.id)
  modify fun b => ⟨b.entries ++ [⟨holder, data⟩]⟩

/-- Looks for an identity, and writes the label where it is. -/
def setLabel (i : Identity) (label : Option String) : Call (Book α) Unit := do
  let place ← match (← get).entries.findIdx? fun e => e.holder.id = i.localId with
    | some place => pure place
    | none => throw (.identityNotFound i.localId)
  modify fun b => ⟨b.entries.modify place fun e => { e with holder := { e.holder with label } }⟩

theorem on_insert (holder : LocalIdentity) (data : α) (b : Book α) :
    (insert holder data).on b =
      settled b ((b.insert holder data).map fun c => ((), c)) := by
  rw [insert, on_get_bind, Book.insert]
  cases b.entries.any fun e => e.holder.id = holder.id <;> rfl

/-- The first element for which a test holds is changed where it is found. -/
theorem modify_findIdx? {γ : Type} {test : γ → Bool} {change : γ → γ} {xs : List γ} {place : Nat}
    (h : xs.findIdx? test = some place) :
    xs.modify place change = Book.changeFirst test change xs := by
  induction xs generalizing place with
  | nil => cases h
  | cons x xs ih =>
    rw [List.findIdx?_cons] at h
    rw [Book.changeFirst]
    split at h
    · rename_i hx
      cases h
      rw [if_pos hx, List.modify_zero_cons]
    · rename_i hx
      obtain ⟨place, hplace, rfl⟩ := Option.map_eq_some_iff.1 h
      rw [if_neg hx, List.modify_succ_cons, ih hplace]

theorem on_setLabel (i : Identity) (label : Option String) (b : Book α) :
    (setLabel i label).on b =
      settled b ((b.setLabel i label).map fun c => ((), c)) := by
  have hfound : (b.find? i).isSome =
      (b.entries.findIdx? fun e => e.holder.id = i.localId).isSome := by
    rw [Book.find?, Bool.eq_iff_iff, List.find?_isSome, List.findIdx?_isSome, List.any_eq_true]
  rw [setLabel, on_get_bind, Book.setLabel, hfound]
  cases hplace : b.entries.findIdx? fun e => e.holder.id = i.localId with
  | none => rfl
  | some place =>
    rw [Option.isSome_some, if_pos rfl, ← modify_findIdx? hplace]
    rfl

end Call

open Call

/-! ## Wallets -/

/-- What tells the kinds of wallets apart: where the book is, what identities are made from, and
how their public keys are found. -/
structure Kind (σ α : Type) where
  book : σ → Book α
  setBook : σ → Book α → σ
  pick : Source → Result α
  key : σ → α → Result PublicKey
  setBook_book : ∀ s, setBook s (book s) = s

namespace Kind

variable {σ α : Type} (k : Kind σ α)

/-- A call on the book. -/
def onBook (c : Call (Book α) Unit) : Call σ Unit := c.onPart k.book k.setBook

/-- Creates the identity of a source: what it takes is taken, a key is found, and the book asked to
hold both. -/
def create (chainId : ChainId) (source : Source) : Call σ LocalIdentity := do
  let data ← k.pick source
  let publicKey ← k.key (← get) data
  let holder : LocalIdentity := { identity := ⟨chainId, publicKey⟩ }
  k.onBook (Call.insert holder data)
  return holder

/-- The public key that is found for a source. -/
def keyOf (s : σ) (source : Source) : Result PublicKey := do k.key s (← k.pick source)

/-- The identity of a source, and what it is held by from then on. -/
def created (s : σ) (chainId : ChainId) (source : Source) : Result (LocalIdentity × σ) := do
  let data ← k.pick source
  let publicKey ← k.key s data
  let holder : LocalIdentity := { identity := ⟨chainId, publicKey⟩ }
  let book ← (k.book s).insert holder data
  return (holder, k.setBook s book)

/-- **Creating an identity is all or nothing.** -/
theorem on_create (chainId : ChainId) (source : Source) (s : σ) :
    (k.create chainId source).on s = settled s (k.created s chainId source) := by
  rw [create, created, on_bind, on_liftM]
  cases k.pick source with
  | error e => rfl
  | ok data =>
    rw [Outcome.ok_bind]
    dsimp only
    rw [on_get_bind, on_bind, on_liftM]
    cases k.key s data with
    | error e => rfl
    | ok publicKey =>
      rw [Outcome.ok_bind]
      dsimp only
      rw [on_bind, onBook, on_onPart, on_insert]
      cases (k.book s).insert _ data with
      | error e =>
        show (Except.error e, k.setBook s (k.book s)) = (Except.error e, s)
        rw [k.setBook_book]
      | ok book => rfl

/-- **A label is all or nothing.** -/
theorem on_relabel (i : Identity) (label : Option String) (s : σ) :
    (k.onBook (Call.setLabel i label)).on s =
      settled s (((k.book s).setLabel i label).map fun book => ((), k.setBook s book)) := by
  rw [onBook, on_onPart, on_setLabel]
  cases (k.book s).setLabel i label with
  | error e =>
    show (Except.error e, k.setBook s (k.book s)) = (Except.error e, s)
    rw [k.setBook_book]
  | ok book => rfl

/-- A key of which the chain has an identity already is refused. -/
theorem created_of_mem {s : σ} {chainId : ChainId} {source : Source} {publicKey : PublicKey}
    (hkey : k.keyOf s source = .ok publicKey)
    (hheld : ⟨chainId, publicKey⟩ ∈ (k.book s).identities.map (·.identity)) :
    k.created s chainId source =
      .error (.duplicateIdentity (Identity.localId ⟨chainId, publicKey⟩)) := by
  obtain ⟨data, hpick, hkey⟩ := Outcome.bind_eq_ok.1 hkey
  simp only [created, hpick, hkey, Outcome.ok_bind, Book.insert_eq, if_pos hheld]
  rfl

/-- Any other key is given an identity. -/
theorem created_of_notMem {s : σ} {chainId : ChainId} {source : Source} {publicKey : PublicKey}
    (hkey : k.keyOf s source = .ok publicKey)
    (hnew : ⟨chainId, publicKey⟩ ∉ (k.book s).identities.map (·.identity)) :
    ∃ next, k.created s chainId source = .ok ({ identity := ⟨chainId, publicKey⟩ }, next) := by
  obtain ⟨data, hpick, hkey⟩ := Outcome.bind_eq_ok.1 hkey
  simp only [created, hpick, hkey, Outcome.ok_bind, Book.insert_eq, if_neg hnew]
  exact ⟨_, rfl⟩

end Kind

/-- Wallets of imported keys find public keys by themselves. -/
def Imported.asKind : Kind Imported Bytes where
  book w := w.base.book
  setBook w book := ⟨{ w.base with book }⟩
  pick
    | .privateKey data => .ok data
    | _ => .error (.unsupportedOptions "ed25519 wallet needs a keypair")
  key _ data := (PrivateKey.publicKey ⟨.ed25519, data⟩).mapError .key
  setBook_book _ := rfl

/-- Wallets below a seed derive public keys. -/
def Seeded.asKind (tries : Nat) : Kind Seeded Path where
  book w := w.base.book
  setBook w book := { w with base := { w.base with book } }
  pick
    | .path path => .ok path
    | _ => .error (.unsupportedOptions "HD wallet needs a derivation path")
  key w path := publicKeyAt tries w.curve w.seed path
  setBook_book _ := rfl

/-- Wallets on a device ask it for public keys. -/
def Ledger.asKind : Kind Ledger UInt32 where
  book w := w.base.book
  setBook w book := { w with base := { w.base with book } }
  pick
    | .index index => .ok index
    | _ => .error (.unsupportedOptions "ledger wallet needs a simple address index")
  key w index := do
    let device ← w.connectedDevice
    keyOfReply (device.publicKey index)
  setBook_book _ := rfl

theorem Imported.created_eq (w : Imported) (chainId : ChainId) (source : Source) :
    asKind.created w chainId source = w.createIdentity chainId source := by
  cases source <;> rfl

theorem Seeded.created_eq (tries : Nat) (w : Seeded) (chainId : ChainId) (source : Source) :
    (asKind tries).created w chainId source = w.createIdentity tries chainId source := by
  cases source <;> rfl

theorem Ledger.created_eq (w : Ledger) (chainId : ChainId) (source : Source) :
    asKind.created w chainId source = w.createIdentity chainId source := by
  cases source with
  | index index =>
    rw [Kind.created, createIdentity]
    dsimp only [asKind]
    rw [Outcome.ok_bind, bind_assoc]
  | _ => rfl

/-! ## Wallets of every kind -/

variable {tries : Nat}

/-- The public key that a wallet finds for a source. -/
def keyOf (tries : Nat) (source : Source) : Wallet → Result PublicKey
  | imported w => Imported.asKind.keyOf w source
  | seeded w => (Seeded.asKind tries).keyOf w source
  | ledger w => Ledger.asKind.keyOf w source

/-- A call that wallets of each kind understand. -/
def each {β : Type} (tries : Nat) (f : {σ α : Type} → Kind σ α → Call σ β) : Call Wallet β :=
  ExceptT.mk fun
    | imported w => (((f Imported.asKind).on w).1, imported ((f Imported.asKind).on w).2)
    | seeded w =>
      (((f (Seeded.asKind tries)).on w).1, seeded ((f (Seeded.asKind tries)).on w).2)
    | ledger w => (((f Ledger.asKind).on w).1, ledger ((f Ledger.asKind).on w).2)

/-- Carries a command out. The answer is the identity, if one is created. -/
def perform (tries : Nat) : Command → Call Wallet (Option LocalIdentity)
  | .createIdentity chainId source => do
    let holder ← each tries fun k => k.create chainId source
    return some holder
  | .setIdentityLabel i label => do
    each tries fun k => k.onBook (Call.setLabel i label)
    return none
  | .setLabel label => do
    modify (setLabel label)
    return none
  | .connect device => do
    modify fun w => match w with
      | ledger w => ledger (w.connect device)
      | w => w
    return none

/-- What a wallet answers to a command. -/
def answer (tries : Nat) (w : Wallet) : Command → Result (Option LocalIdentity)
  | .createIdentity chainId source =>
    (w.createIdentity tries chainId source).map fun (l, _) => some l
  | .setIdentityLabel i label => (w.setIdentityLabel i label).map fun _ => none
  | .setLabel _ => .ok none
  | .connect _ => .ok none

/-- What wallets do as wallets of their kind. -/
structure Kind.Describes (tries : Nat) {σ α : Type} (k : Kind σ α) (wrap : σ → Wallet) : Prop where
  identities : ∀ s, (wrap s).identities = (k.book s).identities
  keyOf : ∀ s source, (wrap s).keyOf tries source = k.keyOf s source
  createIdentity : ∀ s chainId source, (wrap s).createIdentity tries chainId source =
    (k.created s chainId source).map fun (l, next) => (l, wrap next)
  setIdentityLabel : ∀ s i label, (wrap s).setIdentityLabel i label =
    ((k.book s).setLabel i label).map fun book => wrap (k.setBook s book)
  on_each : ∀ {β : Type} (f : {σ α : Type} → Kind σ α → Call σ β) s,
    (each tries f).on (wrap s) = (((f k).on s).1, wrap ((f k).on s).2)

/-- **Every wallet is of a kind**, so what is shown for all kinds holds of all wallets. -/
theorem exists_kind (tries : Nat) (w : Wallet) :
    ∃ (σ α : Type) (k : Kind σ α) (wrap : σ → Wallet) (s : σ), w = wrap s ∧
      k.Describes tries wrap := by
  cases w with
  | imported w =>
    refine ⟨_, _, Imported.asKind, imported, w, rfl, fun _ => rfl, fun _ _ => rfl, ?_,
      fun _ _ _ => rfl, fun _ _ => rfl⟩
    intro s chainId source
    rw [Imported.created_eq]
    rfl
  | seeded w =>
    refine ⟨_, _, Seeded.asKind tries, seeded, w, rfl, fun _ => rfl, fun _ _ => rfl, ?_,
      fun _ _ _ => rfl, fun _ _ => rfl⟩
    intro s chainId source
    rw [Seeded.created_eq]
    rfl
  | ledger w =>
    refine ⟨_, _, Ledger.asKind, ledger, w, rfl, fun _ => rfl, fun _ _ => rfl, ?_,
      fun _ _ _ => rfl, fun _ _ => rfl⟩
    intro s chainId source
    rw [Ledger.created_eq]
    rfl

theorem on_each_create (chainId : ChainId) (source : Source) (w : Wallet) :
    (each tries fun k => k.create chainId source).on w =
      settled w (w.createIdentity tries chainId source) := by
  obtain ⟨σ, α, k, wrap, s, rfl, hk⟩ := w.exists_kind tries
  rw [hk.on_each, k.on_create, hk.createIdentity]
  cases k.created s chainId source <;> rfl

theorem on_each_setLabel (i : Identity) (label : Option String) (w : Wallet) :
    (each tries fun k => k.onBook (Call.setLabel i label)).on w =
      settled w ((w.setIdentityLabel i label).map fun next => ((), next)) := by
  obtain ⟨σ, α, k, wrap, s, rfl, hk⟩ := w.exists_kind tries
  rw [hk.on_each, k.on_relabel, hk.setIdentityLabel]
  cases (k.book s).setLabel i label <;> rfl

/-- **A command is all or nothing**: it is answered as the wallet answers it, and what is left is
the wallet after the command, which is the one from before if the answer is an error. -/
theorem on_perform (c : Command) (w : Wallet) :
    (perform tries c).on w = (w.answer tries c, w.obey tries c) := by
  cases c with
  | createIdentity chainId source =>
    rw [perform, on_bind, on_each_create, answer, obey]
    rcases w.createIdentity tries chainId source with _ | ⟨l, next⟩ <;> rfl
  | setIdentityLabel i label =>
    rw [perform, on_bind, on_each_setLabel, answer, obey]
    cases w.setIdentityLabel i label <;> rfl
  | setLabel label => rfl
  | connect device => rfl

/-- A command that is answered by an error changes nothing. -/
theorem obey_of_answer_error {w : Wallet} {c : Command} {e : Error}
    (h : w.answer tries c = .error e) : w.obey tries c = w := by
  cases c with
  | createIdentity chainId source =>
    rw [answer] at h
    rw [obey]
    cases hcreate : w.createIdentity tries chainId source with
    | error e => rfl
    | ok p =>
      rw [hcreate] at h
      cases h
  | setIdentityLabel i label =>
    rw [answer] at h
    rw [obey]
    cases hlabel : w.setIdentityLabel i label with
    | error e => rfl
    | ok next =>
      rw [hlabel] at h
      cases h
  | setLabel label => cases h
  | connect device => cases h

/-- Carries commands out one after the other, whatever becomes of each. -/
def play (tries : Nat) (commands : List Command) :
    StateM Wallet (List (Result (Option LocalIdentity))) :=
  commands.mapM fun c => (perform tries c).run

theorem run_play_cons (c : Command) (commands : List Command) (w : Wallet) :
    (play tries (c :: commands)).run w =
      (w.answer tries c :: ((play tries commands).run (w.obey tries c)).1,
        ((play tries commands).run (w.obey tries c)).2) := by
  have hfirst : ((perform tries c).run).run w = (w.answer tries c, w.obey tries c) :=
    on_perform c w
  rw [play, List.mapM_cons, StateT.run_bind, hfirst]
  rfl

/-- **Commands leave what they make of the wallet one by one.** -/
theorem run_play_snd (commands : List Command) (w : Wallet) :
    ((play tries commands).run w).2 = commands.foldl (obey tries) w := by
  induction commands generalizing w with
  | nil => rfl
  | cons c commands ih => rw [run_play_cons, List.foldl_cons, ih]

/-- Commands keep wallets sound, whether they are carried out or refused. -/
theorem Sound.run_play {w : Wallet} (h : w.Sound tries) (commands : List Command) :
    ((play tries commands).run w).2.Sound tries := by
  induction commands generalizing w with
  | nil => exact h
  | cons c commands ih =>
    rw [run_play_cons]
    exact ih (h.obey c)

end Wallet

end ChainKit
