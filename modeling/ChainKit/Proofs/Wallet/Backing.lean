import ChainKit.Proofs.Keys.Derivation
import ChainKit.Proofs.Wallet.Calls
import ChainKit.Proofs.Wallet.Loading
import Mathlib
/-!
# Identities below a seed are backed by their keys

A wallet below a seed stores a public key and a path with each identity, and
signs with what the path leads to. A phrase, a secret, a draw or a document
opens such a wallet; a document may say anything, but one whose paths lead
elsewhere is refused. Whatever the wallet is told from then on, its curve
and its secret stay, and every identity has the public key at its path
(`Backed`). So nobody is signed for with the key of another: for an identity
that is held the key is found, and is the one whose public key it has; for
any other there is none (`backed_of_opened`).
-/

namespace ChainKit

open Keys

namespace Keys

namespace PrivateKey

variable {k : PrivateKey} {p : PublicKey} {message : Bytes} {prehash : Prehash} {e : KeyError}

/-- A public key belongs to the scheme of its private key. -/
theorem algorithm_of_publicKey (h : k.publicKey = .ok p) : p.algorithm = k.algorithm := by
  unfold publicKey at h
  split at h
  all_goals
    rename_i halgorithm
    obtain ⟨_, -, hp⟩ := Outcome.bind_eq_ok.1 h
    rw [← Outcome.pure_eq_ok.1 hp, halgorithm]

/-- A key that has a public key signs whatever it gets on ed25519. On secp256k1 it may be given
another digest than it signs, or find no nonce. -/
theorem refusal_of_publicKey (h : k.publicKey = .ok p) (hsign : k.sign message prehash = .error e) :
    k.algorithm = .secp256k1 ∧ (e = .unsupportedPrehash prehash ∨ e = .secp256k1Nonce) := by
  obtain ⟨algorithm, data⟩ := k
  cases algorithm with
  | ed25519 =>
    obtain ⟨key, hkey, -⟩ := Outcome.bind_eq_ok.1 h
    have hok : sign ⟨.ed25519, data⟩ message prehash =
        .ok (Ed25519.sign key (prehash.apply message)) := Outcome.bind_eq_ok.2 ⟨key, hkey, rfl⟩
    rw [hok] at hsign
    cases hsign
  | secp256k1 =>
    obtain ⟨secret, hsecret, -⟩ := Outcome.bind_eq_ok.1 h
    refine ⟨rfl, ?_⟩
    rw [sign] at hsign
    dsimp only at hsign
    rw [hsecret, Outcome.ok_bind] at hsign
    by_cases hfits : fitsSecp256k1 prehash = true
    · rw [if_neg (by simp [hfits])] at hsign
      cases hsigned : Ecdsa.sign? secret (prehash.apply message) with
      | none =>
        rw [hsigned] at hsign
        exact .inr (Except.error.inj hsign).symm
      | some signature =>
        rw [hsigned] at hsign
        cases hsign
    · rw [if_pos (by simpa using hfits)] at hsign
      exact .inl (Except.error.inj hsign).symm

end PrivateKey

end Keys

namespace Wallet

namespace Seeded

variable {tries : Nat} {w : Seeded} {curve : Algorithm} {seed : Bytes} {path : Path}
  {publicKey : PublicKey}

/-! ## Keys at paths -/

/-- A public key at a path is that of the node to which it leads. -/
theorem publicKeyAt_eq_ok : publicKeyAt tries curve seed path = .ok publicKey ↔
    ∃ node, Node.deriveWithin tries curve seed path = .ok node ∧
      node.privateKey.publicKey = .ok publicKey := by
  have hnode (key : PrivateKey) : privateKeyAt tries curve seed path = .ok key ↔
      ∃ node, Node.deriveWithin tries curve seed path = .ok node ∧ node.privateKey = key := by
    rw [privateKeyAt]
    cases Node.deriveWithin tries curve seed path <;> simp
  simp only [publicKeyAt, Outcome.bind_eq_ok, Outcome.mapError_eq_ok, hnode]
  constructor
  · rintro ⟨_, ⟨node, hderive, rfl⟩, hkey⟩
    exact ⟨node, hderive, hkey⟩
  · rintro ⟨node, hderive, hkey⟩
    exact ⟨_, ⟨node, hderive, rfl⟩, hkey⟩

/-- It is on the curve below which it was looked for. -/
theorem algorithm_of_publicKeyAt (h : publicKeyAt tries curve seed path = .ok publicKey) :
    publicKey.algorithm = curve := by
  obtain ⟨node, hderive, hkey⟩ := publicKeyAt_eq_ok.1 h
  rw [PrivateKey.algorithm_of_publicKey hkey]
  exact (Node.settles_deriveWithin curve seed path).curve tries node hderive

/-- A wallet signs with the node at the path of an identity. -/
theorem sign_of_derive {i : Identity} {node : Node} (hget : w.base.book.get i = .ok path)
    (hderive : Node.deriveWithin tries w.curve w.seed path = .ok node) (message : Bytes)
    (prehash : Prehash) :
    w.sign tries i message prehash = (node.privateKey.sign message prehash).mapError .key := by
  simp only [sign, hget, privateKeyAt, hderive, Outcome.ok_bind]

/-! ## Wallets that are backed -/

/-- Every identity has the key at its path, and is signed for with that key; no other identity is
signed for. -/
structure Backed (tries : Nat) (w : Seeded) : Prop where
  /-- The keys are on the curve of the wallet. -/
  algorithm : ∀ e ∈ w.base.book.entries, e.holder.identity.publicKey.algorithm = w.curve
  /-- The public key of an identity is the one at its path. -/
  publicKey : ∀ e ∈ w.base.book.entries,
    publicKeyAt tries w.curve w.seed e.data = .ok e.holder.identity.publicKey
  /-- The path leads to a key, also if draws have no bound; this is what signs, and its public key
  is that of the identity. -/
  signer : ∀ e ∈ w.base.book.entries, ∃ node,
    Node.deriveWithin tries w.curve w.seed e.data = .ok node ∧
      (Node.hmac.derive w.curve w.seed e.data).run = some (.ok node.raw) ∧
      node.privateKey.publicKey = .ok e.holder.identity.publicKey ∧
      ∀ message prehash, w.sign tries e.holder.identity message prehash =
        (node.privateKey.sign message prehash).mapError .key
  /-- So signing fails for nothing but a digest that is not signed or a nonce that is not found. -/
  refusal : ∀ e ∈ w.base.book.entries, ∀ message prehash error,
    w.sign tries e.holder.identity message prehash = .error error → w.curve = .secp256k1 ∧
      (error = .key (.unsupportedPrehash prehash) ∨ error = .key .secp256k1Nonce)
  /-- An identity that is not held is not found. -/
  unknown : ∀ i ∉ w.base.book.identities.map (·.identity), ∀ message prehash,
    w.sign tries i message prehash = .error (.identityNotFound i.localId)

/-- The path of an entry is found under its identity, and leads to a key that signs. -/
theorem exists_signer (h : (seeded w).Sound tries) {e : Entry Path} (he : e ∈ w.base.book.entries) :
    ∃ node, Node.deriveWithin tries w.curve w.seed e.data = .ok node ∧
      (Node.hmac.derive w.curve w.seed e.data).run = some (.ok node.raw) ∧
      node.privateKey.publicKey = .ok e.holder.identity.publicKey ∧
      ∀ message prehash, w.sign tries e.holder.identity message prehash =
        (node.privateKey.sign message prehash).mapError .key := by
  obtain ⟨hdistinct, hkeys⟩ := h
  obtain ⟨node, hderive, hkey⟩ := publicKeyAt_eq_ok.1 (hkeys e he)
  have hget : w.base.book.get e.holder.identity = .ok e.data :=
    (Book.get_eq_ok hdistinct).2 ⟨e, he, rfl, rfl⟩
  have htold : Node.told (Node.deriveWithin tries w.curve w.seed e.data) =
      some (.ok node.raw) := Node.told_eq_some_ok.2 ⟨node, hderive, rfl⟩
  exact ⟨node, hderive, Node.run_derive_eq_some_iff.2 ⟨_, htold⟩, hkey, sign_of_derive hget hderive⟩

/-- **Sound wallets are backed.** -/
theorem backed_of_sound (h : (seeded w).Sound tries) : w.Backed tries where
  algorithm e he := algorithm_of_publicKeyAt (h.2 e he)
  publicKey := h.2
  signer _ he := exists_signer h he
  refusal e he message prehash error hsign := by
    obtain ⟨node, -, -, hkey, hnode⟩ := exists_signer h he
    rw [hnode message prehash] at hsign
    obtain ⟨e', hsigned, rfl⟩ := Outcome.mapError_eq_error.1 hsign
    obtain ⟨halgorithm, he'⟩ := PrivateKey.refusal_of_publicKey hkey hsigned
    have hcurve : node.privateKey.algorithm = w.curve := by
      rw [← PrivateKey.algorithm_of_publicKey hkey, algorithm_of_publicKeyAt (h.2 e he)]
    exact ⟨hcurve.symm.trans halgorithm, he'.imp (congrArg Error.key) (congrArg Error.key)⟩
  unknown i hi message prehash := by
    rw [sign, Book.get_of_notMem hi]
    rfl

/-! ## Wallets that are opened -/

/-- The ways to come by a wallet below a seed. -/
inductive Opened (tries : Nat) : Seeded → Prop
  /-- From words. -/
  | phrase {text : String} {mnemonic : Mnemonic} (id : WalletId) (curve : Algorithm)
    (h : Mnemonic.ofPhrase text = .ok mnemonic) : Opened tries (.new id curve mnemonic)
  /-- From a secret. -/
  | entropy {entropy : Bytes} {mnemonic : Mnemonic} (id : WalletId) (curve : Algorithm)
    (h : Mnemonic.ofEntropy entropy = .ok mnemonic) : Opened tries (.new id curve mnemonic)
  /-- From random bytes. -/
  | draw {random : Nat → Bytes} {count : Nat} {mnemonic : Mnemonic} (id : WalletId)
    (curve : Algorithm) (h : Mnemonic.draw random count = .ok mnemonic) :
    Opened tries (.new id curve mnemonic)
  /-- From a document. -/
  | document {text : String} {ids rest : IdSource} {w : Seeded}
    (h : ofText tries text ids = .ok (w, rest)) : Opened tries w

theorem sound_new (id : WalletId) (curve : Algorithm) (mnemonic : Mnemonic) :
    (seeded (.new id curve mnemonic)).Sound tries :=
  (Made.seeded id curve mnemonic).sound

/-- A wallet is sound however it was opened, also by a document that somebody changed. -/
theorem Opened.sound (h : w.Opened tries) : (seeded w).Sound tries := by
  cases h with
  | phrase id curve _ => exact sound_new id curve _
  | entropy id curve _ => exact sound_new id curve _
  | draw id curve _ => exact sound_new id curve _
  | document h => exact (spelledBy_of_ofText h).2

/-- No command changes the curve or the secret. -/
theorem exists_obey (tries : Nat) (w : Seeded) (c : Command) :
    ∃ v : Seeded, (seeded w).obey tries c = seeded v ∧ v.curve = w.curve ∧
      v.mnemonic = w.mnemonic := by
  cases c with
  | createIdentity chainId source =>
    rw [obey]
    cases hcreate : (seeded w).createIdentity tries chainId source with
    | error e => exact ⟨w, rfl, rfl, rfl⟩
    | ok p =>
      obtain ⟨⟨l, v⟩, hv, rfl⟩ := Outcome.map_eq_ok.1 hcreate
      obtain ⟨_, _, _, -, -, -, -, rfl⟩ := createIdentity_eq_ok hv
      exact ⟨_, rfl, rfl, rfl⟩
  | setIdentityLabel i label =>
    rw [obey]
    cases hlabel : (seeded w).setIdentityLabel i label with
    | error e => exact ⟨w, rfl, rfl, rfl⟩
    | ok next =>
      obtain ⟨book, -, rfl⟩ := Outcome.map_eq_ok.1 hlabel
      exact ⟨_, rfl, rfl, rfl⟩
  | setLabel label => exact ⟨_, rfl, rfl, rfl⟩
  | connect device => exact ⟨w, rfl, rfl, rfl⟩

theorem exists_foldl_obey (tries : Nat) (w : Seeded) (commands : List Command) :
    ∃ v : Seeded, commands.foldl (Wallet.obey tries) (seeded w) = seeded v ∧ v.curve = w.curve ∧
      v.mnemonic = w.mnemonic := by
  induction commands generalizing w with
  | nil => exact ⟨w, rfl, rfl, rfl⟩
  | cons c commands ih =>
    obtain ⟨mid, hmid, hcurve, hmnemonic⟩ := w.exists_obey tries c
    obtain ⟨v, hv, hcurve', hmnemonic'⟩ := ih mid
    refine ⟨v, ?_, hcurve'.trans hcurve, hmnemonic'.trans hmnemonic⟩
    rw [List.foldl_cons, hmid, hv]

end Seeded

/-- **Identities below a seed are backed by their keys**, however the wallet was opened, whatever it
was told since, and however often keys are tried. -/
theorem Seeded.backed_of_opened {tries : Nat} {w : Seeded} {next : Wallet} {commands : List Command}
    {answers : List (Result (Option LocalIdentity))} (hw : w.Opened tries)
    (hplay : (play tries commands).run (seeded w) = (answers, next)) :
    ∃ v : Seeded, next = seeded v ∧ v.curve = w.curve ∧ v.mnemonic = w.mnemonic ∧
      v.seed = w.mnemonic.seed ∧ v.Backed tries := by
  obtain ⟨v, hv, hcurve, hmnemonic⟩ := w.exists_foldl_obey tries commands
  have hsound := hw.sound.run_play commands
  rw [← run_play_snd, hplay] at hv
  rw [hplay] at hsound
  dsimp only at hv hsound
  subst hv
  have hseed : v.seed = w.mnemonic.seed := by rw [v.seed_eq, hmnemonic]
  exact ⟨v, rfl, hcurve, hmnemonic, hseed, backed_of_sound hsound⟩

namespace Seeded

/-- On ed25519 hardened children are found below every node. -/
theorem exists_foldlM_child (tries : Nat) (whole : Path) {path : Path}
    (hpath : ∀ i ∈ path, i.isHardened = true) (chainCode : Bytes) {key : Bytes}
    (hkey : key.length = 32) : ∃ chainCode' key',
      path.foldlM (Node.child tries whole) (.ed25519 chainCode key) =
        .ok (.ed25519 chainCode' key') ∧ key'.length = 32 := by
  induction path generalizing chainCode key with
  | nil => exact ⟨chainCode, key, rfl, hkey⟩
  | cons i path ih =>
    rw [List.forall_mem_cons] at hpath
    have hchild : Node.child tries whole (.ed25519 chainCode key) i =
        .ok (Node.hardenedChild chainCode key i) := if_pos hpath.1
    rw [List.foldlM_cons, hchild, Outcome.ok_bind, Node.hardenedChild]
    refine ih hpath.2 _ ?_
    rw [List.length_take, Hmac.length_sha512]
    rfl

/-- On ed25519 every hardened path has a key. -/
theorem exists_publicKeyAt (tries : Nat) (seed : Bytes) {path : Path}
    (hpath : ∀ i ∈ path, i.isHardened = true) :
    ∃ publicKey, publicKeyAt tries .ed25519 seed path = .ok publicKey := by
  let digest := Hmac.sha512 (Text.Utf8.encode (seedName .ed25519)) seed
  have hlength : (digest.take 32).length = 32 := by
    simp [digest, Hmac.length_sha512]
  obtain ⟨chainCode, key, hderive, hkey⟩ :=
    exists_foldlM_child tries path hpath (digest.drop 32) hlength
  have hpublic : PrivateKey.publicKey ⟨.ed25519, key⟩ = .ok ⟨.ed25519, Ed25519.publicKey key⟩ :=
    Outcome.bind_eq_ok.2 ⟨key, if_pos hkey, rfl⟩
  exact ⟨_, publicKeyAt_eq_ok.2 ⟨_, hderive, hpublic⟩⟩

theorem size_zeros : 16 ≤ (Bytes.zeros 16).length ∧ (Bytes.zeros 16).length ≤ 32 ∧
    (Bytes.zeros 16).length % 4 = 0 := by
  decide

/-- A secret of zeros. -/
def zeroMnemonic : Mnemonic := ⟨Bytes.zeros 16, size_zeros⟩

/-- A path to an identity, and one that ed25519 does not know. -/
def hardenedAndNormal : List Command :=
  [.createIdentity "chain" (.path [⟨0x80000000⟩]), .createIdentity "chain" (.path [⟨0⟩])]

/-- A wallet of zeros creates the first of two identities, which is backed, and not the second. -/
theorem backed_of_opened_zeros : ∃ answers publicKey, ∃ v : Seeded,
    (new "w" .ed25519 zeroMnemonic).Opened 64 ∧
      (play 64 hardenedAndNormal).run (seeded (new "w" .ed25519 zeroMnemonic)) =
        (answers, seeded v) ∧
      answers = [.ok (some { identity := ⟨"chain", publicKey⟩ }),
        .error (.derivation (.path (.notHardened ⟨0⟩ [⟨0⟩])))] ∧
      v.base.book.entries = [⟨{ identity := ⟨"chain", publicKey⟩ }, [⟨0x80000000⟩]⟩] ∧
      v.Backed 64 := by
  have hmnemonic : Mnemonic.ofEntropy (Bytes.zeros 16) = .ok zeroMnemonic := rfl
  have hopened : (new "w" .ed25519 zeroMnemonic).Opened 64 := .entropy "w" .ed25519 hmnemonic
  have hpath : ∀ i ∈ ([⟨0x80000000⟩] : Path), i.isHardened = true := by decide
  obtain ⟨publicKey, hkey⟩ := exists_publicKeyAt 64 (new "w" .ed25519 zeroMnemonic).seed hpath
  let v : Seeded := { new "w" .ed25519 zeroMnemonic with
    base := { id := "w", book := ⟨[⟨{ identity := ⟨"chain", publicKey⟩ }, [⟨0x80000000⟩]⟩]⟩ } }
  have hfirst : (new "w" .ed25519 zeroMnemonic).createIdentity 64 "chain" (.path [⟨0x80000000⟩]) =
      .ok ({ identity := ⟨"chain", publicKey⟩ }, v) :=
    Outcome.bind_eq_ok.2 ⟨publicKey, hkey, rfl⟩
  have hsecond : v.createIdentity 64 "chain" (.path [⟨0⟩]) =
      .error (.derivation (.path (.notHardened ⟨0⟩ [⟨0⟩]))) := rfl
  have hplay : (play 64 hardenedAndNormal).run (seeded (new "w" .ed25519 zeroMnemonic)) =
      ([.ok (some { identity := ⟨"chain", publicKey⟩ }),
        .error (.derivation (.path (.notHardened ⟨0⟩ [⟨0⟩])))], seeded v) := by
    simp only [hardenedAndNormal, run_play_cons, answer, obey, Wallet.createIdentity, hfirst,
      hsecond, Except.map]
    rfl
  obtain ⟨u, hu, -, -, -, hbacked⟩ := backed_of_opened hopened hplay
  cases hu
  exact ⟨_, publicKey, v, hopened, hplay, rfl, rfl, hbacked⟩

end Seeded

end Wallet

end ChainKit
