import ChainKit.Bytes.Lemmas
import ChainKit.Keys.Derivation
import ChainKit.Proofs.Outcome
import Mathlib
/-!
# Walks — derivation on plain bytes, under any keyed digest

Here a node is a chain code and a key that may be any bytes, so each step
has to check the key above it again, and can fail for a key that is no
factor. The digest is any function to 64 bytes, and the draws of a digest
have no bound: where none will do, there is no answer at all.

No walk on secp256k1 that starts at a root meets such a key. The root is
drawn until its key is a factor, and a child until the sum of its digest
and the key above is (`yields_root`, `yields_child`); so a walk that has an
answer has a node, and the node has a public key. On ed25519 there are no
draws, and an answer is an error exactly for a path with an index that is
not hardened.
-/

namespace ChainKit

open Text

namespace Keys

/-- A keyed digest of 64 bytes. -/
structure KeyedDigest where
  digest : (key message : Bytes) → Bytes
  length_digest : ∀ key message, (digest key message).length = 64

/-- A chain code and a key, whatever bytes they are. -/
structure RawNode where
  chainCode : Bytes
  key : Bytes
  deriving DecidableEq

/-- Why a node has no child at an index. -/
inductive StepError where
  /-- The key above is no factor. -/
  | invalidParent
  /-- The key above has no public point. -/
  | invalidSecret
  /-- Only hardened indices are known. -/
  | notHardened (index : Index)
  deriving DecidableEq

/-- Why a walk along a path does not reach its end. -/
inductive WalkError where
  | invalidParent
  | invalidSecret
  | path (error : PathError)
  deriving DecidableEq

/-- The error of a step on a path, which it names if the index is at fault. -/
def StepError.along (path : Path) : StepError → WalkError
  | invalidParent => .invalidParent
  | invalidSecret => .invalidSecret
  | notHardened i => .path (.notHardened i path)

/-! ## Draws without a bound -/

/-- An answer, or none where a draw never ends. -/
abbrev Unbounded (ε α : Type) : Type := ExceptT ε Option α

namespace Unbounded

variable {ε α β : Type}

/-- An answer for which nothing is drawn. -/
def answer (x : Except ε α) : Unbounded ε α := ExceptT.mk (some x)

/-- What a draw finds. -/
def found (x : Option α) : Unbounded ε α := ExceptT.mk (x.map .ok)

/-- If there is an answer, it is no error and has a property. -/
def Yields (p : α → Prop) (x : Unbounded ε α) : Prop :=
  ∀ r, x.run = some r → ∃ a, r = .ok a ∧ p a

variable {p : α → Prop} {q : β → Prop}

theorem run_bind_eq_some {x : Unbounded ε α} {f : α → Unbounded ε β} {r : Except ε β} :
    (x >>= f).run = some r ↔ (∃ a, x.run = some (.ok a) ∧ (f a).run = some r) ∨
      ∃ e, x.run = some (.error e) ∧ r = .error e := by
  rcases hx : x.run with _ | (e | a)
  · have hbind : (x >>= f).run = none := by rw [ExceptT.run_bind, hx]; rfl
    simp [hbind]
  · have hbind : (x >>= f).run = some (.error e) := by rw [ExceptT.run_bind, hx]; rfl
    simp [hbind, eq_comm]
  · have hbind : (x >>= f).run = (f a).run := by rw [ExceptT.run_bind, hx]; rfl
    simp [hbind]

theorem yields_bind {x : Unbounded ε α} {f : α → Unbounded ε β} (hx : x.Yields p)
    (hf : ∀ a, p a → (f a).Yields q) : (x >>= f).Yields q := by
  intro r hr
  rcases run_bind_eq_some.1 hr with ⟨a, ha, hr⟩ | ⟨e, he, -⟩
  · obtain ⟨b, hb, hp⟩ := hx _ ha
    cases hb
    exact hf a hp r hr
  · obtain ⟨b, hb, -⟩ := hx _ he
    cases hb

theorem yields_found {x : Option α} (hx : ∀ a, x = some a → p a) :
    (found x : Unbounded ε α).Yields p := by
  intro r hr
  obtain ⟨a, ha, rfl⟩ := Option.map_eq_some_iff.1 hr
  exact ⟨a, rfl, hx a ha⟩

/-- What every step keeps, all of them keep. -/
theorem yields_foldlM {γ : Type} {f : α → γ → Unbounded ε α} (hf : ∀ a i, p a → (f a i).Yields p)
    (is : List γ) {a : α} (ha : p a) : (is.foldlM f a : Unbounded ε α).Yields p := by
  induction is generalizing a with
  | nil =>
    rintro r ⟨⟩
    exact ⟨a, rfl, ha⟩
  | cons i is ih =>
    rw [List.foldlM_cons]
    exact yields_bind (hf a i ha) fun b hb => ih hb

end Unbounded

/-- One round of a draw: what the digest is read as, or else the next digest. -/
def readRound {α : Type} (read : Bytes → Option α) (next : Bytes → Bytes) : Bytes →. α ⊕ Bytes :=
  fun digest => Part.some <| match read digest with
    | some x => .inl x
    | none => .inr (next digest)

open Classical in
/-- What the first digest that can be read is read as, starting with `digest`: rounds without a
bound, and nothing if none of them ends the draw. -/
noncomputable def firstRead {α : Type} (read : Bytes → Option α) (next : Bytes → Bytes)
    (digest : Bytes) : Option α :=
  ((readRound read next).fix digest).toOption

section FirstRead

variable {α : Type} {read : Bytes → Option α} {next : Bytes → Bytes} {digest : Bytes} {x : α}

theorem mem_fix_readRound : x ∈ (readRound read next).fix digest ↔
    read digest = some x ∨ read digest = none ∧ x ∈ (readRound read next).fix (next digest) := by
  rw [PFun.mem_fix_iff]
  cases hread : read digest <;> simp [readRound, hread, eq_comm]

/-- **A digest is found exactly if some number of tries is enough.** -/
theorem firstRead_eq_some : firstRead read next digest = some x ↔
    ∃ tries, Node.firstValid read next tries digest = some x := by
  classical
  rw [firstRead, Part.toOption_eq_some_iff]
  constructor
  · intro h
    -- On the rounds of the draw, of which there are finitely many as it ends.
    refine PFun.fixInduction h fun d hd ih => ?_
    rcases mem_fix_readRound.1 hd with hread | ⟨hread, -⟩
    · exact ⟨1, by rw [Node.firstValid, hread]⟩
    · obtain ⟨tries, htries⟩ := ih (next d) (by simp [readRound, hread])
      exact ⟨tries + 1, by rw [Node.firstValid, hread, htries]⟩
  · rintro ⟨tries, h⟩
    induction tries generalizing digest with
    | zero => cases h
    | succ tries ih =>
      rw [Node.firstValid] at h
      refine mem_fix_readRound.2 ?_
      cases hread : read digest with
      | some y =>
        rw [hread] at h
        exact .inl h
      | none =>
        rw [hread] at h
        exact .inr ⟨rfl, ih h⟩

/-- What is found is read from some digest. -/
theorem exists_read_of_firstValid {tries : Nat}
    (h : Node.firstValid read next tries digest = some x) : ∃ d, read d = some x := by
  induction tries generalizing digest with
  | zero => cases h
  | succ tries ih =>
    rw [Node.firstValid] at h
    split at h
    · rename_i y hy
      exact ⟨digest, hy.trans h⟩
    · exact ih h

theorem exists_read_of_firstRead (h : firstRead read next digest = some x) :
    ∃ d, read d = some x := by
  obtain ⟨tries, htries⟩ := firstRead_eq_some.1 h
  exact exists_read_of_firstValid htries

end FirstRead

/-! ## Keys as numbers below the order -/

/-- The number below the order that 32 bytes spell. -/
def residue? (b : Bytes) : Option (Fin Secp256k1.order) :=
  if h : b.length = 32 ∧ Bytes.toNat b < Secp256k1.order then some ⟨Bytes.toNat b, h.2⟩ else none

/-- The number below the order that 32 bytes spell, unless it is zero. -/
def factor? (b : Bytes) : Option (Fin Secp256k1.order) := (residue? b).filter (·.val ≠ 0)

/-- The key is 32 bytes that spell a factor. -/
structure RawNode.Valid (node : RawNode) : Prop where
  length : node.key.length = 32
  pos : 0 < Bytes.toNat node.key
  lt : Bytes.toNat node.key < Secp256k1.order

theorem factor?_eq_some {b : Bytes} {n : Fin Secp256k1.order} :
    factor? b = some n ↔ b.length = 32 ∧ 0 < Bytes.toNat b ∧ Bytes.toNat b = n.val := by
  rw [factor?, Option.filter_eq_some_iff, residue?, Option.dite_none_right_eq_some]
  simp only [Option.some.injEq, decide_eq_true_eq, Fin.ext_iff]
  constructor
  · rintro ⟨⟨⟨hlength, -⟩, hn⟩, hne⟩
    exact ⟨hlength, by omega, hn⟩
  · rintro ⟨hlength, hpos, hn⟩
    exact ⟨⟨⟨hlength, hn ▸ n.isLt⟩, hn⟩, by omega⟩

/-- The factor that a valid key is. -/
def RawNode.Valid.secret {node : RawNode} (h : node.Valid) : Secp256k1.Scalar :=
  ⟨Bytes.toNat node.key, h.pos, h.lt⟩

/-- A valid key is a private key. -/
theorem RawNode.Valid.secp256k1Secret {node : RawNode} (h : node.Valid) :
    PrivateKey.secp256k1Secret node.key = .ok h.secret := by
  have hfits : PrivateKey.fitsSecret 32 = true := rfl
  rw [PrivateKey.secp256k1Secret, h.length, if_pos hfits, Secp256k1.Scalar.ofNat?,
    dif_pos ⟨h.pos, h.lt⟩]
  rfl

/-- And has a public key. -/
theorem RawNode.Valid.publicKey {node : RawNode} (h : node.Valid) :
    PrivateKey.publicKey ⟨.secp256k1, node.key⟩ =
      .ok ⟨.secp256k1, (Secp256k1.publicPoint h.secret).uncompressed⟩ := by
  simp only [PrivateKey.publicKey, h.secp256k1Secret, Outcome.ok_bind]
  rfl

namespace KeyedDigest

variable (H : KeyedDigest)

/-! ## The steps -/

/-- The node that the halves of a digest are. -/
def split (digest : Bytes) : RawNode := ⟨digest.drop 32, digest.take 32⟩

/-- The root below a seed. On secp256k1 it is drawn until its key is a factor. -/
noncomputable def root (curve : Algorithm) (seed : Bytes) : Option RawNode :=
  let digest := H.digest (Utf8.encode (seedName curve))
  match curve with
  | .ed25519 => some (split (digest seed))
  | .secp256k1 =>
    firstRead (fun d => (factor? (d.take 32)).map fun _ => split d) digest (digest seed)

/-- A child of an ed25519 node. -/
def hardenedChild (node : RawNode) (i : Index) : Except StepError RawNode :=
  if !i.isHardened then .error (.notHardened i)
  else .ok (split (H.digest node.chainCode (0 :: node.key ++ i.toBytes)))

/-- What of a secp256k1 node is digested for a child. -/
def source (node : RawNode) (i : Index) : Except StepError Bytes :=
  if i.isHardened then .ok (0 :: node.key)
  else match PrivateKey.secp256k1Secret node.key with
    | .ok secret => .ok (Secp256k1.publicPoint secret).compressed
    | .error _ => .error .invalidSecret

/-- The node in a digest below a key: the sum of both keys, unless it is zero. -/
def summed? (above : Fin Secp256k1.order) (digest : Bytes) : Option RawNode :=
  (((residue? (digest.take 32)).map (· + above)).filter (·.val ≠ 0)).map fun n =>
    ⟨digest.drop 32, Bytes.ofNat 32 n.val⟩

/-- A child of a secp256k1 node. -/
noncomputable def summedChild (node : RawNode) (i : Index) : Unbounded StepError RawNode :=
  match factor? node.key with
  | none => throw .invalidParent
  | some above => do
    let source ← Unbounded.answer (source node i)
    let digest := H.digest node.chainCode
    Unbounded.found (firstRead (summed? above) (fun d => digest (1 :: d.drop 32 ++ i.toBytes))
      (digest (source ++ i.toBytes)))

/-- A child of a node. -/
noncomputable def child (curve : Algorithm) (node : RawNode) (i : Index) :
    Unbounded StepError RawNode :=
  match curve with
  | .ed25519 => Unbounded.answer (H.hardenedChild node i)
  | .secp256k1 => H.summedChild node i

/-- The node at the end of a path below a node, child by child. -/
noncomputable def walk (curve : Algorithm) (node : RawNode) (path : Path) :
    Unbounded StepError RawNode :=
  path.foldlM (H.child curve) node

/-- The node at the end of a path below a seed. -/
noncomputable def derive (curve : Algorithm) (seed : Bytes) (path : Path) :
    Unbounded WalkError RawNode := do
  let node ← Unbounded.found (H.root curve seed)
  (H.walk curve node path).adapt (StepError.along path)

variable {H} {curve : Algorithm} {seed : Bytes} {node : RawNode} {i : Index}

/-! ## Walks on secp256k1 -/

theorem valid_split {d : Bytes} {n : Fin Secp256k1.order} (h : factor? (d.take 32) = some n) :
    (split d).Valid := by
  obtain ⟨hlength, hpos, hn⟩ := factor?_eq_some.1 h
  exact ⟨hlength, hpos, hn ▸ n.isLt⟩

/-- A sum that is not zero is a factor again. -/
theorem valid_of_summed? {above : Fin Secp256k1.order} {d : Bytes}
    (h : summed? above d = some node) : node.Valid := by
  obtain ⟨n, hn, rfl⟩ := Option.map_eq_some_iff.1 h
  obtain ⟨-, hne⟩ := Option.filter_eq_some_iff.1 hn
  have hne : n.val ≠ 0 := of_decide_eq_true hne
  have horder : Secp256k1.order < 256 ^ 32 := by decide
  have hread : Bytes.toNat (Bytes.ofNat 32 n.val) = n.val :=
    Bytes.toNat_ofNat_of_lt (n.isLt.trans horder)
  refine ⟨Bytes.length_ofNat _ _, ?_, ?_⟩
  · rw [hread]
    omega
  · rw [hread]
    exact n.isLt

/-- **The root has a factor for its key.** -/
theorem valid_of_root (h : H.root .secp256k1 seed = some node) : node.Valid := by
  obtain ⟨d, hd⟩ := exists_read_of_firstRead h
  obtain ⟨n, hn, rfl⟩ := Option.map_eq_some_iff.1 hd
  exact valid_split hn

/-- Below a factor no check fails, and a child is drawn. -/
theorem child_of_valid (h : node.Valid) {bytes : Bytes} (hsource : source node i = .ok bytes) :
    H.child .secp256k1 node i = Unbounded.found (firstRead (summed? ⟨Bytes.toNat node.key, h.lt⟩)
      (fun d => H.digest node.chainCode (1 :: d.drop 32 ++ i.toBytes))
      (H.digest node.chainCode (bytes ++ i.toBytes))) := by
  have hfactor : factor? node.key = some ⟨_, h.lt⟩ := factor?_eq_some.2 ⟨h.length, h.pos, rfl⟩
  simp only [child, summedChild, hfactor, hsource]
  rfl

/-- **A child of a node with a factor for its key has one as well**: no error is met. -/
theorem yields_child (h : node.Valid) (i : Index) :
    (H.child .secp256k1 node i).Yields RawNode.Valid := by
  obtain ⟨bytes, hsource⟩ : ∃ bytes, source node i = .ok bytes := by
    rw [source, h.secp256k1Secret]
    split
    · exact ⟨_, rfl⟩
    · exact ⟨_, rfl⟩
  rw [child_of_valid h hsource]
  refine Unbounded.yields_found fun a ha => ?_
  obtain ⟨d, hd⟩ := exists_read_of_firstRead ha
  exact valid_of_summed? hd

/-- A walk from such a node keeps to such nodes. -/
theorem yields_walk (h : node.Valid) (path : Path) :
    (H.walk .secp256k1 node path).Yields RawNode.Valid :=
  Unbounded.yields_foldlM (fun _ i hnode => yields_child hnode i) path h

/-! ## Walks on ed25519 -/

/-- Nothing is drawn on ed25519. -/
theorem run_walk_ed25519 (node : RawNode) (path : Path) :
    (H.walk .ed25519 node path).run = some (path.foldlM H.hardenedChild node) := by
  induction path generalizing node with
  | nil => rfl
  | cons i path ih =>
    rw [walk, List.foldlM_cons, List.foldlM_cons]
    cases hchild : H.hardenedChild node i with
    | error e =>
      simp only [child, hchild]
      rfl
    | ok next =>
      simp only [child, hchild]
      exact ih next

/-- A path of hardened indices leads from 32 bytes to 32 bytes. -/
theorem exists_foldlM_hardenedChild (H : KeyedDigest) {path : Path}
    (hpath : ∀ i ∈ path, i.isHardened = true) (hlength : node.key.length = 32) :
    ∃ last, path.foldlM H.hardenedChild node = .ok last ∧ last.key.length = 32 := by
  induction path generalizing node with
  | nil => exact ⟨node, rfl, hlength⟩
  | cons i path ih =>
    obtain ⟨hi, hpath⟩ := List.forall_mem_cons.1 hpath
    rw [List.foldlM_cons, hardenedChild, hi]
    refine ih hpath ?_
    simp [split, H.length_digest]

/-- Any other path ends at an index that is not hardened. -/
theorem exists_foldlM_hardenedChild_error (H : KeyedDigest) (node : RawNode) {path : Path}
    (hpath : ∃ i ∈ path, i.isHardened = false) : ∃ i ∈ path, i.isHardened = false ∧
      path.foldlM H.hardenedChild node = .error (.notHardened i) := by
  induction path generalizing node with
  | nil =>
    obtain ⟨i, hi, -⟩ := hpath
    cases hi
  | cons i path ih =>
    rw [List.foldlM_cons, hardenedChild]
    cases hi : i.isHardened with
    | false => exact ⟨i, List.mem_cons_self, hi, rfl⟩
    | true =>
      obtain ⟨j, hj, hsoft⟩ := hpath
      rcases List.mem_cons.1 hj with rfl | hj
      · rw [hi] at hsoft
        cases hsoft
      · obtain ⟨k, hk, hsoft, hfold⟩ := ih _ ⟨j, hj, hsoft⟩
        exact ⟨k, List.mem_cons_of_mem _ hk, hsoft, hfold⟩

/-! ## Walks below a root -/

theorem run_derive_eq_some {path : Path} {r : Except WalkError RawNode} :
    (H.derive curve seed path).run = some r ↔ ∃ root, H.root curve seed = some root ∧
      (H.walk curve root path).run.map (Except.mapError (StepError.along path)) = some r := by
  rw [derive, Unbounded.run_bind_eq_some]
  cases hroot : H.root curve seed with
  | none => simp [Unbounded.found]
  | some root => simp [Unbounded.found, ExceptT.run_adapt]

/-- The node at the end of a path is the one that is walked to. -/
theorem run_derive_eq_ok {path : Path} : (H.derive curve seed path).run = some (.ok node) ↔
    ∃ root, H.root curve seed = some root ∧ (H.walk curve root path).run = some (.ok node) := by
  simp only [run_derive_eq_some, Option.map_eq_some_iff, Outcome.mapError_eq_ok, exists_eq_right]

/-- **A path is walked piece by piece.** -/
theorem walk_append (node : RawNode) (p q : Path) : H.walk curve node (p ++ q) =
    H.walk curve node p >>= fun next => H.walk curve next q :=
  List.foldlM_append

/-- **Behind the node of a path, the rest is walked from this node.** -/
theorem derive_append {p q : Path} (h : (H.derive curve seed p).run = some (.ok node)) :
    H.derive curve seed (p ++ q) = (H.walk curve node q).adapt (StepError.along (p ++ q)) := by
  obtain ⟨root, hroot, hwalk⟩ := run_derive_eq_ok.1 h
  have hpure : H.walk curve root p = pure node := hwalk
  have hfound : (Unbounded.found (some root) : Unbounded WalkError RawNode) = pure root := rfl
  rw [derive, hroot, hfound, pure_bind, walk_append, hpure, pure_bind]

/-- An answer for a path and more is one for the path. -/
theorem exists_run_derive_of_append {p q : Path} {r : Except WalkError RawNode}
    (h : (H.derive curve seed (p ++ q)).run = some r) :
    ∃ r, (H.derive curve seed p).run = some r := by
  obtain ⟨root, hroot, hwalk⟩ := run_derive_eq_some.1 h
  obtain ⟨r', hr', -⟩ := Option.map_eq_some_iff.1 hwalk
  rw [walk_append] at hr'
  simp only [run_derive_eq_some, hroot, Option.some.injEq, exists_eq_left',
    Option.map_eq_some_iff]
  rcases Unbounded.run_bind_eq_some.1 hr' with ⟨a, ha, -⟩ | ⟨e, he, -⟩
  · exact ⟨_, _, ha, rfl⟩
  · exact ⟨_, _, he, rfl⟩

/-- **On secp256k1 there is no error**: an answer is a node with a factor for its key. -/
theorem yields_derive (path : Path) :
    (H.derive .secp256k1 seed path).Yields RawNode.Valid := by
  intro r hr
  obtain ⟨root, hroot, hwalk⟩ := run_derive_eq_some.1 hr
  obtain ⟨r', hr', hmap⟩ := Option.map_eq_some_iff.1 hwalk
  obtain ⟨last, rfl, hlast⟩ := yields_walk (valid_of_root hroot) path r' hr'
  exact ⟨last, hmap.symm, hlast⟩

/-- The answer on ed25519. -/
theorem run_derive_ed25519 (H : KeyedDigest) (seed : Bytes) (path : Path) : ∃ root : RawNode,
    root.key.length = 32 ∧ (H.derive .ed25519 seed path).run =
      some ((path.foldlM H.hardenedChild root).mapError (StepError.along path)) := by
  refine ⟨split (H.digest (Utf8.encode (seedName .ed25519)) seed), ?_, ?_⟩
  · simp [split, H.length_digest]
  · refine run_derive_eq_some.2 ⟨_, rfl, ?_⟩
    rw [run_walk_ed25519, Option.map_some]

/-- **On ed25519 a path leads to a node exactly if all its indices are hardened.** -/
theorem exists_derive_ed25519_iff (H : KeyedDigest) (seed : Bytes) (path : Path) :
    (∃ node, (H.derive .ed25519 seed path).run = some (.ok node)) ↔
      ∀ i ∈ path, i.isHardened = true := by
  obtain ⟨root, hlength, hrun⟩ := H.run_derive_ed25519 seed path
  rw [hrun]
  constructor
  · rintro ⟨node, hnode⟩
    by_contra hpath
    have hpath : ∃ i ∈ path, i.isHardened = false := by simpa using hpath
    obtain ⟨i, -, -, herror⟩ := H.exists_foldlM_hardenedChild_error root hpath
    rw [herror] at hnode
    cases hnode
  · intro hpath
    obtain ⟨last, hlast, -⟩ := H.exists_foldlM_hardenedChild hpath hlength
    exact ⟨last, by rw [hlast]; rfl⟩

/-- **Otherwise it leads to an error that names such an index and the path.** -/
theorem exists_derive_ed25519_error_iff (H : KeyedDigest) (seed : Bytes) (path : Path) :
    (∃ i ∈ path, i.isHardened = false ∧ (H.derive .ed25519 seed path).run =
      some (.error (.path (.notHardened i path)))) ↔ ∃ i ∈ path, i.isHardened = false := by
  obtain ⟨root, -, hrun⟩ := H.run_derive_ed25519 seed path
  rw [hrun]
  constructor
  · rintro ⟨i, hi, hsoft, -⟩
    exact ⟨i, hi, hsoft⟩
  · intro hpath
    obtain ⟨i, hi, hsoft, herror⟩ := H.exists_foldlM_hardenedChild_error root hpath
    exact ⟨i, hi, hsoft, by rw [herror]; rfl⟩

/-- The node at the end of a path has a public key. -/
theorem exists_publicKey {path : Path} (h : (H.derive curve seed path).run = some (.ok node)) :
    ∃ key, PrivateKey.publicKey ⟨curve, node.key⟩ = .ok key := by
  cases curve with
  | ed25519 =>
    obtain ⟨root, hlength, hrun⟩ := H.run_derive_ed25519 seed path
    have hpath := (H.exists_derive_ed25519_iff seed path).1 ⟨node, h⟩
    obtain ⟨last, hlast, hlength⟩ := H.exists_foldlM_hardenedChild hpath hlength
    rw [hrun, hlast] at h
    cases h
    exact ⟨_, by simp only [PrivateKey.publicKey, PrivateKey.ed25519Key, hlength, if_true]; rfl⟩
  | secp256k1 =>
    obtain ⟨last, hlast, hvalid⟩ := yields_derive path _ h
    cases hlast
    exact ⟨_, hvalid.publicKey⟩

end KeyedDigest

end Keys

end ChainKit
