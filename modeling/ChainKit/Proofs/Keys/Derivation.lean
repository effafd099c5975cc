import ChainKit.Proofs.Keys.Walk
import Mathlib
/-!
# The tree of keys is walked on plain bytes

The nodes of the tree carry factors, so no step in it checks a key, and its
draws end after a number of tries. Under keyed SHA-512 both ways of walking
tell the same: whatever the tree answers within some number of tries, short
of giving up, is the answer of the walk without a bound, and whatever the
walk answers the tree does for every number of tries that is large enough
(`Settles`, `settles_deriveWithin`). What holds of walks under any digest
therefore holds of the tree (`valid_along_path`).
-/

namespace ChainKit

open Text

namespace Keys

namespace Node

/-- The node as plain bytes. -/
def raw (node : Node) : RawNode := ⟨node.chainCode, node.privateKey.data⟩

/-- The curve of a node. -/
def curve (node : Node) : Algorithm := node.privateKey.algorithm

/-- What an answer within some tries tells; nothing if they were too few. -/
def told : Except DerivationError Node → Option (Except WalkError RawNode)
  | .ok node => some (.ok node.raw)
  | .error (.path e) => some (.error (.path e))
  | .error .exhausted => none

theorem told_eq_some_ok {x : Except DerivationError Node} {r : RawNode} :
    told x = some (.ok r) ↔ ∃ node, x = .ok node ∧ node.raw = r := by
  rcases x with (_ | _) | _ <;> simp [told]

theorem told_eq_some_error {x : Except DerivationError Node} {e : WalkError} :
    told x = some (.error e) ↔ ∃ e', x = .error (.path e') ∧ WalkError.path e' = e := by
  rcases x with (_ | _) | _ <;> simp [told]

/-- What is drawn within some tries, if these are enough. -/
def drawn : Option Node → Except DerivationError Node
  | some node => .ok node
  | none => .error .exhausted

theorem drawn_eq_ok {x : Option Node} {node : Node} : drawn x = .ok node ↔ x = some node := by
  cases x <;> simp [drawn]

/-! ## Tries -/

section Tries

variable {α β : Type} {read : Bytes → Option α} {next : Bytes → Bytes} {digest : Bytes} {x : α}

/-- More tries find the same. -/
theorem firstValid_mono {tries more : Nat} (hle : tries ≤ more)
    (h : firstValid read next tries digest = some x) :
    firstValid read next more digest = some x := by
  induction tries generalizing more digest with
  | zero => cases h
  | succ tries ih =>
    obtain ⟨more, rfl⟩ : ∃ n, more = n + 1 := ⟨more - 1, by omega⟩
    rw [firstValid] at h ⊢
    split at h
    · exact h
    · exact ih (by omega) h

/-- Two ways to read all digests find corresponding things. -/
theorem map_firstValid {p : Bytes → Prop} {read' : Bytes → Option β} {f : α → β}
    (hread : ∀ d, p d → (read d).map f = read' d) (hnext : ∀ d, p (next d)) (tries : Nat)
    (hdigest : p digest) :
    (firstValid read next tries digest).map f = firstValid read' next tries digest := by
  induction tries generalizing digest with
  | zero => rfl
  | succ tries ih =>
    rw [firstValid, firstValid, ← hread digest hdigest]
    cases read digest with
    | none => exact ih (hnext digest)
    | some x => rfl

end Tries

/-! ## Answers with and without a bound -/

/-- The answers within more and more tries are about nodes of a curve, and settle on that without a
bound, if there is one. -/
structure Settles (c : Algorithm) (bounded : Nat → Except DerivationError Node)
    (x : Unbounded WalkError RawNode) : Prop where
  curve : ∀ tries node, bounded tries = .ok node → node.curve = c
  sound : ∀ tries r, told (bounded tries) = some r → x.run = some r
  complete : ∀ r, x.run = some r →
    ∃ a, told a = some r ∧ ∃ enough, ∀ tries, enough ≤ tries → bounded tries = a

variable {c : Algorithm} {bounded : Nat → Except DerivationError Node}
  {x : Unbounded WalkError RawNode}

/-- An answer for which nothing is drawn. -/
theorem settles_const {a : Except DerivationError Node}
    (hcurve : ∀ node, a = .ok node → node.curve = c) (ha : told a = x.run) :
    Settles c (fun _ => a) x where
  curve _ := hcurve
  sound _ _ hr := ha ▸ hr
  complete _ hr := ⟨a, ha.trans hr, 0, fun _ _ => rfl⟩

/-- Where each of two steps settles, both do. -/
theorem Settles.bind (h : Settles c bounded x) {f : Nat → Node → Except DerivationError Node}
    {g : RawNode → Unbounded WalkError RawNode}
    (hf : ∀ node, node.curve = c → Settles c (fun tries => f tries node) (g node.raw)) :
    Settles c (fun tries => bounded tries >>= f tries) (x >>= g) where
  curve tries node hnode := by
    obtain ⟨mid, hmid, hnode⟩ := Outcome.bind_eq_ok.1 hnode
    exact (hf mid (h.curve tries mid hmid)).curve tries node hnode
  sound tries r hr := by
    rw [Unbounded.run_bind_eq_some]
    rcases ha : bounded tries with (e | _) | node
    · rw [ha] at hr
      cases hr
      exact .inr ⟨_, h.sound tries _ (by rw [ha]; rfl), rfl⟩
    · rw [ha] at hr
      cases hr
    · rw [ha] at hr
      have hnode := hf node (h.curve tries node ha)
      exact .inl ⟨node.raw, h.sound tries _ (by rw [ha]; rfl), hnode.sound tries r hr⟩
  complete r hr := by
    rcases Unbounded.run_bind_eq_some.1 hr with ⟨mid, hmid, hr⟩ | ⟨e, he, rfl⟩
    · obtain ⟨a, ha, enough, henough⟩ := h.complete _ hmid
      obtain ⟨node, rfl, rfl⟩ := told_eq_some_ok.1 ha
      have hnode := hf node (h.curve enough node (henough enough le_rfl))
      obtain ⟨b, hb, enough', henough'⟩ := hnode.complete r hr
      refine ⟨b, hb, max enough enough', fun tries htries => ?_⟩
      rw [henough tries (by omega), Outcome.ok_bind, henough' tries (by omega)]
    · obtain ⟨a, ha, enough, henough⟩ := h.complete _ he
      obtain ⟨e', rfl, rfl⟩ := told_eq_some_error.1 ha
      refine ⟨.error (.path e'), rfl, enough, fun tries htries => ?_⟩
      rw [henough tries htries]
      rfl

/-- A draw settles on what is found without a bound, if the digests are read alike. -/
theorem settles_firstValid {read : Bytes → Option Node} {read' : Bytes → Option RawNode}
    {next : Bytes → Bytes} {digest : Bytes} (hcurve : ∀ d node, read d = some node → node.curve = c)
    (hread : ∀ d, d.length = 64 → (read d).map raw = read' d)
    (hnext : ∀ d, (next d).length = 64) (hdigest : digest.length = 64) :
    Settles c (fun tries => drawn (firstValid read next tries digest))
      (Unbounded.found (firstRead read' next digest)) where
  curve tries node hnode := by
    obtain ⟨d, hd⟩ := exists_read_of_firstValid (drawn_eq_ok.1 hnode)
    exact hcurve d node hd
  sound tries r hr := by
    have hmap := map_firstValid hread hnext tries hdigest
    cases hfirst : firstValid read next tries digest with
    | none =>
      rw [hfirst] at hr
      cases hr
    | some node =>
      rw [hfirst] at hr hmap
      cases hr
      have hfound := firstRead_eq_some.2 ⟨tries, hmap.symm⟩
      simp [Unbounded.found, hfound]
  complete r hr := by
    obtain ⟨found, hfound, rfl⟩ := Option.map_eq_some_iff.1 hr
    obtain ⟨enough, henough⟩ := firstRead_eq_some.1 hfound
    rw [← map_firstValid hread hnext enough hdigest] at henough
    obtain ⟨node, hnode, rfl⟩ := Option.map_eq_some_iff.1 henough
    refine ⟨.ok node, rfl, enough, fun tries htries => ?_⟩
    exact drawn_eq_ok.2 (firstValid_mono htries hnode)

end Node

/-! ## Factors as plain bytes -/

/-- What is read as a factor is one, and is written as it was read. -/
theorem factor?_eq_map (b : Bytes) :
    factor? b = (Secp256k1.Scalar.ofBytes? b).map Secp256k1.Scalar.residue := by
  ext n
  rw [factor?_eq_some, Option.map_eq_some_iff]
  constructor
  · rintro ⟨hlength, hpos, hn⟩
    have hlt : Bytes.toNat b < Secp256k1.order := hn ▸ n.isLt
    refine ⟨⟨Bytes.toNat b, hpos, hlt⟩, ?_, Fin.ext hn⟩
    rw [Secp256k1.Scalar.ofBytes?, if_pos hlength, Secp256k1.Scalar.ofNat?, dif_pos ⟨hpos, hlt⟩]
  · rintro ⟨s, hs, rfl⟩
    obtain ⟨hvalue, hlength⟩ := Secp256k1.Scalar.toNat_of_ofBytes? hs
    exact ⟨hlength, hvalue ▸ s.pos, hvalue⟩

theorem toBytes_of_ofBytes? {b : Bytes} {s : Secp256k1.Scalar}
    (h : Secp256k1.Scalar.ofBytes? b = some s) : s.toBytes = b := by
  obtain ⟨hvalue, hlength⟩ := Secp256k1.Scalar.toNat_of_ofBytes? h
  rw [Secp256k1.Scalar.toBytes, ← hvalue, ← hlength, Bytes.ofNat_toNat]

theorem ofBytes?_toBytes (s : Secp256k1.Scalar) :
    Secp256k1.Scalar.ofBytes? s.toBytes = some s := by
  have horder : Secp256k1.order < 256 ^ 32 := by decide
  have hvalue : Bytes.toNat s.toBytes = s.value :=
    Bytes.toNat_ofNat_of_lt (s.lt.trans horder)
  have hlength : s.toBytes.length = 32 := Bytes.length_ofNat _ _
  rw [Secp256k1.Scalar.ofBytes?, if_pos hlength, hvalue, Secp256k1.Scalar.ofNat?,
    dif_pos ⟨s.pos, s.lt⟩]

/-- A factor in bytes is the private key that it is. -/
theorem secp256k1Secret_toBytes (s : Secp256k1.Scalar) :
    PrivateKey.secp256k1Secret s.toBytes = .ok s := by
  have hread := ofBytes?_toBytes s
  have hlength : s.toBytes.length = 32 := Bytes.length_ofNat _ _
  have hfits : PrivateKey.fitsSecret 32 = true := rfl
  rw [Secp256k1.Scalar.ofBytes?, if_pos hlength] at hread
  rw [PrivateKey.secp256k1Secret, hlength, if_pos hfits, hread]

namespace Node

/-! ## The tree under keyed SHA-512 -/

/-- The digest of the tree. -/
def hmac : KeyedDigest := ⟨Hmac.sha512, Hmac.length_sha512⟩

/-- A root is read from a digest as it is split. -/
theorem raw_rootOfDigest (d : Bytes) :
    (((Secp256k1.Scalar.ofBytes? (d.take 32)).map (secp256k1 (d.drop 32))).map raw) =
      (factor? (d.take 32)).map fun _ => KeyedDigest.split d := by
  rw [factor?_eq_map]
  cases hread : Secp256k1.Scalar.ofBytes? (d.take 32) with
  | none => rfl
  | some s =>
    have hbytes : s.toBytes = d.take 32 := toBytes_of_ofBytes? hread
    simp [raw, chainCode, privateKey, hbytes, KeyedDigest.split]

theorem settles_root (c : Algorithm) (seed : Bytes) :
    Settles c (fun tries => drawn (root tries c seed)) (Unbounded.found (hmac.root c seed)) := by
  cases c with
  | ed25519 =>
    refine settles_const (fun node hnode => ?_) rfl
    cases hnode
    rfl
  | secp256k1 =>
    refine settles_firstValid (fun d node hnode => ?_) (fun d _ => raw_rootOfDigest d)
      (fun d => Hmac.length_sha512 _ _) (Hmac.length_sha512 _ _)
    obtain ⟨s, -, rfl⟩ := Option.map_eq_some_iff.1 hnode
    rfl

/-- A child is read from a digest as the sum of two keys. -/
theorem raw_childOfDigest? (s : Secp256k1.Scalar) {d : Bytes} (hd : d.length = 64) :
    (childOfDigest? s d).map raw = KeyedDigest.summed? s.residue d := by
  have hlength : (d.take 32).length = 32 := by
    rw [List.length_take]
    omega
  by_cases hlt : Bytes.toNat (d.take 32) < Secp256k1.order
  · have hresidue : residue? (d.take 32) = some ⟨_, hlt⟩ := by
      rw [residue?, dif_pos ⟨hlength, hlt⟩]
    simp only [childOfDigest?, dif_pos hlt, KeyedDigest.summed?, hresidue, Option.map_some]
    generalize (⟨_, hlt⟩ : Fin Secp256k1.order) + s.residue = sum
    by_cases hzero : sum.val = 0
    · simp [Secp256k1.Scalar.ofResidue?, Secp256k1.Scalar.ofNat?, hzero]
    · have hpos : 0 < sum.val := by omega
      simp [Secp256k1.Scalar.ofResidue?, Secp256k1.Scalar.ofNat?, hpos, hzero, raw, chainCode,
        privateKey, Secp256k1.Scalar.toBytes]
  · have hresidue : residue? (d.take 32) = none := by
      rw [residue?, dif_neg fun h => hlt h.2]
    simp [childOfDigest?, hlt, KeyedDigest.summed?, hresidue]

theorem valid_raw (chainCode : Bytes) (s : Secp256k1.Scalar) :
    (raw (secp256k1 chainCode s)).Valid := by
  have hfactor : factor? s.toBytes = some s.residue := by
    rw [factor?_eq_map, ofBytes?_toBytes, Option.map_some]
  obtain ⟨hlength, hpos, hvalue⟩ := factor?_eq_some.1 hfactor
  exact ⟨hlength, hpos, hvalue ▸ s.lt⟩

/-- Below a node of the tree, a child is drawn from the same digests. -/
theorem child_raw (chainCode : Bytes) (s : Secp256k1.Scalar) (i : Index) :
    hmac.child .secp256k1 (raw (secp256k1 chainCode s)) i =
      Unbounded.found (firstRead (KeyedDigest.summed? s.residue)
        (fun d => Hmac.sha512 chainCode (1 :: d.drop 32 ++ i.toBytes))
        (Hmac.sha512 chainCode (childSource s i ++ i.toBytes))) := by
  have hsource : KeyedDigest.source (raw (secp256k1 chainCode s)) i = .ok (childSource s i) := by
    have hsecret := secp256k1Secret_toBytes s
    cases hi : i.isHardened <;>
      simp [KeyedDigest.source, childSource, raw, privateKey, hi, hsecret]
  have hresidue : (⟨_, (valid_raw chainCode s).lt⟩ : Fin Secp256k1.order) = s.residue := by
    rw [Secp256k1.Scalar.residue, Fin.mk.injEq]
    exact (Secp256k1.Scalar.toNat_of_ofBytes? (ofBytes?_toBytes s)).1
  have hchild := KeyedDigest.child_of_valid (H := hmac) (valid_raw chainCode s) hsource
  rw [hresidue] at hchild
  exact hchild

/-- An answer for which nothing is drawn keeps its form under another name of its errors. -/
theorem adapt_found {ε ε' α : Type} (f : ε → ε') (x : Option α) :
    (Unbounded.found x : Unbounded ε α).adapt f = Unbounded.found x := by
  cases x <;> rfl

theorem adapt_bind {ε ε' α β : Type} (f : ε → ε') (x : Unbounded ε α) (g : α → Unbounded ε β) :
    (x >>= g).adapt f = x.adapt f >>= fun a => (g a).adapt f := by
  rcases x with _ | (e | a) <;> rfl

/-- **A child settles on the one that is walked to.** -/
theorem settles_child (path : Path) (i : Index) (node : Node) :
    Settles node.curve (fun tries => child tries path node i)
      ((hmac.child node.curve node.raw i).adapt (StepError.along path)) := by
  cases node with
  | ed25519 chainCode key =>
    have hchild (tries : Nat) : child tries path (ed25519 chainCode key) i =
        if i.isHardened then .ok (hardenedChild chainCode key i)
        else .error (.path (.notHardened i path)) := rfl
    simp only [hchild]
    refine settles_const (fun node hnode => ?_) ?_
    · split at hnode <;> cases hnode
      rfl
    · have hraw : (hmac.child .ed25519 (raw (ed25519 chainCode key)) i).run =
          some (hmac.hardenedChild (raw (ed25519 chainCode key)) i) := rfl
      rw [ExceptT.run_adapt, curve, privateKey, hraw, KeyedDigest.hardenedChild]
      cases i.isHardened <;> rfl
  | secp256k1 chainCode s =>
    have hdrawn (tries : Nat) : child tries path (secp256k1 chainCode s) i =
        drawn (summedChild tries chainCode s i) := by
      rw [child]
      cases summedChild tries chainCode s i <;> rfl
    have hcurve : curve (secp256k1 chainCode s) = .secp256k1 := rfl
    simp only [hdrawn]
    rw [hcurve, child_raw, adapt_found]
    refine settles_firstValid (fun d node hnode => ?_) (fun d hd => raw_childOfDigest? s hd)
      (fun d => Hmac.length_sha512 _ _) (Hmac.length_sha512 _ _)
    unfold childOfDigest? at hnode
    dsimp only at hnode
    split at hnode
    · obtain ⟨t, -, rfl⟩ := Option.map_eq_some_iff.1 hnode
      rfl
    · cases hnode

/-- A walk settles on the walk on plain bytes. -/
theorem settles_foldlM (whole path : Path) (node : Node) :
    Settles node.curve (fun tries => path.foldlM (child tries whole) node)
      ((hmac.walk node.curve node.raw path).adapt (StepError.along whole)) := by
  induction path generalizing node with
  | nil =>
    refine settles_const (fun last hlast => ?_) rfl
    cases hlast
    rfl
  | cons i path ih =>
    simp only [KeyedDigest.walk, List.foldlM_cons, adapt_bind]
    refine (settles_child whole i node).bind fun next hnext => ?_
    exact hnext ▸ ih next

/-- **The tree settles on the walk below a root.** -/
theorem settles_deriveWithin (c : Algorithm) (seed : Bytes) (path : Path) :
    Settles c (fun tries => deriveWithin tries c seed path) (hmac.derive c seed path) := by
  have hbind (tries : Nat) : deriveWithin tries c seed path =
      drawn (root tries c seed) >>= fun node => path.foldlM (child tries path) node := by
    rw [deriveWithin]
    cases root tries c seed <;> rfl
  simp only [hbind]
  refine (settles_root c seed).bind fun node hnode => ?_
  exact hnode ▸ settles_foldlM path path node

/-- An answer of the tree within some tries is that of the walk. -/
theorem run_derive_eq_some_iff {c : Algorithm} {seed : Bytes} {path : Path}
    {r : Except WalkError RawNode} : (hmac.derive c seed path).run = some r ↔
      ∃ tries, told (deriveWithin tries c seed path) = some r := by
  have hsettles := settles_deriveWithin c seed path
  constructor
  · intro h
    obtain ⟨a, ha, enough, henough⟩ := hsettles.complete r h
    exact ⟨enough, by rw [henough enough le_rfl, ha]⟩
  · rintro ⟨tries, h⟩
    exact hsettles.sound tries r h

end Node

namespace KeyedDigest

/-- **Keys stay valid along every path, under every digest.** On ed25519 a path leads to a node
exactly if all its indices are hardened, and else to the error that names one of the others. On
secp256k1, if the draws for a path and more end, there is no error, and the keys at both ends are
factors. Every node has a public key. Behind the node of a path the rest is derived child by child
from that node. And keyed SHA-512 derives just what the tree does within some number of tries. -/
theorem valid_along_path (H : KeyedDigest) (curve : Algorithm) (seed : Bytes) (p q : Path) :
    ((∃ node, (H.derive .ed25519 seed p).run = some (.ok node)) ↔
      ∀ i ∈ p, i.isHardened = true) ∧
    ((∃ i ∈ p, i.isHardened = false ∧ (H.derive .ed25519 seed p).run =
      some (.error (.path (.notHardened i p)))) ↔ ∃ i ∈ p, i.isHardened = false) ∧
    (∀ r, (H.derive .secp256k1 seed (p ++ q)).run = some r →
      (∃ last, r = .ok last ∧ last.Valid) ∧
      ∃ node, (H.derive .secp256k1 seed p).run = some (.ok node) ∧ node.Valid) ∧
    (∀ node, (H.derive curve seed p).run = some (.ok node) →
      (∃ key, PrivateKey.publicKey ⟨curve, node.key⟩ = .ok key) ∧
      H.derive curve seed (p ++ q) = (H.walk curve node q).adapt (StepError.along (p ++ q))) ∧
    ∀ r, (Node.hmac.derive curve seed p).run = some r ↔
      ∃ tries, Node.told (Node.deriveWithin tries curve seed p) = some r := by
  refine ⟨H.exists_derive_ed25519_iff seed p, H.exists_derive_ed25519_error_iff seed p, ?_, ?_,
    fun r => Node.run_derive_eq_some_iff⟩
  · intro r hr
    obtain ⟨r', hr'⟩ := exists_run_derive_of_append hr
    obtain ⟨node, rfl, hnode⟩ := yields_derive p r' hr'
    exact ⟨yields_derive (p ++ q) r hr, node, hr', hnode⟩
  · intro node hnode
    exact ⟨exists_publicKey hnode, derive_append hnode⟩

/-- A digest that gives zeros for nothing, bytes above the order for a key behind a zero, and ones
for all else. So the first digest for a root, and the first for each child, have to be drawn
again. -/
def sampleDigest : KeyedDigest where
  digest _ message :=
    if message = [] then Bytes.zeros 64
    else if message.length = 37 ∧ message.head? = some 0 then List.replicate 64 0xFF
    else List.replicate 64 1
  length_digest _ message := by
    split
    · rfl
    · split <;> rfl

/-- Chain codes of ones, and keys of the same byte. -/
def sampleNode (x : UInt8) : RawNode := ⟨List.replicate 32 1, List.replicate 32 x⟩

theorem root_sampleDigest : sampleDigest.root .secp256k1 [] = some (sampleNode 1) :=
  firstRead_eq_some.2 ⟨2, by rfl⟩

theorem valid_sampleNode : (sampleNode 1).Valid ∧ (sampleNode 2).Valid := by
  constructor <;> exact ⟨rfl, by decide, by decide⟩

theorem child_sampleDigest :
    sampleDigest.child .secp256k1 (sampleNode 1) ⟨0x80000000⟩ = pure (sampleNode 2) ∧
      sampleDigest.child .secp256k1 (sampleNode 2) ⟨0x80000001⟩ = pure (sampleNode 3) := by
  constructor
  · rw [child_of_valid valid_sampleNode.1 rfl, firstRead_eq_some.2 ⟨2, by rfl⟩]
    rfl
  · rw [child_of_valid valid_sampleNode.2 rfl, firstRead_eq_some.2 ⟨2, by rfl⟩]
    rfl

/-- Two hardened children, with the key above and ones added up for each. -/
theorem valid_along_path_redrawn :
    (sampleDigest.derive .secp256k1 [] ([⟨0x80000000⟩] ++ [⟨0x80000001⟩])).run =
        some (.ok (sampleNode 3)) ∧
      (sampleDigest.derive .secp256k1 [] [⟨0x80000000⟩]).run = some (.ok (sampleNode 2)) ∧
      (∃ last, (.ok (sampleNode 3) : Except WalkError RawNode) = .ok last ∧ last.Valid) ∧
      (∃ key, PrivateKey.publicKey ⟨.secp256k1, (sampleNode 2).key⟩ = .ok key) ∧
      sampleDigest.derive .secp256k1 [] ([⟨0x80000000⟩] ++ [⟨0x80000001⟩]) =
        (sampleDigest.walk .secp256k1 (sampleNode 2) [⟨0x80000001⟩]).adapt
          (StepError.along ([⟨0x80000000⟩] ++ [⟨0x80000001⟩])) := by
  have hboth : (sampleDigest.derive .secp256k1 [] ([⟨0x80000000⟩] ++ [⟨0x80000001⟩])).run =
      some (.ok (sampleNode 3)) := by
    refine run_derive_eq_ok.2 ⟨_, root_sampleDigest, ?_⟩
    simp [walk, child_sampleDigest]
  have hfirst : (sampleDigest.derive .secp256k1 [] [⟨0x80000000⟩]).run =
      some (.ok (sampleNode 2)) := by
    refine run_derive_eq_ok.2 ⟨_, root_sampleDigest, ?_⟩
    simp [walk, child_sampleDigest]
  have hvalid := valid_along_path sampleDigest .secp256k1 [] [⟨0x80000000⟩] [⟨0x80000001⟩]
  obtain ⟨-, -, hends, hbehind, -⟩ := hvalid
  exact ⟨hboth, hfirst, (hends _ hboth).1, hbehind _ hfirst⟩

end KeyedDigest

end Keys

end ChainKit
