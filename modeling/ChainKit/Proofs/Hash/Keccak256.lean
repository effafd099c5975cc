import ChainKit.Hash.Keccak256
import Mathlib
/-!
# Digests, row by row

The lanes stand in an array, where each of them is found by counting. As
five rows of five (`Grid`) every lane has a name, and a round writes each
lane by an expression of its own. The rounds are the same
(`lanes_rounds`), and so is the digest (`digest_eq_gridDigest`); this is
the form to evaluate a digest in.
-/

namespace ChainKit

namespace Keccak256

/-! ## Rows and grids -/

/-- Five lanes side by side. -/
structure Row where
  a : UInt64
  b : UInt64
  c : UInt64
  d : UInt64
  e : UInt64

namespace Row

/-- The lanes from left to right. -/
def lanes (w : Row) : List UInt64 := [w.a, w.b, w.c, w.d, w.e]

/-- Five lanes without a bit set. -/
def zero : Row := ⟨0, 0, 0, 0, 0⟩

/-- Adds lane by lane. -/
def add (v w : Row) : Row :=
  ⟨v.a ^^^ w.a, v.b ^^^ w.b, v.c ^^^ w.c, v.d ^^^ w.d, v.e ^^^ w.e⟩

/-- In each place the lane to the left of it. -/
def left (w : Row) : Row := ⟨w.e, w.a, w.b, w.c, w.d⟩

/-- In each place the lane to the right of it, rotated by one. -/
def right (w : Row) : Row :=
  ⟨rotate w.b 1, rotate w.c 1, rotate w.d 1, rotate w.e 1, rotate w.a 1⟩

/-- Combines each lane with the next two. -/
def mix (w : Row) : Row :=
  ⟨w.a ^^^ (~~~ w.b &&& w.c), w.b ^^^ (~~~ w.c &&& w.d), w.c ^^^ (~~~ w.d &&& w.e),
    w.d ^^^ (~~~ w.e &&& w.a), w.e ^^^ (~~~ w.a &&& w.b)⟩

end Row

/-- Five rows, the first on top. -/
structure Grid where
  p : Row
  q : Row
  r : Row
  s : Row
  t : Row

namespace Grid

/-- The lanes of all rows, one row after the other. -/
def lanes (g : Grid) : Lanes :=
  ⟨g.p.lanes ++ g.q.lanes ++ g.r.lanes ++ g.s.lanes ++ g.t.lanes⟩

/-- The first 25 lanes as a grid. -/
def ofLanes (a : Lanes) : Grid :=
  let row := fun i => ⟨a.getD i 0, a.getD (i + 1) 0, a.getD (i + 2) 0, a.getD (i + 3) 0,
    a.getD (i + 4) 0⟩
  ⟨row 0, row 5, row 10, row 15, row 20⟩

/-- The parity of each column. -/
def parity (g : Grid) : Row := ((((Row.zero.add g.p).add g.q).add g.r).add g.s).add g.t

/-- Adds to each lane the parity of two neighbouring columns. -/
def mixColumns (g : Grid) : Grid :=
  let mix := fun w : Row => (w.add g.parity.left).add g.parity.right
  ⟨mix g.p, mix g.q, mix g.r, mix g.s, mix g.t⟩

/-- Rotates each lane and moves it to its place. -/
def permute (g : Grid) : Grid where
  p := ⟨g.p.a, rotate g.q.b 300, rotate g.r.c 171, rotate g.s.d 21, rotate g.t.e 78⟩
  q := ⟨rotate g.p.d 28, rotate g.q.e 276, rotate g.r.a 3, rotate g.s.b 45, rotate g.t.c 253⟩
  r := ⟨rotate g.p.b 1, rotate g.q.c 6, rotate g.r.d 153, rotate g.s.e 136, rotate g.t.a 210⟩
  s := ⟨rotate g.p.e 91, rotate g.q.a 36, rotate g.r.b 10, rotate g.s.c 15, rotate g.t.d 120⟩
  t := ⟨rotate g.p.c 190, rotate g.q.d 55, rotate g.r.e 231, rotate g.s.a 105, rotate g.t.b 66⟩

/-- Combines each lane with the next two of its row. -/
def mixRows (g : Grid) : Grid := ⟨g.p.mix, g.q.mix, g.r.mix, g.s.mix, g.t.mix⟩

/-- One round with its constant. -/
def round (g : Grid) (c : UInt64) : Grid :=
  let h := g.mixColumns.permute.mixRows
  { h with p := { h.p with a := h.p.a ^^^ c } }

/-- All rounds. -/
def rounds (g : Grid) : Grid := roundConstants.foldl round g

@[simp] theorem size_lanes (g : Grid) : g.lanes.size = 25 := rfl

/-- Lanes are those of their grid. -/
theorem lanes_ofLanes {a : Lanes} (h : a.size = 25) : (ofLanes a).lanes = a := by
  refine Array.ext (by simp [h]) fun i hi hi' => ?_
  rw [size_lanes] at hi
  interval_cases i <;> simp [ofLanes, lanes, Row.lanes, h]

/-! ## Rounds -/

/-- The parities stand in the order of the columns. -/
theorem lanes_parity (g : Grid) : Array.ofFn (fun x : Fin 5 =>
    (List.range 5).foldl (fun p y => p ^^^ g.lanes.getD (x + 5 * y) 0) 0) = ⟨g.parity.lanes⟩ := by
  apply Array.toList_inj.1
  simp only [Array.toList_ofFn, List.ofFn_succ, List.ofFn_zero]
  rfl

theorem lanes_mixColumns (g : Grid) : g.mixColumns.lanes = Keccak256.mixColumns g.lanes := by
  -- the parities are named first, so that they are not written out for every lane
  rw [Keccak256.mixColumns, lanes_parity]
  apply Array.toList_inj.1
  simp only [Array.toList_ofFn, List.ofFn_succ, List.ofFn_zero]
  rfl

/-- The walk through the lanes. -/
theorem walk_eq : walk = [(1, 10, 1), (10, 7, 3), (7, 11, 6), (11, 17, 10), (17, 18, 15),
    (18, 3, 21), (3, 5, 28), (5, 16, 36), (16, 8, 45), (8, 21, 55), (21, 24, 66), (24, 4, 78),
    (4, 15, 91), (15, 23, 105), (23, 19, 120), (19, 13, 136), (13, 12, 153), (12, 2, 171),
    (2, 20, 190), (20, 14, 210), (14, 22, 231), (22, 9, 253), (9, 6, 276), (6, 1, 300)] := by
  decide +kernel

theorem lanes_permute (g : Grid) : g.permute.lanes = Keccak256.permute g.lanes := by
  obtain ⟨⟨_, _, _, _, _⟩, ⟨_, _, _, _, _⟩, ⟨_, _, _, _, _⟩, ⟨_, _, _, _, _⟩, ⟨_, _, _, _, _⟩⟩ := g
  simp [Keccak256.permute, walk_eq, lanes, Row.lanes, permute]

theorem lanes_mixRows (g : Grid) : g.mixRows.lanes = Keccak256.mixRows g.lanes := by
  apply Array.toList_inj.1
  simp only [Keccak256.mixRows, Array.toList_ofFn, List.ofFn_succ, List.ofFn_zero]
  rfl

/-- A round of a grid is one of its lanes. -/
theorem lanes_round (g : Grid) (c : UInt64) : (g.round c).lanes =
    (Keccak256.mixRows (Keccak256.permute (Keccak256.mixColumns g.lanes))).modify 0 (· ^^^ c) := by
  rw [← lanes_mixColumns, ← lanes_permute, ← lanes_mixRows]
  generalize hh : g.mixColumns.permute.mixRows = h
  rw [round, hh]
  simp [lanes, Row.lanes]

/-- **The rounds of a grid are those of its lanes.** -/
theorem lanes_rounds (g : Grid) : g.rounds.lanes = Keccak256.rounds g.lanes := by
  rw [rounds, Keccak256.rounds]
  generalize roundConstants = cs
  induction cs generalizing g with
  | nil => rfl
  | cons c cs ih => rw [List.foldl_cons, List.foldl_cons, ih, lanes_round]

end Grid

/-! ## Digests -/

/-- The lanes with the words of a block added. -/
def addBlock (a : Lanes) (block : Bytes) : Lanes :=
  ((Bytes.chunks 8 block).map fun w => UInt64.ofNat (Bytes.toNatLow w)).zipIdx.foldl
    (fun a (w, i) => a.modify i (· ^^^ w)) a

theorem size_addBlock (a : Lanes) (block : Bytes) : (addBlock a block).size = a.size := by
  rw [addBlock]
  generalize List.zipIdx _ = words
  induction words generalizing a with
  | nil => rfl
  | cons w words ih => rw [List.foldl_cons, ih, Array.size_modify]

/-- A block added to a grid, and the rounds after it. -/
def absorbGrid (g : Grid) (block : Bytes) : Grid := (Grid.ofLanes (addBlock g.lanes block)).rounds

theorem lanes_absorbGrid (g : Grid) (block : Bytes) :
    (absorbGrid g block).lanes = absorb g.lanes block := by
  have hsize : (addBlock g.lanes block).size = 25 := by rw [size_addBlock, Grid.size_lanes]
  rw [absorbGrid, Grid.lanes_rounds, Grid.lanes_ofLanes hsize]
  rfl

/-- The digest of a message, with the lanes in rows. -/
def gridDigest (message : Bytes) : Bytes :=
  let g := (Bytes.chunks 136 (pad message)).foldl absorbGrid ⟨.zero, .zero, .zero, .zero, .zero⟩
  (List.range 4).flatMap fun i => Bytes.ofNatLow 8 (g.lanes.getD i 0).toNat

/-- **The digest may be computed in rows.** -/
theorem digest_eq_gridDigest (message : Bytes) : digest message = gridDigest message := by
  have hlanes : ∀ (blocks : List Bytes) (g : Grid),
      (blocks.foldl absorbGrid g).lanes = blocks.foldl absorb g.lanes := by
    intro blocks
    induction blocks with
    | nil => exact fun g => rfl
    | cons block blocks ih =>
      intro g
      rw [List.foldl_cons, List.foldl_cons, ih, lanes_absorbGrid]
  simp only [digest, gridDigest, hlanes]
  rfl

end Keccak256

end ChainKit
