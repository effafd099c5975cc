import ChainKit.Bytes
import ChainKit.Curve.Modular

/-!
# The curve secp256k1 — scalars, points and their spelling

The points satisfy `y² = x³ + 7` over a prime field. Sums are computed in
projective coordinates by one formula that covers every case, doubling and
the neutral element included. A point is spelled compressed, by `x` and the
parity of `y`, or by both coordinates; `x` alone stands for the point with
even `y`.
-/

namespace ChainKit

namespace Secp256k1

/-- The modulus of the coordinates. -/
def prime : Nat := 0xFFFFFFFFFFFFFFFFFFFFFFFFFFFFFFFFFFFFFFFFFFFFFFFFFFFFFFFEFFFFFC2F

/-- The number of points. -/
def order : Nat := 0xFFFFFFFFFFFFFFFFFFFFFFFFFFFFFFFEBAAEDCE6AF48A03BBFD25E8CD0364141

/-- A coordinate. -/
abbrev Coordinate := Fin prime

instance (n : Nat) : OfNat Coordinate n := ⟨Curve.residue (by decide) n⟩

/-- A factor of points, neither zero nor as large as their number. -/
structure Scalar where
  value : Nat
  pos : 0 < value
  lt : value < order
  deriving DecidableEq

namespace Scalar

/-- The factor that a number is, if it is one. -/
def ofNat? (n : Nat) : Option Scalar :=
  if h : 0 < n ∧ n < order then some ⟨n, h.1, h.2⟩ else none

/-- The factor that 32 bytes spell. -/
def ofBytes? (b : Bytes) : Option Scalar :=
  if b.length = 32 then ofNat? (Bytes.toNat b) else none

/-- A factor in 32 bytes. -/
def toBytes (s : Scalar) : Bytes := Bytes.ofNat 32 s.value

/-- A factor as a number below the number of points. -/
def residue (s : Scalar) : Fin order := ⟨s.value, s.lt⟩

/-- The factor that a residue is, unless it is zero. -/
def ofResidue? (n : Fin order) : Option Scalar := ofNat? n.val

/-- A factor read from bytes is the number that all 32 of them spell. -/
theorem toNat_of_ofBytes? {b : Bytes} {s : Scalar} (h : ofBytes? b = some s) :
    Bytes.toNat b = s.value ∧ b.length = 32 := by
  unfold ofBytes? at h
  split at h
  · unfold ofNat? at h
    split at h
    · cases h
      exact ⟨rfl, ‹_›⟩
    · cases h
  · cases h

end Scalar

/-- The two coordinates of a point. -/
structure Point where
  x : Coordinate
  y : Coordinate
  deriving DecidableEq

namespace Point

/-- Whether the coordinates satisfy the equation of the curve. -/
def OnCurve (p : Point) : Prop := p.y * p.y = p.x * p.x * p.x + 7

instance (p : Point) : Decidable p.OnCurve := inferInstanceAs (Decidable (_ = _))

/-- The point from which all are counted. -/
def base : Point where
  x := 0x79BE667EF9DCBBAC55A06295CE870B07029BFCDB2DCE28D959F2815B16F81798
  y := 0x483ADA7726A3C4655DA4FBFC0E1108A8FD17B448A68554199C47D08FFB10D4B8

/-- Both coordinates in 32 bytes each. -/
def coordinates (p : Point) : Bytes := Bytes.ofNat 32 p.x.val ++ Bytes.ofNat 32 p.y.val

/-- The spelling by both coordinates: 65 bytes. -/
def uncompressed (p : Point) : Bytes := 0x04 :: p.coordinates

/-- The spelling by `x` and the parity of `y`: 33 bytes. -/
def compressed (p : Point) : Bytes := UInt8.ofNat (2 + p.y.val % 2) :: Bytes.ofNat 32 p.x.val

/-- A coordinate below the modulus. -/
def coordinate? (n : Nat) : Option Coordinate := if h : n < prime then some ⟨n, h⟩ else none

/-- The point with this `x` whose `y` is odd, or even. The square root is
a power, since the modulus leaves three when divided by four. -/
def lift? (x : Coordinate) (odd : Bool) : Option Point :=
  let square := x * x * x + 7
  let root := Curve.power square ((prime + 1) / 4)
  if root * root ≠ square then none
  else if (root.val % 2 = 1) = odd then some ⟨x, root⟩
  else some ⟨x, -root⟩

/-- The point whose `x` 32 bytes spell and whose `y` is odd, or even. -/
def liftBytes? (b : Bytes) (odd : Bool) : Option Point := do
  if b.length ≠ 32 then none
  else lift? (← coordinate? (Bytes.toNat b)) odd

/-- The point that bytes spell: 33 for `x` and the parity of `y`, or for
`x` alone where `y` is even, and 65 for both coordinates. -/
def ofBytes? : Bytes → Option Point
  | 0x02 :: rest => liftBytes? rest false
  | 0x03 :: rest => liftBytes? rest true
  | 0x05 :: rest => liftBytes? rest false
  | 0x04 :: rest => do
    if rest.length ≠ 64 then none
    else
      let x ← coordinate? (Bytes.toNat (rest.take 32))
      let y ← coordinate? (Bytes.toNat (rest.drop 32))
      let p : Point := ⟨x, y⟩
      if p.OnCurve then some p else none
  | _ => none

end Point

/-- A point as the ratio of coordinates; the neutral element has none. -/
structure Ratio where
  x : Coordinate
  y : Coordinate
  z : Coordinate

namespace Ratio

/-- The neutral element. -/
def neutral : Ratio := ⟨0, 1, 0⟩

/-- A point over one. -/
def ofPoint (p : Point) : Ratio := ⟨p.x, p.y, 1⟩

/-- The sum of two points. -/
def add (p q : Ratio) : Ratio :=
  let xx := p.x * q.x
  let yy := p.y * q.y
  let zz := p.z * q.z
  let xy := (p.x + p.y) * (q.x + q.y) - (xx + yy)
  let yz := (p.y + p.z) * (q.y + q.z) - (yy + zz)
  let xz := 21 * ((p.x + p.z) * (q.x + q.z) - (xx + zz))
  let low := yy - 21 * zz
  let high := yy + 21 * zz
  { x := xy * low - yz * xz
    y := low * high + 3 * xx * xz
    z := yz * high + 3 * xx * xy }

/-- A point taken `n` times. -/
def times (n : Nat) (p : Ratio) : Ratio := Curve.multiple add neutral n p

/-- The coordinates, zeros for the neutral element. -/
def toPoint (p : Ratio) : Point :=
  let inverse := Curve.inverse p.z
  ⟨p.x * inverse, p.y * inverse⟩

end Ratio

/-- The public point of a secret factor. -/
def publicPoint (secret : Scalar) : Point :=
  ((Ratio.ofPoint .base).times secret.value).toPoint

end Secp256k1

end ChainKit
