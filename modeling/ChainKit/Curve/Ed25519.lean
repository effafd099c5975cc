import ChainKit.Curve.Modular
import ChainKit.Hash.Sha512

/-!
# Ed25519 — keys and signatures on a twisted Edwards curve

The points satisfy `y² - x² = 1 + d x² y²` over a prime field. A point is
spelled in 32 bytes, least significant first: `y`, with the parity of `x`
in the highest bit. Both the secret factor and the part that hides it in a
signature come from a digest of the private key.
-/

namespace ChainKit

namespace Ed25519

/-- The modulus of the coordinates. -/
def prime : Nat := 0x7FFFFFFFFFFFFFFFFFFFFFFFFFFFFFFFFFFFFFFFFFFFFFFFFFFFFFFFFFFFFFED

/-- The number of multiples of the base point. -/
def order : Nat := 0x1000000000000000000000000000000014DEF9DEA2F79CD65812631A5CF5D3ED

/-- A coordinate. -/
abbrev Coordinate := Fin prime

instance (n : Nat) : OfNat Coordinate n := ⟨Curve.residue (by decide) n⟩

/-- The factor `d` in the equation of the curve. -/
def curveFactor : Coordinate :=
  0x52036CEE2B6FFE738CC740797779E89800700A4D4141D8AB75EB4DCA135978A3

/-- A point as the ratio of coordinates, with `t = x y / z`. -/
structure Point where
  x : Coordinate
  y : Coordinate
  z : Coordinate
  t : Coordinate

namespace Point

/-- The neutral element. -/
def neutral : Point := ⟨0, 1, 1, 0⟩

/-- The point of two coordinates. -/
def ofCoordinates (x y : Coordinate) : Point := ⟨x, y, 1, x * y⟩

/-- The point from which all are counted. -/
def base : Point :=
  ofCoordinates 0x216936D3CD6E53FEC0A4E231FDD6DC5C692CC7609525A7B2C9562D608F25D51A
    0x6666666666666666666666666666666666666666666666666666666666666658

/-- The sum of two points, in every case. -/
def add (p q : Point) : Point :=
  let a := (p.y - p.x) * (q.y - q.x)
  let b := (p.y + p.x) * (q.y + q.x)
  let c := 2 * curveFactor * p.t * q.t
  let d := 2 * p.z * q.z
  { x := (b - a) * (d - c)
    y := (d + c) * (b + a)
    z := (d - c) * (d + c)
    t := (b - a) * (b + a) }

/-- The base point taken `n` times. -/
def ofNat (n : Nat) : Point := Curve.multiple add neutral n base

/-- The spelling in 32 bytes. -/
def toBytes (p : Point) : Bytes :=
  let inverse := Curve.inverse p.z
  let x := p.x * inverse
  let y := p.y * inverse
  Bytes.ofNatLow 32 (y.val + (x.val % 2) <<< 255)

end Point

/-- The highest bit of every secret factor. -/
def highBit : Nat := 1 <<< 254

/-- The secret factor in half a digest: a multiple of eight between `2²⁵⁴`
and `2²⁵⁵`. -/
def secretFactor (half : Bytes) : Nat := highBit + Bytes.toNatLow half % highBit / 8 * 8

/-- The public key of a private key. -/
def publicKey (key : Bytes) : Bytes :=
  (Point.ofNat (secretFactor ((Sha512.digest key).take 32))).toBytes

/-- A digest as a factor of the base point. -/
def challenge (message : Bytes) : Nat := Bytes.toNatLow (Sha512.digest message) % order

/-- The signature of a message: a point and a factor, 32 bytes each. -/
def sign (key message : Bytes) : Bytes :=
  let digest := Sha512.digest key
  let secret := secretFactor (digest.take 32)
  let nonce := challenge (digest.drop 32 ++ message)
  let point := (Point.ofNat nonce).toBytes
  let answer := challenge (point ++ publicKey key ++ message)
  point ++ Bytes.ofNatLow 32 ((nonce + answer * secret) % order)

end Ed25519

end ChainKit
