import ChainKit.Json.Record
import ChainKit.Text.Blank
import ChainKit.Text.Numeral

/-!
# Paths — the way from a seed to a key

A path is a list of indices. Every index has 31 bits and may be hardened,
which is its highest bit; keys below a hardened index cannot be derived
from the public key above it. A path is written `m`, and for each index a
slash, its number and an apostrophe if it is hardened.
-/

namespace ChainKit

open Text

namespace Keys

/-- One step of a path. -/
structure Index where
  raw : UInt32
  deriving DecidableEq, Repr

/-- A list of steps. -/
abbrev Path := List Index

namespace Index

/-- The bit that hardens an index. -/
def hardenedBit : UInt32 := 0x80000000

/-- Whether an index is hardened. -/
def isHardened (i : Index) : Bool := hardenedBit ≤ i.raw

/-- The number of an index. -/
def number (i : Index) : UInt32 := i.raw &&& 0x7FFFFFFF

/-- An index in four bytes. -/
def toBytes (i : Index) : Bytes := Bytes.ofNat 4 i.raw.toNat

/-- The text of an index. -/
def text (i : Index) : List Char :=
  Nat.toDigits 10 i.number.toNat ++ if i.isHardened then ['\x27'] else []

end Index

/-- Why something is no path, or none that a curve knows. -/
inductive PathError where
  /-- An index has 31 bits. -/
  | indexRange (index : UInt32)
  /-- A path starts with `m`. -/
  | noRoot (text : String)
  /-- A component is a number. -/
  | component (part text : String)
  /-- Only hardened indices are known. -/
  | notHardened (index : Index) (path : Path)
  deriving DecidableEq, Repr

namespace Index

/-- The number of an index, if it has 31 bits. -/
def inRange (n : UInt32) : Except PathError UInt32 :=
  if n < hardenedBit then .ok n else .error (.indexRange n)

/-- The hardened index of a number. -/
def hardened (n : UInt32) : Except PathError Index :=
  (inRange n).map fun n => ⟨n ||| hardenedBit⟩

/-- The index of a number. -/
def normal (n : UInt32) : Except PathError Index := (inRange n).map Index.mk

/-- The index that a component spells, within `text`. -/
def ofPart (text : String) (part : List Char) : Except PathError Index :=
  let isHardened := part.getLast? = some '\x27'
  let digits := if isHardened then part.dropLast else part
  match Numeral.uint32? digits with
  | none => .error (.component (String.ofList part) text)
  | some n => if isHardened then hardened n else normal n

end Index

namespace Path

/-- The text of a path. -/
def text (p : Path) : String :=
  String.ofList ('m' :: p.flatMap fun i => '/' :: i.text)

/-- The path that a text spells. -/
def ofText (text : String) : Except PathError Path :=
  match pieces (· = '/') text.toList with
  | ['m'] :: parts => parts.mapM (Index.ofPart text)
  | _ => .error (.noRoot text)

/-- `m/4804438'/i'`. -/
def simpleAddress (index : UInt32) : Except PathError Path := do
  return [← Index.hardened 4804438, ← Index.hardened index]

/-- All five components that a coin may use. The last two are not hardened. -/
def coin (coinType account change address : UInt32) : Except PathError Path := do
  return [← Index.hardened 44, ← Index.hardened coinType, ← Index.hardened account,
    ← Index.normal change, ← Index.normal address]

/-- `m/44'/c'/a'`, for coins that know accounts only. -/
def coinAccount (coinType account : UInt32) : Except PathError Path := do
  return [← Index.hardened 44, ← Index.hardened coinType, ← Index.hardened account]

/-- The path of an account of the name service. -/
def nameService (account : UInt32) : Except PathError Path := coinAccount 234 account

/-- The path of an Ethereum account. -/
def ethereum (account : UInt32) : Except PathError Path := coin 60 0 0 account

def toJson (p : Path) : Json := .array (p.map fun i => .integer i.raw.toNat)

def ofJson? : Json → Option Path := Json.list? fun j => (Json.uint32? j).map Index.mk

end Path

/-- The wording of an error. -/
def PathError.message : PathError → String
  | indexRange index => s!"index {index.toNat} does not fit into 31 bits"
  | noRoot text => s!"path must start with m: {text}"
  | component part text => s!"invalid component {Quoted.text part} in {text}"
  | notHardened index path =>
    s!"ed25519 requires hardened components, got {String.ofList index.text} in {Path.text path}"

end Keys

end ChainKit
