import ChainKit.Bytes

/-!
# Bech32 — bytes with a readable prefix and a checksum

A text consists of a prefix, the separator `1`, symbols of five bits each,
and six symbols of checksum over all of it. Letters are of one case
throughout. Bytes are regrouped into symbols bit by bit; the last symbol
is filled with zeros, and bits left over in reading are dropped.
-/

namespace ChainKit

namespace Text

namespace Bech32

/-- Why a text cannot be read. -/
inductive Error where
  /-- The text is not made of a prefix, a separator and symbols. -/
  | malformed
  /-- The text is too short, too long, or its checksum is wrong. -/
  | badChecksum
  deriving DecidableEq, Repr

/-- The wording of a refusal. -/
def Error.message : Error → String
  | .malformed => "parse failed"
  | .badChecksum => "invalid checksum"

/-- A symbol carries five bits. -/
abbrev Symbol := BitVec 5

/-- The characters of the symbols, in the order of their values. -/
def alphabet : List Char := "qpzry9x8gf2tvdw0s3jn54khce6mua7l".toList

/-- The character of a symbol. -/
def Symbol.char (s : Symbol) : Char := alphabet.getD s.toNat 'q'

/-- The symbol of a character, in either case. -/
def symbol? (c : Char) : Option Symbol :=
  (alphabet.idxOf? c.toLower).map (BitVec.ofNat 5)

/-! ## Checksums -/

/-- The running checksum. -/
abbrev Residue := BitVec 30

/-- What each of the five bits shifted out adds to the checksum. -/
def generators : List Residue := [0x3b6a57b2, 0x26508e6d, 0x1ea119fa, 0x3d4233dd, 0x2a1462b3]

/-- Takes one symbol into the checksum. -/
def absorb (r : Residue) (s : Symbol) : Residue :=
  let shifted := r <<< 5 ^^^ s.setWidth 30
  generators.zipIdx.foldl (fun t (g, i) => if r.getLsbD (25 + i) then t ^^^ g else t) shifted

/-- The checksum of symbols; valid ones have the checksum one. -/
def residue (symbols : List Symbol) : Residue := symbols.foldl absorb 1

/-- The symbols that stand for a prefix: the high bits of its characters,
a zero, and their low bits. -/
def expand (hrp : List Char) : List Symbol :=
  hrp.map (fun c => BitVec.ofNat 5 (c.toNat / 32)) ++ 0 ::
    hrp.map (fun c => BitVec.ofNat 5 (c.toNat % 32))

/-- The six symbols that make the checksum valid. -/
def checksum (hrp : List Char) (symbols : List Symbol) : List Symbol :=
  let r := residue (expand hrp ++ symbols ++ List.replicate 6 0) ^^^ 1
  [25, 20, 15, 10, 5, 0].map fun i => (r >>> i).setWidth 5

/-! ## Regrouping -/

/-- The bits of a byte, the highest first. -/
def byteBits (b : UInt8) : List Bool := (List.range 8).map fun i => b.toBitVec.getMsbD i

/-- The bits of a symbol, the highest first. -/
def symbolBits (s : Symbol) : List Bool := (List.range 5).map fun i => s.getMsbD i

/-- The number that bits spell, the highest first. -/
def bitsValue (bits : List Bool) : Nat := bits.foldl (fun n b => n * 2 + b.toNat) 0

/-- The symbols of bits, the last one filled with zeros. -/
def symbolsOfBits : List Bool → List Symbol
  | [] => []
  | a :: b :: c :: d :: e :: rest =>
    BitVec.ofNat 5 (bitsValue [a, b, c, d, e]) :: symbolsOfBits rest
  | few => [BitVec.ofNat 5 (bitsValue (few ++ List.replicate (5 - few.length) false))]

/-- The bytes of bits, those left over being dropped. -/
def bytesOfBits : List Bool → Bytes
  | a :: b :: c :: d :: e :: f :: g :: h :: rest =>
    UInt8.ofNat (bitsValue [a, b, c, d, e, f, g, h]) :: bytesOfBits rest
  | _ => []

/-! ## Texts -/

/-- The text of bytes behind a prefix. -/
def encode (hrp : String) (bytes : Bytes) : String :=
  let symbols := symbolsOfBits (bytes.flatMap byteBits)
  String.ofList (hrp.toList ++ '1' :: (symbols ++ checksum hrp.toList symbols).map Symbol.char)

/-- The text before and behind the last separator. -/
def splitLast? : List Char → Option (List Char × List Char)
  | [] => none
  | c :: rest =>
    match splitLast? rest with
    | some (hrp, data) => some (c :: hrp, data)
    | none => if c = '1' then some ([], rest) else none

/-- Whether a text holds letters of both cases. -/
def isMixed (cs : List Char) : Bool := cs.any Char.isUpper && cs.any Char.isLower

/-- Whether a prefix is allowed: up to 83 visible characters of ASCII. -/
def isPrefix (hrp : List Char) : Bool :=
  1 ≤ hrp.length && hrp.length ≤ 83 && hrp.all fun c => 33 ≤ c.toNat && c.toNat ≤ 126

/-- The longest text that is read. -/
def maxLength : Nat := 1023

/-- The prefix in lowercase and the bytes of a text. -/
def decode (text : String) : Except Error (String × Bytes) :=
  let cs := text.toList
  match splitLast? cs with
  | none => .error .malformed
  | some (hrp, data) =>
    match data.mapM symbol? with
    | none => .error .malformed
    | some symbols =>
      if isMixed cs || !isPrefix hrp then .error .malformed
      else
        let hrp := hrp.map Char.toLower
        if cs.length > maxLength || symbols.length < 6 || residue (expand hrp ++ symbols) ≠ 1 then
          .error .badChecksum
        else
          let payload := symbols.take (symbols.length - 6)
          .ok (String.ofList hrp, bytesOfBits (payload.flatMap symbolBits))

end Bech32

end Text

end ChainKit
