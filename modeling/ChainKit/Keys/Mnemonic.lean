import ChainKit.Hash.Hmac
import ChainKit.Keys.WordList
import ChainKit.Text.Folding
import ChainKit.Text.Utf8

/-!
# Mnemonics — secrets as words

A secret of 16 to 32 bytes is written in 12 to 24 words: every word stands
for eleven bits, and the last bits check the others. `phrase` writes the
words and `ofPhrase` reads them, whatever their case and the space between
them. A seed is stretched from the phrase.
-/

namespace ChainKit

open Text

namespace Keys

/-- A secret that words can spell: its length is 16 to 32 bytes, in steps
of four. -/
structure Mnemonic where
  entropy : Bytes
  size : 16 ≤ entropy.length ∧ entropy.length ≤ 32 ∧ entropy.length % 4 = 0
  deriving DecidableEq

/-- Why words or bytes are no secret. -/
inductive MnemonicError where
  /-- There are 12, 15, 18, 21 or 24 words. -/
  | wordCount (count : Nat)
  /-- The word at this place is in no list. -/
  | unknownWord (place : Nat)
  /-- The last bits do not fit the others. -/
  | checksum
  /-- The secret has another length. -/
  | entropyBits (bits : Nat)
  /-- No secret is drawn for this number of words. -/
  | unsupportedCount (count : Nat)
  deriving DecidableEq, Repr

/-- The wording of an error. -/
def MnemonicError.message : MnemonicError → String
  | wordCount count =>
    s!"mnemonic has an invalid word count: {count}. Word count must be 12, 15, 18, 21, or 24"
  | unknownWord place => s!"mnemonic contains an unknown word (word {place})"
  | checksum => "the mnemonic has an invalid checksum"
  | entropyBits bits =>
    s!"entropy was not between 128-256 bits or not a multiple of 32 bits: {bits} bits"
  | unsupportedCount count => s!"unsupported word count: {count}"

namespace Mnemonic

/-- The secret of bytes. -/
def ofEntropy (entropy : Bytes) : Except MnemonicError Mnemonic :=
  if h : 16 ≤ entropy.length ∧ entropy.length ≤ 32 ∧ entropy.length % 4 = 0 then
    .ok ⟨entropy, h⟩
  else .error (.entropyBits (entropy.length * 8))

/-! ## Words -/

/-- The number of words, and of bits that check. -/
def wordCount (m : Mnemonic) : Nat := m.entropy.length / 4 * 3

/-- The first `bits` bits of a digest of the secret, at most eight. -/
def checksum (bits : Nat) (entropy : Bytes) : Nat :=
  Bytes.toNat ((Sha256.digest entropy).take 1) >>> (8 - bits)

/-- The places of the words in the list, for `count` words that spell a
number of eleven bits each. -/
def places (count n : Nat) : List Nat :=
  (List.range count).map fun i => (n >>> (11 * (count - 1 - i))) % 2048

/-- The words. -/
def words (m : Mnemonic) : List String :=
  let bits := m.entropy.length / 4
  let n := Bytes.toNat m.entropy <<< bits + checksum bits m.entropy
  (places m.wordCount n).map fun place => WordList.all.getD place ""

/-- The words with single spaces between them. -/
def phrase (m : Mnemonic) : String := " ".intercalate m.words

/-- The places of words, counted from `i`, or the first word that is in
no list. -/
def placesOf (i : Nat) : List (List Char) → Except MnemonicError (List Nat)
  | [] => .ok []
  | word :: rest =>
    match WordList.all.idxOf? (String.ofList word) with
    | none => .error (.unknownWord i)
    | some place => (placesOf (i + 1) rest).map (place :: ·)

/-- Whether a mnemonic may have this many words. -/
def isWordCount (count : Nat) : Bool := 12 ≤ count && count ≤ 24 && count % 3 = 0

/-- The secret that words in any case spell. -/
def ofPhrase (text : String) : Except MnemonicError Mnemonic := do
  let words := Folding.words text.toList
  let count := words.length
  if !isWordCount count then .error (.wordCount count)
  else
    let places ← placesOf 0 words
    let n := places.foldl (fun n place => n * 2048 + place) 0
    let bits := count / 3
    let entropy := Bytes.ofNat (bits * 4) (n >>> bits)
    if checksum bits entropy = n % 1 <<< bits then ofEntropy entropy else .error .checksum

/-- The secret drawn for a number of words, given a source of random
bytes. -/
def draw (random : Nat → Bytes) (count : Nat) : Except MnemonicError Mnemonic :=
  if isWordCount count then ofEntropy (random (count * 4 / 3))
  else .error (.unsupportedCount count)

/-! ## Seeds -/

/-- How many rounds a phrase is stretched. -/
def rounds : Nat := 2048

/-- The seed below which keys are derived: 64 bytes. -/
def seed (m : Mnemonic) : Bytes :=
  Hmac.stretch Hmac.sha512 (Utf8.encode m.phrase) (Utf8.encode "mnemonic") rounds

/-- A mnemonic as logs show it. -/
def inspect (m : Mnemonic) : String := s!"EnglishMnemonic({m.wordCount} words)"

/-- A seed as logs show it. -/
def inspectSeed : String := "Bip39Seed(\"[REDACTED]\")"

end Mnemonic

end Keys

end ChainKit
