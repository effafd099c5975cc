import ChainKit.Text.Blank

/-!
# Folding — characters that stand for lowercase letters

Case and the variants that Unicode keeps for compatibility are set aside:
a capital, a fullwidth or a circled letter folds to the lowercase letter
that it stands for, a ligature to its letters. A mark that carries its own
space folds to a space and itself. What stands for no ASCII letter is left
alone, so a folded word consists of letters exactly if it spells them.
-/

namespace ChainKit

namespace Text

namespace Folding

/-- Runs of characters that stand for successive letters: the first
character, how many there are, and the first letter. -/
def runs : List (Nat × Nat × Char) := [
    (0x00AA, 1, 'a'), (0x00BA, 1, 'o'), (0x017F, 1, 's'), (0x02B0, 1, 'h'),
    (0x02B2, 1, 'j'), (0x02B3, 1, 'r'), (0x02B7, 1, 'w'), (0x02B8, 1, 'y'),
    (0x02E1, 1, 'l'), (0x02E2, 1, 's'), (0x02E3, 1, 'x'), (0x1D43, 1, 'a'),
    (0x1D47, 1, 'b'), (0x1D48, 2, 'd'), (0x1D4D, 1, 'g'), (0x1D4F, 1, 'k'),
    (0x1D50, 1, 'm'), (0x1D52, 1, 'o'), (0x1D56, 1, 'p'), (0x1D57, 2, 't'),
    (0x1D5B, 1, 'v'), (0x1D62, 1, 'i'), (0x1D63, 1, 'r'), (0x1D64, 2, 'u'),
    (0x1D9C, 1, 'c'), (0x1DA0, 1, 'f'), (0x1DBB, 1, 'z'), (0x2071, 1, 'i'),
    (0x207F, 1, 'n'), (0x2090, 1, 'a'), (0x2091, 1, 'e'), (0x2092, 1, 'o'),
    (0x2093, 1, 'x'), (0x2095, 1, 'h'), (0x2096, 4, 'k'), (0x209A, 1, 'p'),
    (0x209B, 2, 's'), (0x210A, 1, 'g'), (0x210E, 1, 'h'), (0x2113, 1, 'l'),
    (0x212A, 1, 'k'), (0x212F, 1, 'e'), (0x2134, 1, 'o'), (0x2139, 1, 'i'),
    (0x2146, 2, 'd'), (0x2148, 2, 'i'), (0x2160, 1, 'i'), (0x2164, 1, 'v'),
    (0x2169, 1, 'x'), (0x216C, 1, 'l'), (0x216D, 2, 'c'), (0x216F, 1, 'm'),
    (0x2170, 1, 'i'), (0x2174, 1, 'v'), (0x2179, 1, 'x'), (0x217C, 1, 'l'),
    (0x217D, 2, 'c'), (0x217F, 1, 'm'), (0x24B6, 26, 'a'), (0x24D0, 26, 'a'),
    (0x2C7C, 1, 'j'), (0xFF21, 26, 'a'), (0xFF41, 26, 'a'), (0x107A5, 1, 'q'),
    (0x1D41A, 26, 'a'), (0x1D44E, 7, 'a'), (0x1D456, 18, 'i'), (0x1D482, 26, 'a'),
    (0x1D4B6, 4, 'a'), (0x1D4BB, 1, 'f'), (0x1D4BD, 7, 'h'), (0x1D4C5, 11, 'p'),
    (0x1D4EA, 26, 'a'), (0x1D51E, 26, 'a'), (0x1D552, 26, 'a'), (0x1D586, 26, 'a'),
    (0x1D5BA, 26, 'a'), (0x1D5EE, 26, 'a'), (0x1D622, 26, 'a'), (0x1D656, 26, 'a'),
    (0x1D68A, 26, 'a')]

/-- Characters that stand for several letters. -/
def ligatures : List (Nat × String) := [
    (0x0132, "ij"), (0x0133, "ij"), (0x01C7, "lj"), (0x01C8, "lj"), (0x01C9, "lj"),
    (0x01CA, "nj"), (0x01CB, "nj"), (0x01CC, "nj"), (0x01F1, "dz"), (0x01F2, "dz"),
    (0x01F3, "dz"), (0x2161, "ii"), (0x2162, "iii"), (0x2163, "iv"),
    (0x2165, "vi"), (0x2166, "vii"), (0x2167, "viii"), (0x2168, "ix"),
    (0x216A, "xi"), (0x216B, "xii"), (0x2171, "ii"), (0x2172, "iii"),
    (0x2173, "iv"), (0x2175, "vi"), (0x2176, "vii"), (0x2177, "viii"),
    (0x2178, "ix"), (0x217A, "xi"), (0x217B, "xii"), (0x32CD, "erg"),
    (0x3372, "da"), (0x3374, "bar"), (0x3376, "pc"), (0x3377, "dm"),
    (0x3388, "cal"), (0x3389, "kcal"), (0x338E, "mg"), (0x338F, "kg"),
    (0x3396, "ml"), (0x3397, "dl"), (0x3398, "kl"), (0x3399, "fm"), (0x339A, "nm"),
    (0x339C, "mm"), (0x339D, "cm"), (0x339E, "km"), (0x33AD, "rad"),
    (0x33B0, "ps"), (0x33B1, "ns"), (0x33B3, "ms"), (0x33C4, "cc"), (0x33C5, "cd"),
    (0x33CA, "ha"), (0x33CC, "in"), (0x33CF, "kt"), (0x33D0, "lm"), (0x33D1, "ln"),
    (0x33D2, "log"), (0x33D3, "lx"), (0x33D4, "mb"), (0x33D5, "mil"),
    (0x33D6, "mol"), (0x33DB, "sr"), (0x33FF, "gal"), (0xFB00, "ff"),
    (0xFB01, "fi"), (0xFB02, "fl"), (0xFB03, "ffi"), (0xFB04, "ffl"),
    (0xFB05, "st"), (0xFB06, "st")]

/-- Marks that carry their own space. -/
def spacedMarks : List Nat := [
    0x00A8, 0x00AF, 0x00B4, 0x00B8, 0x02D8, 0x02D9, 0x02DA, 0x02DB, 0x02DC, 0x02DD,
    0x037A, 0x0384, 0x0385, 0x1FBD, 0x1FBF, 0x1FC0, 0x1FC1, 0x1FCD, 0x1FCE, 0x1FCF,
    0x1FDD, 0x1FDE, 0x1FDF, 0x1FED, 0x1FEE, 0x1FFD, 0x1FFE, 0x2017, 0x203E, 0x309B,
    0x309C, 0xFC5E, 0xFC5F, 0xFC60, 0xFC61, 0xFC62, 0xFC63, 0xFE49, 0xFE4A, 0xFE4B,
    0xFE4C, 0xFE70, 0xFE72, 0xFE74, 0xFE76, 0xFE78, 0xFE7A, 0xFE7C, 0xFE7E, 0xFFE3]

/-- The letters and spaces that a character stands for. -/
def fold (c : Char) : List Char :=
  let n := c.toNat
  if n < 0x80 then [c.toLower]
  else if isBlank c then [' ']
  else if let some (first, _, letter) := runs.find? fun (first, count, _) =>
      first ≤ n && n < first + count then [Char.ofNat (letter.toNat + (n - first))]
  else if let some (_, letters) := ligatures.find? (·.1 = n) then letters.toList
  else if spacedMarks.contains n then [' ', c]
  else if n = 0xFDFA then [c, ' ', c, ' ', c, ' ', c]
  else if n = 0xFDFB then [c, ' ', c]
  else [c]

/-- The folded words of a text. -/
def words (cs : List Char) : List (List Char) := Text.words (cs.flatMap fold)

end Folding

end Text

end ChainKit
