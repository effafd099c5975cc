import ChainKit.Text.Hidden

/-!
# Quoted text — text shown inside a message

A message that names a text shows it between double quotes, and a
character between single quotes. The quote itself and the backslash are
escaped by a backslash, the usual control characters by their letter, and
every other character that would not show by its code in hexadecimal.
-/

namespace ChainKit

namespace Text

namespace Quoted

/-- The code in lowercase hexadecimal, without leading zeros. -/
def hexCode (c : Char) : String := String.ofList (Nat.toDigits 16 c.toNat)

/-- A character as it stands between quotes of the kind `quote`. -/
def escape (quote c : Char) : String :=
  if c = quote || c = '\\' then String.ofList ['\\', c]
  else if c = '\n' then "\\n"
  else if c = '\r' then "\\r"
  else if c = '\t' then "\\t"
  else if c = '\x00' then "\\0"
  else if isHidden c then "\\u\x7b" ++ hexCode c ++ "\x7d"
  else String.ofList [c]

/-- A text between double quotes. -/
def text (s : String) : String :=
  "\"" ++ s.toList.foldl (fun shown c => shown ++ escape '"' c) "" ++ "\""

/-- A character between single quotes. -/
def char (c : Char) : String := "'" ++ escape '\'' c ++ "'"

end Quoted

end Text

end ChainKit
