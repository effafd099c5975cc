import ChainKit.Bytes

/-!
# JSON — documents as trees and as text

`Json` is the tree of a document, `Json.render` its compact text. Members
keep their order and may repeat a name. Two things stay unread until
somebody asks for them, because a reader may skip them: a number with a
fraction or an exponent (`fraction`), and a text whose escapes form no
characters (`none` in place of the text).
-/

namespace ChainKit

/-- A document. -/
inductive Json where
  | null
  | bool (b : Bool)
  | integer (n : Int)
  | fraction
  | text (s : Option String)
  | array (items : List Json)
  | object (members : List (Option String × Json))

namespace Json

/-- A text value. -/
def str (s : String) : Json := .text (some s)

/-- An object of named members. -/
def record (members : List (String × Json)) : Json :=
  .object (members.map fun (name, value) => (some name, value))

/-- The digit of a value below sixteen, in lowercase. -/
def hexDigit (n : Nat) : Char := Char.ofNat (if n < 10 then 0x30 + n else 0x57 + n)

/-- A character inside a JSON text: quotes, backslashes and control
characters are escaped, all others stand for themselves. -/
def escape (c : Char) : List Char :=
  if c = '"' then ['\\', '"']
  else if c = '\\' then ['\\', '\\']
  else if c = '\x08' then ['\\', 'b']
  else if c = '\x0c' then ['\\', 'f']
  else if c = '\n' then ['\\', 'n']
  else if c = '\r' then ['\\', 'r']
  else if c = '\t' then ['\\', 't']
  else if c.toNat < 0x20 then
    ['\\', 'u', '0', '0', hexDigit (c.toNat / 16), hexDigit (c.toNat % 16)]
  else [c]

/-- A text between quotes; for a text without characters, an escape that
forms none. -/
def quote : Option String → List Char
  | some s => '"' :: s.toList.flatMap escape ++ ['"']
  | none => ['"', '\\', 'u', 'd', '8', '0', '0', '"']

/-- The text of an integer. -/
def integerText : Int → List Char
  | .ofNat n => Nat.toDigits 10 n
  | .negSucc n => '-' :: Nat.toDigits 10 (n + 1)

mutual

/-- The compact text of a document. -/
def chars : Json → List Char
  | .null => ['n', 'u', 'l', 'l']
  | .bool true => ['t', 'r', 'u', 'e']
  | .bool false => ['f', 'a', 'l', 's', 'e']
  | .integer n => integerText n
  | .fraction => ['0', '.', '0']
  | .text s => quote s
  | .array [] => ['[', ']']
  | .array (x :: xs) => '[' :: chars x ++ itemChars xs
  | .object [] => ['\x7b', '\x7d']
  | .object ((k, v) :: ms) => '\x7b' :: quote k ++ ':' :: chars v ++ memberChars ms

/-- The items behind the first, each behind a comma, and the end. -/
def itemChars : List Json → List Char
  | [] => [']']
  | x :: xs => ',' :: chars x ++ itemChars xs

/-- The members behind the first, each behind a comma, and the end. -/
def memberChars : List (Option String × Json) → List Char
  | [] => ['\x7d']
  | (k, v) :: ms => ',' :: quote k ++ ':' :: chars v ++ memberChars ms

end

/-- The compact text of a document. -/
def render (j : Json) : String := String.ofList j.chars

end Json

end ChainKit
