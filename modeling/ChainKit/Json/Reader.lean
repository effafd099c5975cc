import ChainKit.Json.Token

/-!
# Reading a document

The tokens are read one by one under a stack of the arrays and objects
still open. A document is one value with nothing behind it: no comma
before a closing bracket, no member without its name.
-/

namespace ChainKit

namespace Json

/-- An array or object still open, with what it holds so far, the latest
first; an object also has the name whose value is being read. -/
inductive Frame where
  | array (items : List Json)
  | object (members : List (Option String × Json)) (name : Option String)

/-- What may stand next. -/
inductive Expects where
  /-- A value. -/
  | value
  /-- The first item of an array, or its end. -/
  | itemOrEnd
  /-- The first name of an object, or its end. -/
  | nameOrEnd (members : List (Option String × Json))
  /-- A further name of an object. -/
  | name (members : List (Option String × Json))
  /-- The colon behind a name. -/
  | colon (members : List (Option String × Json)) (name : Option String)
  /-- Whatever may follow a complete value. -/
  | more (done : Json)

/-- The reader between two tokens. -/
structure Reading where
  expects : Expects
  frames : List Frame

namespace Reading

/-- The start of a document. -/
def start : Reading := ⟨.value, []⟩

/-- Reads the token that begins a value. -/
def beginValue (frames : List Frame) : Token → Option Reading
  | .null => some ⟨.more .null, frames⟩
  | .bool b => some ⟨.more (.bool b), frames⟩
  | .integer n => some ⟨.more (.integer n), frames⟩
  | .fraction => some ⟨.more .fraction, frames⟩
  | .text s => some ⟨.more (.text s), frames⟩
  | .openArray => some ⟨.itemOrEnd, frames⟩
  | .openObject => some ⟨.nameOrEnd [], frames⟩
  | _ => none

/-- Reads one token. -/
def step (r : Reading) (t : Token) : Option Reading :=
  match r.expects, t, r.frames with
  | .itemOrEnd, .closeArray, frames => some ⟨.more (.array []), frames⟩
  | .nameOrEnd ms, .closeObject, frames => some ⟨.more (.object ms.reverse), frames⟩
  | .nameOrEnd ms, .text s, frames => some ⟨.colon ms s, frames⟩
  | .name ms, .text s, frames => some ⟨.colon ms s, frames⟩
  | .colon ms s, .colon, frames => some ⟨.value, .object ms s :: frames⟩
  | .more j, .comma, .array items :: frames => some ⟨.value, .array (j :: items) :: frames⟩
  | .more j, .closeArray, .array items :: frames =>
    some ⟨.more (.array (j :: items).reverse), frames⟩
  | .more j, .comma, .object ms s :: frames => some ⟨.name ((s, j) :: ms), frames⟩
  | .more j, .closeObject, .object ms s :: frames =>
    some ⟨.more (.object ((s, j) :: ms).reverse), frames⟩
  | .value, t, frames => beginValue frames t
  | .itemOrEnd, t, frames => beginValue (.array [] :: frames) t
  | _, _, _ => none

/-- The document, if it is complete. -/
def result? : Reading → Option Json
  | ⟨.more j, []⟩ => some j
  | _ => none

end Reading

/-- The document that tokens form, if they form one. -/
def ofTokens? (ts : List Token) : Option Json :=
  (ts.foldlM Reading.step Reading.start).bind Reading.result?

/-- The document of a text, if the text is one. -/
def parse? (s : String) : Option Json := (Token.scan s.toList).bind ofTokens?

end Json

end ChainKit
