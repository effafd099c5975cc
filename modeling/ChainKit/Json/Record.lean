import ChainKit.Json.Reader
import ChainKit.Text.Hex
import ChainKit.TextMap

/-!
# Records in documents — reading and writing fields

A record is written as an object with its fields in order. It is read from
an object in which no field stands twice, other members being skipped, or
from an array of its fields in order. A field that is missing is an error,
unless it may be absent: an optional one in an object, one with a default
anywhere.
-/

namespace ChainKit

namespace Json

/-! ## Single values -/

/-- Reads a text. -/
def text? : Json → Option String
  | .text s => s
  | _ => none

/-- Reads an integer of the range `low ≤ n < high`. -/
def integer? (low high : Int) : Json → Option Int
  | .integer n => if low ≤ n ∧ n < high then some n else none
  | _ => none

/-- Reads a word of 32 bits. -/
def uint32? (j : Json) : Option UInt32 :=
  (integer? 0 0x100000000 j).map fun n => UInt32.ofNat n.toNat

/-- Reads a word of 64 bits. -/
def uint64? (j : Json) : Option UInt64 :=
  (integer? 0 0x10000000000000000 j).map fun n => UInt64.ofNat n.toNat

/-- Reads a signed word of 64 bits. -/
def int64? (j : Json) : Option Int64 :=
  (integer? (-0x8000000000000000) 0x8000000000000000 j).map Int64.ofInt

/-- Reads bytes, written in hexadecimal. -/
def hex? (j : Json) : Option Bytes := (text? j).bind fun s => (Text.Hex.decode s).toOption

/-- Bytes, written in hexadecimal. -/
def hex (b : Bytes) : Json := str (Text.Hex.encode b)

/-- Reads a value that may be null. -/
def nullable? {α : Type} (read : Json → Option α) : Json → Option (Option α)
  | .null => some none
  | j => (read j).map some

/-- A value, or null. -/
def nullable {α : Type} (write : α → Json) : Option α → Json
  | none => .null
  | some x => write x

/-- Reads one of a choice of names, written alone or as the one member of
an object whose value is null. -/
def choice? {α : Type} (name : α → String) (choices : List α) : Json → Option α
  | .text (some s) => choices.find? fun x => name x = s
  | .object [(some s, .null)] => choices.find? fun x => name x = s
  | _ => none

/-- Reads a list item by item. -/
def list? {α : Type} (read : Json → Option α) : Json → Option (List α)
  | .array items => items.mapM read
  | _ => none

/-- The members of an object, if every name is a text. -/
def named? : List (Option String × Json) → Option (List (String × Json))
  | [] => some []
  | (some name, j) :: rest => (named? rest).map ((name, j) :: ·)
  | (none, _) :: _ => none

/-- Reads values under names; of a name that stands twice the last value
counts. -/
def map? {α : Type} (read : Json → Option α) : Json → Option (TextMap α)
  | .object members => do
    let entries ← (← named? members).mapM fun (name, j) => (read j).map fun x => (name, x)
    return TextMap.ofList entries
  | _ => none

/-- Values under names, in the order of the names. -/
def map {α : Type} (write : α → Json) (m : TextMap α) : Json :=
  record (m.entries.map fun (name, x) => (name, write x))

/-! ## Records -/

/-- The fields of a record as they were found: under names, or in order. -/
inductive Fields where
  | named (members : List (String × Json))
  | listed (items : List Json)

/-- The fields of a record of at most `count`. -/
def fields? (count : Nat) : Json → Option Fields
  | .object members => (named? members).map .named
  | .array items => if items.length ≤ count then some (.listed items) else none
  | _ => none

namespace Fields

/-- What stands in the field at place `i` with these names, if anything;
no answer if the field stands twice. -/
def find? (f : Fields) (i : Nat) (names : List String) : Option (Option Json) :=
  match f with
  | .named members =>
    match members.filter fun (name, _) => names.contains name with
    | [] => some none
    | [(_, j)] => some (some j)
    | _ => none
  | .listed items => some items[i]?

/-- Reads a field that must be there. -/
def required {α : Type} (f : Fields) (i : Nat) (name : String) (read : Json → Option α) :
    Option α :=
  match f.find? i [name] with
  | some (some j) => read j
  | _ => none

/-- Reads a field that counts as `default` where it is missing. -/
def withDefault {α : Type} (f : Fields) (i : Nat) (names : List String) (default : α)
    (read : Json → Option α) : Option α :=
  match f.find? i names with
  | some (some j) => read j
  | some none => some default
  | none => none

/-- Reads a field that may be null, and absent where fields have names. -/
def optional {α : Type} (f : Fields) (i : Nat) (name : String) (read : Json → Option α) :
    Option (Option α) :=
  match f, f.find? i [name] with
  | _, some (some j) => nullable? read j
  | .named _, some none => some none
  | _, _ => none

end Fields

end Json

end ChainKit
