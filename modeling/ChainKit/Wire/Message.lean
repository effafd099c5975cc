import ChainKit.Text.Utf8
import ChainKit.Wire.Record

/-!
# Messages — typed fields over records

A message type says how its fields stand as records and how they are read
back. Reading is by field number: of a single field the last record
counts, the records of a nested message are joined, a repeated field
collects them all, and unknown numbers are passed over. A record whose
payload is of the wrong kind makes the whole message unreadable. Fields
that hold their default are not written.
-/

namespace ChainKit

namespace Wire

/-- The records of a message and how many levels may still lie inside. -/
structure Fields where
  levels : Nat
  records : List Record

/-- Types that are messages on the wire. -/
class Message (α : Type) where
  /-- The fields in the order of their numbers. -/
  records : α → List Record
  /-- The value of the fields, if their payloads allow one. -/
  ofFields? : Fields → Option α

namespace Message

variable {α : Type} [Message α]

/-- How deep messages and groups may lie inside each other. -/
def levels : Nat := 100

/-- The bytes of a message. -/
def encode (x : α) : Bytes := Record.writeAll (records x)

/-- The message that bytes hold, if they hold one. -/
def decode? (bytes : Bytes) : Option α :=
  (Record.readAll levels [] bytes).bind fun records => ofFields? ⟨levels, records⟩

end Message

/-! ## Writing fields -/

/-- A number unless it is zero. -/
def number (i : Nat) (n : UInt64) : List Record := if n = 0 then [] else [⟨i, .varint n⟩]

/-- A signed number of 64 bits unless it is zero. -/
def int64 (i : Nat) (n : Int64) : List Record := number i n.toUInt64

/-- A number of 32 bits unless it is zero. -/
def uint32 (i : Nat) (n : UInt32) : List Record := number i n.toUInt64

/-- A signed number of 32 bits, extended to 64, unless it is zero. -/
def int32 (i : Nat) (n : Int32) : List Record := number i n.toInt64.toUInt64

/-- Bytes unless there are none. -/
def bytes (i : Nat) (b : Bytes) : List Record := if b = [] then [] else [⟨i, .bytes b⟩]

/-- Bytes that may be absent; present ones are written even if empty. -/
def optionalBytes (i : Nat) : Option Bytes → List Record
  | none => []
  | some b => [⟨i, .bytes b⟩]

/-- A text unless it is empty. -/
def text (i : Nat) (s : String) : List Record := bytes i (Text.Utf8.encode s)

/-- A nested message that may be absent. -/
def message {α : Type} [Message α] (i : Nat) (x : Option α) : List Record :=
  optionalBytes i (x.map Message.encode)

/-- Nested messages in order. -/
def messages {α : Type} [Message α] (i : Nat) (xs : List α) : List Record :=
  xs.map fun x => ⟨i, .bytes (Message.encode x)⟩

/-! ## Reading fields -/

namespace Payload

/-- The number of a varint. -/
def number? : Payload → Option UInt64
  | .varint n => some n
  | _ => none

/-- The bytes of a delimited payload. -/
def bytes? : Payload → Option Bytes
  | .bytes b => some b
  | _ => none

/-- The text of a delimited payload. -/
def text? (p : Payload) : Option String :=
  p.bytes?.bind fun b => (Text.Utf8.decode b).toOption

end Payload

namespace Fields

/-- What stands under a field number, in order. -/
def payloads (f : Fields) (i : Nat) : List Payload :=
  (f.records.filter fun r => r.number = i).map (·.payload)

/-- Every value under a field number, if all can be read. -/
def all? {β : Type} (f : Fields) (i : Nat) (read : Payload → Option β) : Option (List β) :=
  (f.payloads i).mapM read

/-- The last value under a field number, or the default. -/
def last? {β : Type} (f : Fields) (i : Nat) (default : β) (read : Payload → Option β) : Option β :=
  (f.all? i read).map fun xs => xs.getLastD default

/-- A number of 64 bits. -/
def uint64? (f : Fields) (i : Nat) : Option UInt64 := f.last? i 0 Payload.number?

/-- A signed number of 64 bits. -/
def int64? (f : Fields) (i : Nat) : Option Int64 := (f.uint64? i).map UInt64.toInt64

/-- The low 32 bits of a number. -/
def uint32? (f : Fields) (i : Nat) : Option UInt32 := (f.uint64? i).map UInt64.toUInt32

/-- The low 32 bits of a number, signed. -/
def int32? (f : Fields) (i : Nat) : Option Int32 := (f.uint32? i).map UInt32.toInt32

/-- Bytes. -/
def bytes? (f : Fields) (i : Nat) : Option Bytes := f.last? i [] Payload.bytes?

/-- Bytes that may be absent. -/
def optionalBytes? (f : Fields) (i : Nat) : Option (Option Bytes) :=
  (f.all? i Payload.bytes?).map (·.getLast?)

/-- A text. -/
def text? (f : Fields) (i : Nat) : Option String := f.last? i "" Payload.text?

/-- The fields of the nested messages under a field number. -/
def nested? (f : Fields) (i : Nat) : Option (List Fields) :=
  f.all? i fun p => do
    let records ← Record.readAll (f.levels - 1) [] (← p.bytes?)
    return ⟨f.levels - 1, records⟩

/-- A nested message that may be absent; its records may come in parts. -/
def message? {α : Type} [Message α] (f : Fields) (i : Nat) : Option (Option α) := do
  match ← f.nested? i with
  | [] => some none
  | parts =>
    let joined : Fields := ⟨f.levels - 1, parts.flatMap (·.records)⟩
    return some (← Message.ofFields? joined)

/-- Nested messages in order. -/
def messages? {α : Type} [Message α] (f : Fields) (i : Nat) : Option (List α) := do
  (← f.nested? i).mapM Message.ofFields?

end Fields

end Wire

end ChainKit
