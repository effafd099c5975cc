import ChainKit.Wire.Varint

/-!
# Records — the fields of a message as they stand on the wire

A message is a run of records, each a field number and a payload. The
number and the kind of the payload share a varint of 32 bits; the field
number is not zero. Old messages also hold groups, records between two
marks; a group is kept as a mark without its contents, since nothing here
reads one. Groups may lie inside each other up to a number of levels.
-/

namespace ChainKit

namespace Wire

/-- What a record carries. -/
inductive Payload where
  | varint (n : UInt64)
  | fixed64 (bytes : Bytes)
  | bytes (bytes : Bytes)
  | group
  | fixed32 (bytes : Bytes)
  deriving DecidableEq, Repr

/-- A field number and what stands under it. -/
structure Record where
  number : Nat
  payload : Payload
  deriving DecidableEq, Repr

/-- The code of a payload's kind. -/
def Payload.kind : Payload → Nat
  | varint _ => 0
  | fixed64 _ => 1
  | bytes _ => 2
  | group => 3
  | fixed32 _ => 5

/-- A payload behind its key; a group is written empty. -/
def Payload.write (number : Nat) : Payload → Bytes
  | varint n => Varint.write n.toNat
  | fixed64 b => b
  | bytes b => Varint.write b.length ++ b
  | group => Varint.write (number * 8 + 4)
  | fixed32 b => b

namespace Record

/-- The bytes of a record. -/
def write (r : Record) : Bytes :=
  Varint.write (r.number * 8 + r.payload.kind) ++ r.payload.write r.number

/-- The bytes of a message. -/
def writeAll (rs : List Record) : Bytes := rs.flatMap write

/-- The field number and kind at the start, and what follows. -/
def readKey? (bytes : Bytes) : Option (Nat × Nat × Bytes) := do
  let (key, rest) ← Varint.read? bytes
  if key < UInt32.size ∧ 8 ≤ key then some (key / 8, key % 8, rest) else none

/-- A payload of the given kind at the start, and what follows; none for
the kinds that are no payloads. -/
def readPayload? (kind : Nat) (bytes : Bytes) : Option (Payload × Bytes) :=
  match kind with
  | 0 => do
    let (n, rest) ← Varint.read? bytes
    return (.varint (UInt64.ofNat n), rest)
  | 1 => do
    let (b, rest) ← Bytes.split? 8 bytes
    return (.fixed64 b, rest)
  | 2 => do
    let (length, rest) ← Varint.read? bytes
    let (b, rest) ← Bytes.split? length rest
    return (.bytes b, rest)
  | 5 => do
    let (b, rest) ← Bytes.split? 4 bytes
    return (.fixed32 b, rest)
  | _ => none

theorem readKey?_length {number kind : Nat} {bytes rest : Bytes}
    (h : readKey? bytes = some (number, kind, rest)) : rest.length < bytes.length := by
  simp only [readKey?, Option.bind_eq_bind, Option.bind_eq_some_iff] at h
  obtain ⟨⟨key, r⟩, hk, h⟩ := h
  dsimp only at h
  split at h
  · cases h; exact Varint.read?_length hk
  · cases h

theorem split?_length {count : Nat} {bytes front rest : Bytes}
    (h : Bytes.split? count bytes = some (front, rest)) : rest.length ≤ bytes.length := by
  have := congrArg List.length (Bytes.append_of_split? h).1
  simp only [List.length_append] at this
  omega

theorem readPayload?_length {kind : Nat} {bytes rest : Bytes} {p : Payload}
    (h : readPayload? kind bytes = some (p, rest)) : rest.length ≤ bytes.length := by
  unfold readPayload? at h
  split at h
  · simp only [Option.bind_eq_bind, Option.bind_eq_some_iff] at h
    obtain ⟨⟨n, r⟩, hn, h⟩ := h
    cases h
    exact Nat.le_of_lt (Varint.read?_length hn)
  · simp only [Option.bind_eq_bind, Option.bind_eq_some_iff] at h
    obtain ⟨⟨b, r⟩, hb, h⟩ := h
    cases h
    exact split?_length hb
  · simp only [Option.bind_eq_bind, Option.bind_eq_some_iff] at h
    obtain ⟨⟨n, r⟩, hn, ⟨b, q⟩, hb, h⟩ := h
    cases h
    have := Varint.read?_length hn
    have := split?_length hb
    dsimp only at *
    omega
  · simp only [Option.bind_eq_bind, Option.bind_eq_some_iff] at h
    obtain ⟨⟨b, r⟩, hb, h⟩ := h
    cases h
    exact split?_length hb
  · cases h

/-- The records of a message. The groups in `opened`, the innermost first,
have begun but not ended; what stands inside one is read and dropped.
Fewer than `levels` groups may be open around a record. -/
def readAll (levels : Nat) (opened : List Nat) (bytes : Bytes) : Option (List Record) :=
  if bytes = [] then (if opened = [] then some [] else none)
  else match h : readKey? bytes with
    | none => none
    | some (number, kind, rest) =>
      have := readKey?_length h
      if kind = 4 then
        match opened with
        | [] => none
        | innermost :: outer =>
          if innermost ≠ number then none
          else if outer = [] then (readAll levels outer rest).map (⟨number, .group⟩ :: ·)
          else readAll levels outer rest
      else if levels ≤ opened.length then none
      else if kind = 3 then readAll levels (number :: opened) rest
      else match h : readPayload? kind rest with
        | none => none
        | some (payload, rest) =>
          have := readPayload?_length h
          if opened = [] then (readAll levels opened rest).map (⟨number, payload⟩ :: ·)
          else readAll levels opened rest
termination_by bytes.length

end Record

end Wire

end ChainKit
