import ChainKit.Proofs.Wire.Record
import ChainKit.Proofs.Text.Utf8
import ChainKit.Wire.Message
import Mathlib
/-!
# Messages read back what they write

Reading a field looks only at the records of its number (`Avoids`,
`read_append_left`, `read_append_right`), and there finds what was written:
a default where nothing stands, the value otherwise. A message type is
`Lossless` if reading undoes writing, field by field; nested messages need
one level more than what lies inside them. `decode?_encode` follows for
every lossless type and every message of fewer than `2 ^ 64` bytes.
-/

namespace ChainKit

namespace Wire

/-- No record has this number. -/
def Avoids (i : Nat) (rs : List Record) : Prop := ∀ r ∈ rs, r.number ≠ i

/-- Every record has this number. -/
def Field (i : Nat) (rs : List Record) : Prop := ∀ r ∈ rs, r.number = i

section Avoids

variable {α : Type} [Message α] {i j : Nat}

@[simp] theorem avoids_append {a b : List Record} :
    Avoids i (a ++ b) ↔ Avoids i a ∧ Avoids i b :=
  List.forall_mem_append

theorem field_number (n : UInt64) : Field i (number i n) := by
  unfold number
  split <;> simp [Field]

theorem field_bytes (b : Bytes) : Field i (bytes i b) := by
  unfold bytes
  split <;> simp [Field]

theorem field_optionalBytes (b : Option Bytes) : Field i (optionalBytes i b) := by
  cases b <;> simp [optionalBytes, Field]

theorem field_messages (xs : List α) : Field i (messages i xs) := by
  simp [messages, Field]

/-- Records of one number avoid every other. -/
theorem Field.avoids {rs : List Record} (h : Field j rs) (hne : j ≠ i) : Avoids i rs :=
  fun r hr heq => hne (h r hr ▸ heq)

@[simp] theorem avoids_number (h : j ≠ i) (n : UInt64) : Avoids i (number j n) :=
  (field_number n).avoids h

@[simp] theorem avoids_int64 (h : j ≠ i) (n : Int64) : Avoids i (int64 j n) :=
  avoids_number h _

@[simp] theorem avoids_uint32 (h : j ≠ i) (n : UInt32) : Avoids i (uint32 j n) :=
  avoids_number h _

@[simp] theorem avoids_int32 (h : j ≠ i) (n : Int32) : Avoids i (int32 j n) :=
  avoids_number h _

@[simp] theorem avoids_bytes (h : j ≠ i) (b : Bytes) : Avoids i (bytes j b) :=
  (field_bytes b).avoids h

@[simp] theorem avoids_text (h : j ≠ i) (s : String) : Avoids i (text j s) :=
  avoids_bytes h _

@[simp] theorem avoids_optionalBytes (h : j ≠ i) (b : Option Bytes) :
    Avoids i (optionalBytes j b) :=
  (field_optionalBytes b).avoids h

@[simp] theorem avoids_message (h : j ≠ i) (x : Option α) : Avoids i (message j x) :=
  avoids_optionalBytes h _

@[simp] theorem avoids_messages (h : j ≠ i) (xs : List α) : Avoids i (messages j xs) :=
  (field_messages xs).avoids h

end Avoids

/-! ## Reading looks at one number -/

namespace Fields

variable {levels i : Nat} {a b : List Record}

theorem payloads_append_left (h : Avoids i a) :
    payloads ⟨levels, a ++ b⟩ i = payloads ⟨levels, b⟩ i := by
  have hnil : a.filter (fun r => decide (r.number = i)) = [] := by
    simpa [List.filter_eq_nil_iff, Avoids] using h
  rw [payloads, payloads, List.filter_append, hnil, List.nil_append]

theorem payloads_append_right (h : Avoids i b) :
    payloads ⟨levels, a ++ b⟩ i = payloads ⟨levels, a⟩ i := by
  have hnil : b.filter (fun r => decide (r.number = i)) = [] := by
    simpa [List.filter_eq_nil_iff, Avoids] using h
  rw [payloads, payloads, List.filter_append, hnil, List.append_nil]

/-- Records of other numbers in front do not matter. -/
theorem read_append_left (h : Avoids i a) :
    uint64? ⟨levels, a ++ b⟩ i = uint64? ⟨levels, b⟩ i ∧
      int64? ⟨levels, a ++ b⟩ i = int64? ⟨levels, b⟩ i ∧
      uint32? ⟨levels, a ++ b⟩ i = uint32? ⟨levels, b⟩ i ∧
      int32? ⟨levels, a ++ b⟩ i = int32? ⟨levels, b⟩ i ∧
      bytes? ⟨levels, a ++ b⟩ i = bytes? ⟨levels, b⟩ i ∧
      optionalBytes? ⟨levels, a ++ b⟩ i = optionalBytes? ⟨levels, b⟩ i ∧
      text? ⟨levels, a ++ b⟩ i = text? ⟨levels, b⟩ i ∧
      nested? ⟨levels, a ++ b⟩ i = nested? ⟨levels, b⟩ i := by
  simp only [int64?, int32?, uint32?, uint64?, bytes?, optionalBytes?, text?, nested?, last?, all?,
    payloads_append_left h, and_self]

/-- Records of other numbers behind do not matter. -/
theorem read_append_right (h : Avoids i b) :
    uint64? ⟨levels, a ++ b⟩ i = uint64? ⟨levels, a⟩ i ∧
      int64? ⟨levels, a ++ b⟩ i = int64? ⟨levels, a⟩ i ∧
      uint32? ⟨levels, a ++ b⟩ i = uint32? ⟨levels, a⟩ i ∧
      int32? ⟨levels, a ++ b⟩ i = int32? ⟨levels, a⟩ i ∧
      bytes? ⟨levels, a ++ b⟩ i = bytes? ⟨levels, a⟩ i ∧
      optionalBytes? ⟨levels, a ++ b⟩ i = optionalBytes? ⟨levels, a⟩ i ∧
      text? ⟨levels, a ++ b⟩ i = text? ⟨levels, a⟩ i ∧
      nested? ⟨levels, a ++ b⟩ i = nested? ⟨levels, a⟩ i := by
  simp only [int64?, int32?, uint32?, uint64?, bytes?, optionalBytes?, text?, nested?, last?, all?,
    payloads_append_right h, and_self]

section Nested

variable {α : Type} [Message α]

theorem message?_append_left (h : Avoids i a) :
    message? (α := α) ⟨levels, a ++ b⟩ i = message? ⟨levels, b⟩ i := by
  simp only [message?, read_append_left h]

theorem message?_append_right (h : Avoids i b) :
    message? (α := α) ⟨levels, a ++ b⟩ i = message? ⟨levels, a⟩ i := by
  simp only [message?, read_append_right h]

theorem messages?_append_left (h : Avoids i a) :
    messages? (α := α) ⟨levels, a ++ b⟩ i = messages? ⟨levels, b⟩ i := by
  simp only [messages?, read_append_left h]

theorem messages?_append_right (h : Avoids i b) :
    messages? (α := α) ⟨levels, a ++ b⟩ i = messages? ⟨levels, a⟩ i := by
  simp only [messages?, read_append_right h]

end Nested

/-! ## What was written is found -/

/-- A number, or none for zero, is found. -/
@[simp] theorem uint64?_number (n : UInt64) : uint64? ⟨levels, number i n⟩ i = some n := by
  unfold number
  split
  · rename_i h
    simp [uint64?, last?, all?, payloads, h]
  · simp [uint64?, last?, all?, payloads, Payload.number?]

@[simp] theorem int64?_int64 (n : Int64) : int64? ⟨levels, int64 i n⟩ i = some n := by
  simp [int64?, int64]

@[simp] theorem uint32?_uint32 (n : UInt32) : uint32? ⟨levels, uint32 i n⟩ i = some n := by
  simp [uint32?, uint32]

@[simp] theorem int32?_int32 (n : Int32) : int32? ⟨levels, int32 i n⟩ i = some n := by
  -- the wire repeats the sign up to 64 bits, and the low half of them is read
  have hlow : n.toInt64.toUInt64.toUInt32.toInt32 = n := by
    have hsigned : n.toInt64.toInt32 = n := Int32.toInt32_toInt64 n
    rw [← Int32.toBitVec_inj, Int64.toBitVec_toInt32,
      BitVec.signExtend_eq_setWidth_of_le _ (by omega)] at hsigned
    rw [← Int32.toBitVec_inj, ← hsigned]
    rfl
  simp [int32?, uint32?, int32, hlow]

@[simp] theorem bytes?_bytes (b : Bytes) : bytes? ⟨levels, bytes i b⟩ i = some b := by
  unfold Wire.bytes
  split
  · rename_i h
    simp [bytes?, last?, all?, payloads, h]
  · simp [bytes?, last?, all?, payloads, Payload.bytes?]

@[simp] theorem optionalBytes?_optionalBytes (b : Option Bytes) :
    optionalBytes? ⟨levels, optionalBytes i b⟩ i = some b := by
  cases b <;> simp [optionalBytes?, optionalBytes, all?, payloads, Payload.bytes?]

/-- Only the empty text has no bytes. -/
theorem encode_eq_nil {s : String} (h : Text.Utf8.encode s = []) : s = "" := by
  have hdecode := Text.Utf8.decode_encode s
  rw [h, ← show Text.Utf8.encode "" = [] from rfl, Text.Utf8.decode_encode] at hdecode
  exact (Except.ok.inj hdecode).symm

@[simp] theorem text?_text (s : String) : text? ⟨levels, text i s⟩ i = some s := by
  unfold text Wire.bytes
  split
  · rename_i h
    simp [text?, last?, all?, payloads, encode_eq_nil h]
  · simp [text?, last?, all?, payloads, Payload.text?, Payload.bytes?, Text.Utf8.decode_encode,
      Except.toOption]

end Fields

/-! ## What the wire can carry -/

/-- Every record has a number of 29 bits, not zero, and a payload of the kinds that
messages use. -/
def Shaped (rs : List Record) : Prop :=
  ∀ r ∈ rs, 0 < r.number ∧ r.number < 0x20000000 ∧
    ((∃ n, r.payload = .varint n) ∨ ∃ b, r.payload = .bytes b)

/-- Every record can be carried. -/
def Carried (rs : List Record) : Prop := ∀ r ∈ rs, r.Plain

section Shaped

variable {α : Type} [Message α] {i : Nat}

@[simp] theorem shaped_append {a b : List Record} : Shaped (a ++ b) ↔ Shaped a ∧ Shaped b :=
  List.forall_mem_append

@[simp] theorem carried_append {a b : List Record} : Carried (a ++ b) ↔ Carried a ∧ Carried b :=
  List.forall_mem_append

@[simp] theorem shaped_number (hpos : 0 < i) (hlt : i < 0x20000000) (n : UInt64) :
    Shaped (number i n) := by
  unfold number
  split <;> simp [Shaped, hpos, hlt]

@[simp] theorem shaped_int64 (hpos : 0 < i) (hlt : i < 0x20000000) (n : Int64) :
    Shaped (int64 i n) :=
  shaped_number hpos hlt _

@[simp] theorem shaped_uint32 (hpos : 0 < i) (hlt : i < 0x20000000) (n : UInt32) :
    Shaped (uint32 i n) :=
  shaped_number hpos hlt _

@[simp] theorem shaped_int32 (hpos : 0 < i) (hlt : i < 0x20000000) (n : Int32) :
    Shaped (int32 i n) :=
  shaped_number hpos hlt _

@[simp] theorem shaped_bytes (hpos : 0 < i) (hlt : i < 0x20000000) (b : Bytes) :
    Shaped (bytes i b) := by
  unfold bytes
  split <;> simp [Shaped, hpos, hlt]

@[simp] theorem shaped_text (hpos : 0 < i) (hlt : i < 0x20000000) (s : String) :
    Shaped (text i s) :=
  shaped_bytes hpos hlt _

@[simp] theorem shaped_optionalBytes (hpos : 0 < i) (hlt : i < 0x20000000) (b : Option Bytes) :
    Shaped (optionalBytes i b) := by
  cases b <;> simp [optionalBytes, Shaped, hpos, hlt]

@[simp] theorem shaped_message (hpos : 0 < i) (hlt : i < 0x20000000) (x : Option α) :
    Shaped (message i x) :=
  shaped_optionalBytes hpos hlt _

@[simp] theorem shaped_messages (hpos : 0 < i) (hlt : i < 0x20000000) (xs : List α) :
    Shaped (messages i xs) := by
  simp [messages, Shaped, hpos, hlt]

/-- Records of the right shape can be carried in a message whose length is a word. -/
theorem Shaped.carried {rs : List Record} (h : Shaped rs)
    (hlength : (Record.writeAll rs).length < wordSize) : Carried rs := by
  intro r hr
  -- only bytes could be too long, and they are part of the message
  obtain ⟨hpos, hlt, ⟨n, hn⟩ | ⟨b, hb⟩⟩ := h r hr
  · exact ⟨hpos, hlt, by rw [hn]; trivial⟩
  · obtain ⟨number, payload⟩ := r
    cases hb
    exact ⟨hpos, hlt, Nat.lt_of_le_of_lt (Record.length_le_writeAll hr) hlength⟩

end Shaped

/-! ## Messages are read back -/

/-- Values of the type are read back from their records, with messages inside each other
up to a depth. For a type whose fields have distinct numbers both proofs are the same: each
reader passes over the records of the other fields, and the nested messages are lossless at a
smaller depth. -/
class Lossless (α : Type) [Message α] (depth : outParam Nat) : Prop where
  shaped : ∀ x : α, Shaped (Message.records x) := by
    intro x
    simp [Message.records]
  ofFields?_records : ∀ (x : α) (levels : Nat), depth < levels → Carried (Message.records x) →
      Message.ofFields? ⟨levels, Message.records x⟩ = some x := by
    intro x levels hdepth hcarried
    have hlevels : ∀ n ≤ _, n < levels := fun n hn => Nat.lt_of_le_of_lt hn hdepth
    simp only [Message.records, carried_append] at hcarried
    simp [Message.records, Message.ofFields?, Fields.read_append_left, Fields.read_append_right,
      Fields.message?_append_left, Fields.message?_append_right, Fields.messages?_append_left,
      Fields.messages?_append_right, hlevels, hcarried]

section Lossless

variable {α : Type} [Message α] {depth levels i : Nat}

/-- The records of a message are read back from its bytes. -/
theorem readAll_encode [Lossless α depth] {x : α} (hlevels : 0 < levels)
    (h : (Message.encode x).length < wordSize) :
    Record.readAll levels [] (Message.encode x) = some (Message.records x) :=
  Record.readAll_writeAll hlevels ((Lossless.shaped x).carried h)

/-- A message with a record takes at least one byte. -/
theorem encode_ne_nil {x : α} (h : Message.records x ≠ []) : Message.encode x ≠ [] := by
  obtain ⟨r, rs, hrs⟩ := List.exists_cons_of_ne_nil h
  rw [Message.encode, hrs, Record.writeAll, List.flatMap_cons]
  simp [Record.write_ne_nil]

/-- The length of a nested message is a word if its record can be carried. -/
theorem length_of_carried {rs : List Record} {b : Bytes} (h : Carried rs)
    (hmem : ⟨i, .bytes b⟩ ∈ rs) : b.length < wordSize :=
  (h _ hmem).fits

/-- A nested message that may be absent is read back. -/
@[simp] theorem Fields.message?_message [Lossless α depth] {x : Option α}
    (hdepth : depth + 1 < levels) (h : Carried (message i x)) :
    message? ⟨levels, message i x⟩ i = some x := by
  cases x with
  | none => simp [message?, nested?, all?, payloads, message, optionalBytes]
  | some x =>
    have hlength : (Message.encode x).length < wordSize :=
      length_of_carried (i := i) h (by simp [message, optionalBytes])
    have hread : Record.readAll (levels - 1) [] (Message.encode x) = some (Message.records x) :=
      readAll_encode (by omega) hlength
    have hfields := Lossless.ofFields?_records x (levels - 1) (by omega)
      ((Lossless.shaped x).carried hlength)
    simp [message?, nested?, all?, payloads, message, optionalBytes, Payload.bytes?, hread, hfields]

/-- The length of each nested message is a word if their records can be carried. -/
theorem length_of_carried_messages {xs : List α} (h : Carried (messages i xs)) :
    ∀ x ∈ xs, (Message.encode x).length < wordSize := by
  intro x hx
  exact length_of_carried (i := i) h (List.mem_map.2 ⟨x, hx, rfl⟩)

/-- The records of nested messages are read back in order, one level further in. -/
theorem Fields.nested?_messages [Lossless α depth] {xs : List α} (hlevels : 1 < levels)
    (h : Carried (messages i xs)) : nested? ⟨levels, messages i xs⟩ i =
      some (xs.map fun x => ⟨levels - 1, Message.records x⟩) := by
  have hlength := length_of_carried_messages h
  have hpayloads : payloads ⟨levels, messages i xs⟩ i =
      xs.map fun x => .bytes (Message.encode x) := by
    simp [payloads, messages, List.filter_map, Function.comp_def]
  rw [nested?, all?, hpayloads, List.mapM_map]
  refine Outcome.mapM_eq_pure fun x hx => ?_
  have hread : Record.readAll (levels - 1) [] (Message.encode x) = some (Message.records x) :=
    readAll_encode (by omega) (hlength x hx)
  simp [Payload.bytes?, hread]

/-- Nested messages are read back in order. -/
@[simp] theorem Fields.messages?_messages [Lossless α depth] {xs : List α}
    (hdepth : depth + 1 < levels) (h : Carried (messages i xs)) :
    messages? ⟨levels, messages i xs⟩ i = some xs := by
  have hlength := length_of_carried_messages h
  have hread (x : α) (hx : x ∈ xs) :
      Message.ofFields? ⟨levels - 1, Message.records x⟩ = some (id x) :=
    Lossless.ofFields?_records x (levels - 1) (by omega)
      ((Lossless.shaped x).carried (hlength x hx))
  rw [messages?, Fields.nested?_messages (by omega) h, Option.bind_eq_bind, Option.bind_some,
    List.mapM_map]
  exact (Outcome.mapM_eq_pure hread).trans (congrArg some xs.map_id)

/-- **A message is read back from its bytes**, if their number is a word. -/
theorem decode?_encode [Lossless α depth] {x : α} (hdepth : depth < Message.levels)
    (h : (Message.encode x).length < wordSize) : Message.decode? (Message.encode x) = some x := by
  rw [Message.decode?, readAll_encode (by omega) h, Option.bind_some]
  exact Lossless.ofFields?_records x _ hdepth ((Lossless.shaped x).carried h)

/-- Messages of the same bytes are the same. -/
theorem eq_of_encode_eq [Lossless α depth] {x y : α} (hdepth : depth < Message.levels)
    (h : (Message.encode x).length < wordSize) (hsame : Message.encode y = Message.encode x) :
    y = x := by
  have hy := decode?_encode (x := y) hdepth (by rw [hsame]; exact h)
  rw [hsame, decode?_encode hdepth h] at hy
  exact (Option.some.inj hy).symm

end Lossless

end Wire

end ChainKit
