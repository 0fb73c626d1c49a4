import Mathlib.Data.List.Basic
import Mathlib.Tactic.Common

/-!
# Protocol-buffer messages of length-delimited fields

A message is written as a sequence of records, each a field number, a length and that many bytes.
Reading takes the records one by one into the message read so far: a singular field replaces or
merges, a repeated one appends. So the concatenation of two encodings is read as the second merged
into the first. A `Slot` is one field and a `Message` a whole message; both carry this law in their
values, and the combinators below derive it for messages built from slots.

Only strings, submessages and repetitions of them are covered; a record of another wire type is
refused. Varints are unbounded: every length written is the length of a list.
-/

namespace CtrlMesh.Lib.Wire

/-- A byte string. -/
abbrev Bytes := List UInt8

/-- A record: a field number and its payload. -/
abbrev Record := Nat × Bytes

/-- Base-128 digits, least significant first, all but the last with the continuation bit. The fuel
bounds the number of digits. -/
def varintDigits : Nat → Nat → Bytes
  | 0, n => [UInt8.ofNat (n % 128)]
  | fuel + 1, n =>
    if n < 128 then [UInt8.ofNat n]
    else UInt8.ofNat (n % 128 + 128) :: varintDigits fuel (n / 128)

/-- A number in base 128. -/
def encodeVarint (n : Nat) : Bytes := varintDigits n n

/-- Read a number off the front. -/
def decodeVarint : Bytes → Option (Nat × Bytes)
  | [] => none
  | digit :: rest =>
    if digit.toNat < 128 then some (digit.toNat, rest)
    else do
      let (high, rest) ← decodeVarint rest
      some (digit.toNat - 128 + 128 * high, rest)

/-- The digits of a number are read back. -/
theorem decodeVarint_digits (fuel n : Nat) (enough : n ≤ fuel) (rest : Bytes) :
    decodeVarint (varintDigits fuel n ++ rest) = some (n, rest) := by
  induction fuel generalizing n with
  | zero =>
    have zero : n = 0 := by omega
    subst zero
    rfl
  | succ fuel ih =>
    by_cases small : n < 128
    · have digit : (UInt8.ofNat n).toNat = n := by
        rw [UInt8.toNat_ofNat']
        omega
      simp [varintDigits, small, decodeVarint, digit]
    · have digit : (UInt8.ofNat (n % 128 + 128)).toNat = n % 128 + 128 := by
        rw [UInt8.toNat_ofNat']
        omega
      have more : ¬(n % 128 + 128 < 128) := by omega
      simp only [varintDigits, small, if_false, List.cons_append, decodeVarint, digit, more]
      rw [ih (n / 128) (by omega)]
      have value : n % 128 + 128 - 128 + 128 * (n / 128) = n := by omega
      simp only [Option.bind_eq_bind, Option.bind_some, value]

/-- A number is read back. -/
theorem decodeVarint_encode (n : Nat) (rest : Bytes) :
    decodeVarint (encodeVarint n ++ rest) = some (n, rest) :=
  decodeVarint_digits n n (Nat.le_refl _) rest

/-- Tag (field number and wire type 2), length, payload. -/
def encodeRecord (record : Record) : Bytes :=
  encodeVarint (record.1 * 8 + 2) ++ (encodeVarint record.2.length ++ record.2)

/-- Read a record off the front. -/
def decodeRecord (bytes : Bytes) : Option (Record × Bytes) := do
  let (tag, rest) ← decodeVarint bytes
  let (length, rest) ← decodeVarint rest
  if tag % 8 = 2 ∧ length ≤ rest.length then
    some ((tag / 8, rest.take length), rest.drop length)
  else none

/-- A record is read back. -/
theorem decodeRecord_encode (record : Record) (rest : Bytes) :
    decodeRecord (encodeRecord record ++ rest) = some (record, rest) := by
  have wire : (record.1 * 8 + 2) % 8 = 2 := by omega
  have number : (record.1 * 8 + 2) / 8 = record.1 := by omega
  have fits : record.2.length ≤ (record.2 ++ rest).length := by
    rw [List.length_append]
    omega
  rw [encodeRecord, List.append_assoc, List.append_assoc]
  simp only [decodeRecord, decodeVarint_encode, Option.bind_eq_bind, Option.bind_some, wire, fits,
    and_self, if_true, number, List.take_left, List.drop_left]

/-- A record has some byte. -/
theorem encodeRecord_ne_nil (record : Record) : encodeRecord record ≠ [] := by
  intro empty
  have decoded := decodeRecord_encode record []
  rw [empty] at decoded
  cases decoded

/-- All records of an input; every record takes at least one byte of it. -/
def decodeRecordsFuel : Nat → Bytes → Option (List Record)
  | _, [] => some []
  | 0, _ :: _ => none
  | fuel + 1, byte :: bytes => do
    let (record, rest) ← decodeRecord (byte :: bytes)
    let records ← decodeRecordsFuel fuel rest
    some (record :: records)

/-- All records of a message. -/
def decodeRecords (bytes : Bytes) : Option (List Record) := decodeRecordsFuel bytes.length bytes

variable {records : List Record}

/-- Records are read back with enough fuel. -/
theorem decodeRecordsFuel_encode (fuel : Nat)
    (enough : (records.flatMap encodeRecord).length ≤ fuel) :
    decodeRecordsFuel fuel (records.flatMap encodeRecord) = some records := by
  induction records generalizing fuel with
  | nil => cases fuel <;> rfl
  | cons record records ih =>
    have decoded := decodeRecord_encode record (records.flatMap encodeRecord)
    rw [List.flatMap_cons] at enough ⊢
    cases head : encodeRecord record with
    | nil => exact absurd head (encodeRecord_ne_nil record)
    | cons byte bytes =>
      rw [head] at enough decoded
      simp only [List.cons_append, List.length_cons, List.length_append] at enough decoded ⊢
      cases fuel with
      | zero => omega
      | succ fuel => simp [decodeRecordsFuel, decoded, ih fuel (by omega)]

/-- Records are read back. -/
theorem decodeRecords_encode : decodeRecords (records.flatMap encodeRecord) = some records :=
  decodeRecordsFuel_encode _ (Nat.le_refl _)

variable {α β : Type}

/-- The contents of one field: the payloads it is written as, in order, and what reading one more
payload makes of it. -/
structure Slot (α : Type) where
  empty : α
  payloads : α → List Bytes
  absorb : α → Bytes → Option α
  merge : α → α → α
  absorb_payloads : ∀ into value, (payloads value).foldlM absorb into = some (merge into value)
  merge_empty : ∀ value, merge empty value = value
  silent : ∀ value, payloads value = [] ↔ value = empty

/-- A message: the records it is written as and what reading one more record makes of it. -/
structure Message (α : Type) where
  empty : α
  numbers : List Nat
  records : α → List Record
  absorb : α → Record → Option α
  merge : α → α → α
  numbered : ∀ value, ∀ record ∈ records value, record.1 ∈ numbers
  absorb_records : ∀ into value, (records value).foldlM absorb into = some (merge into value)
  merge_empty : ∀ value, merge empty value = value
  silent : ∀ value, records value = [] ↔ value = empty

namespace Message

/-- `proto.Marshal`. -/
def marshal (message : Message α) (value : α) : Bytes :=
  (message.records value).flatMap encodeRecord

/-- Reading an input into a message, as the payload of a submessage is read. -/
def unmarshalInto (message : Message α) (into : α) (bytes : Bytes) : Option α := do
  (← decodeRecords bytes).foldlM message.absorb into

/-- `proto.Unmarshal` into a new message. -/
def unmarshal (message : Message α) (bytes : Bytes) : Option α :=
  message.unmarshalInto message.empty bytes

variable {into value : α} {message : Message α}

/-- An encoding is merged into the message so far. -/
theorem unmarshalInto_marshal (message : Message α) :
    message.unmarshalInto into (message.marshal value) = some (message.merge into value) := by
  simp only [unmarshalInto, marshal, decodeRecords_encode, Option.bind_eq_bind, Option.bind_some,
    message.absorb_records]

/-- A message reads back as it was written. -/
theorem unmarshal_marshal (message : Message α) (value : α) :
    message.unmarshal (message.marshal value) = some value := by
  rw [unmarshal, unmarshalInto_marshal, message.merge_empty]

/-- Only the empty message has no bytes. -/
theorem marshal_eq_nil : message.marshal value = [] ↔ value = message.empty := by
  rw [← message.silent, marshal, List.flatMap_eq_nil_iff]
  constructor
  · intro empty
    rw [List.eq_nil_iff_forall_not_mem]
    exact fun record member => encodeRecord_ne_nil record (empty record member)
  · intro empty
    simp [empty]

/-- Encodings in a row are merged in their order. -/
theorem absorb_all (message : Message α) (values : List α) :
    (values.flatMap message.records).foldlM message.absorb into =
      some (values.foldl message.merge into) := by
  induction values generalizing into with
  | nil => rfl
  | cons value values ih =>
    rw [List.flatMap_cons, List.foldlM_append, message.absorb_records, Option.bind_eq_bind,
      Option.bind_some, ih]
    rfl

/-- The encodings of several messages, one after another, are read as their merge. -/
theorem unmarshal_concat (message : Message α) (values : List α) :
    message.unmarshal (values.flatMap message.marshal) =
      some (values.foldl message.merge message.empty) := by
  have bytes : values.flatMap message.marshal =
      (values.flatMap message.records).flatMap encodeRecord := by
    rw [List.flatMap_assoc]
    rfl
  simp only [unmarshal, unmarshalInto, bytes, decodeRecords_encode, Option.bind_eq_bind,
    Option.bind_some, message.absorb_all]

/-- The message without fields. -/
def nil : Message Unit where
  empty := ()
  numbers := []
  records _ := []
  absorb _ _ := some ()
  merge _ _ := ()
  numbered := by simp
  absorb_records _ _ := rfl
  merge_empty _ := rfl
  silent _ := by simp

section Cons

variable (n : Nat) (slot : Slot α) (rest : Message β)

/-- Reading a record of field `n`, or of one of the other fields. -/
def consAbsorb (into : α × β) (record : Record) : Option (α × β) :=
  if record.1 = n then (slot.absorb into.1 record.2).map (·, into.2)
  else (rest.absorb into.2 record).map (into.1, ·)

/-- Records of the first field go to its slot. -/
theorem foldlM_consAbsorb_slot (payloads : List Bytes) (into : α × β) :
    (payloads.map (n, ·)).foldlM (consAbsorb n slot rest) into =
      (payloads.foldlM slot.absorb into.1).map (·, into.2) := by
  induction payloads generalizing into with
  | nil => rfl
  | cons payload payloads ih =>
    simp only [List.map_cons, List.foldlM_cons, consAbsorb, if_true]
    cases slot.absorb into.1 payload with
    | none => rfl
    | some read => exact ih (read, into.2)

/-- Records of other fields go to the rest. -/
theorem foldlM_consAbsorb_rest (other : ∀ record ∈ records, record.1 ≠ n) (into : α × β) :
    records.foldlM (consAbsorb n slot rest) into =
      (records.foldlM rest.absorb into.2).map (into.1, ·) := by
  induction records generalizing into with
  | nil => rfl
  | cons record records ih =>
    have head : record.1 ≠ n := other record List.mem_cons_self
    simp only [List.foldlM_cons, consAbsorb, head, if_false]
    cases rest.absorb into.2 record with
    | none => rfl
    | some read => exact ih (fun r member => other r (List.mem_cons_of_mem _ member)) (into.1, read)

/-- A message with one more field in front. -/
def cons (fresh : n ∉ rest.numbers) : Message (α × β) where
  empty := (slot.empty, rest.empty)
  numbers := n :: rest.numbers
  records value := (slot.payloads value.1).map (n, ·) ++ rest.records value.2
  absorb := consAbsorb n slot rest
  merge into value := (slot.merge into.1 value.1, rest.merge into.2 value.2)
  numbered value record member := by
    rcases List.mem_append.mp member with first | later
    · obtain ⟨payload, -, rfl⟩ := List.mem_map.mp first
      exact List.mem_cons_self
    · exact List.mem_cons_of_mem _ (rest.numbered _ _ later)
  absorb_records into value := by
    have other : ∀ record ∈ rest.records value.2, record.1 ≠ n := by
      rintro record member rfl
      exact fresh (rest.numbered _ _ member)
    rw [List.foldlM_append, foldlM_consAbsorb_slot, slot.absorb_payloads]
    simp only [Option.map_some, Option.bind_eq_bind, Option.bind_some]
    rw [foldlM_consAbsorb_rest n slot rest other, rest.absorb_records]
    rfl
  merge_empty value := by simp [slot.merge_empty, rest.merge_empty]
  silent value := by
    rw [List.append_eq_nil_iff, List.map_eq_nil_iff, slot.silent, rest.silent, Prod.ext_iff]

end Cons

/-- Reading under another type. -/
theorem foldlM_iso (message : Message α) {pack : α → β} {unpack : β → α}
    (right : ∀ a, unpack (pack a) = a) (records : List Record) (into : α) :
    records.foldlM (fun into record => (message.absorb (unpack into) record).map pack) (pack into) =
      (records.foldlM message.absorb into).map pack := by
  induction records generalizing into with
  | nil => rfl
  | cons record records ih =>
    simp only [List.foldlM_cons, right]
    cases message.absorb into record with
    | none => rfl
    | some read => exact ih read

/-- The same message under another type. -/
def iso (message : Message α) (pack : α → β) (unpack : β → α) (left : ∀ b, pack (unpack b) = b)
    (right : ∀ a, unpack (pack a) = a) : Message β where
  empty := pack message.empty
  numbers := message.numbers
  records value := message.records (unpack value)
  absorb into record := (message.absorb (unpack into) record).map pack
  merge into value := pack (message.merge (unpack into) (unpack value))
  numbered value := message.numbered (unpack value)
  absorb_records into value := by
    have read := message.foldlM_iso right (message.records (unpack value)) (unpack into)
    rw [left, message.absorb_records] at read
    exact read
  merge_empty value := by rw [right, message.merge_empty, left]
  silent value := by
    rw [message.silent]
    exact ⟨fun same => by rw [← left value, same], fun same => by rw [same, right]⟩

end Message

namespace Slot

/-- The bytes of a string. -/
def utf8 (s : String) : Bytes := s.toByteArray.data.toList

/-- The string with the given bytes; other inputs are refused. -/
def ofUtf8 (bytes : Bytes) : Option String := String.fromUTF8? ⟨bytes.toArray⟩

/-- A string is read back. -/
theorem ofUtf8_utf8 (s : String) : ofUtf8 (utf8 s) = some s := by
  have bytes : (⟨(utf8 s).toArray⟩ : ByteArray) = s.toByteArray := by simp [utf8]
  rw [ofUtf8, bytes, String.fromUTF8?, dif_pos s.isValidUTF8]
  rfl

/-- A singular string; the empty one is not written, and the last one read stays. -/
def string : Slot String where
  empty := ""
  payloads s := if s = "" then [] else [utf8 s]
  absorb _ bytes := ofUtf8 bytes
  merge into s := if s = "" then into else s
  absorb_payloads into s := by
    by_cases unset : s = ""
    · simp [unset]
    · simp [unset, ofUtf8_utf8]
  merge_empty s := by
    by_cases unset : s = "" <;> simp [unset]
  silent s := by
    by_cases unset : s = "" <;> simp [unset]

/-- Values that are appended one by one. -/
theorem foldlM_appending {absorb : List α → Bytes → Option (List α)} {encode : α → Bytes}
    (appends : ∀ into value, absorb into (encode value) = some (into ++ [value]))
    {values into : List α} : (values.map encode).foldlM absorb into = some (into ++ values) := by
  induction values generalizing into with
  | nil => simp
  | cons value values ih => simp [appends, ih]

/-- A repeated field; each payload is one more element. -/
def repeated (encode : α → Bytes) (decode : Bytes → Option α)
    (roundTrip : ∀ value, decode (encode value) = some value) : Slot (List α) where
  empty := []
  payloads values := values.map encode
  absorb into bytes := (decode bytes).map fun value => into ++ [value]
  merge into values := into ++ values
  absorb_payloads into values :=
    foldlM_appending (fun into value => by simp [roundTrip])
  merge_empty _ := rfl
  silent _ := List.map_eq_nil_iff

/-- A repeated string field. -/
def strings : Slot (List String) := repeated utf8 ofUtf8 ofUtf8_utf8

/-- A repeated message field. -/
def messages (message : Message α) : Slot (List α) :=
  repeated message.marshal message.unmarshal message.unmarshal_marshal

/-- A singular submessage; another one read is merged into it. -/
def submessage (message : Message α) : Slot (Option α) where
  empty := none
  payloads value := value.toList.map message.marshal
  absorb into bytes := (message.unmarshalInto (into.getD message.empty) bytes).map some
  merge into
    | none => into
    | some value => some (message.merge (into.getD message.empty) value)
  absorb_payloads into value := by
    cases value with
    | none => rfl
    | some value => simp [message.unmarshalInto_marshal]
  merge_empty value := by
    cases value with
    | none => rfl
    | some value => simp [message.merge_empty]
  silent value := by cases value <;> simp

end Slot

end CtrlMesh.Lib.Wire
