import Netflow.Cache
import Mathlib.Data.Countable.Basic
import Mathlib.Logic.Equiv.List
import Mathlib.Tactic.DeriveCountable

/-!
# Serialized text

The JSON text of a serialized cache, as its derived serializer writes it, and lawful
serializers that write this text for the forms a concrete run meets. For all other forms
such a serializer uses some unambiguous code, which is all that the laws ask of it.
-/

namespace Netflow

namespace Json

/-- A character inside a JSON string. -/
def escape (c : Char) : String :=
  if c.toNat = 34 then "\\\""
  else if c.toNat = 92 then "\\\\"
  else if c.toNat = 8 then "\\b"
  else if c.toNat = 12 then "\\f"
  else if c.toNat = 10 then "\\n"
  else if c.toNat = 13 then "\\r"
  else if c.toNat = 9 then "\\t"
  else if c.toNat < 32 then
    "\\u00" ++ (if c.toNat < 16 then "0" else "1") ++ (Nat.digitChar (c.toNat % 16)).toString
  else c.toString

/-- A JSON string. -/
def string (s : String) : String := "\"" ++ String.join (s.toList.map escape) ++ "\""

/-- A JSON array. -/
def array {A : Type} (item : A → String) (items : List A) : String :=
  "[" ++ ",".intercalate (items.map item) ++ "]"

/-- A JSON object with its members in declaration order. -/
def object (members : List (String × String)) : String :=
  "\x7b" ++ ",".intercalate (members.map fun (name, value) => string name ++ ":" ++ value) ++ "\x7d"

/-- An optional value. -/
def option {A : Type} (item : A → String) : Option A → String
  | some a => item a
  | none => "null"

/-- A pair. -/
def pair {A B : Type} (first : A → String) (second : B → String) : A × B → String
  | (a, b) => "[" ++ first a ++ "," ++ second b ++ "]"

end Json

/-- The label of an abstract data type. -/
def IeType.asStr : IeType → String
  | unsigned8 => "unsigned8"
  | unsigned16 => "unsigned16"
  | unsigned32 => "unsigned32"
  | unsigned64 => "unsigned64"
  | signed32 => "signed32"
  | signed64 => "signed64"
  | float64 => "float64"
  | boolean => "boolean"
  | macAddress => "macAddress"
  | ipv4Address => "ipv4Address"
  | ipv6Address => "ipv6Address"
  | dateTimeSeconds => "dateTimeSeconds"
  | dateTimeMilliseconds => "dateTimeMilliseconds"
  | dateTimeMicroseconds => "dateTimeMicroseconds"
  | dateTimeNanoseconds => "dateTimeNanoseconds"
  | string => "string"
  | octetArray => "octetArray"

section Text

open Json

/-- A key as JSON. -/
def TemplateKey.json (key : TemplateKey) : String :=
  object [("exporter", string key.exporter), ("obs_domain", toString key.obsDomain),
    ("template_id", toString key.templateId)]

/-- A field specifier as JSON. -/
def FieldSpec.json (f : FieldSpec) : String :=
  object [("ie_id", toString f.ieId), ("enterprise_number", toString f.enterpriseNumber),
    ("length", toString f.length), ("name", string f.name), ("ie_type", string f.ieType.asStr)]

/-- A cached layout as JSON. -/
def TemplateEntry.json (e : TemplateEntry) : String :=
  object [("kind", string (match e.kind with | .data => "Data" | .options => "Options")),
    ("fields", array FieldSpec.json e.fields), ("scope_field_count", toString e.scopeFieldCount),
    ("first_seen", toString e.firstSeen), ("last_seen", toString e.lastSeen),
    ("use_count", toString e.useCount)]

/-- A buffered record as JSON. -/
def PendingRecord.json (rec : PendingRecord) : String :=
  object [("export_time", option toString rec.exportTime), ("sequence", option toString rec.sequence),
    ("version", string rec.version.asStr), ("sys_uptime_ms", option toString rec.sysUptimeMs),
    ("bytes", array toString rec.bytes)]

/-- A serialized cache as JSON. -/
def CacheDto.json (dto : CacheDto) : String :=
  object [("entries", array (pair TemplateKey.json TemplateEntry.json) dto.entries),
    ("pending", array (pair TemplateKey.json (array PendingRecord.json)) dto.pending),
    ("cap_entries", toString dto.capEntries), ("cap_pending_bytes", toString dto.capPendingBytes)]

end Text

section Countable

instance countableUInt8 : Countable UInt8 :=
  Function.Injective.countable (f := UInt8.toNat) fun _ _ => UInt8.toNat_inj.mp

instance countableUInt16 : Countable UInt16 :=
  Function.Injective.countable (f := UInt16.toNat) fun _ _ => UInt16.toNat_inj.mp

instance countableUInt32 : Countable UInt32 :=
  Function.Injective.countable (f := UInt32.toNat) fun _ _ => UInt32.toNat_inj.mp

instance countableUInt64 : Countable UInt64 :=
  Function.Injective.countable (f := UInt64.toNat) fun _ _ => UInt64.toNat_inj.mp

instance countableInt64 : Countable Int64 :=
  Function.Injective.countable (f := Int64.toInt) fun _ _ => Int64.toInt_inj.mp

instance countableChar : Countable Char :=
  Function.Injective.countable (f := Char.toNat) fun _ _ => Char.toNat_inj.mp

instance countableString : Countable String :=
  Function.Injective.countable (f := String.toList) fun _ _ => String.toList_inj.mp

deriving instance Countable for IeType, TemplateKind, FieldSpec, TemplateKey, TemplateEntry, Version,
  PendingRecord, CacheDto

end Countable

namespace SerdeJson

/-- The bytes a serializer for the listed forms writes. A code for an unlisted form is a run of
zero bytes, which no JSON text contains. -/
noncomputable def bytesFor (dtos : List CacheDto) (dto : CacheDto) : Bytes :=
  if dto ∈ dtos then dto.json.toByteArray.data.toList
  else List.replicate ((exists_injective_nat CacheDto).choose dto + 1) 0

open scoped Classical in
/-- A serializer that writes JSON for the listed forms and reads back whatever it writes. -/
noncomputable def writing (dtos : List CacheDto) : SerdeJson where
  toVec dto := some (bytesFor dtos dto)
  fromSlice bytes := if h : ∃ dto, bytesFor dtos dto = bytes then some h.choose else none

variable {dtos : List CacheDto}

/-- A JSON text starts with a brace. -/
theorem json_head (dto : CacheDto) : ∃ rest, dto.json.toByteArray.data.toList = 0x7b :: rest := by
  have hbrace : "\x7b".toByteArray.data.toList = [0x7b] := by decide
  simp only [CacheDto.json, Json.object, String.append_assoc, String.toByteArray_append,
    ByteArray.data_append, Array.toList_append, hbrace, List.singleton_append]
  exact ⟨_, rfl⟩

/-- What is written is never empty. -/
theorem bytesFor_ne_nil (dto : CacheDto) : bytesFor dtos dto ≠ [] := by
  unfold bytesFor
  split
  · obtain ⟨rest, h⟩ := json_head dto
    rw [h]
    exact List.cons_ne_nil _ _
  · simp

/-- Different forms are written differently when the listed texts differ. -/
theorem bytesFor_injective (hdistinct : ∀ a ∈ dtos, ∀ b ∈ dtos, a.json = b.json → a = b) :
    Function.Injective (bytesFor dtos) := by
  intro a b hab
  obtain ⟨resta, ha⟩ := json_head a
  obtain ⟨restb, hb⟩ := json_head b
  unfold bytesFor at hab
  split at hab <;> split at hab
  · rename_i hmema hmemb
    refine hdistinct a hmema b hmemb ?_
    exact String.toByteArray_inj.mp (ByteArray.ext (Array.toList_inj.mp hab))
  · rw [ha, List.replicate_succ] at hab
    exact absurd (List.cons.inj hab).1 (by decide)
  · rw [hb, List.replicate_succ] at hab
    exact absurd (List.cons.inj hab).1 (by decide)
  · have hlen := congrArg List.length hab
    simp only [List.length_replicate, Nat.add_right_cancel_iff] at hlen
    exact (exists_injective_nat CacheDto).choose_spec hlen

/-- Writing distinct texts is lawful. -/
theorem writing_lawful (hdistinct : ∀ a ∈ dtos, ∀ b ∈ dtos, a.json = b.json → a = b) :
    (writing dtos).Lawful where
  roundTrip dto := by
    have h : ∃ dto', bytesFor dtos dto' = bytesFor dtos dto := ⟨dto, rfl⟩
    refine ⟨bytesFor dtos dto, rfl, ?_⟩
    refine (dif_pos h).trans ?_
    rw [bytesFor_injective hdistinct h.choose_spec]
  fromSlice_nil := dif_neg fun ⟨dto, h⟩ => bytesFor_ne_nil dto h

end SerdeJson

end Netflow
