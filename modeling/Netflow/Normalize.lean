import Netflow.Inet

/-!
# The normalized flow record

All four wire formats decode into one wide row. What the normalized columns cannot hold
is kept, in insertion order, in `rawFields`. Text columns follow the source: a diagnostic
is a string of notes joined by `;`.
-/

namespace Netflow

/-- The four export formats, as the version probe tells them apart. -/
inductive Version
  | v5 | v9 | v10 | sflow5
  deriving DecidableEq, Repr

/-- The text of a version in the `flowVersion` column. -/
def Version.asStr : Version → String
  | .v5 => "5"
  | .v9 => "9"
  | .v10 => "10"
  | .sflow5 => "sflow5"

/-- One normalized flow row; a column the source format did not carry is `none`. -/
structure FlowRecord where
  exporter : String := ""
  flowVersion : String := ""
  obsDomain : UInt32 := 0
  templateId : Option UInt16 := none
  exportTime : Option Int64 := none
  sequence : Option UInt64 := none
  srcAddr : Option InetVal := none
  dstAddr : Option InetVal := none
  srcPort : Option UInt16 := none
  dstPort : Option UInt16 := none
  protocol : Option UInt8 := none
  tcpFlags : Option UInt8 := none
  bytes : Option UInt64 := none
  packets : Option UInt64 := none
  flowStart : Option Int64 := none
  flowEnd : Option Int64 := none
  srcAs : Option UInt32 := none
  dstAs : Option UInt32 := none
  inputSnmp : Option UInt32 := none
  outputSnmp : Option UInt32 := none
  nextHop : Option InetVal := none
  tos : Option UInt8 := none
  srcMask : Option UInt8 := none
  dstMask : Option UInt8 := none
  samplingRate : Option UInt32 := none
  direction : Option UInt8 := none
  rawFields : List (String × Bytes) := []
  diagnostics : Option String := none
  deriving DecidableEq, Repr, Inhabited

/-- A header-only row, used for missing templates and decode errors. -/
def FlowRecord.diagnostic (exporter version : String) (obsDomain : UInt32)
    (exportTime : Option Int64) (sequence : Option UInt64) (diag : String) : FlowRecord :=
  { exporter, flowVersion := version, obsDomain, exportTime, sequence, diagnostics := some diag }

/-- Append a raw field, keeping insertion order. -/
def FlowRecord.putRaw (rec : FlowRecord) (name : String) (bytes : Bytes) : FlowRecord :=
  { rec with rawFields := rec.rawFields ++ [(name, bytes)] }

/-- Merge a diagnostic note, joining with `;` unless that note is already there. -/
def FlowRecord.note (rec : FlowRecord) (msg : String) : FlowRecord :=
  match rec.diagnostics with
  | some d =>
    if (d.toList.splitOn ';').any (· == msg.toList) then rec
    else { rec with diagnostics := some (d ++ ";" ++ msg) }
  | none => { rec with diagnostics := some msg }

/-- Big-endian unsigned read of the first eight bytes at most. -/
def beUint (bytes : Bytes) : UInt64 :=
  (bytes.take 8).foldl (fun value byte => (value <<< 8) ||| byte.toUInt64) 0

/-- One byte more multiplies the value so far by 256, in 64 bits. -/
theorem shiftIn_toNat (value : UInt64) (byte : UInt8) :
    ((value <<< 8) ||| byte.toUInt64).toNat = (value.toNat * 256 + byte.toNat) % 2 ^ 64 := by
  have hor := Nat.two_pow_add_eq_or_of_lt byte.toNat_lt (value.toNat % 2 ^ 56)
  have hshift : value.toNat * 2 ^ 8 % 2 ^ 64 = 2 ^ 8 * (value.toNat % 2 ^ 56) := by omega
  have hwidth : (8 : UInt64).toNat % 64 = 8 := rfl
  have hbyte := byte.toNat_lt
  rw [UInt64.toNat_or, UInt64.toNat_shiftLeft, UInt8.toNat_toUInt64, hwidth, Nat.shiftLeft_eq, hshift, ← hor]
  omega

/-- The value read is the number in the leading eight bytes. -/
theorem beUint_toNat (bytes : Bytes) : (beUint bytes).toNat = beNat (bytes.take 8) := by
  have hfold : ∀ bytes : Bytes, (bytes.foldl (fun (value : UInt64) (byte : UInt8) =>
      (value <<< 8) ||| byte.toUInt64) 0).toNat = beNat bytes % 2 ^ 64 := by
    intro bytes
    induction bytes using List.reverseRecOn with
    | nil => rfl
    | append_singleton bytes last ih =>
      rw [beNat, List.foldl_append, List.foldl_append, ← beNat]
      simp only [List.foldl_cons, List.foldl_nil, shiftIn_toNat, ih]
      omega
  have hlt : beNat (bytes.take 8) < 2 ^ 64 := by
    calc beNat (bytes.take 8)
        < 256 ^ (bytes.take 8).length := beNat_lt _
      _ ≤ 256 ^ 8 := Nat.pow_le_pow_right (by omega) (List.length_take_le _ _)
  rw [beUint, hfold, Nat.mod_eq_of_lt hlt]

/-- A value of at most eight bytes is read as its number. -/
theorem beUint_of_length_le {bytes : Bytes} (h : bytes.length ≤ 8) : beUint bytes = .ofNat (beNat bytes) := by
  rw [← UInt64.toNat_inj, beUint_toNat, List.take_of_length_le h, UInt64.toNat_ofNat_of_lt']
  calc beNat bytes
      < 256 ^ bytes.length := beNat_lt _
    _ ≤ 256 ^ 8 := Nat.pow_le_pow_right (by omega) h

end Netflow
