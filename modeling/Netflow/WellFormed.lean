import Netflow.Decode.Header

/-!
# Structural validation

`wellFormed` checks the frame of a datagram without decoding it: the header, the declared
record count of v5 and the Set lengths of v9 and IPFIX. It walks the Sets on its own, apart
from the decoders.
-/

namespace Netflow

/-- The result of `wellFormed`. -/
structure WellFormed where
  ok : Bool
  /-- The version text, or `none` for an unrecognized datagram. -/
  version : Option String
  error : Option String
  /-- The kind of the defect, or `none` when `ok`. -/
  kind : Option String
  deriving DecidableEq, Repr

/-- A datagram without a defect. -/
def WellFormed.okFor (version : Version) : WellFormed := ⟨true, some version.asStr, none, none⟩

/-- A datagram with a defect. -/
def WellFormed.bad (version : Option Version) (error kind : String) : WellFormed :=
  ⟨false, version.map Version.asStr, some error, some kind⟩

/-- Check that the records a v5 header declares are there. -/
def validateV5 (data : Bytes) : WellFormed :=
  if data.length < 24 then .bad (some .v5) "datagram shorter than v5 header" "truncated"
  else match parseHeader data with
    | none => .bad (some .v5) "v5 header parse failed" "truncated"
    | some hdr =>
      let count := (hdr.count.getD 0).toNat
      let need := 24 + count * 48
      if data.length < need then
        .bad (some .v5) "declared record count exceeds datagram length" "short-record"
      else .okFor .v5

/-- Walk the Sets of a region, for at most the given number of rounds, checking each declared
length. The walk goes on until the region is empty. -/
def validateSets (version : Version) (overrunKind : String) : ℕ → Bytes → WellFormed
  | 0, _ => .okFor version
  | rounds + 1, region =>
    if region.isEmpty then .okFor version
    else if region.length < 4 then
      .bad (some version) "trailing bytes shorter than a set header" "truncated"
    else
      let length := beNat ((region.drop 2).take 2)
      if length < 4 then .bad (some version) "set length below the 4-byte minimum" overrunKind
      else if length > region.length then
        .bad (some version) "set length exceeds remaining datagram" overrunKind
      else validateSets version overrunKind rounds (region.drop length)

/-- Check the header and the FlowSets of a v9 datagram. -/
def validateV9 (data : Bytes) : WellFormed :=
  if data.length < 20 then .bad (some .v9) "datagram shorter than v9 header" "truncated"
  else
    let region := data.drop 20
    validateSets .v9 "set-length-overrun" region.length region

/-- Check the header and the Sets of an IPFIX message, as far as its declared length goes. -/
def validateIpfix (data : Bytes) : WellFormed :=
  if data.length < 16 then .bad (some .v10) "datagram shorter than IPFIX header" "truncated"
  else
    let declared := beNat ((data.drop 2).take 2)
    if declared < 16 ∨ declared > data.length then
      .bad (some .v10) "IPFIX header length out of range" "bad-ipfix-set"
    else
      let region := (data.take declared).drop 16
      validateSets .v10 "bad-ipfix-set" region.length region

/-- Check that an sFlow header is all there. -/
def validateSflow (data : Bytes) : WellFormed :=
  let header : Option Unit := do
    let (_version, c) ← (Cursor.new data).u32
    let (addrType, c) ← c.u32
    let c ← if addrType = 1 then some (c.skip 4).2
      else if addrType = 2 then some (c.skip 16).2
      else none
    let (_subAgentId, c) ← c.u32
    let (_sequence, c) ← c.u32
    let (_uptime, c) ← c.u32
    let (_numSamples, _) ← c.u32
    some ()
  match header with
  | some () => .okFor .sflow5
  | none => .bad (some .sflow5) "sFlow header truncated" "truncated"

/-- Validate the structure of a datagram. -/
def wellFormed (data : Bytes) : WellFormed :=
  match probeVersion data with
  | none => .bad none "leading bytes match no known flow header" "not-a-flow-datagram"
  | some .v5 => validateV5 data
  | some .v9 => validateV9 data
  | some .v10 => validateIpfix data
  | some .sflow5 => validateSflow data

/-- Either there is no defect and no kind of one, or there is a kind. -/
def WellFormed.Consistent (w : WellFormed) : Prop := w.ok = true ↔ w.kind = none

/-- The verdict on a sound datagram is consistent. -/
theorem WellFormed.okFor_consistent (version : Version) : (okFor version).Consistent := by
  simp [Consistent, okFor]

/-- The verdict on a defect is consistent. -/
theorem WellFormed.bad_consistent (version : Option Version) (error kind : String) :
    (bad version error kind).Consistent := by
  simp [Consistent, bad]

/-- A walk over Sets ends with a consistent verdict. -/
theorem validateSets_consistent (version : Version) (overrunKind : String) (rounds : ℕ) (region : Bytes) :
    (validateSets version overrunKind rounds region).Consistent := by
  induction rounds generalizing region with
  | zero => exact WellFormed.okFor_consistent _
  | succ rounds ih =>
    simp only [validateSets]
    split
    · exact WellFormed.okFor_consistent _
    · split
      · exact WellFormed.bad_consistent ..
      · split
        · exact WellFormed.bad_consistent ..
        · split
          · exact WellFormed.bad_consistent ..
          · exact ih _

/-- Every verdict is consistent: a datagram without a defect has no kind of one. -/
theorem wellFormed_consistent (data : Bytes) : (wellFormed data).Consistent := by
  unfold wellFormed
  split
  · exact WellFormed.bad_consistent ..
  · simp only [validateV5]
    split
    · exact WellFormed.bad_consistent ..
    · split
      · exact WellFormed.bad_consistent ..
      · split
        · exact WellFormed.bad_consistent ..
        · exact WellFormed.okFor_consistent _
  · simp only [validateV9]
    split
    · exact WellFormed.bad_consistent ..
    · exact validateSets_consistent ..
  · simp only [validateIpfix]
    split
    · exact WellFormed.bad_consistent ..
    · split
      · exact WellFormed.bad_consistent ..
      · exact validateSets_consistent ..
  · simp only [validateSflow]
    split
    · exact WellFormed.okFor_consistent _
    · exact WellFormed.bad_consistent ..

end Netflow
