import Mathlib.Data.Nat.ModEq
import Netflow.Decode.Writes
import Netflow.Encode

/-!
# Which templates lose no value

A row tells all the bytes of a record exactly if each field of the template is kept: it goes
to the raw fields, or it has a fixed length that fits its column, the column holds it in the
end and the column reaches the row. In every other template two records that differ in a
single field are normalized to the same row.
-/

namespace Netflow

open Register (Write Kind)

section Definitions

/-- Whether a column tells apart the values of an element of the given length that it writes. -/
def Column.Fits (id length : ℕ) : Column → Prop
  | .srcAddr | .dstAddr | .nextHop => True
  | .protocol | .tos | .tcpFlags | .srcMask | .dstMask | .direction => length ≤ 1
  | .srcPort | .dstPort => length ≤ 2
  | .inputSnmp | .outputSnmp | .srcAs | .dstAs | .samplingRate | .startSysup | .endSysup => length ≤ 4
  | .bytes | .packets => length ≤ 8
  | .flowStart | .flowEnd => (id = 150 ∨ id = 151 ∨ id = 152 ∨ id = 153) ∧ length ≤ 7

/-- The flow time that an uptime stamp stands for. -/
def Column.time? : Column → Option Column
  | .startSysup => some .flowStart
  | .endSysup => some .flowEnd
  | _ => none

/-- Whether a column reaches the row. An uptime stamp does where the header has both times and no flow
time element writes the time it stands for. -/
def Column.Reaches (ctx : Ctx) (fields : List FieldSpec) (col : Column) : Prop :=
  ∀ time, col.time? = some time → (ctx.exportTime.isSome ∧ ctx.sysUptimeMs.isSome) ∧
    ∀ kind ∈ columnKinds time fields, kind = .skip

/-- Whether the row tells the bytes of a field between others: it is kept raw, or it has no bytes, or its
column tells its values apart, shows it in the end and reaches the row. -/
def FieldSpec.Kept (ctx : Ctx) (before : List FieldSpec) (f : FieldSpec) (after : List FieldSpec) : Prop :=
  ∀ col, f.column = some col → ¬ f.isVariable ∧
    (f.length.toNat = 0 ∨
      col.Fits f.ieId.toNat f.length.toNat ∧
      (columnKind f.ieId.toNat f.length.toNat col).Shows (columnKinds col before) (columnKinds col after) ∧
      col.Reaches ctx (before ++ f :: after))

end Definitions

section Values

/-- A zero value of the given length. -/
abbrev zeros (length : ℕ) : Bytes := List.replicate length 0

/-- A value of the given length with only its highest bits set. -/
abbrev leading (length : ℕ) : Bytes := 32 :: zeros (length - 1)

/-- A value of the given length with only its lowest bit set. -/
abbrev trailing (length : ℕ) : Bytes := zeros (length - 1) ++ [1]

/-- A zero value is zero. -/
theorem beNat_zeros (length : ℕ) : beNat (zeros length) = 0 := by
  induction length with
  | zero => rfl
  | succ length ih => rw [zeros, List.replicate_succ, beNat_cons, ih, UInt8.toNat_zero, Nat.zero_mul]

/-- A zero value reads as zero. -/
theorem beUint_zeros (length : ℕ) : beUint (zeros length) = 0 := by
  rw [← UInt64.toNat_inj, beUint_toNat, zeros, List.take_replicate, ← zeros, beNat_zeros]
  rfl

/-- The highest bits of a value are those of the leading eight bytes. -/
theorem beUint_leading (length : ℕ) :
    (beUint (leading length)).toNat = 32 * 256 ^ min 7 (length - 1) := by
  rw [beUint_toNat, leading, List.take_succ_cons, zeros, List.take_replicate, beNat_cons, ← zeros, beNat_zeros,
    List.length_replicate, add_zero]
  rfl

/-- A value of more than eight bytes reads without its last. -/
theorem beUint_trailing {length : ℕ} (h : 8 < length) : beUint (trailing length) = 0 := by
  rw [← beUint_zeros 8, beUint, beUint, trailing, List.take_append_of_le_length (by simp; omega), zeros,
    List.take_replicate, List.take_replicate, min_eq_left (by omega)]
  rfl

/-- Values that read alike and have at most eight bytes are alike. -/
theorem beUint_inj {bytes bytes' : Bytes} (hlength : bytes.length = bytes'.length) (hle : bytes.length ≤ 8)
    (h : beUint bytes = beUint bytes') : bytes = bytes' := by
  rw [← UInt64.toNat_inj, beUint_toNat, beUint_toNat, List.take_of_length_le hle,
    List.take_of_length_le (hlength ▸ hle)] at h
  exact beNat_inj hlength h

/-- A value reads as a number that its length bounds. -/
theorem beUint_lt {bytes : Bytes} {width : ℕ} (h : bytes.length ≤ width) : (beUint bytes).toNat < 256 ^ width := by
  rw [beUint_toNat]
  calc beNat (bytes.take 8)
      < 256 ^ (bytes.take 8).length := beNat_lt _
    _ ≤ 256 ^ width := Nat.pow_le_pow_right (by decide) ((List.length_take_le' _ _).trans h)

/-- The bytes of an address tell it. -/
theorem leBytes_inj {value value' : BitVec 128} (h : leBytes value = leBytes value') : value = value' := by
  apply BitVec.eq_of_getLsbD_eq
  intro bit hbit
  have hbyte := congrArg (fun bytes : Vector UInt8 16 => bytes[bit / 8].toNat.testBit (bit % 8)) h
  have hlow : bit % 8 < 8 := Nat.mod_lt _ (by decide)
  simp only [leBytes, Vector.getElem_ofFn, UInt8.toNat_ofNat', Nat.testBit_mod_two_pow, hlow, decide_true,
    Bool.true_and, BitVec.toNat_ushiftRight, Nat.testBit_shiftRight, Nat.div_add_mod] at hbyte
  exact hbyte

/-- An IPv4 cell tells the bytes of the address. -/
theorem inet4_inj {bytes bytes' : Bytes} (hlength : bytes.length = 4) (hlength' : bytes'.length = 4)
    (h : inet4 bytes = inet4 bytes') : bytes = bytes' := by
  have hlt := beNat_lt bytes
  have hlt' := beNat_lt bytes'
  rw [hlength] at hlt
  rw [hlength'] at hlt'
  simp only [inet4, hlength, hlength', if_true, Option.some_inj, encodeIp, encode, InetVal.mk.injEq, true_and,
    and_true] at h
  have hnumber := congrArg BitVec.toNat (leBytes_inj h)
  simp only [BitVec.toNat_setWidth, BitVec.toNat_ofNat] at hnumber
  exact beNat_inj (hlength.trans hlength'.symm) (by omega)

/-- An IPv6 cell tells the bytes of the address. -/
theorem inet6_inj {bytes bytes' : Bytes} (hlength : bytes.length = 16) (hlength' : bytes'.length = 16)
    (h : inet6 bytes = inet6 bytes') : bytes = bytes' := by
  have hwidth : 256 ^ 16 = 2 ^ 128 := by norm_num
  have hlt := beNat_lt bytes
  have hlt' := beNat_lt bytes'
  rw [hlength, hwidth] at hlt
  rw [hlength', hwidth] at hlt'
  simp only [inet6, hlength, hlength', if_true, Option.some_inj, encodeIp, encode, InetVal.mk.injEq, true_and,
    and_true] at h
  have hnumber := congrArg BitVec.toNat ((BitVec.xor_left_inj _).mp (leBytes_inj h))
  rw [BitVec.toNat_ofNat, BitVec.toNat_ofNat, Nat.mod_eq_of_lt hlt, Nat.mod_eq_of_lt hlt'] at hnumber
  exact beNat_inj (hlength.trans hlength'.symm) hnumber

/-- An address element tells the bytes it reads. -/
theorem inetOf_inj {id : ℕ} {bytes bytes' : Bytes} (hlength : bytes.length = inetLength id)
    (hlength' : bytes'.length = inetLength id) (h : inetOf id bytes = inetOf id bytes') : bytes = bytes' := by
  unfold inetOf at h
  unfold inetLength at hlength hlength'
  split at h
  · rename_i hsix
    rw [if_pos hsix] at hlength hlength'
    exact inet6_inj hlength hlength' h
  · rename_i hfour
    rw [if_neg hfour] at hlength hlength'
    exact inet4_inj hlength hlength' h

/-- A scaled number of seven bytes tells the number, if the scale has few factors of two. -/
theorem scaled_inj {value value' : UInt64} {scale : Int64}
    (hscale : 2 ^ 56 ≤ 2 ^ 64 / Nat.gcd (2 ^ 64) scale.toUInt64.toNat) (hlt : value.toNat < 2 ^ 56)
    (hlt' : value'.toNat < 2 ^ 56) (h : value.toInt64 * scale = value'.toInt64 * scale) : value = value' := by
  have hmod := congrArg (fun time : Int64 => time.toUInt64.toNat) h
  simp only [Int64.toUInt64_mul, UInt64.toUInt64_toInt64, UInt64.toNat_mul] at hmod
  have heq := Nat.ModEq.cancel_right_div_gcd (by decide) hmod
  exact UInt64.toNat_inj.mp (heq.eq_of_lt_of_lt (hlt.trans_le hscale) (hlt'.trans_le hscale))

/-- A column that fits tells the bytes it was written with. -/
theorem columnWrite_inj {id : ℕ} {col : Column} {bytes bytes' : Bytes} (hlength : bytes.length = bytes'.length)
    (hfits : col.Fits id bytes.length) (hkind : columnKind id bytes.length col ≠ .skip)
    (h : (columnWrite id bytes col).value? = (columnWrite id bytes' col).value?) : bytes = bytes' := by
  have hof : ∀ {V : Type} (value : Option V), (Write.ofOption value).value? = value := by
    intro V value
    cases value <;> rfl
  have hnumber : ∀ {width : ℕ}, width ≤ 8 → bytes.length ≤ width →
      (beUint bytes).toNat % 256 ^ width = (beUint bytes').toNat % 256 ^ width → bytes = bytes' := by
    intro width hwidth hle hmod
    rw [Nat.mod_eq_of_lt (beUint_lt hle), Nat.mod_eq_of_lt (beUint_lt (hlength ▸ hle))] at hmod
    exact beUint_inj hlength (hle.trans hwidth) (UInt64.toNat_inj.mp hmod)
  cases col with
  | srcAddr | dstAddr | nextHop =>
    simp only [columnWrite, hof] at h
    have hread : bytes.length = inetLength id := by
      by_contra hne
      exact hkind (if_neg hne)
    exact inetOf_inj hread (hlength ▸ hread) h
  | protocol | tos | srcMask | dstMask | direction =>
    have hbyte := congrArg UInt8.toNat (Option.some.inj h)
    simp only [UInt64.toNat_toUInt8] at hbyte
    exact hnumber (by decide) hfits hbyte
  | tcpFlags =>
    have hbyte := congrArg UInt8.toNat (Option.some.inj h)
    simp only [toUInt8_and_mask, UInt64.toNat_toUInt8] at hbyte
    exact hnumber (by decide) hfits hbyte
  | srcPort | dstPort =>
    have hword := congrArg UInt16.toNat (Option.some.inj h)
    simp only [UInt64.toNat_toUInt16] at hword
    exact hnumber (by decide) hfits hword
  | inputSnmp | outputSnmp | srcAs | dstAs | samplingRate | startSysup | endSysup =>
    have hdword := congrArg UInt32.toNat (Option.some.inj h)
    simp only [UInt64.toNat_toUInt32] at hdword
    exact hnumber (by decide) hfits hdword
  | bytes | packets =>
    simp only [columnWrite] at h
    split at h
    · exact beUint_inj hlength hfits (Option.some.inj h)
    · exact beUint_inj hlength hfits (Option.some.inj h)
  | flowStart | flowEnd =>
    obtain ⟨hid, hle⟩ := hfits
    have hlt := beUint_lt hle
    have hlt' := beUint_lt (hlength ▸ hle)
    simp only [columnWrite, timeWrite] at h
    split at h
    · exact beUint_inj hlength (hle.trans (by decide))
        (scaled_inj (by decide) hlt hlt' (Option.some.inj h))
    · split at h
      · exact beUint_inj hlength (hle.trans (by decide))
          (scaled_inj (by decide) hlt hlt' (Option.some.inj h))
      · omega

/-- A leading value has its length and is not zero. -/
theorem leading_ne_zeros {length : ℕ} (h : 0 < length) :
    (leading length).length = length ∧ (zeros length).length = length ∧ leading length ≠ zeros length := by
  obtain ⟨n, rfl⟩ := Nat.exists_eq_succ_of_ne_zero h.ne'
  refine ⟨by simp, List.length_replicate, ?_⟩
  rw [zeros, List.replicate_succ]
  intro heq
  exact absurd (List.cons.inj heq).1 (by decide)

/-- A trailing value has its length and is not zero. -/
theorem trailing_ne_zeros {length : ℕ} (h : 0 < length) :
    (trailing length).length = length ∧ (zeros length).length = length ∧ trailing length ≠ zeros length := by
  obtain ⟨n, rfl⟩ := Nat.exists_eq_succ_of_ne_zero h.ne'
  refine ⟨by simp, List.length_replicate, ?_⟩
  rw [zeros, List.replicate_succ']
  intro heq
  exact absurd (List.cons.inj (List.append_cancel_left heq)).1 (by decide)

/-- The low bytes of a leading value are zero. -/
theorem beUint_leading_mod {length width : ℕ} (hlong : width < length) (hwidth : width ≤ 7) :
    (beUint (leading length)).toNat % 256 ^ width = 0 := by
  have hdvd : 256 ^ width ∣ 256 ^ min 7 (length - 1) := pow_dvd_pow _ (by omega)
  rw [beUint_leading]
  exact Nat.mod_eq_zero_of_dvd (hdvd.mul_left _)

/-- A column that does not fit is written alike with two values of the length. -/
theorem exists_columnWrite_eq {id length : ℕ} {col : Column} (hlength : length ≠ 0) (h : ¬ col.Fits id length) :
    ∃ bytes bytes' : Bytes, bytes.length = length ∧ bytes'.length = length ∧ bytes ≠ bytes' ∧
      columnWrite id bytes col = columnWrite id bytes' col := by
  obtain ⟨hleading, hzeros, hneLeading⟩ := leading_ne_zeros (Nat.pos_of_ne_zero hlength)
  obtain ⟨htrailing, -, hneTrailing⟩ := trailing_ne_zeros (Nat.pos_of_ne_zero hlength)
  cases col with
  | srcAddr | dstAddr | nextHop => exact absurd trivial h
  | protocol | tos | tcpFlags | srcMask | dstMask | direction =>
    refine ⟨_, _, hleading, hzeros, hneLeading, ?_⟩
    have hbyte : (beUint (leading length)).toUInt8 = 0 := by
      rw [← UInt8.toNat_inj, UInt64.toNat_toUInt8]
      exact beUint_leading_mod (not_le.mp h) (by decide)
    simp only [columnWrite, toUInt8_and_mask, hbyte, beUint_zeros]
    rfl
  | srcPort | dstPort =>
    refine ⟨_, _, hleading, hzeros, hneLeading, ?_⟩
    have hword : (beUint (leading length)).toUInt16 = 0 := by
      rw [← UInt16.toNat_inj, UInt64.toNat_toUInt16]
      exact beUint_leading_mod (not_le.mp h) (by decide)
    simp only [columnWrite, hword, beUint_zeros]
    rfl
  | inputSnmp | outputSnmp | srcAs | dstAs | samplingRate | startSysup | endSysup =>
    refine ⟨_, _, hleading, hzeros, hneLeading, ?_⟩
    have hdword : (beUint (leading length)).toUInt32 = 0 := by
      rw [← UInt32.toNat_inj, UInt64.toNat_toUInt32]
      exact beUint_leading_mod (not_le.mp h) (by decide)
    simp only [columnWrite, hdword, beUint_zeros]
    rfl
  | bytes | packets =>
    refine ⟨_, _, htrailing, hzeros, hneTrailing, ?_⟩
    simp only [columnWrite, beUint_trailing (not_le.mp h), beUint_zeros]
  | flowStart | flowEnd =>
    by_cases hid : id = 150 ∨ id = 151 ∨ id = 152 ∨ id = 153
    · -- The product with `2 ^ 61` leaves nothing in 64 bits.
      have hlong : 7 < length := not_le.mp fun hle => h ⟨hid, hle⟩
      refine ⟨_, _, hleading, hzeros, hneLeading, ?_⟩
      have hvalue : beUint (leading length) = 2305843009213693952 := by
        rw [← UInt64.toNat_inj, beUint_leading, min_eq_left (by omega)]
        rfl
      simp only [columnWrite, timeWrite, hvalue, beUint_zeros]
      split
      · rfl
      · rw [if_pos (by omega), if_pos (by omega)]
        rfl
    · rw [← or_assoc, not_or] at hid
      by_cases height : length = 8
      · subst height
        refine ⟨_, _, htrailing, hzeros, hneTrailing, ?_⟩
        simp only [columnWrite, timeWrite, if_neg hid.1, if_neg hid.2]
        rfl
      · refine ⟨_, _, htrailing, hzeros, hneTrailing, ?_⟩
        simp only [columnWrite, timeWrite, if_neg hid.1, if_neg hid.2, ntpMicros, htrailing, hzeros, height,
          ne_eq, not_false_eq_true, if_true]

end Values

section Slices

/-- A value cut off for a field is one it can carry. -/
theorem carries_of_sliceField {f : FieldSpec} {c c' : Cursor} {bytes : Bytes}
    (h : sliceField f c = some (bytes, c')) : f.Carries bytes := by
  obtain ⟨⟨length, c₁⟩, hlength, htake⟩ := Option.bind_eq_some_iff.mp h
  have hbytes : bytes.length = length := by
    obtain ⟨hle, rfl, -⟩ := Cursor.take_eq_some htake
    exact List.length_take_of_le hle
  unfold FieldSpec.Carries
  split at hlength
  · rename_i hvar
    rw [if_pos hvar, hbytes]
    obtain ⟨⟨first, c₂⟩, -, hlength⟩ := Option.bind_eq_some_iff.mp hlength
    dsimp only at hlength
    split at hlength
    · cases hlength
      exact first.toNat_lt.trans (by decide)
    · obtain ⟨⟨long, c₃⟩, -, hlong⟩ := Option.bind_eq_some_iff.mp hlength
      cases hlong
      exact long.toNat_lt
  · rename_i hvar
    cases hlength
    rw [if_neg hvar, hbytes]

/-- The slices of a record are values its fields can carry. -/
theorem carries_of_sliceFields {fields : List FieldSpec} {c c' : Cursor} {slices : List Bytes}
    (h : sliceFields fields c = some (slices, c')) : List.Forall₂ FieldSpec.Carries fields slices := by
  induction fields generalizing c slices with
  | nil =>
    cases h
    exact .nil
  | cons f fields ih =>
    obtain ⟨⟨bytes, c₁⟩, hfirst, h⟩ := Option.bind_eq_some_iff.mp h
    obtain ⟨⟨rest, c₂⟩, hrest, h⟩ := Option.bind_eq_some_iff.mp h
    cases h
    exact .cons (carries_of_sliceField hfirst) (ih hrest)

/-- Where the fields of a column have fixed lengths, the kinds of a record's writes are those of its
template. -/
theorem columnWrites_kinds {col : Column} {fields : List FieldSpec} {slices : List Bytes}
    (hfixed : ∀ f ∈ fields, f.column = some col → ¬ f.isVariable)
    (hcarries : List.Forall₂ FieldSpec.Carries fields slices) :
    (columnWrites col fields slices).map Write.kind = columnKinds col fields := by
  induction hcarries with
  | nil => rfl
  | @cons f bytes fields slices hhead htail ih =>
    rw [List.forall_mem_cons] at hfixed
    rw [columnWrites_cons, columnKinds, List.filterMap_cons, ← columnKinds, ← ih hfixed.2]
    by_cases hcol : f.column = some col
    · have hlength : bytes.length = f.length.toNat := by
        rwa [FieldSpec.Carries, if_neg (hfixed.1 hcol)] at hhead
      rw [if_pos hcol, if_pos hcol, List.map_cons, columnWrite_kind, hlength]
    · rw [if_neg hcol, if_neg hcol]

end Slices

section Rows

/-- Whether the row of a record tells the bytes of all its fields. -/
def Ctx.Lossless (ctx : Ctx) (fields : List FieldSpec) : Prop :=
  ∀ slices slices', List.Forall₂ FieldSpec.Carries fields slices → List.Forall₂ FieldSpec.Carries fields slices' →
    ctx.recordRow fields slices = ctx.recordRow fields slices' → slices = slices'

/-- A flow time and an uptime stamp resolved to the time of the row. -/
def Ctx.resolved (ctx : Ctx) (time : Option Int64) (stamp : Option UInt32) : Option Int64 :=
  match ctx.exportTime, ctx.sysUptimeMs with
  | some exportTime, some uptime =>
    time.or (stamp.map fun s => exportTime - uptime.toInt64 * 1000 + asI64 s * 1000)
  | _, _ => time

/-- Resolving changes the two flow times only. -/
theorem resolveTimes_eq (p : PartialRecord) (ctx : Ctx) :
    resolveTimes p ctx = { p.row with
      flowStart := ctx.resolved p.row.flowStart p.startSysup
      flowEnd := ctx.resolved p.row.flowEnd p.endSysup } := by
  unfold resolveTimes Ctx.resolved
  cases ctx.exportTime with
  | none => rfl
  | some exportTime => cases ctx.sysUptimeMs <;> rfl

/-- A flow time is not resolved. -/
theorem Ctx.resolved_some (ctx : Ctx) (time : Int64) (stamp : Option UInt32) :
    ctx.resolved (some time) stamp = some time := by
  unfold resolved
  split <;> rfl

/-- A resolved stamp tells the stamp. -/
theorem Ctx.resolved_inj {ctx : Ctx} (hctx : ctx.exportTime.isSome ∧ ctx.sysUptimeMs.isSome)
    {stamp stamp' : UInt32} (h : ctx.resolved none (some stamp) = ctx.resolved none (some stamp')) :
    stamp = stamp' := by
  obtain ⟨exportTime, hexport⟩ := Option.isSome_iff_exists.mp hctx.1
  obtain ⟨uptime, huptime⟩ := Option.isSome_iff_exists.mp hctx.2
  simp only [resolved, hexport, huptime, Option.none_or, Option.map_some, Option.some_inj] at h
  have hscaled : asI64 stamp * 1000 = asI64 stamp' * 1000 := by grind
  have hlt : ∀ stamp : UInt32, stamp.toUInt64.toNat < 2 ^ 56 := by
    intro stamp
    rw [UInt32.toNat_toUInt64]
    exact stamp.toNat_lt.trans (by decide)
  have hwide : stamp.toUInt64 = stamp'.toUInt64 :=
    scaled_inj (show 2 ^ 56 ≤ 2 ^ 64 / Nat.gcd (2 ^ 64) (1000 : Int64).toUInt64.toNat by decide)
      (hlt stamp) (hlt stamp') hscaled
  rw [← UInt32.toNat_inj, ← UInt32.toNat_toUInt64, hwide, UInt32.toNat_toUInt64]

end Rows

section Templates

variable {ctx : Ctx} {before after : List FieldSpec} {f : FieldSpec}

/-- A record starts with empty columns. -/
theorem get_baseRecord (ctx : Ctx) (col : Column) : ({ row := ctx.baseRecord } : PartialRecord).get col = none := by
  cases col <;> rfl

/-- Two records whose rows are the same agree in every column that reaches the row. -/
theorem value_eq_of_resolveTimes {p p' : PartialRecord} (h : resolveTimes p ctx = resolveTimes p' ctx)
    {col : Column} {v v' : col.Value} (hv : p.get col = some v) (hv' : p'.get col = some v')
    (hstamp : ∀ time, col.time? = some time → (ctx.exportTime.isSome ∧ ctx.sysUptimeMs.isSome) ∧
      p.get time = none ∧ p'.get time = none) : v = v' := by
  rw [resolveTimes_eq, resolveTimes_eq] at h
  cases col with
  | startSysup =>
    obtain ⟨hctx, hnone, hnone'⟩ := hstamp _ rfl
    have htime := congrArg FlowRecord.flowStart h
    simp only [PartialRecord.get] at hv hv' hnone hnone'
    simp only [hv, hv', hnone, hnone'] at htime
    exact Ctx.resolved_inj hctx htime
  | endSysup =>
    obtain ⟨hctx, hnone, hnone'⟩ := hstamp _ rfl
    have htime := congrArg FlowRecord.flowEnd h
    simp only [PartialRecord.get] at hv hv' hnone hnone'
    simp only [hv, hv', hnone, hnone'] at htime
    exact Ctx.resolved_inj hctx htime
  | _ =>
    rw [FlowRecord.mk.injEq] at h
    simp only [PartialRecord.get] at hv hv'
    simp only [hv, hv', Ctx.resolved_some, Option.some_inj] at h
    simp only [h]

/-- The raw fields of a record cut in two are those of its parts. -/
theorem rawPairs_append {slices : List Bytes} (h : before.length = slices.length) (slices' : List Bytes) :
    rawPairs (before ++ after) (slices ++ slices') = rawPairs before slices ++ rawPairs after slices' := by
  rw [rawPairs, List.zip_append h, List.filterMap_append]
  rfl

/-- How many raw fields a record has is a matter of its template. -/
theorem rawPairs_length {fields : List FieldSpec} {slices : List Bytes} (h : fields.length = slices.length) :
    (rawPairs fields slices).length = fields.countP (·.column = none) := by
  induction fields generalizing slices with
  | nil => rfl
  | cons f fields ih =>
    cases slices with
    | nil => contradiction
    | cons bytes slices =>
      have hrest := ih (Nat.succ.inj h)
      rw [rawPairs, List.zip_cons_cons, List.filterMap_cons, List.countP_cons, ← hrest]
      by_cases hcol : f.column = none
      · simp only [hcol, if_true, List.length_cons, decide_true]
        rfl
      · simp only [hcol, if_false, decide_false]
        rfl

/-- What a record writes to the column of a field that is kept and what becomes of the flow times, where
the fields with a column have fixed lengths. -/
theorem get_of_kept (ctx : Ctx) {col : Column} (hcol : f.column = some col)
    (hfixed : ∀ g ∈ before ++ f :: after, g.column ≠ none → ¬ g.isVariable)
    (hshows : (columnKind f.ieId.toNat f.length.toNat col).Shows (columnKinds col before) (columnKinds col after))
    {slices rest : List Bytes} {bytes : Bytes} (hbefore : List.Forall₂ FieldSpec.Carries before slices)
    (hbytes : f.Carries bytes) (hafter : List.Forall₂ FieldSpec.Carries after rest) :
    let p := mapFields { row := ctx.baseRecord } (before ++ f :: after) (slices ++ bytes :: rest)
    p.get col = (columnWrite f.ieId.toNat bytes col).value? ∧
      ∀ col, (∀ kind ∈ columnKinds col (before ++ f :: after), kind = .skip) → p.get col = none := by
  have hlength : bytes.length = f.length.toNat := by
    have hvar := hfixed f (by simp) (by simp [hcol])
    rwa [FieldSpec.Carries, if_neg hvar] at hbytes
  have hall : List.Forall₂ FieldSpec.Carries (before ++ f :: after) (slices ++ bytes :: rest) :=
    List.rel_append hbefore (.cons hbytes hafter)
  have hkinds := fun col => columnWrites_kinds (fun g hg (heq : g.column = some col) =>
    hfixed g hg (by simp [heq])) hall
  have hkindsBefore := columnWrites_kinds (fun g hg (heq : g.column = some col) =>
    hfixed g (List.mem_append_left _ hg) (by simp [heq])) hbefore
  have hkindsAfter := columnWrites_kinds (fun g hg (heq : g.column = some col) =>
    hfixed g (List.mem_append_right _ (List.mem_cons_of_mem _ hg)) (by simp [heq])) hafter
  constructor
  · rw [mapFields_split _ hcol hbefore.length_eq, get_set_self, get_baseRecord]
    apply Register.run_of_shows
    rwa [columnWrite_kind, hlength, hkindsBefore, hkindsAfter]
  · intro col hskip
    rw [mapFields_get, get_baseRecord, Register.run_eq_none_iff, hkinds]
    exact hskip

/-- The row of a record tells the bytes of a field that is kept, where the fields with a column have fixed
lengths. -/
theorem slice_eq_of_kept (hkept : f.Kept ctx before after)
    (hfixed : ∀ g ∈ before ++ f :: after, g.column ≠ none → ¬ g.isVariable)
    {slices slices' rest rest' : List Bytes} {bytes bytes' : Bytes}
    (hbefore : List.Forall₂ FieldSpec.Carries before slices)
    (hbefore' : List.Forall₂ FieldSpec.Carries before slices') (hbytes : f.Carries bytes)
    (hbytes' : f.Carries bytes') (hafter : List.Forall₂ FieldSpec.Carries after rest)
    (hafter' : List.Forall₂ FieldSpec.Carries after rest')
    (hrow : ctx.recordRow (before ++ f :: after) (slices ++ bytes :: rest) =
      ctx.recordRow (before ++ f :: after) (slices' ++ bytes' :: rest')) : bytes = bytes' := by
  have hlength := hbefore.length_eq
  have hlength' := hbefore'.length_eq
  cases hcol : f.column with
  | none =>
    have hraw := congrArg FlowRecord.rawFields hrow
    have hcount : (rawPairs before slices).length = (rawPairs before slices').length := by
      rw [rawPairs_length hlength, rawPairs_length hlength']
    simp only [Ctx.recordRow, resolveTimes_rawFields, mapFields_rawFields, List.append_cancel_left_eq,
      rawPairs_append hlength, rawPairs_append hlength'] at hraw
    obtain ⟨-, hrest⟩ := List.append_inj hraw hcount
    simp only [rawPairs, List.zip_cons_cons, List.filterMap_cons, hcol, if_true, List.cons.injEq, Prod.mk.injEq,
      true_and] at hrest
    exact hrest.1
  | some col =>
    obtain ⟨hvar, hkept⟩ := hkept col hcol
    rw [FieldSpec.Carries, if_neg hvar] at hbytes hbytes'
    rcases hkept with hzero | ⟨hfits, hshows, hreaches⟩
    · rw [List.length_eq_zero_iff.mp (hbytes.trans hzero), List.length_eq_zero_iff.mp (hbytes'.trans hzero)]
    · have hcarries : f.Carries bytes := by rwa [FieldSpec.Carries, if_neg hvar]
      have hcarries' : f.Carries bytes' := by rwa [FieldSpec.Carries, if_neg hvar]
      obtain ⟨hget, hskipped⟩ := get_of_kept ctx hcol hfixed hshows hbefore hcarries hafter
      obtain ⟨hget', hskipped'⟩ := get_of_kept ctx hcol hfixed hshows hbefore' hcarries' hafter'
      have hkind : columnKind f.ieId.toNat bytes.length col ≠ .skip := by
        rw [hbytes]
        intro hskip
        rw [hskip] at hshows
        exact hshows
      have hsome : ∀ {w : Write col.Value}, w.kind ≠ .skip → ∃ v, w.value? = some v := by
        intro w hw
        cases w with
        | overwrite v | fill v => exact ⟨v, rfl⟩
        | skip => exact absurd rfl hw
      obtain ⟨v, hv⟩ := hsome (by rwa [columnWrite_kind])
      obtain ⟨v', hv'⟩ := hsome (w := columnWrite f.ieId.toNat bytes' col) (by
        rwa [columnWrite_kind, hbytes', ← hbytes])
      have hvalue : v = v' := by
        refine value_eq_of_resolveTimes hrow (hget.trans hv) (hget'.trans hv') ?_
        intro time htime
        obtain ⟨hctx, hskip⟩ := hreaches time htime
        exact ⟨hctx, hskipped time hskip, hskipped' time hskip⟩
      exact columnWrite_inj (hbytes.trans hbytes'.symm) (hbytes ▸ hfits) hkind (by rw [hv, hv', hvalue])

/-- A template whose fields are all kept loses nothing. -/
theorem lossless_of_kept {fields : List FieldSpec}
    (h : ∀ before f after, fields = before ++ f :: after → f.Kept ctx before after) : ctx.Lossless fields := by
  have hfixed : ∀ f ∈ fields, f.column ≠ none → ¬ f.isVariable := by
    intro f hf hcol
    obtain ⟨before, after, hsplit⟩ := List.append_of_mem hf
    obtain ⟨col, hcol⟩ := Option.ne_none_iff_exists'.mp hcol
    exact (h before f after hsplit col hcol).1
  intro slices slices' hcarries hcarries' hrow
  apply List.ext_getElem (hcarries.length_eq.symm.trans hcarries'.length_eq)
  intro i hi hi'
  have hif : i < fields.length := hcarries.length_eq ▸ hi
  have hcut : ∀ {slices : List Bytes} (hi : i < slices.length),
      slices = slices.take i ++ slices[i] :: slices.drop (i + 1) := by
    intro slices hi
    rw [List.getElem_cons_drop, List.take_append_drop]
  have hsplit : fields = fields.take i ++ fields[i] :: fields.drop (i + 1) := by
    rw [List.getElem_cons_drop, List.take_append_drop]
  have hdrop := List.forall₂_drop (i + 1) hcarries
  have hdrop' := List.forall₂_drop (i + 1) hcarries'
  refine slice_eq_of_kept (h _ _ _ hsplit) (hsplit ▸ hfixed) (List.forall₂_take i hcarries)
    (List.forall₂_take i hcarries') (hcarries.get hif hi) (hcarries'.get hif hi') hdrop hdrop' ?_
  rwa [← hcut hi, ← hcut hi', ← hsplit]

/-- A value that every field can carry: no bytes, or zeros of the declared length. -/
def FieldSpec.blank (f : FieldSpec) : Bytes := if f.isVariable then [] else zeros f.length.toNat

/-- A field can carry its blank. -/
theorem carries_blank (fields : List FieldSpec) :
    List.Forall₂ FieldSpec.Carries fields (fields.map FieldSpec.blank) := by
  rw [List.forall₂_map_right_iff, List.forall₂_same]
  intro f _
  unfold FieldSpec.Carries FieldSpec.blank
  split <;> simp

/-- Two values of a field that leave a column or the row of a blank record alike are alike in a template that
loses nothing. -/
theorem Ctx.Lossless.bytes_eq (h : ctx.Lossless (before ++ f :: after)) {col : Column}
    (hcol : f.column = some col) {bytes bytes' : Bytes} (hbytes : f.Carries bytes) (hbytes' : f.Carries bytes')
    (hrow :
      let p := mapFields (mapFields { row := ctx.baseRecord } before (before.map FieldSpec.blank)) after
        (after.map FieldSpec.blank)
      let held (bytes : Bytes) := Register.run (columnWrites col before (before.map FieldSpec.blank) ++
        columnWrite f.ieId.toNat bytes col :: columnWrites col after (after.map FieldSpec.blank)) none
      resolveTimes (p.set col (held bytes)) ctx = resolveTimes (p.set col (held bytes')) ctx) :
    bytes = bytes' := by
  have hrecord : ∀ bytes, f.Carries bytes → List.Forall₂ FieldSpec.Carries (before ++ f :: after)
      (before.map FieldSpec.blank ++ bytes :: after.map FieldSpec.blank) := fun bytes hbytes =>
    List.rel_append (carries_blank before) (.cons hbytes (carries_blank after))
  have hslices := h _ _ (hrecord bytes hbytes) (hrecord bytes' hbytes') (by
    simpa only [Ctx.recordRow, mapFields_split _ hcol (List.length_map _).symm, get_baseRecord] using hrow)
  exact (List.cons.inj (List.append_cancel_left hslices)).1

/-- An empty value and a zero byte are written alike. -/
theorem columnWrite_nil (id : ℕ) (col : Column) : columnWrite id [] col = columnWrite id [0] col := by
  have hzero : beUint [0] = beUint [] := rfl
  have hinet : inetOf id [0] = inetOf id [] := by
    unfold inetOf
    split <;> rfl
  have hntp : ntpMicros [0] = ntpMicros [] := rfl
  cases col <;> simp only [columnWrite, timeWrite, hzero, hinet, hntp]

/-- A stamp that its flow time or the header hides does not reach the row. -/
theorem resolveTimes_set_eq {col time : Column} (hcol : col.time? = some time) {p : PartialRecord}
    (h : ¬ ((ctx.exportTime.isSome ∧ ctx.sysUptimeMs.isSome) ∧ p.get time = none)) (v v' : Option col.Value) :
    resolveTimes (p.set col v) ctx = resolveTimes (p.set col v') ctx := by
  have hhidden : ∀ {held : Option Int64} {stamp stamp' : Option UInt32},
      ¬ ((ctx.exportTime.isSome ∧ ctx.sysUptimeMs.isSome) ∧ held = none) →
        ctx.resolved held stamp = ctx.resolved held stamp' := by
    intro held stamp stamp' h
    cases held with
    | some time => rw [Ctx.resolved_some, Ctx.resolved_some]
    | none =>
      unfold Ctx.resolved
      cases hexport : ctx.exportTime with
      | none => rfl
      | some exportTime =>
        cases huptime : ctx.sysUptimeMs with
        | none => rfl
        | some uptime => simp [hexport, huptime] at h
  rw [resolveTimes_eq, resolveTimes_eq]
  cases col with
  | startSysup | endSysup =>
    cases hcol
    simp only [PartialRecord.set, FlowRecord.mk.injEq, true_and, and_true]
    exact hhidden h
  | _ => contradiction

/-- In a template that loses nothing every field is kept. -/
theorem Ctx.Lossless.kept {fields : List FieldSpec} (h : ctx.Lossless fields) :
    ∀ before f after, fields = before ++ f :: after → f.Kept ctx before after := by
  have hfixed : ∀ f ∈ fields, f.column ≠ none → ¬ f.isVariable := by
    intro f hf hcol hvar
    obtain ⟨before, after, rfl⟩ := List.append_of_mem hf
    obtain ⟨col, hcol⟩ := Option.ne_none_iff_exists'.mp hcol
    have hcarries : ∀ bytes : Bytes, bytes.length < 65536 → f.Carries bytes := by
      intro bytes hbytes
      rwa [FieldSpec.Carries, if_pos hvar]
    have heq := h.bytes_eq hcol (hcarries [] (by decide)) (hcarries [0] (by decide)) (by
      dsimp only
      rw [columnWrite_nil])
    contradiction
  intro before f after hsplit col hcol
  subst hsplit
  have hvar := hfixed f (by simp) (by simp [hcol])
  refine ⟨hvar, or_iff_not_imp_left.mpr ?_⟩
  intro hzero
  have hcarries : ∀ bytes : Bytes, bytes.length = f.length.toNat → f.Carries bytes := by
    intro bytes hbytes
    rwa [FieldSpec.Carries, if_neg hvar]
  have hkinds : ∀ {fields : List FieldSpec}, fields ⊆ before ++ f :: after → ∀ col,
      (columnWrites col fields (fields.map FieldSpec.blank)).map Write.kind = columnKinds col fields :=
    fun hfields col => columnWrites_kinds (fun g hg heq => hfixed g (hfields hg) (by simp [heq]))
      (carries_blank _)
  obtain ⟨hleading, hzeros, hne⟩ := leading_ne_zeros (Nat.pos_of_ne_zero hzero)
  refine ⟨?_, ?_, ?_⟩
  · by_contra hfits
    obtain ⟨bytes, bytes', hlength, hlength', hne, hwrite⟩ := exists_columnWrite_eq hzero hfits
    refine hne (h.bytes_eq hcol (hcarries bytes hlength) (hcarries bytes' hlength') ?_)
    dsimp only
    rw [hwrite]
  · by_contra hshows
    refine hne (h.bytes_eq hcol (hcarries _ hleading) (hcarries _ hzeros) ?_)
    dsimp only
    rw [Register.run_of_not_shows]
    · rw [columnWrite_kind, columnWrite_kind, hleading, hzeros]
    · rwa [columnWrite_kind, hleading, hkinds (List.subset_append_left _ _),
        hkinds (List.subset_append_of_subset_right _ (List.subset_cons_self _ _))]
  · intro time htime
    by_contra hhidden
    refine hne (h.bytes_eq hcol (hcarries _ hleading) (hcarries _ hzeros) ?_)
    refine resolveTimes_set_eq htime (fun hseen => hhidden ⟨hseen.1, ?_⟩) _ _
    have hother : f.column ≠ some time := by
      rw [hcol, Ne, Option.some_inj]
      rintro rfl
      cases col <;> contradiction
    have hrest : columnKinds time (before ++ f :: after) = columnKinds time (before ++ after) := by
      simp only [columnKinds, List.filterMap_append, List.filterMap_cons, if_neg hother]
    have hget := hseen.2
    rw [← mapFields_append _ (List.length_map _).symm, ← List.map_append, mapFields_get, get_baseRecord,
      Register.run_eq_none_iff, hkinds (by simp)] at hget
    rwa [hrest]

/-- A row tells the bytes of every field of a record exactly if every field of the template is kept. -/
theorem decodeOneRecord_lossless_iff (tpl : TemplateEntry) (ctx : Ctx) :
    (∀ cur cur' row rest rest' slices slices' tail tail',
      decodeOneRecord tpl cur ctx = some (row, rest) → decodeOneRecord tpl cur' ctx = some (row, rest') →
        sliceFields tpl.fields cur = some (slices, tail) → sliceFields tpl.fields cur' = some (slices', tail') →
          slices = slices') ↔
      ∀ before f after, tpl.fields = before ++ f :: after → f.Kept ctx before after := by
  constructor
  · intro h
    apply Ctx.Lossless.kept
    intro slices slices' hcarries hcarries' hrow
    have hslices : ∀ {slices}, List.Forall₂ FieldSpec.Carries tpl.fields slices →
        sliceFields tpl.fields ⟨encodeFields tpl.fields slices ++ []⟩ = some (slices, ⟨[]⟩) :=
      fun hcarries => sliceFields_of_encodes (recordEncodes_encodeFields hcarries) []
    have hdecode : ∀ {slices}, List.Forall₂ FieldSpec.Carries tpl.fields slices →
        decodeOneRecord tpl ⟨encodeFields tpl.fields slices ++ []⟩ ctx =
          some (ctx.recordRow tpl.fields slices, ⟨[]⟩) :=
      fun hcarries => decodeOneRecord_of_encodes (recordEncodes_encodeFields hcarries) ctx []
    exact h _ _ _ _ _ _ _ _ _ (hdecode hcarries) (hrow ▸ hdecode hcarries') (hslices hcarries)
      (hslices hcarries')
  · intro h cur cur' row rest rest' slices slices' tail tail' hdecode hdecode' hslices hslices'
    rw [decodeOneRecord_eq, hslices] at hdecode
    rw [decodeOneRecord_eq, hslices'] at hdecode'
    refine lossless_of_kept h slices slices' (carries_of_sliceFields hslices) (carries_of_sliceFields hslices') ?_
    rw [Option.map_some, Option.some_inj, Prod.mk.injEq] at hdecode hdecode'
    exact hdecode.1.trans hdecode'.1.symm

/-- A template with the source address of a flow and the address of its exporter, which go to one column. -/
def sampleAddresses : TemplateEntry :=
  { kind := .data, fields := [fieldSpec 0 8 4, fieldSpec 0 130 4], scopeFieldCount := 0
    firstSeen := 0, lastSeen := 0, useCount := 0 }

/-- Normalization does not always keep the values of a record: the source address is lost. -/
theorem not_forall_lossless :
    ¬ ∀ (tpl : TemplateEntry) (ctx : Ctx) (cur cur' : Cursor) (row : FlowRecord) (rest rest' : Cursor)
        (slices slices' : List Bytes) (tail tail' : Cursor),
      decodeOneRecord tpl cur ctx = some (row, rest) → decodeOneRecord tpl cur' ctx = some (row, rest') →
        sliceFields tpl.fields cur = some (slices, tail) → sliceFields tpl.fields cur' = some (slices', tail') →
          slices = slices' := by
  intro h
  have hslices := h sampleAddresses ⟨"10.0.0.1", 7, .v9, none, none, none, 256⟩
    ⟨[10, 0, 0, 1, 192, 0, 2, 1]⟩ ⟨[10, 0, 0, 2, 192, 0, 2, 1]⟩ _ ⟨[]⟩ ⟨[]⟩
    [[10, 0, 0, 1], [192, 0, 2, 1]] [[10, 0, 0, 2], [192, 0, 2, 1]] ⟨[]⟩ ⟨[]⟩ rfl
    (by decide +kernel) (by decide +kernel) (by decide +kernel)
  contradiction

end Templates

end Netflow
