import Netflow.Common.Framing
import Netflow.Decode.Slices
import Netflow.Trace

/-!
# Writing datagrams

The big-endian writer of the golden datagrams: numbers, Sets and headers. Reading back what
was written gives the same numbers, and splitting a region of written Sets the same Sets.
-/

namespace Netflow

/-- The given number of big-endian bytes of a number. -/
def beBytes : ℕ → ℕ → Bytes
  | 0, _ => []
  | width + 1, n => .ofNat (n / 256 ^ width) :: beBytes width n

/-- Wrap a body in an id and length header. -/
def flowset (id : UInt16) (body : Bytes) : Bytes :=
  beBytes 2 id.toNat ++ (beBytes 2 (body.length + 4) ++ body)

/-- A v9 template of standard elements, each with its length. -/
def encodeTemplate (templateId : UInt16) (elements : List (UInt16 × UInt16)) : Bytes :=
  beBytes 2 templateId.toNat ++ (beBytes 2 elements.length ++
    elements.flatMap fun (ieId, length) => beBytes 2 ieId.toNat ++ beBytes 2 length.toNat)

/-- A value in its field: behind a length prefix when the field is of variable length. -/
def encodeField (f : FieldSpec) (bytes : Bytes) : Bytes :=
  if f.isVariable then
    if bytes.length < 255 then .ofNat bytes.length :: bytes else 255 :: (beBytes 2 bytes.length ++ bytes)
  else bytes

/-- A record: its values in the fields of its template. -/
def encodeFields (fields : List FieldSpec) (slices : List Bytes) : Bytes :=
  (List.zipWith encodeField fields slices).flatten

/-- Some Sets in a row. -/
def encodeSets (sets : List FlowSet) : Bytes := sets.flatMap fun fs => flowset fs.id fs.body

/-- A NetFlow v9 datagram of some FlowSets. -/
def encodeV9 (count : UInt16) (sysUptime unixSecs sequence sourceId : UInt32) (sets : List FlowSet) : Bytes :=
  beBytes 2 9 ++ (beBytes 2 count.toNat ++ (beBytes 4 sysUptime.toNat ++ (beBytes 4 unixSecs.toNat ++
    (beBytes 4 sequence.toNat ++ (beBytes 4 sourceId.toNat ++ encodeSets sets)))))

/-- An IPFIX datagram of some Sets. -/
def encodeIpfix (length : UInt16) (exportSecs sequence obsDomain : UInt32) (sets : List FlowSet) : Bytes :=
  beBytes 2 10 ++ (beBytes 2 length.toNat ++ (beBytes 4 exportSecs.toNat ++
    (beBytes 4 sequence.toNat ++ (beBytes 4 obsDomain.toNat ++ encodeSets sets))))

section Numbers

@[simp] theorem beBytes_length (width n : ℕ) : (beBytes width n).length = width := by
  induction width with
  | zero => rfl
  | succ width ih => rw [beBytes, List.length_cons, ih]

/-- Reading a written number gives it back, as far as its width reaches. -/
theorem beNat_beBytes (width n : ℕ) : beNat (beBytes width n) = n % 256 ^ width := by
  induction width with
  | zero => rw [pow_zero, Nat.mod_one]; rfl
  | succ width ih =>
    have hbyte : (UInt8.ofNat (n / 256 ^ width)).toNat = n / 256 ^ width % 256 := UInt8.toNat_ofNat'
    rw [beBytes, beNat_cons, beBytes_length, ih, hbyte, pow_succ, Nat.mod_mul]
    ring

/-- A number that fits its width is given back. -/
theorem beNat_beBytes_of_lt {width n : ℕ} (h : n < 256 ^ width) : beNat (beBytes width n) = n := by
  rw [beNat_beBytes, Nat.mod_eq_of_lt h]

/-- Writing the number of some bytes gives them back. -/
theorem beBytes_beNat (bytes : Bytes) : beBytes bytes.length (beNat bytes) = bytes := by
  apply beNat_inj (beBytes_length _ _)
  exact beNat_beBytes_of_lt (beNat_lt bytes)

@[simp] theorem take_beBytes (width n : ℕ) (rest : Bytes) : (beBytes width n ++ rest).take width = beBytes width n :=
  List.take_left' (beBytes_length width n)

@[simp] theorem drop_beBytes (width n : ℕ) (rest : Bytes) : (beBytes width n ++ rest).drop width = rest :=
  List.drop_left' (beBytes_length width n)

/-- What stands behind the number at the start. -/
theorem drop_skip {width n offset : ℕ} (h : width ≤ offset) (rest : Bytes) :
    (beBytes width n ++ rest).drop offset = rest.drop (offset - width) := by
  obtain ⟨d, rfl⟩ := Nat.exists_eq_add_of_le h
  rw [← List.drop_drop, drop_beBytes, Nat.add_sub_cancel_left]

/-- The field at the start of a datagram. -/
theorem field_here {width n : ℕ} (h : n < 256 ^ width) (rest : Bytes) :
    field (beBytes width n ++ rest) 0 width = n := by
  rw [field, List.drop_zero, take_beBytes, beNat_beBytes_of_lt h]

/-- A field behind the one at the start. -/
theorem field_skip {width n offset : ℕ} (h : width ≤ offset) (rest : Bytes) (k : ℕ) :
    field (beBytes width n ++ rest) offset k = field rest (offset - width) k := by
  obtain ⟨d, rfl⟩ := Nat.exists_eq_add_of_le h
  rw [field, ← List.drop_drop, drop_beBytes, Nat.add_sub_cancel_left, field]

/-- Writing a field that is all there gives its bytes back. -/
theorem beBytes_field {data : Bytes} {offset width : ℕ} (h : offset + width ≤ data.length) :
    beBytes width (field data offset width) = (data.drop offset).take width := by
  have hlength : ((data.drop offset).take width).length = width := by
    rw [List.length_take, List.length_drop]
    omega
  have hbytes := beBytes_beNat ((data.drop offset).take width)
  rwa [hlength] at hbytes

/-- Writing an 8-bit number loses nothing. -/
theorem ofNat_field8 (n : UInt8) (rest : Bytes) : UInt8.ofNat (field (beBytes 1 n.toNat ++ rest) 0 1) = n := by
  rw [field_here n.toNat_lt, UInt8.ofNat_toNat]

/-- Writing a 16-bit number loses nothing. -/
theorem ofNat_field16 (n : UInt16) (rest : Bytes) :
    UInt16.ofNat (field (beBytes 2 n.toNat ++ rest) 0 2) = n := by
  rw [field_here n.toNat_lt, UInt16.ofNat_toNat]

/-- Writing a 32-bit number loses nothing. -/
theorem ofNat_field32 (n : UInt32) (rest : Bytes) :
    UInt32.ofNat (field (beBytes 4 n.toNat ++ rest) 0 4) = n := by
  rw [field_here n.toNat_lt, UInt32.ofNat_toNat]

/-- A written value of at most eight bytes is read back. -/
theorem beUint_beBytes {width n : ℕ} (hwidth : width ≤ 8) (hn : n < 256 ^ width) :
    beUint (beBytes width n) = .ofNat n := by
  rw [beUint_of_length_le (by rwa [beBytes_length]), beNat_beBytes_of_lt hn]

/-- An 8-bit value is read back. -/
theorem beUint_byte (n : UInt8) : beUint (beBytes 1 n.toNat) = n.toUInt64 :=
  (beUint_beBytes (by decide) n.toNat_lt).trans (UInt64.ofNatLT_eq_ofNat ..).symm

/-- A 16-bit value is read back. -/
theorem beUint_word (n : UInt16) : beUint (beBytes 2 n.toNat) = n.toUInt64 :=
  (beUint_beBytes (by decide) n.toNat_lt).trans (UInt64.ofNatLT_eq_ofNat ..).symm

/-- A 32-bit value is read back. -/
theorem beUint_dword (n : UInt32) : beUint (beBytes 4 n.toNat) = n.toUInt64 :=
  (beUint_beBytes (by decide) n.toNat_lt).trans (UInt64.ofNatLT_eq_ofNat ..).symm

/-- An 8-bit read of a byte. -/
theorem u8_cons (byte : UInt8) (rest : Bytes) : (Cursor.mk (byte :: rest)).u8 = some (byte, ⟨rest⟩) := by
  have hbyte : beNat [byte] = byte.toNat := by simp [beNat]
  rw [Cursor.u8_of_le (by simp [Cursor.remaining]), List.take_succ_cons, List.take_zero, hbyte,
    UInt8.ofNat_toNat]
  rfl

/-- A 16-bit read of a written number. -/
theorem u16_beBytes (n : UInt16) (rest : Bytes) :
    (Cursor.mk (beBytes 2 n.toNat ++ rest)).u16 = some (n, ⟨rest⟩) := by
  rw [Cursor.u16_of_le (by simp [Cursor.remaining]), take_beBytes, drop_beBytes,
    beNat_beBytes_of_lt n.toNat_lt, UInt16.ofNat_toNat]

/-- A 32-bit read of a written number. -/
theorem u32_beBytes (n : UInt32) (rest : Bytes) :
    (Cursor.mk (beBytes 4 n.toNat ++ rest)).u32 = some (n, ⟨rest⟩) := by
  rw [Cursor.u32_of_le (by simp [Cursor.remaining]), take_beBytes, drop_beBytes,
    beNat_beBytes_of_lt n.toNat_lt, UInt32.ofNat_toNat]

end Numbers

section Templates

/-- Nothing is learned from nothing. -/
theorem templateDefs_nil {syn : TemplateSyntax} (h : 0 < syn.minLen) (rounds : ℕ) :
    templateDefs syn rounds ⟨[]⟩ = [] := by
  cases rounds with
  | zero => rfl
  | succ rounds => exact if_pos h

/-- Written field specifiers are read back, if one is. -/
theorem readFields_flatMap {W : Type} {readOne : Cursor → Option (FieldSpec × Cursor)} {encode : W → Bytes}
    {spec : W → FieldSpec} (h : ∀ w rest, readOne ⟨encode w ++ rest⟩ = some (spec w, ⟨rest⟩)) (fields : List W)
    (rest : Bytes) :
    readFields readOne fields.length ⟨fields.flatMap encode ++ rest⟩ = some (fields.map spec, ⟨rest⟩) := by
  induction fields with
  | nil => rfl
  | cons w fields ih =>
    simp only [List.flatMap_cons, List.append_assoc, List.length_cons, readFields, h, Option.bind_eq_bind,
      Option.bind_some, ih, List.map_cons]

/-- A written v9 field specifier is read back. -/
theorem V9.readField_beBytes (element : UInt16 × UInt16) (rest : Bytes) :
    V9.readField ⟨beBytes 2 element.1.toNat ++ beBytes 2 element.2.toNat ++ rest⟩ =
      some (fieldSpec 0 element.1 element.2, ⟨rest⟩) := by
  simp only [V9.readField, List.append_assoc, u16_beBytes, Option.bind_eq_bind, Option.bind_some]

/-- A count that fits 16 bits is read back. -/
theorem u16_beBytes_of_lt {n : ℕ} (h : n < 65536) (rest : Bytes) :
    (Cursor.mk (beBytes 2 n ++ rest)).u16 = some (.ofNat n, ⟨rest⟩) := by
  have hread := u16_beBytes (.ofNat n) rest
  rwa [UInt16.toNat_ofNat_of_lt' h] at hread

/-- A written template is read back. -/
theorem parseTemplate_encodeTemplate {templateId : UInt16} (hid : templateId ≠ 0)
    {elements : List (UInt16 × UInt16)} (hcount : elements.length < 65536) (rest : Bytes) :
    V9.parseTemplate ⟨encodeTemplate templateId elements ++ rest⟩ =
      some (⟨templateId, .data, elements.map fun (ieId, length) => fieldSpec 0 ieId length, 0⟩, ⟨rest⟩) := by
  simp only [encodeTemplate, List.append_assoc, V9.parseTemplate, u16_beBytes, u16_beBytes_of_lt hcount,
    UInt16.toNat_ofNat_of_lt' hcount, Option.bind_eq_bind, Option.bind_some,
    readFields_flatMap V9.readField_beBytes, hid, if_false]

/-- A Template FlowSet of one written template teaches that template. -/
theorem setDefs_encodeTemplate {templateId : UInt16} (hid : templateId ≠ 0)
    {elements : List (UInt16 × UInt16)} (hcount : elements.length < 65536) :
    V9.format.setDefs ⟨0, encodeTemplate templateId elements⟩ =
      [⟨templateId, .data, elements.map fun (ieId, length) => fieldSpec 0 ieId length, 0⟩] := by
  have hparse := parseTemplate_encodeTemplate hid hcount []
  rw [List.append_nil] at hparse
  have hone : V9.templateSyntax.parseOne (.new (encodeTemplate templateId elements)) =
      V9.parseTemplate ⟨encodeTemplate templateId elements⟩ := rfl
  have hlength : (encodeTemplate templateId elements).length =
      (encodeTemplate templateId elements).length - 1 + 1 := by
    simp only [encodeTemplate, List.length_append, beBytes_length]
    omega
  change templateDefs V9.templateSyntax (encodeTemplate templateId elements).length _ = _
  rw [hlength, templateDefs, if_neg]
  · rw [hone, hparse]
    simp only [V9.templateSyntax, Bool.false_eq_true, false_and, if_false]
    rw [templateDefs_nil (by decide)]
  · simp only [V9.templateSyntax, Cursor.remaining_new, encodeTemplate, List.length_append, beBytes_length]
    omega

end Templates

section Records

/-- A value that a field can carry. -/
def FieldSpec.Carries (f : FieldSpec) (bytes : Bytes) : Prop :=
  if f.isVariable then bytes.length < 65536 else bytes.length = f.length.toNat

/-- The ways to write a value in its field: as it is in a field of fixed length, else behind a prefix of one
byte, for fewer than 255 bytes, or behind `0xFF` and a prefix of two. -/
inductive FieldSpec.Encodes (f : FieldSpec) (bytes : Bytes) : Bytes → Prop
  | fixed (hfixed : ¬ f.isVariable) (hlength : bytes.length = f.length.toNat) : Encodes f bytes bytes
  | short (hvar : f.isVariable) (hlength : bytes.length < 255) : Encodes f bytes (.ofNat bytes.length :: bytes)
  | long (hvar : f.isVariable) (hlength : bytes.length < 65536) :
      Encodes f bytes (255 :: (beBytes 2 bytes.length ++ bytes))

/-- The ways to write a record: each value in its field, one after the other. -/
inductive RecordEncodes : List FieldSpec → List Bytes → Bytes → Prop
  | nil : RecordEncodes [] [] []
  | cons {f : FieldSpec} {fields : List FieldSpec} {bytes : Bytes} {slices : List Bytes} {enc rest : Bytes}
      (head : f.Encodes bytes enc) (tail : RecordEncodes fields slices rest) :
      RecordEncodes (f :: fields) (bytes :: slices) (enc ++ rest)

/-- A value that a field can carry is written in one of the ways. -/
theorem encodes_encodeField {f : FieldSpec} {bytes : Bytes} (h : f.Carries bytes) :
    f.Encodes bytes (encodeField f bytes) := by
  unfold FieldSpec.Carries at h
  unfold encodeField
  split at h
  · rename_i hvar
    rw [if_pos hvar]
    split
    · exact .short hvar ‹_›
    · exact .long hvar h
  · rename_i hfixed
    rw [if_neg hfixed]
    exact .fixed hfixed h

/-- A record of values its fields can carry is written in one of the ways. -/
theorem recordEncodes_encodeFields {fields : List FieldSpec} {slices : List Bytes}
    (h : List.Forall₂ FieldSpec.Carries fields slices) :
    RecordEncodes fields slices (encodeFields fields slices) := by
  induction h with
  | nil => exact .nil
  | cons hhead _ ih => exact .cons (encodes_encodeField hhead) ih

/-- Two parts of a record are written one after the other. -/
theorem RecordEncodes.append {fields fields' : List FieldSpec} {slices slices' : List Bytes} {enc enc' : Bytes}
    (h : RecordEncodes fields slices enc) (h' : RecordEncodes fields' slices' enc') :
    RecordEncodes (fields ++ fields') (slices ++ slices') (enc ++ enc') := by
  induction h with
  | nil => exact h'
  | cons head _ ih =>
    rw [List.append_assoc]
    exact .cons head ih

/-- A written value is cut off again. -/
theorem sliceField_of_encodes {f : FieldSpec} {bytes enc : Bytes} (h : f.Encodes bytes enc) (rest : Bytes) :
    sliceField f ⟨enc ++ rest⟩ = some (bytes, ⟨rest⟩) := by
  have htake : (Cursor.mk (bytes ++ rest)).take bytes.length = some (bytes, ⟨rest⟩) := by
    rw [Cursor.take_of_le (by simp [Cursor.remaining]), List.take_left, List.drop_left]
  unfold sliceField
  cases h with
  | fixed hfixed hlength => simp only [if_neg hfixed, Option.bind_some, ← hlength, htake]
  | short hvar hlength =>
    have hfirst : (UInt8.ofNat bytes.length).toNat = bytes.length :=
      UInt8.toNat_ofNat_of_lt' (hlength.trans (by decide))
    have hlt : UInt8.ofNat bytes.length < 255 := UInt8.lt_iff_toNat_lt.mpr (by rw [hfirst]; exact hlength)
    simp only [if_pos hvar, List.cons_append, readVarlen, u8_cons, Option.bind_eq_bind, Option.bind_some,
      if_pos hlt, hfirst, htake]
  | long hvar hlength =>
    have hlong : (UInt16.ofNat bytes.length).toNat = bytes.length := UInt16.toNat_ofNat_of_lt' hlength
    have hread := u16_beBytes (.ofNat bytes.length) (bytes ++ rest)
    rw [hlong] at hread
    simp only [if_pos hvar, List.cons_append, List.append_assoc, readVarlen, u8_cons, Option.bind_eq_bind,
      Option.bind_some, hread, hlong]
    exact htake

/-- A written record is cut into its values. -/
theorem sliceFields_of_encodes {fields : List FieldSpec} {slices : List Bytes} {enc : Bytes}
    (h : RecordEncodes fields slices enc) (rest : Bytes) :
    sliceFields fields ⟨enc ++ rest⟩ = some (slices, ⟨rest⟩) := by
  induction h with
  | nil => rfl
  | cons head _ ih =>
    rw [List.append_assoc, sliceFields, sliceField_of_encodes head]
    simp only [Option.bind_eq_bind, Option.bind_some, ih]

/-- A written record is no shorter than the shortest. -/
theorem minRecord_le_length {fields : List FieldSpec} {slices : List Bytes} {enc : Bytes}
    (h : RecordEncodes fields slices enc) : minRecord fields ≤ enc.length := by
  have hle := minRecord_le_of_sliceFields (sliceFields_of_encodes h [])
  rwa [List.append_nil, Cursor.remaining, Cursor.remaining, List.length_nil, Nat.add_zero] at hle

/-- A written record is decoded to its row. -/
theorem decodeOneRecord_of_encodes {tpl : TemplateEntry} {slices : List Bytes} {enc : Bytes}
    (h : RecordEncodes tpl.fields slices enc) (ctx : Ctx) (rest : Bytes) :
    decodeOneRecord tpl ⟨enc ++ rest⟩ ctx = some (ctx.recordRow tpl.fields slices, ⟨rest⟩) := by
  rw [decodeOneRecord_eq, sliceFields_of_encodes h]
  rfl

/-- Written records are decoded one by one, and then whatever follows them. -/
theorem decodeRecords_of_encodes {tpl : TemplateEntry} (ctx : Ctx) {records : List (List Bytes × Bytes)}
    (h : ∀ r ∈ records, RecordEncodes tpl.fields r.1 r.2 ∧ r.2 ≠ []) (rest : Bytes) {rounds : ℕ}
    (hrounds : (records.flatMap Prod.snd ++ rest).length ≤ rounds) :
    decodeRecords tpl ctx rounds ⟨records.flatMap Prod.snd ++ rest⟩ =
      records.map (fun r => ctx.recordRow tpl.fields r.1) ++ decodeRecords tpl ctx rest.length ⟨rest⟩ := by
  induction records generalizing rounds with
  | nil => exact decodeRecords_rounds tpl ctx hrounds le_rfl
  | cons r records ih =>
    obtain ⟨⟨hencodes, hnonempty⟩, hothers⟩ := List.forall_mem_cons.mp h
    have hpos := List.length_pos_iff.mpr hnonempty
    have hmin := minRecord_le_length hencodes
    rw [minRecord_eq] at hmin
    rw [List.flatMap_cons, List.append_assoc, List.length_append] at hrounds
    cases rounds with
    | zero => omega
    | succ rounds =>
      rw [List.flatMap_cons, List.append_assoc, decodeRecords, decodeOneRecord_of_encodes hencodes]
      have hlength : (Cursor.mk (r.2 ++ (records.flatMap Prod.snd ++ rest))).remaining =
          r.2.length + (records.flatMap Prod.snd ++ rest).length := List.length_append
      have hrest : (Cursor.mk (records.flatMap Prod.snd ++ rest)).remaining =
          (records.flatMap Prod.snd ++ rest).length := rfl
      rw [if_neg (by omega), if_neg (by omega)]
      dsimp only
      rw [if_neg (by omega), ih hothers (by omega), List.map_cons, List.cons_append]

end Records

section Sets

/-- Read the Set at the front of a region, if its declared length fits. -/
def readSet (region : Bytes) : Option (FlowSet × Bytes) :=
  if declaredLength region < 4 ∨ region.length < declaredLength region then none
  else some (⟨.ofNat (beNat (region.take 2)), (region.take (declaredLength region)).drop 4⟩,
    region.drop (declaredLength region))

/-- A Set whose length field holds its length. -/
def FlowSet.Fits (fs : FlowSet) : Prop := fs.body.length + 4 < 65536

/-- A written Set is read back. -/
theorem readSet_flowset {fs : FlowSet} (hfits : fs.Fits) (rest : Bytes) :
    readSet (flowset fs.id fs.body ++ rest) = some (fs, rest) := by
  have hregion : flowset fs.id fs.body ++ rest =
      beBytes 2 fs.id.toNat ++ (beBytes 2 (fs.body.length + 4) ++ (fs.body ++ rest)) := by
    simp only [flowset, List.append_assoc]
  have hdeclared : declaredLength (flowset fs.id fs.body ++ rest) = fs.body.length + 4 := by
    rw [declaredLength, hregion, drop_beBytes, take_beBytes, beNat_beBytes_of_lt hfits]
  have hid : UInt16.ofNat (beNat ((flowset fs.id fs.body ++ rest).take 2)) = fs.id := by
    rw [hregion, take_beBytes, beNat_beBytes_of_lt fs.id.toNat_lt, UInt16.ofNat_toNat]
  have hbody : ((flowset fs.id fs.body ++ rest).take (fs.body.length + 4)).drop 4 = fs.body := by
    rw [hregion, List.drop_take, ← List.drop_drop (i := 2), drop_beBytes, drop_beBytes, Nat.add_sub_cancel,
      List.take_left]
  have hrest : (flowset fs.id fs.body ++ rest).drop (fs.body.length + 4) = rest := by
    rw [hregion, Nat.add_comm, ← List.drop_drop, ← List.drop_drop (i := 2), drop_beBytes, drop_beBytes, List.drop_left]
  have hlength : fs.body.length + 4 ≤ (flowset fs.id fs.body ++ rest).length := by
    simp only [hregion, List.length_append, beBytes_length]
    omega
  rw [readSet, hdeclared, if_neg (by omega), hid, hbody, hrest]

/-- What is read is a Set that stands at the front. -/
theorem readSet_eq_some {region rest : Bytes} {fs : FlowSet} (h : readSet region = some (fs, rest)) :
    fs.Fits ∧ region = flowset fs.id fs.body ++ rest := by
  unfold readSet at h
  split at h
  · contradiction
  · rename_i hdeclared
    rw [not_or, not_lt, not_lt] at hdeclared
    obtain ⟨hmin, hmax⟩ := hdeclared
    have hlt : declaredLength region < 65536 := by
      refine (beNat_lt _).trans_le (Nat.pow_le_pow_right (by decide) ?_ : _ ≤ 256 ^ 2)
      exact List.length_take_le 2 _
    have hlength : ((region.take (declaredLength region)).drop 4).length + 4 = declaredLength region := by
      rw [List.length_drop, List.length_take, min_eq_left hmax]
      omega
    have hid : beBytes 2 (UInt16.ofNat (beNat (region.take 2))).toNat = region.take 2 := by
      have hword : beNat (region.take 2) < 2 ^ 16 := field_lt region 0 2
      rw [UInt16.toNat_ofNat_of_lt' hword]
      exact @beBytes_field region 0 2 (by omega)
    have hdeclares : beBytes 2 (declaredLength region) = (region.drop 2).take 2 := beBytes_field (by omega)
    cases h
    refine ⟨hlength.trans_lt hlt, ?_⟩
    have hhead : region.take 4 = region.take 2 ++ (region.drop 2).take 2 := @List.take_add _ region 2 2
    have hset : region.take 4 ++ (region.take (declaredLength region)).drop 4 =
        region.take (declaredLength region) := by
      have hsplit := List.take_append_drop 4 (region.take (declaredLength region))
      rwa [List.take_take, min_eq_left hmin] at hsplit
    rw [flowset, hlength, hid, hdeclares, ← List.append_assoc, ← hhead, hset, List.take_append_drop]

/-- Sets are read as they are written. -/
theorem readSet_inverse : Framing.Inverse readSet 4 (fun fs => flowset fs.id fs.body) FlowSet.Fits where
  read_encode _ rest hfits := readSet_flowset hfits rest
  of_read _ _ _ h := readSet_eq_some h
  short_le fs := by
    simp only [flowset, List.length_append, beBytes_length]
    omega
  short_pos := by decide

/-- A region is split by walking over its Sets. -/
theorem splitRegion_eq_walk (badSet : String) (rounds : ℕ) (region : Bytes) :
    splitRegion badSet rounds region = (Framing.walk readSet 4 rounds region).elim (.error badSet) .ok := by
  induction rounds generalizing region with
  | zero => rfl
  | succ rounds ih =>
    rw [splitRegion_succ, Framing.walk, readSet]
    split
    · rfl
    · split
      · rfl
      · dsimp only
        rw [ih]
        cases Framing.walk readSet 4 rounds (region.drop (declaredLength region)) <;> rfl

/-- The Sets of a region are those that were written, when each fits its length field. -/
theorem splitRegion_encodeSets (badSet : String) {sets : List FlowSet}
    (hfits : ∀ fs ∈ sets, fs.body.length + 4 < 65536) {rounds : ℕ} (hrounds : sets.length ≤ rounds) :
    splitRegion badSet rounds (encodeSets sets) = .ok sets := by
  have hwalk := readSet_inverse.walk_append hfits (show ([] : Bytes).length < 4 by decide) hrounds
  rw [List.append_nil] at hwalk
  rw [splitRegion_eq_walk, encodeSets, hwalk]
  rfl

/-- There are no more Sets than bytes. -/
theorem length_le_encodeSets (sets : List FlowSet) : sets.length ≤ (encodeSets sets).length :=
  readSet_inverse.length_le sets

end Sets

section Datagrams

/-- Version 9 announces NetFlow v9. -/
theorem probeVersion_nine (rest : Bytes) : probeVersion (beBytes 2 9 ++ rest) = some .v9 := by
  have hread := u16_beBytes 9 rest
  change (Cursor.new (beBytes 2 9 ++ rest)).u16 = _ at hread
  rw [probeVersion, hread]
  rfl

/-- Version 10 announces IPFIX. -/
theorem probeVersion_ten (rest : Bytes) : probeVersion (beBytes 2 10 ++ rest) = some .v10 := by
  have hread := u16_beBytes 10 rest
  change (Cursor.new (beBytes 2 10 ++ rest)).u16 = _ at hread
  rw [probeVersion, hread]
  rfl

/-- The header context of a v9 datagram so written. -/
def v9Ctx (opts : DecodeOptions) (sysUptime unixSecs sequence sourceId : UInt32) : Ctx where
  exporter := opts.exporter
  obsDomain := opts.obsDomainOverride.getD sourceId
  version := .v9
  exportTime := some (asI64 unixSecs * 1000000)
  sequence := some sequence.toUInt64
  sysUptimeMs := some sysUptime.toUInt64
  templateId := 0

/-- The header context of an IPFIX datagram so written. -/
def ipfixCtx (opts : DecodeOptions) (exportSecs sequence obsDomain : UInt32) : Ctx where
  exporter := opts.exporter
  obsDomain := opts.obsDomainOverride.getD obsDomain
  version := .v10
  exportTime := some (asI64 exportSecs * 1000000)
  sequence := some sequence.toUInt64
  sysUptimeMs := none
  templateId := 0

/-- A datagram whose header parses and whose region splits is parsed as these. -/
theorem Call.parsed_of_split {call : Call} {fmt : TemplatedFormat} {hdr : ExportHeader} {sets : List FlowSet}
    (hformat : call.format = some fmt) (hheader : parseHeader call.data = some hdr)
    (hsplit : fmt.split call.data = .ok sets) :
    call.parsed = some (fmt, fmt.ctxBase call.opts.exporter call.opts.obsDomainOverride hdr, sets) := by
  simp only [Call.parsed, hformat, hheader, Option.bind_eq_bind, Option.bind_some, hsplit, Except.toOption]

/-- The region behind a header of the right length splits as what was written there. -/
theorem TemplatedFormat.split_encodeSets {fmt : TemplatedFormat} {data : Bytes} {sets : List FlowSet}
    (hfits : ∀ fs ∈ sets, fs.body.length + 4 < 65536) (hlen : fmt.headerLen ≤ data.length)
    (hregion : data.drop fmt.headerLen = encodeSets sets) : fmt.split data = .ok sets := by
  rw [TemplatedFormat.split, min_eq_left hlen, hregion]
  exact splitRegion_encodeSets _ hfits (length_le_encodeSets sets)

variable {sets : List FlowSet} (opts : DecodeOptions) {restrict : Restrict}

/-- A written v9 datagram is parsed as what was written, where v9 is accepted. -/
theorem parsed_encodeV9 (hfits : ∀ fs ∈ sets, fs.body.length + 4 < 65536) (count : UInt16)
    (sysUptime unixSecs sequence sourceId : UInt32) (hrestrict : restrict = .any ∨ restrict = .netflowOnly) :
    (Call.mk (encodeV9 count sysUptime unixSecs sequence sourceId sets) opts restrict).parsed =
      some (V9.format, v9Ctx opts sysUptime unixSecs sequence sourceId, sets) := by
  generalize hdata : encodeV9 count sysUptime unixSecs sequence sourceId sets = data
  have hlength : 20 ≤ data.length := by
    simp only [← hdata, encodeV9, List.length_append, beBytes_length]
    omega
  have hprobe : probeVersion data = some .v9 := hdata ▸ probeVersion_nine _
  have hheader : parseHeader data = parseV9 data := by rw [parseHeader, hprobe]; rfl
  have hregion : data.drop 20 = encodeSets sets := by
    have hsum : 20 = 2 + (2 + (4 + (4 + (4 + 4)))) := rfl
    rw [← hdata, encodeV9, hsum]
    simp only [← List.drop_drop, drop_beBytes]
  have hformat : (Call.mk data opts restrict).format = some V9.format := by
    rcases hrestrict with rfl | rfl <;> simp only [Call.format, hprobe]
  rw [parseV9_of_le hlength] at hheader
  rw [Call.parsed_of_split hformat hheader (TemplatedFormat.split_encodeSets hfits hlength hregion)]
  simp only [← hdata, encodeV9]
  simp (disch := omega) only [field_skip, Nat.reduceSub, ofNat_field16, ofNat_field32]
  rfl

/-- A written IPFIX datagram is parsed as what was written, where IPFIX is accepted. -/
theorem parsed_encodeIpfix (hfits : ∀ fs ∈ sets, fs.body.length + 4 < 65536) (length : UInt16)
    (exportSecs sequence obsDomain : UInt32) (hrestrict : restrict = .any ∨ restrict = .ipfixOnly) :
    (Call.mk (encodeIpfix length exportSecs sequence obsDomain sets) opts restrict).parsed =
      some (Ipfix.format, ipfixCtx opts exportSecs sequence obsDomain, sets) := by
  generalize hdata : encodeIpfix length exportSecs sequence obsDomain sets = data
  have hlength : 16 ≤ data.length := by
    simp only [← hdata, encodeIpfix, List.length_append, beBytes_length]
    omega
  have hprobe : probeVersion data = some .v10 := hdata ▸ probeVersion_ten _
  have hheader : parseHeader data = parseIpfix data := by rw [parseHeader, hprobe]; rfl
  have hregion : data.drop 16 = encodeSets sets := by
    have hsum : 16 = 2 + (2 + (4 + (4 + 4))) := rfl
    rw [← hdata, encodeIpfix, hsum]
    simp only [← List.drop_drop, drop_beBytes]
  have hformat : (Call.mk data opts restrict).format = some Ipfix.format := by
    rcases hrestrict with rfl | rfl <;> simp only [Call.format, hprobe]
  rw [parseIpfix_of_le hlength] at hheader
  rw [Call.parsed_of_split hformat hheader (TemplatedFormat.split_encodeSets hfits hlength hregion)]
  simp only [← hdata, encodeIpfix]
  simp (disch := omega) only [field_skip, Nat.reduceSub, ofNat_field32]
  rfl

end Datagrams

end Netflow
