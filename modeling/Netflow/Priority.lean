import Netflow.Lossless

/-!
# Which field a column shows

Some columns have several elements. A counter shows its delta count wherever that stands, the
last one if there are more, and without one the first of its other elements. An address column
shows the last of its elements that holds a whole address, and among these are the address of
the exporter and that behind the translation. So a row has the addresses of the flow exactly
where no other address stands behind them.
-/

namespace Netflow

open Register (Write overwrites fills)

section Definitions

/-- The values of the standard elements of some ids in a record, in order. -/
def elementValues (ids : List ℕ) (fields : List FieldSpec) (slices : List Bytes) : List Bytes :=
  (fields.zip slices).filterMap fun r => if ∃ id ∈ ids, r.1.IsElement id then some r.2 else none

/-- What a counter shows: its last delta count, else the first of its other elements. -/
def counterValue (delta : ℕ) (others : List ℕ) (fields : List FieldSpec) (slices : List Bytes) : Option UInt64 :=
  ((elementValues [delta] fields slices).getLast?.or (elementValues others fields slices).head?).map beUint

/-- The fields of a record behind the first standard element of an id, each with its value. -/
def behindElement (id : ℕ) (fields : List FieldSpec) (slices : List Bytes) : List (FieldSpec × Bytes) :=
  ((fields.zip slices).dropWhile fun r => ¬ r.1.IsElement id).tail

/-- Whether a field is the standard element of an id and holds a whole address of it. -/
def HoldsAddress (ids : List ℕ) (r : FieldSpec × Bytes) : Prop :=
  ∃ id ∈ ids, r.1.IsElement id ∧ r.2.length = inetLength id

instance (ids : List ℕ) (r : FieldSpec × Bytes) : Decidable (HoldsAddress ids r) :=
  inferInstanceAs (Decidable (∃ _ ∈ _, _))

/-- Whether the IPv4 address of one element outlasts those of others: of the others behind it that hold
a whole address the last, if there is one, holds the same address. -/
def Outlasts (own : ℕ) (others : List ℕ) (fields : List FieldSpec) (slices : List Bytes) : Prop :=
  ∀ r ∈ ((behindElement own fields slices).filter fun r => HoldsAddress others r).getLast?,
    inetLength r.1.ieId.toNat = 4 ∧ r.2 ∈ elementValues [own] fields slices

instance (own : ℕ) (others : List ℕ) (fields : List FieldSpec) (slices : List Bytes) :
    Decidable (Outlasts own others fields slices) := inferInstanceAs (Decidable (∀ _ ∈ _, _))

end Definitions

section Counters

variable {fields : List FieldSpec} {slices : List Bytes}

/-- A column whose elements fill it, all but one that replaces, shows the last value of that one, else
the first of the others. -/
theorem get_of_prefers {col : Column} {delta : ℕ} {others : List ℕ} (hcol : col.elements = delta :: others)
    (hdelta : delta ∉ others) {value : Bytes → col.Value}
    (hwrite : ∀ id bytes, columnWrite id bytes col =
      if id = delta then .overwrite (value bytes) else .fill (value bytes))
    {p : PartialRecord} (hempty : p.get col = none) :
    (mapFields p fields slices).get col =
      ((elementValues [delta] fields slices).getLast?.or (elementValues others fields slices).head?).map value := by
  have hcolumn : ∀ f : FieldSpec, f.column = some col ↔ f.IsElement delta ∨ ∃ id ∈ others, f.IsElement id := by
    intro f
    simp [FieldSpec.column_eq_some_iff, hcol]
  have hother : ∀ f : FieldSpec, (∃ id ∈ others, f.IsElement id) → f.ieId.toNat ≠ delta := by
    rintro f ⟨id, hid, helement⟩ heq
    exact hdelta (heq ▸ helement.2 ▸ hid)
  have hoverwrites : overwrites (columnWrites col fields slices) = (elementValues [delta] fields slices).map value := by
    rw [overwrites, columnWrites, elementValues, List.filterMap_filterMap, List.map_filterMap]
    apply List.filterMap_congr
    intro r _
    by_cases hr : r.1.IsElement delta
    · simp [hcolumn, hr, hwrite, hr.2, Write.kind, Write.value?]
    · by_cases hr' : ∃ id ∈ others, r.1.IsElement id
      · simp only [hcolumn, hr', or_true, if_true, hwrite, hother r.1 hr', if_false, Option.bind_some, Write.kind]
        simp [hr]
      · simp only [hcolumn, hr, hr', or_self, if_false]
        simp [hr]
  have hfills : fills (columnWrites col fields slices) = (elementValues others fields slices).map value := by
    rw [fills, columnWrites, elementValues, List.filterMap_filterMap, List.map_filterMap]
    apply List.filterMap_congr
    intro r _
    by_cases hr' : ∃ id ∈ others, r.1.IsElement id
    · simp only [hcolumn, hr', or_true, if_true, hwrite, hother r.1 hr', if_false, Option.bind_some, Write.kind,
        Write.value?, Option.map_some]
    · by_cases hr : r.1.IsElement delta
      · simp only [hcolumn, hr, true_or, if_true, hwrite, hr.2, Option.bind_some, Write.kind, reduceCtorEq, if_false,
          hr', Option.map_none]
      · simp only [hcolumn, hr, hr', or_self, if_false, Option.bind_none, Option.map_none]
  rw [mapFields_get, Register.run_eq, hoverwrites, hfills, hempty, Option.none_or, List.getLast?_map, List.head?_map,
    Option.map_or]

/-- The counters of a record show their delta counts, else the first of their other elements. -/
theorem recordRow_counters (ctx : Ctx) (fields : List FieldSpec) (slices : List Bytes) :
    (ctx.recordRow fields slices).bytes = counterValue 1 [23, 85, 351, 352] fields slices ∧
      (ctx.recordRow fields slices).packets = counterValue 2 [24, 86] fields slices := by
  rw [Ctx.recordRow, resolveTimes_eq]
  exact ⟨@get_of_prefers _ _ .bytes _ _ rfl (by decide) _ (fun _ _ => rfl) _ rfl,
    @get_of_prefers _ _ .packets _ _ rfl (by decide) _ (fun _ _ => rfl) _ rfl⟩

/-- There are as many values of an element as fields of it. -/
theorem elementValues_length {id : ℕ} (hlength : fields.length = slices.length) :
    (elementValues [id] fields slices).length = fields.countP fun f => f.IsElement id := by
  induction fields generalizing slices with
  | nil => rfl
  | cons f fields ih =>
    cases slices with
    | nil => contradiction
    | cons bytes slices =>
      have hrest := ih (Nat.succ.inj hlength)
      rw [elementValues] at hrest ⊢
      rw [List.zip_cons_cons, List.filterMap_cons, List.countP_cons, ← hrest]
      by_cases hf : f.IsElement id <;> simp [hf]

/-- A single element has its value wherever it stands. -/
theorem elementValues_eq_of_perm {id : ℕ} (hsingle : (elementValues [id] fields slices).length = 1)
    {fields' : List FieldSpec} {slices' : List Bytes} (hperm : (fields'.zip slices').Perm (fields.zip slices)) :
    elementValues [id] fields' slices' = elementValues [id] fields slices := by
  obtain ⟨value, hvalue⟩ := List.length_eq_one_iff.mp hsingle
  have hvalues := hperm.filterMap fun r => if ∃ id' ∈ [id], r.1.IsElement id' then some r.2 else none
  rw [← elementValues, ← elementValues, hvalue] at hvalues
  rw [hvalue, List.perm_singleton.mp hvalues]

/-- A counter with a single delta count does not depend on the order of the fields. -/
theorem counterValue_eq_of_perm {delta : ℕ} (others : List ℕ)
    (hsingle : (elementValues [delta] fields slices).length = 1)
    {fields' : List FieldSpec} {slices' : List Bytes} (hperm : (fields'.zip slices').Perm (fields.zip slices)) :
    counterValue delta others fields' slices' = counterValue delta others fields slices := by
  obtain ⟨value, hvalue⟩ := List.length_eq_one_iff.mp hsingle
  rw [counterValue, counterValue, elementValues_eq_of_perm hsingle hperm, hvalue]
  rfl

/-- The counters of a row show their delta counts, the last one each, else the first of their other
elements. Where a template has a single delta count of bytes or of packets, no order of the fields and
values of a record changes the counter. -/
theorem decodeOneRecord_counters (tpl : TemplateEntry) (ctx : Ctx) {slices : List Bytes} {enc : Bytes}
    (h : RecordEncodes tpl.fields slices enc) (rest : Bytes) :
    ∃ row, decodeOneRecord tpl ⟨enc ++ rest⟩ ctx = some (row, ⟨rest⟩) ∧
      row.bytes = counterValue 1 [23, 85, 351, 352] tpl.fields slices ∧
      row.packets = counterValue 2 [24, 86] tpl.fields slices ∧
      ∀ (tpl' : TemplateEntry) (slices' : List Bytes) (enc' rest' : Bytes), RecordEncodes tpl'.fields slices' enc' →
        (tpl'.fields.zip slices').Perm (tpl.fields.zip slices) →
          ∃ row', decodeOneRecord tpl' ⟨enc' ++ rest'⟩ ctx = some (row', ⟨rest'⟩) ∧
            ((tpl.fields.countP fun f => f.IsElement 1) = 1 → row'.bytes = row.bytes) ∧
            ((tpl.fields.countP fun f => f.IsElement 2) = 1 → row'.packets = row.packets) := by
  obtain ⟨hbytes, hpackets⟩ := recordRow_counters ctx tpl.fields slices
  have hlength := (sliceFields_length (sliceFields_of_encodes h [])).symm
  refine ⟨_, decodeOneRecord_of_encodes h ctx rest, hbytes, hpackets, ?_⟩
  intro tpl' slices' enc' rest' h' hperm
  obtain ⟨hbytes', hpackets'⟩ := recordRow_counters ctx tpl'.fields slices'
  refine ⟨_, decodeOneRecord_of_encodes h' ctx rest', fun hsingle => ?_, fun hsingle => ?_⟩
  · rw [hbytes, hbytes']
    exact counterValue_eq_of_perm _ (by rw [elementValues_length hlength, hsingle]) hperm
  · rw [hpackets, hpackets']
    exact counterValue_eq_of_perm _ (by rw [elementValues_length hlength, hsingle]) hperm

/-- A template of a total and a delta count of bytes and a delta count of packets. -/
def sampleCounts : TemplateEntry :=
  { kind := .data, fields := [fieldSpec 0 1 2, fieldSpec 0 85 2, fieldSpec 0 2 1], scopeFieldCount := 0
    firstSeen := 0, lastSeen := 0, useCount := 0 }

/-- A header context for it. -/
def sampleCountsCtx : Ctx := ⟨"10.0.0.1", 7, .v10, some 5000000, some 1, none, 256⟩

theorem sampleCounts_encodes :
    RecordEncodes sampleCounts.fields [[1, 0], [9, 9], [3]] ([1, 0] ++ ([9, 9] ++ ([3] ++ []))) :=
  .cons (.fixed (by decide) rfl) (.cons (.fixed (by decide) rfl) (.cons (.fixed (by decide) rfl) .nil))

/-- A record of it shows the delta counts. -/
theorem decodeOneRecord_counters_sample :
    ∃ row, decodeOneRecord sampleCounts ⟨[1, 0, 9, 9, 3] ++ []⟩ sampleCountsCtx = some (row, ⟨[]⟩) ∧
      row.bytes = counterValue 1 [23, 85, 351, 352] sampleCounts.fields [[1, 0], [9, 9], [3]] ∧
      row.packets = counterValue 2 [24, 86] sampleCounts.fields [[1, 0], [9, 9], [3]] := by
  obtain ⟨row, hrow, hbytes, hpackets, -⟩ :=
    decodeOneRecord_counters sampleCounts sampleCountsCtx sampleCounts_encodes []
  exact ⟨row, hrow, hbytes, hpackets⟩

end Counters

section Addresses

variable {fields : List FieldSpec} {slices : List Bytes} {own : ℕ} {others : List ℕ}

/-- The address writes of some fields, each with its value. -/
def addressWrites (col : Column) (record : List (FieldSpec × Bytes)) : List (Write InetVal) :=
  record.filterMap fun r => if r.1.column = some col then some (.ofOption (inetOf r.1.ieId.toNat r.2)) else none

/-- The addresses that replace one before are those of the elements that hold a whole address. -/
theorem overwrites_addressWrites {col : Column} {record : List (FieldSpec × Bytes)}
    (hids : ∀ r ∈ record, ∀ id ∈ col.elements, r.1.IsElement id → id ∈ others) (hothers : others ⊆ col.elements) :
    overwrites (addressWrites col record) =
      (record.filter fun r => HoldsAddress others r).filterMap fun r => inetOf r.1.ieId.toNat r.2 := by
  rw [overwrites, addressWrites, List.filterMap_filterMap, List.filterMap_filter]
  apply List.filterMap_congr
  intro r hr
  have hsome := isSome_inetOf r.1.ieId.toNat r.2
  by_cases hr' : ∃ id ∈ others, r.1.IsElement id
  · have hholds : HoldsAddress others r ↔ r.2.length = inetLength r.1.ieId.toNat := by
      obtain ⟨id, hid, helement⟩ := hr'
      refine ⟨?_, fun hlength => ⟨id, hid, helement, helement.2 ▸ hlength⟩⟩
      rintro ⟨id', -, helement', hlength⟩
      rw [helement'.2, hlength]
    have hcolumn : r.1.column = some col := by
      obtain ⟨id, hid, helement⟩ := hr'
      exact FieldSpec.column_eq_some_iff.mpr ⟨id, hothers hid, helement⟩
    simp only [hcolumn, if_true, Option.bind_some, hholds, ← hsome]
    cases inetOf r.1.ieId.toNat r.2 <;> rfl
  · have hholds : ¬ HoldsAddress others r := by
      intro hholds
      obtain ⟨id, hid, helement, -⟩ := hholds
      exact hr' ⟨id, hid, helement⟩
    have hcolumn : r.1.column ≠ some col := by
      intro hcol
      obtain ⟨id, hid, helement⟩ := FieldSpec.column_eq_some_iff.mp hcol
      exact hr' ⟨id, hids r hr id hid helement, helement⟩
    simp only [hcolumn, if_false, Option.bind_none, hholds, decide_false, Bool.false_eq_true]

/-- Whole addresses are the same exactly if both are IPv4 and of the same bytes. -/
theorem inetOf_eq_inet4_iff {id : ℕ} {bytes address : Bytes} (hlength : bytes.length = inetLength id)
    (haddress : address.length = 4) : inetOf id bytes = inet4 address ↔ inetLength id = 4 ∧ bytes = address := by
  by_cases hid : id = 27 ∨ id = 131 ∨ id = 28 ∨ id = 62 ∨ id = 63
  · have hlong : inetLength id = 16 := if_pos hid
    have htype : inetOf id bytes ≠ inet4 address := by
      rw [inetOf, if_pos hid, inet6, if_pos (hlength.trans hlong), inet4, if_pos haddress]
      intro heq
      exact absurd (congrArg InetVal.ipType (Option.some.inj heq)) (show ¬ ipTypeV6 = ipTypeV4 by decide)
    simp [htype, hlong]
  · have hshort : inetLength id = 4 := if_neg hid
    rw [inetOf, if_neg hid, hshort]
    simp only [true_and]
    exact ⟨inet4_inj (hlength.trans hshort) haddress, congrArg inet4⟩

/-- An IPv4 address stays in its column exactly if the last whole address that is written, if one is, is the
same. -/
theorem run_addressWrites_iff {col : Column} {record : List (FieldSpec × Bytes)}
    (hids : ∀ r ∈ record, ∀ id ∈ col.elements, r.1.IsElement id → id ∈ others) (hothers : others ⊆ col.elements)
    {address : Bytes} (haddress : address.length = 4) :
    Register.run (addressWrites col record) (inet4 address) = inet4 address ↔
      ∀ r ∈ (record.filter fun r => HoldsAddress others r).getLast?,
        inetLength r.1.ieId.toNat = 4 ∧ r.2 = address := by
  rw [Register.run_eq, overwrites_addressWrites hids hothers]
  have hsome : ∃ value, inet4 address = some value := ⟨_, if_pos haddress⟩
  obtain ⟨value, hvalue⟩ := hsome
  rcases List.eq_nil_or_concat (record.filter fun r => HoldsAddress others r) with hnil | ⟨init, r, hlast⟩
  · simp [hnil, hvalue]
  · have hr : r ∈ record.filter fun r => HoldsAddress others r := by simp [hlast]
    obtain ⟨id, -, helement, hlength⟩ := of_decide_eq_true (List.mem_filter.mp hr).2
    rw [← helement.2] at hlength
    obtain ⟨written, hwritten⟩ := Option.isSome_iff_exists.mp ((isSome_inetOf r.1.ieId.toNat r.2).mpr hlength)
    have hiff := inetOf_eq_inet4_iff hlength haddress
    rw [hwritten] at hiff
    simp [hlast, hwritten, hiff]

/-- A record with a single field of an element is split there. -/
theorem exists_split_of_single (hlength : fields.length = slices.length)
    (hsingle : (fields.countP fun f => f.IsElement own) = 1) :
    ∃ before r after, fields.zip slices = before ++ r :: after ∧ r.1.IsElement own ∧
      (∀ r' ∈ after, ¬ r'.1.IsElement own) ∧ behindElement own fields slices = after ∧
        elementValues [own] fields slices = [r.2] := by
  have hcount : ((fields.zip slices).countP fun r => r.1.IsElement own) = 1 := by
    have hfst := @List.countP_map _ _ (fun f : FieldSpec => decide (f.IsElement own)) Prod.fst (fields.zip slices)
    rw [List.map_fst_zip hlength.le, hsingle] at hfst
    exact hfst.symm
  obtain ⟨r, hr, hown⟩ := List.countP_pos_iff.mp (hcount ▸ Nat.one_pos)
  obtain ⟨before, after, hsplit⟩ := List.append_of_mem hr
  rw [hsplit, List.countP_append, List.countP_cons, if_pos hown] at hcount
  have hbefore := List.countP_eq_zero.mp (show (before.countP fun r => r.1.IsElement own) = 0 by omega)
  have hafter := List.countP_eq_zero.mp (show (after.countP fun r => r.1.IsElement own) = 0 by omega)
  simp only [decide_eq_true_eq] at hown hbefore hafter
  refine ⟨before, r, after, hsplit, hown, hafter, ?_, ?_⟩
  · rw [behindElement, hsplit, List.dropWhile_append_of_pos (by simpa using hbefore), List.dropWhile_cons_of_neg
      (by simp [hown]), List.tail_cons]
  · have hvalues : ∀ record : List (FieldSpec × Bytes), (∀ r ∈ record, ¬ r.1.IsElement own) →
        record.filterMap (fun r => if ∃ id ∈ [own], r.1.IsElement id then some r.2 else none) = [] := by
      intro record hnone
      rw [List.filterMap_eq_nil_iff]
      intro r' hr'
      simp [hnone r' hr']
    rw [elementValues, hsplit, List.filterMap_append, List.filterMap_cons_some (b := r.2) (by simp [hown]),
      hvalues before hbefore, hvalues after hafter, List.nil_append]

/-- The address of a single element is what its column shows exactly if it outlasts the others. -/
theorem run_own_iff {col : Column} (hlength : fields.length = slices.length)
    (hsingle : (fields.countP fun f => f.IsElement own) = 1) (hown : own ∈ col.elements)
    (hread : ∀ bytes, inetOf own bytes = inet4 bytes) (hothers : others ⊆ col.elements)
    (hids : ∀ f ∈ fields, ∀ id ∈ col.elements, f.IsElement id → id = own ∨ id ∈ others)
    (hfour : ∀ r ∈ fields.zip slices, r.1.IsElement own → r.2.length = 4) :
    (∀ bytes ∈ elementValues [own] fields slices,
        Register.run (addressWrites col (fields.zip slices)) none = inet4 bytes) ↔
      Outlasts own others fields slices := by
  obtain ⟨before, r, after, hsplit, helement, hafter, hbehind, hvalues⟩ := exists_split_of_single hlength hsingle
  have hr : r ∈ fields.zip slices := by simp [hsplit]
  have haddress := hfour r hr helement
  have hcolumn : r.1.column = some col := FieldSpec.column_eq_some_iff.mpr ⟨own, hown, helement⟩
  have hids' : ∀ r' ∈ after, ∀ id ∈ col.elements, r'.1.IsElement id → id ∈ others := by
    intro r' hr' id hid helement'
    have hmem : r' ∈ fields.zip slices := by simp [hsplit, hr']
    rcases hids r'.1 (List.of_mem_zip hmem).1 id hid helement' with rfl | hother
    · exact absurd helement' (hafter r' hr')
    · exact hother
  have hwrites : addressWrites col (fields.zip slices) =
      addressWrites col before ++ .ofOption (inet4 r.2) :: addressWrites col after := by
    rw [hsplit, addressWrites, List.filterMap_append, ← addressWrites, List.filterMap_cons_some
      (b := .ofOption (inet4 r.2)) (by rw [if_pos hcolumn, helement.2, hread]), ← addressWrites]
  obtain ⟨value, hvalue⟩ : ∃ value, inet4 r.2 = some value := ⟨_, if_pos haddress⟩
  have hshown := run_addressWrites_iff hids' hothers haddress
  rw [Outlasts, hbehind, hvalues, List.forall_mem_singleton, hwrites, Register.run_append, Register.run_cons,
    Write.apply_ofOption]
  simp only [List.mem_singleton]
  rw [← hshown, hvalue, Option.some_or]

/-- A row has the addresses of its flow exactly if no other address outlasts them: none of the exporter
behind the source, and none behind the translation behind the destination. -/
theorem ownAddresses_iff (tpl : TemplateEntry) (ctx : Ctx) {slices : List Bytes} {enc : Bytes}
    (h : RecordEncodes tpl.fields slices enc) (rest : Bytes)
    (hsrc : (tpl.fields.countP fun f => f.IsElement 8) = 1) (hdst : (tpl.fields.countP fun f => f.IsElement 12) = 1)
    (hfour : ∀ f ∈ tpl.fields, f.IsElement 8 ∨ f.IsElement 12 → f.length = 4)
    (hsix : ∀ f ∈ tpl.fields, ¬ f.IsElement 27 ∧ ¬ f.IsElement 28) :
    ∃ row, decodeOneRecord tpl ⟨enc ++ rest⟩ ctx = some (row, ⟨rest⟩) ∧
      (((∀ bytes ∈ elementValues [8] tpl.fields slices, row.srcAddr = inet4 bytes) ∧
          ∀ bytes ∈ elementValues [12] tpl.fields slices, row.dstAddr = inet4 bytes) ↔
        Outlasts 8 [130, 131] tpl.fields slices ∧ Outlasts 12 [226] tpl.fields slices) := by
  refine ⟨_, decodeOneRecord_of_encodes h ctx rest, ?_⟩
  have hsliced := sliceFields_of_encodes h []
  have hlength := (sliceFields_length hsliced).symm
  have hcarries := List.forall₂_iff_zip.mp (carries_of_sliceFields hsliced)
  have hbytes : ∀ r ∈ tpl.fields.zip slices, r.1.IsElement 8 ∨ r.1.IsElement 12 → r.2.length = 4 := by
    intro r hr helement
    have hdeclared := hfour r.1 (List.of_mem_zip hr).1 helement
    have hr' : r.1.Carries r.2 := hcarries.2 hr
    simpa [FieldSpec.Carries, FieldSpec.isVariable, hdeclared] using hr'
  have hsrcIds : ∀ f ∈ tpl.fields, ∀ id ∈ Column.srcAddr.elements, f.IsElement id → id = 8 ∨ id ∈ [130, 131] := by
    intro f hf id hid helement
    have hne : id ≠ 27 := fun heq => (hsix f hf).1 (heq ▸ helement)
    simp only [Column.elements, List.mem_cons, List.not_mem_nil, or_false] at hid ⊢
    omega
  have hdstIds : ∀ f ∈ tpl.fields, ∀ id ∈ Column.dstAddr.elements, f.IsElement id → id = 12 ∨ id ∈ [226] := by
    intro f hf id hid helement
    have hne : id ≠ 28 := fun heq => (hsix f hf).2 (heq ▸ helement)
    simp only [Column.elements, List.mem_cons, List.not_mem_nil, or_false] at hid ⊢
    omega
  have hsrcAddr : (ctx.recordRow tpl.fields slices).srcAddr =
      Register.run (addressWrites .srcAddr (tpl.fields.zip slices)) none := by
    rw [Ctx.recordRow, resolveTimes_eq]
    exact mapFields_get _ _ _ .srcAddr
  have hdstAddr : (ctx.recordRow tpl.fields slices).dstAddr =
      Register.run (addressWrites .dstAddr (tpl.fields.zip slices)) none := by
    rw [Ctx.recordRow, resolveTimes_eq]
    exact mapFields_get _ _ _ .dstAddr
  rw [hsrcAddr, hdstAddr]
  exact and_congr
    (run_own_iff hlength hsrc (by decide) (fun _ => rfl) (by decide) hsrcIds fun r hr h8 => hbytes r hr (.inl h8))
    (run_own_iff hlength hdst (by decide) (fun _ => rfl) (by decide) hdstIds fun r hr h12 => hbytes r hr (.inr h12))

/-- A template of the addresses of a flow and of its exporter. -/
def sampleExporter : TemplateEntry :=
  { kind := .data, fields := [fieldSpec 0 130 4, fieldSpec 0 8 4, fieldSpec 0 12 4], scopeFieldCount := 0
    firstSeen := 0, lastSeen := 0, useCount := 0 }

theorem sampleExporter_encodes :
    RecordEncodes sampleExporter.fields [[10, 0, 0, 9], [10, 0, 0, 1], [10, 0, 0, 2]]
      ([10, 0, 0, 9] ++ ([10, 0, 0, 1] ++ ([10, 0, 0, 2] ++ []))) :=
  .cons (.fixed (by decide) rfl) (.cons (.fixed (by decide) rfl) (.cons (.fixed (by decide) rfl) .nil))

/-- The address of the exporter before that of the flow. -/
theorem ownAddresses_iff_before :
    ∃ row, decodeOneRecord sampleExporter ⟨[10, 0, 0, 9, 10, 0, 0, 1, 10, 0, 0, 2] ++ []⟩ sampleCountsCtx =
        some (row, ⟨[]⟩) ∧
      (((∀ bytes ∈ elementValues [8] sampleExporter.fields [[10, 0, 0, 9], [10, 0, 0, 1], [10, 0, 0, 2]],
            row.srcAddr = inet4 bytes) ∧
          ∀ bytes ∈ elementValues [12] sampleExporter.fields [[10, 0, 0, 9], [10, 0, 0, 1], [10, 0, 0, 2]],
            row.dstAddr = inet4 bytes) ↔
        Outlasts 8 [130, 131] sampleExporter.fields [[10, 0, 0, 9], [10, 0, 0, 1], [10, 0, 0, 2]] ∧
          Outlasts 12 [226] sampleExporter.fields [[10, 0, 0, 9], [10, 0, 0, 1], [10, 0, 0, 2]]) :=
  ownAddresses_iff sampleExporter sampleCountsCtx sampleExporter_encodes [] (by decide) (by decide) (by decide)
    (by decide)

/-- The address of the exporter behind that of the flow takes its place. -/
theorem not_forall_ownAddresses :
    ¬ ∀ (tpl : TemplateEntry) (ctx : Ctx) (slices : List Bytes) (enc rest : Bytes),
      RecordEncodes tpl.fields slices enc → (tpl.fields.countP fun f => f.IsElement 8) = 1 →
        (tpl.fields.countP fun f => f.IsElement 12) = 1 →
          (∀ f ∈ tpl.fields, f.IsElement 8 ∨ f.IsElement 12 → f.length = 4) →
            (∀ f ∈ tpl.fields, ¬ f.IsElement 27 ∧ ¬ f.IsElement 28) →
              ∃ row, decodeOneRecord tpl ⟨enc ++ rest⟩ ctx = some (row, ⟨rest⟩) ∧
                (∀ bytes ∈ elementValues [8] tpl.fields slices, row.srcAddr = inet4 bytes) ∧
                  ∀ bytes ∈ elementValues [12] tpl.fields slices, row.dstAddr = inet4 bytes := by
  intro h
  have hencodes : RecordEncodes sampleExporter.fields.reverse [[10, 0, 0, 2], [10, 0, 0, 1], [10, 0, 0, 9]]
      ([10, 0, 0, 2] ++ ([10, 0, 0, 1] ++ ([10, 0, 0, 9] ++ []))) :=
    .cons (.fixed (by decide) rfl) (.cons (.fixed (by decide) rfl) (.cons (.fixed (by decide) rfl) .nil))
  obtain ⟨row, hrow, hsrc, -⟩ := h { sampleExporter with fields := sampleExporter.fields.reverse } sampleCountsCtx _ _
    [] hencodes (by decide) (by decide) (by decide) (by decide)
  have hshown : (decodeOneRecord { sampleExporter with fields := sampleExporter.fields.reverse }
      ⟨[10, 0, 0, 2, 10, 0, 0, 1, 10, 0, 0, 9]⟩ sampleCountsCtx).map (·.1.srcAddr) = some (inet4 [10, 0, 0, 9]) := by
    decide +kernel
  have hrow' := congrArg (Option.map (·.1.srcAddr)) hrow
  rw [show [10, 0, 0, 2] ++ ([10, 0, 0, 1] ++ ([10, 0, 0, 9] ++ [])) ++ [] =
    ([10, 0, 0, 2, 10, 0, 0, 1, 10, 0, 0, 9] : Bytes) from rfl, hshown] at hrow'
  have hown := hsrc [10, 0, 0, 1] (by decide)
  rw [Option.map_some, Option.some_inj, hown] at hrow'
  exact absurd (inet4_inj rfl rfl hrow') (by decide)

end Addresses

end Netflow
