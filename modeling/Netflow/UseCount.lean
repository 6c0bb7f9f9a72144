import Netflow.Decode.Columns
import Netflow.Decoded
import Netflow.Eviction
import Netflow.FlowsOnly

/-!
# What the use count counts

A template is used once for each Data Set of a datagram that is decoded against it, and once for
everything that was buffered for it, however many data records these hold. So its use count tells
the data records decoded against it as long as each call uses it as often as it decodes records.
-/

namespace Netflow

open Std (ExtTreeMap)

section Definitions

/-- The number of data records in a payload, for at most the given number of rounds. -/
def recordCount (tpl : TemplateEntry) : ℕ → Cursor → ℕ
  | 0, _ => 0
  | rounds + 1, cur =>
    if cur.remaining = 0 then 0
    else if 0 < minFixed tpl ∧ cur.remaining < minFixed tpl then 0
    else match sliceFields tpl.fields cur with
      | none => 0
      | some (_, cur') => if cur'.remaining = cur.remaining then 1 else recordCount tpl rounds cur' + 1

/-- The number of data records in a Data Set. -/
def TemplateEntry.records (tpl : TemplateEntry) (rec : PendingRecord) : ℕ :=
  recordCount tpl rec.bytes.length (.new rec.bytes)

/-- The exporter, the domain and the template id that a row shows. -/
def FlowRecord.origin (row : FlowRecord) : String × UInt32 × Option UInt16 :=
  (row.exporter, row.obsDomain, row.templateId)

/-- Whether a row is a data record decoded against the template of a key. -/
def TemplateKey.hasRecord (key : TemplateKey) (row : FlowRecord) : Bool :=
  row.origin = (key.exporter, key.obsDomain, some key.templateId) ∧ row.diagnostics ≠ some "truncated"

/-- The number of data records an origin has of a key. -/
def Emission.records (key : TemplateKey) : Emission → ℕ
  | .dataSet k tpl rec => if k = key then tpl.records rec else 0
  | .row _ | .counterSample _ | .missing _ _ _ => 0

/-- Whether the rows of an origin without a template show no template id. -/
def Emission.isAnonymous : Emission → Bool
  | .row record | .counterSample record => record.templateId.isNone
  | .dataSet _ _ _ | .missing _ _ _ => true

/-- The Data Sets that a call decodes against the template of a key, if there is one: those of its datagram, and
those buffered if it ends with a retry. -/
def Call.presented (call : Call) (c : TemplateCache) (key : TemplateKey) : List PendingRecord :=
  (call.arrivals.filter (·.1 = key)).map (·.2) ++ if call.retries then (c.pending[key]?).getD [] else []

/-- How often a call uses the template of a key, if there is one: once for each Data Set of its datagram, and
once for all those buffered. -/
def Call.uses (call : Call) (c : TemplateCache) (key : TemplateKey) : ℕ :=
  call.arrivals.countP (·.1 = key) + if call.retries ∧ key ∈ c.pending then 1 else 0

/-- Whether a call uses the template of a key as often as it decodes data records against it, and its count can
tell. -/
def Call.UsesForRecords (key : TemplateKey) (call : Call) (c : TemplateCache) : Prop :=
  ∀ tpl, (call.pass1 c).entries[key]? = some tpl →
    call.uses c key = ((call.presented c key).map tpl.records).sum ∧ tpl.useCount.toNat + call.uses c key < 2 ^ 64

/-- Whether a key stays cached while definitions are learned. -/
def KeepsLearning (key : TemplateKey) (exporter : String) (obsDomain : UInt32) (now : Int64) :
    List TemplateDef → TemplateCache → Prop
  | [], _ => True
  | d :: defs, c =>
    (key ∈ c.inserted (d.key exporter obsDomain) (d.entry now) →
        key ∈ (c.upsert (d.key exporter obsDomain) (d.entry now)).entries) ∧
      KeepsLearning key exporter obsDomain now defs (c.upsert (d.key exporter obsDomain) (d.entry now))

/-- Whether a call does not evict the template of a key. -/
def Call.Keeps (key : TemplateKey) (call : Call) (c : TemplateCache) : Prop :=
  match call.parsed with
  | some (fmt, ctx, sets) =>
    KeepsLearning key ctx.exporter ctx.obsDomain call.opts.nowMicros (fmt.definitions sets) c
  | none => True

instance (key : TemplateKey) (call : Call) (c : TemplateCache) : Decidable (call.UsesForRecords key c) :=
  inferInstanceAs (Decidable (∀ tpl ∈ (call.pass1 c).entries[key]?, _ ∧ _))

instance KeepsLearning.decidable (key : TemplateKey) (exporter : String) (obsDomain : UInt32) (now : Int64) :
    (defs : List TemplateDef) → (c : TemplateCache) → Decidable (KeepsLearning key exporter obsDomain now defs c)
  | [], _ => .isTrue trivial
  | _ :: defs, _ => @instDecidableAnd _ _ inferInstance (decidable key exporter obsDomain now defs _)

instance (key : TemplateKey) (call : Call) (c : TemplateCache) : Decidable (call.Keeps key c) :=
  decidable_of_iff (∀ p ∈ call.parsed, KeepsLearning key p.2.1.exporter p.2.1.obsDomain call.opts.nowMicros
    (p.1.definitions p.2.2) c) (by unfold Call.Keeps; cases call.parsed <;> simp)

/-- Whether every call of a run is as asked in the state the ones before it leave. -/
def EveryCall (good : Call → TemplateCache → Prop) : List Call → TemplateCache → Prop
  | [], _ => True
  | call :: calls, cache => good call cache ∧ EveryCall good calls (call.decode cache).2

instance EveryCall.decidable {good : Call → TemplateCache → Prop} [∀ call c, Decidable (good call c)] :
    (calls : List Call) → (c : TemplateCache) → Decidable (EveryCall good calls c)
  | [], _ => .isTrue trivial
  | _ :: calls, _ => @instDecidableAnd _ _ inferInstance (decidable calls _)

/-- The use count of a key, none if it is not cached. -/
def TemplateCache.useCount (c : TemplateCache) (key : TemplateKey) : UInt64 :=
  (c.entries[key]?).elim 0 TemplateEntry.useCount

end Definitions

section Records

/-- How many records a payload has is a matter of the layout alone. -/
theorem recordCount_congr {tpl tpl' : TemplateEntry} (h : tpl.fields = tpl'.fields) (rounds : ℕ) (cur : Cursor) :
    recordCount tpl rounds cur = recordCount tpl' rounds cur := by
  have hmin : minFixed tpl = minFixed tpl' := by rw [minFixed, minFixed, h]
  induction rounds generalizing cur with
  | zero => rfl
  | succ rounds ih => simp only [recordCount, h, hmin, ih]

/-- How many records a Data Set has is a matter of the layout alone. -/
theorem TemplateEntry.records_congr {tpl tpl' : TemplateEntry} (h : tpl.fields = tpl'.fields) :
    tpl.records = tpl'.records := by
  funext rec
  exact recordCount_congr h _ _

/-- Mapping a field leaves the origin of the row. -/
theorem mapField_origin (p : PartialRecord) (f : FieldSpec) (bytes : Bytes) :
    (mapField p f bytes).row.origin = p.row.origin := by
  rw [mapField_eq]
  cases f.column with
  | some col => cases col <;> rfl
  | none =>
    obtain ⟨diagnostics, hkept⟩ := keepRaw_eq p f bytes
    rw [hkept]
    rfl

/-- Mapping the fields of a record leaves the origin of the row. -/
theorem decodeFields_origin {fields : List FieldSpec} {p p' : PartialRecord} {c c' : Cursor}
    (h : decodeFields fields p c = some (p', c')) : p'.row.origin = p.row.origin := by
  induction fields generalizing p c with
  | nil =>
    cases h
    rfl
  | cons f fields ih =>
    rw [decodeFields_cons] at h
    obtain ⟨⟨bytes, c₁⟩, -, h⟩ := Option.bind_eq_some_iff.mp h
    exact (ih h).trans (mapField_origin p f bytes)

/-- A record shows the key of its template and is no cut one. -/
theorem hasRecord_of_decodeOneRecord {tpl : TemplateEntry} {ctx : Ctx} {cur cur' : Cursor} {row : FlowRecord}
    (h : decodeOneRecord tpl cur ctx = some (row, cur')) (key : TemplateKey) :
    key.hasRecord row = decide (ctx.key ctx.templateId = key) := by
  obtain ⟨⟨p, c⟩, hfields, hrow⟩ := Option.bind_eq_some_iff.mp h
  cases hrow
  have hdiagnostics := decodeFields_diagnostics hfields (.inl rfl)
  have hresolved : (resolveTimes p ctx).origin = p.row.origin := by
    unfold resolveTimes
    split <;> rfl
  have hnote : p.row.diagnostics ≠ some "truncated" := by
    rcases hdiagnostics with hdiag | hdiag <;> simp [hdiag]
  rw [TemplateKey.hasRecord, hresolved, decodeFields_origin hfields]
  obtain ⟨exporter, obsDomain, templateId⟩ := key
  simp [hnote, Ctx.key, Ctx.baseRecord, FlowRecord.origin]

/-- The rows of a payload that are data records of a key, as many as there are in it. -/
theorem countP_decodeRecords (tpl : TemplateEntry) (ctx : Ctx) (key : TemplateKey) (rounds : ℕ) (cur : Cursor) :
    (decodeRecords tpl ctx rounds cur).countP key.hasRecord =
      if ctx.key ctx.templateId = key then recordCount tpl rounds cur else 0 := by
  induction rounds generalizing cur with
  | zero => simp [decodeRecords, recordCount]
  | succ rounds ih =>
    rw [decodeRecords, recordCount]
    by_cases hend : cur.remaining = 0
    · simp [hend]
    · by_cases hshort : 0 < minFixed tpl ∧ cur.remaining < minFixed tpl
      · simp [hend, hshort]
      · rw [if_neg hend, if_neg hshort, if_neg hend, if_neg hshort]
        have hslices := decodeOneRecord_eq tpl cur ctx
        cases hone : decodeOneRecord tpl cur ctx with
        | none =>
          rw [hone, eq_comm, Option.map_eq_none_iff] at hslices
          simp [hslices, TemplateKey.hasRecord, Ctx.truncated, FlowRecord.diagnostic]
        | some found =>
          obtain ⟨row, cur'⟩ := found
          rw [hone, eq_comm, Option.map_eq_some_iff] at hslices
          obtain ⟨sliced, hslices, heq⟩ := hslices
          cases heq
          have hrow := hasRecord_of_decodeOneRecord hone key
          simp only [hslices]
          by_cases hkey : ctx.key ctx.templateId = key
          · simp only [hkey, decide_true] at hrow
            split <;> simp [hrow, ih, hkey]
          · simp only [hkey, decide_false] at hrow
            split <;> simp [hrow, ih, hkey]

/-- The rows of an origin that are data records of a key. -/
theorem Emission.countP_rows {e : Emission} (h : e.isAnonymous) (key : TemplateKey) :
    (e.rows false).countP key.hasRecord = e.records key := by
  cases e with
  | dataSet k tpl rec =>
    rw [rows, decodeDataSet, if_neg (by simp), countP_decodeRecords, records]
    rfl
  | missing k rec version => simp [rows, records, TemplateKey.hasRecord, missingTemplate, FlowRecord.diagnostic,
      FlowRecord.origin]
  | row record | counterSample record =>
    simp only [isAnonymous, Option.isNone_iff_eq_none] at h
    simp [rows, records, TemplateKey.hasRecord, FlowRecord.origin, h]

end Records

section Passes

variable {c c' : TemplateCache} {trace : List Emission} {now : Int64}

/-- Using a template counts one use of it, and leaves its layout. -/
theorem TemplateCache.getElem?_useTemplate {used : TemplateKey} {tpl : TemplateEntry}
    (huse : c.useTemplate used now = some (tpl, c')) (key : TemplateKey) :
    c'.entries[key]? = if used = key then some tpl else c.entries[key]? := by
  obtain ⟨e, -, -, rfl⟩ := TemplateCache.useTemplate_eq_some.mp huse
  simp only [ExtTreeMap.getElem?_insert, Std.LawfulEqCmp.compare_eq_iff_eq]

/-- What is read off the entry of a key is not changed by what holds of a key without entry. -/
theorem TemplateCache.entry_congr {c : TemplateCache} {β : Type} {absent key : TemplateKey}
    (habsent : absent ∉ c.entries) {F G : Option TemplateEntry → β} (hnone : F none = G none)
    (hsame : absent ≠ key → ∀ e, F (some e) = G (some e)) : F (c.entries[key]?) = G (c.entries[key]?) := by
  by_cases hkey : absent = key
  · rwa [← hkey, ExtTreeMap.getElem?_eq_none habsent]
  · cases c.entries[key]? with
    | none => exact hnone
    | some e => exact hsame hkey e

/-- Pass 2 counts a use for each Data Set of a key with a template. -/
theorem Settles.useCount_eq {ctx : Ctx} {sets : List FlowSet} (h : Settles ctx now sets c trace c')
    (key : TemplateKey) :
    (c'.entries[key]?).map TemplateEntry.useCount =
      (c.entries[key]?).map (·.useCount + .ofNat ((ctx.arrivals sets).countP (·.1 = key))) := by
  induction h with
  | nil => simp [Ctx.arrivals]
  | skip hid _ ih => rw [ih, Ctx.arrivals_cons_of_lt hid]
  | @known fs sets c c₁ c' trace tpl hid huse _ ih =>
    rw [ih, TemplateCache.getElem?_useTemplate huse, Ctx.arrivals_cons_of_not_lt hid, List.countP_cons]
    obtain ⟨e, he, rfl, -⟩ := TemplateCache.useTemplate_eq_some.mp huse
    by_cases hkey : ctx.key fs.id = key
    · subst hkey
      simp only [if_true, he, Option.map_some, decide_true, UInt64.ofNat_add, UInt64.ofNat_one,
        UInt64.add_assoc, UInt64.add_comm 1]
    · simp [hkey]
  | @stored fs sets c c₁ c' trace hid habsent hpush _ ih =>
    obtain rfl := TemplateCache.eq_of_pushPending hpush
    rw [ih, Ctx.arrivals_cons_of_not_lt hid, List.countP_cons]
    refine TemplateCache.entry_congr (F := Option.map _) (G := Option.map _) habsent rfl fun hother e => ?_
    simp [hother]
  | @refused fs sets c c' trace hid habsent _ _ ih =>
    rw [ih, Ctx.arrivals_cons_of_not_lt hid, List.countP_cons]
    refine TemplateCache.entry_congr (F := Option.map _) (G := Option.map _) habsent rfl fun hother e => ?_
    simp [hother]

/-- Pass 2 decodes the Data Sets of a key with a template. -/
theorem Settles.sum_records {ctx : Ctx} {sets : List FlowSet} (h : Settles ctx now sets c trace c')
    (key : TemplateKey) :
    (trace.map (Emission.records key)).sum = (c.entries[key]?).elim 0 fun tpl =>
      (((ctx.arrivals sets).filter (·.1 = key)).map (tpl.records ·.2)).sum := by
  induction h with
  | nil c => cases c.entries[key]? <;> simp [Ctx.arrivals]
  | skip hid _ ih => rw [ih, Ctx.arrivals_cons_of_lt hid]
  | @known fs sets c c₁ c' trace tpl hid huse _ ih =>
    rw [List.map_cons, List.sum_cons, ih, TemplateCache.getElem?_useTemplate huse,
      Ctx.arrivals_cons_of_not_lt hid, Emission.records]
    obtain ⟨e, he, rfl, -⟩ := TemplateCache.useTemplate_eq_some.mp huse
    by_cases hkey : ctx.key fs.id = key
    · subst hkey
      have hsame : ({ e with useCount := e.useCount + 1, lastSeen := now } : TemplateEntry).records = e.records :=
        TemplateEntry.records_congr rfl
      simp only [if_true, he, Option.elim_some, decide_true, List.filter_cons_of_pos, List.map_cons, List.sum_cons,
        hsame]
    · simp [hkey]
  | @stored fs sets c c₁ c' trace hid habsent hpush _ ih =>
    obtain rfl := TemplateCache.eq_of_pushPending hpush
    rw [ih, Ctx.arrivals_cons_of_not_lt hid]
    refine TemplateCache.entry_congr (F := (·.elim 0 _)) (G := (·.elim 0 _)) habsent rfl fun hother e => ?_
    simp [hother]
  | @refused fs sets c c' trace hid habsent _ _ ih =>
    rw [List.map_cons, List.sum_cons, ih, Ctx.arrivals_cons_of_not_lt hid, Emission.records, Nat.zero_add]
    refine TemplateCache.entry_congr (F := (·.elim 0 _)) (G := (·.elim 0 _)) habsent rfl fun hother e => ?_
    simp [hother]

/-- The retry counts a use of each key with a template. -/
theorem Retries.useCount_eq {keys : List TemplateKey} (h : Retries now keys c trace c') (hnodup : keys.Nodup)
    (key : TemplateKey) :
    (c'.entries[key]?).map TemplateEntry.useCount =
      (c.entries[key]?).map (·.useCount + if key ∈ keys then 1 else 0) := by
  induction h with
  | nil => simp
  | @skip used keys c c' trace habsent _ ih =>
    rw [ih (List.nodup_cons.mp hnodup).2]
    refine TemplateCache.entry_congr (F := Option.map _) (G := Option.map _) habsent rfl fun hother e => ?_
    simp [Ne.symm hother]
  | @release used keys c c₁ c' trace tpl huse _ ih =>
    obtain ⟨hnotMem, hnodup⟩ := List.nodup_cons.mp hnodup
    rw [ih hnodup, TemplateCache.takePending_entries, TemplateCache.getElem?_useTemplate huse]
    obtain ⟨e, he, rfl, -⟩ := TemplateCache.useTemplate_eq_some.mp huse
    by_cases hkey : used = key
    · subst hkey
      simp [he, hnotMem]
    · simp [hkey, Ne.symm hkey]

/-- The retry decodes what is buffered for each key with a template. -/
theorem Retries.sum_records {keys : List TemplateKey} (h : Retries now keys c trace c') (hnodup : keys.Nodup)
    (key : TemplateKey) :
    (trace.map (Emission.records key)).sum = (c.entries[key]?).elim 0 fun tpl =>
      if key ∈ keys then (((c.pending[key]?).getD []).map tpl.records).sum else 0 := by
  induction h with
  | nil c => cases c.entries[key]? <;> simp
  | @skip used keys c c' trace habsent _ ih =>
    rw [ih (List.nodup_cons.mp hnodup).2]
    refine TemplateCache.entry_congr (F := (·.elim 0 _)) (G := (·.elim 0 _)) habsent rfl fun hother e => ?_
    simp [Ne.symm hother]
  | @release used keys c c₁ c' trace tpl huse _ ih =>
    obtain ⟨hnotMem, hnodup⟩ := List.nodup_cons.mp hnodup
    have hpending : c₁.pending = c.pending := by
      obtain ⟨e, -, -, rfl⟩ := TemplateCache.useTemplate_eq_some.mp huse
      rfl
    rw [List.map_append, List.sum_append, ih hnodup, TemplateCache.takePending_entries,
      TemplateCache.getElem?_useTemplate huse, TemplateCache.takePending_pending, hpending, List.map_map,
      TemplateCache.takePending, hpending]
    obtain ⟨e, he, rfl, -⟩ := TemplateCache.useTemplate_eq_some.mp huse
    have hsame : ({ e with useCount := e.useCount + 1, lastSeen := now } : TemplateEntry).records = e.records :=
      TemplateEntry.records_congr rfl
    by_cases hkey : used = key
    · subst hkey
      have hreleased : ∀ rec, Emission.records used (.dataSet used
          { e with useCount := e.useCount + 1, lastSeen := now } rec) = e.records rec := by
        intro rec
        rw [Emission.records, if_pos rfl, hsame]
      simp [he, hnotMem, Function.comp_def, hreleased]
    · have hother : ∀ rec, Emission.records key (.dataSet used
          { e with useCount := e.useCount + 1, lastSeen := now } rec) = 0 := fun rec => if_neg hkey
      simp [hkey, Ne.symm hkey, Function.comp_def, hother, ExtTreeMap.getElem?_erase]

end Passes

section Calls

variable (call : Call) (c : TemplateCache) (key : TemplateKey)

/-- The passes of a call leave the queue of a key with a template. -/
theorem Call.passes_pending (hmem : key ∈ (call.pass1 c).entries) :
    (call.passes c).2.pending[key]? = c.pending[key]? :=
  ((@Call.forall_passes (fun _ => True) (fun _ _ _ _ _ => Iff.rfl) (fun _ _ _ => trivial) call c).2 key
    ⟨none, none, .v9, none, []⟩).2 hmem

/-- The passes of a call leave the layouts that pass 1 has learned. -/
theorem Call.passes_known : (call.passes c).2.binding.known = (call.pass1 c).binding.known := by
  rcases call.passes_cases c with ⟨hparsed, hpasses⟩ | ⟨fmt, ctx, sets, trace, c', hparsed, hsettles, hpasses⟩
  · rw [hpasses, (Call.of_parsed_eq_none hparsed c).1]
  · rw [hpasses, hsettles.known_eq]
    simp only [Call.pass1, hparsed, learnSets_eq]

/-- The passes of a call count a use for each Data Set of a key with a template, and decode it. -/
theorem Call.passes_uses :
    ((call.passes c).2.entries[key]?).map TemplateEntry.useCount =
        ((call.pass1 c).entries[key]?).map (·.useCount + .ofNat (call.arrivals.countP (·.1 = key))) ∧
      ((call.passes c).1.map (Emission.records key)).sum = ((call.pass1 c).entries[key]?).elim 0 fun tpl =>
        ((call.arrivals.filter (·.1 = key)).map (tpl.records ·.2)).sum := by
  rcases call.passes_cases c with ⟨hparsed, hpasses⟩ | ⟨fmt, ctx, sets, trace, c', hparsed, hsettles, hpasses⟩
  · obtain ⟨hpass1, harrivals⟩ := Call.of_parsed_eq_none hparsed c
    have hnone : ∀ e ∈ call.statelessTrace, e.records key = 0 := by
      intro e he
      obtain ⟨record, rfl | rfl, -⟩ := Call.exists_row_of_mem_statelessTrace he <;> rfl
    rw [hpasses, hpass1, harrivals, List.sum_eq_zero (by simpa using hnone)]
    cases c.entries[key]? <;> simp
  · have hpass1 : call.pass1 c =
        learnDefs ctx.exporter ctx.obsDomain call.opts.nowMicros (fmt.definitions sets) c := by
      simp only [Call.pass1, hparsed, learnSets_eq]
    simp only [Call.arrivals, hparsed]
    rw [hpasses, hpass1]
    exact ⟨hsettles.useCount_eq key, hsettles.sum_records key⟩

/-- A call counts its uses of every template, and decodes the Data Sets before it. -/
theorem Call.trace_uses :
    ((call.trace c).2.entries[key]?).map TemplateEntry.useCount =
        ((call.pass1 c).entries[key]?).map (·.useCount + .ofNat (call.uses c key)) ∧
      ((call.trace c).1.map (Emission.records key)).sum = ((call.pass1 c).entries[key]?).elim 0 fun tpl =>
        ((call.presented c key).map tpl.records).sum := by
  obtain ⟨hcount, hsum⟩ := call.passes_uses c key
  by_cases hretries : call.retries
  · have hretried :=
      retryKeysTrace_retries call.opts.nowMicros (call.passes c).2.pendingKeys (call.passes c).2
    have hknown := congrFun (call.passes_known c) key
    simp only [TemplateCache.binding] at hknown
    rw [Call.trace_of_retries hretries, List.map_append, List.sum_append,
      hretried.useCount_eq ExtTreeMap.nodup_keys, hretried.sum_records ExtTreeMap.nodup_keys, hsum]
    cases htpl : (call.pass1 c).entries[key]? with
    | none =>
      rw [htpl, Option.map_none, Option.map_eq_none_iff] at hknown
      simp [hknown]
    | some tpl =>
      obtain ⟨used, hused, hlayout⟩ := Option.map_eq_some_iff.mp (hknown.trans (congrArg _ htpl))
      have hsame : used.records = tpl.records := TemplateEntry.records_congr (congrArg Layout.fields hlayout)
      have hpending := call.passes_pending c key (KeyedQueue.mem_of_getElem? htpl)
      have hmem : key ∈ (call.passes c).2.pendingKeys ↔ key ∈ c.pending := by
        rw [TemplateCache.pendingKeys, ExtTreeMap.mem_keys, ExtTreeMap.mem_iff_isSome_getElem?, hpending,
          ExtTreeMap.mem_iff_isSome_getElem?]
      rw [hused, htpl] at hcount
      have hcount := Option.some.inj hcount
      simp only [hused, Option.map_some, hmem, hcount, uses, hretries, true_and, UInt64.ofNat_add, UInt64.add_assoc,
        Option.elim_some, presented, List.map_append, List.sum_append, hsame, hpending, if_true, List.map_map,
        Function.comp_def]
      constructor
      · split <;> rfl
      · split
        · rfl
        · rename_i hnotMem
          simp [ExtTreeMap.getElem?_eq_none hnotMem]
  · have hparsed : call.parsed = none := by
      cases hparsed : call.parsed with
      | none => rfl
      | some parsed => exact absurd (Call.retries_of_parsed hparsed) hretries
    rw [Call.trace_of_not_retries hretries, hcount, hsum]
    simp [uses, presented, hretries, Function.comp_def]

/-- What an upsert stores has the use count it inherits, or none. -/
theorem TemplateCache.stored_useCount {entry : TemplateEntry} (hfresh : entry.useCount = 0) :
    (c.stored key entry).useCount = c.useCount key := by
  rw [stored, useCount]
  cases c.entries[key]? with
  | none => exact hfresh
  | some old => rfl

/-- An upsert that does not evict a key leaves its use count. -/
theorem TemplateCache.useCount_upsert {learned : TemplateKey} {entry : TemplateEntry} (hfresh : entry.useCount = 0)
    (hkeeps : key ∈ c.inserted learned entry → key ∈ (c.upsert learned entry).entries) :
    (c.upsert learned entry).useCount key = c.useCount key := by
  rw [useCount]
  cases hupsert : (c.upsert learned entry).entries[key]? with
  | none =>
    have habsent : key ∉ c.inserted learned entry := fun hmem =>
      KeyedQueue.notMem_of_getElem? hupsert (hkeeps hmem)
    rw [inserted, ExtTreeMap.mem_insert, not_or] at habsent
    rw [useCount, ExtTreeMap.getElem?_eq_none habsent.2]
  | some e =>
    rcases TemplateCache.getElem?_of_upsert hupsert with ⟨rfl, rfl⟩ | ⟨-, hold⟩
    · exact c.stored_useCount learned hfresh
    · rw [useCount, hold]

/-- Learning that does not evict a key leaves its use count. -/
theorem KeepsLearning.useCount_learnDefs {exporter : String} {obsDomain : UInt32} {now : Int64}
    {defs : List TemplateDef} {c : TemplateCache} (h : KeepsLearning key exporter obsDomain now defs c) :
    (learnDefs exporter obsDomain now defs c).useCount key = c.useCount key := by
  induction defs generalizing c with
  | nil => rfl
  | cons d defs ih => exact (ih h.2).trans (c.useCount_upsert key rfl h.1)

variable {call c key}

/-- Pass 1 of a call that does not evict a key leaves its use count. -/
theorem Call.Keeps.useCount_pass1 (h : call.Keeps key c) : (call.pass1 c).useCount key = c.useCount key := by
  unfold Keeps at h
  unfold pass1
  split
  · rename_i hparsed
    simp only [hparsed] at h
    rw [learnSets_eq]
    exact h.useCount_learnDefs
  · rfl

/-- A call that does not evict a key and uses its template for each record counts the records. -/
theorem Call.useCount_trace (hkeeps : call.Keeps key c) (huses : call.UsesForRecords key c) :
    ((call.trace c).2.useCount key).toNat =
      (c.useCount key).toNat + ((call.trace c).1.map (Emission.records key)).sum := by
  obtain ⟨hcount, hsum⟩ := call.trace_uses c key
  rw [hsum, ← hkeeps.useCount_pass1, TemplateCache.useCount, TemplateCache.useCount]
  cases htpl : (call.pass1 c).entries[key]? with
  | none =>
    rw [htpl, Option.map_none, Option.map_eq_none_iff] at hcount
    rw [hcount]
    rfl
  | some tpl =>
    rw [htpl, Option.map_some, Option.map_eq_some_iff] at hcount
    obtain ⟨used, hused, hcount⟩ := hcount
    obtain ⟨hsame, hlt⟩ := huses tpl htpl
    rw [hused, Option.elim_some, Option.elim_some, Option.elim_some, hcount, ← hsame, UInt64.toNat_add,
      UInt64.toNat_ofNat_of_lt' (show call.uses c key < 2 ^ 64 by omega), Nat.mod_eq_of_lt hlt]

/-- A run that never evicts a key and uses its template for each record counts the records. -/
theorem useCount_runTrace {calls : List Call} {c : TemplateCache} (hkeeps : EveryCall (Call.Keeps key) calls c)
    (huses : EveryCall (Call.UsesForRecords key) calls c) :
    ((runTrace calls c).2.useCount key).toNat =
      (c.useCount key).toNat + ((runTrace calls c).1.flatten.map (Emission.records key)).sum := by
  induction calls generalizing c with
  | nil => rfl
  | cons call calls ih =>
    obtain ⟨hkeepsCall, hkeepsRest⟩ := hkeeps
    obtain ⟨husesCall, husesRest⟩ := huses
    rw [Call.decode_eq_trace] at hkeepsRest husesRest
    simp only [runTrace, List.flatten_cons, List.map_append, List.sum_append]
    rw [ih hkeepsRest husesRest, Call.useCount_trace hkeepsCall husesCall, Nat.add_assoc]

/-- No origin of a call shows a template id but that of a Data Set. -/
theorem Call.isAnonymous_of_mem_trace {e : Emission} (h : e ∈ (call.trace c).1) : e.isAnonymous := by
  refine (@Call.forall_trace (fun e => e.isAnonymous) (fun _ _ _ _ _ => Iff.rfl) (fun _ _ _ => rfl) call c).mpr
    ⟨fun _ e he => ?_, fun _ _ _ _ _ _ => rfl⟩ e h
  obtain ⟨record, rfl | rfl, hnone⟩ := Call.exists_row_of_mem_statelessTrace he <;>
    exact Option.isNone_iff_eq_none.mpr hnone

/-- The rows of a trace that are data records of a key. -/
theorem countP_traceRows {trace : List Emission} (h : ∀ e ∈ trace, e.isAnonymous) (key : TemplateKey) :
    (traceRows false trace).countP key.hasRecord = (trace.map (Emission.records key)).sum := by
  induction trace with
  | nil => rfl
  | cons e trace ih =>
    rw [List.forall_mem_cons] at h
    rw [traceRows_cons, List.countP_append, Emission.countP_rows h.1, ih h.2, List.map_cons, List.sum_cons]

/-- The rows of a run in the default mode that are data records of a key. -/
theorem countP_runCalls (calls : List Call) (c : TemplateCache) (key : TemplateKey) :
    (runCalls (calls.map (·.withMode .auto)) c).1.flatten.countP key.hasRecord =
      ((runTrace calls c).1.flatten.map (Emission.records key)).sum := by
  rw [runCalls_withMode]
  induction calls generalizing c with
  | nil => rfl
  | cons call calls ih =>
    simp only [runTrace, List.map_cons, List.flatten_cons, List.countP_append, List.map_append, List.sum_append]
    rw [ih]
    exact congrArg (· + _) (countP_traceRows (fun e he => Call.isAnonymous_of_mem_trace he) key)

end Calls

section Runs

variable {calls : List Call} {capEntries capPendingBytes : UInt32} {key : TemplateKey} {entry : TemplateEntry}

/-- In a run from an empty cache that never evicts the template of a key, if each call uses the template as often
as it decodes data records against it, its use count is the number of data records decoded against it. -/
theorem useCount_runCalls (hkeeps : EveryCall (Call.Keeps key) calls (.empty capEntries capPendingBytes))
    (huses : EveryCall (Call.UsesForRecords key) calls (.empty capEntries capPendingBytes))
    (hentry : (runCalls calls (.empty capEntries capPendingBytes)).2.entries[key]? = some entry) :
    entry.useCount.toNat = (runCalls (calls.map (·.withMode .auto))
      (.empty capEntries capPendingBytes)).1.flatten.countP key.hasRecord := by
  have hcount := useCount_runTrace hkeeps huses
  have hempty : (TemplateCache.empty capEntries capPendingBytes).useCount key = 0 := by
    simp [TemplateCache.useCount, TemplateCache.empty]
  rw [runCalls_eq_trace] at hentry
  rw [TemplateCache.useCount, hentry, hempty] at hcount
  rw [countP_runCalls]
  simpa using hcount

/-- Template 256 and a Data Set of one record. -/
def sampleOneRecord : List Call := [.of sampleTemplate "10.0.0.1", .of sampleData "10.0.0.1"]

/-- Template 256 and a Data Set of two records. -/
def sampleTwoRecords : List Call :=
  [.of sampleTemplate "10.0.0.1",
    .of (sampleHeader ++ [1, 0, 0, 12, 10, 0, 0, 1, 10, 0, 0, 2]) "10.0.0.1"]

/-- A Data Set of one record is one use. -/
theorem useCount_runCalls_one :
    ∃ entry, (runCalls sampleOneRecord (.empty 4 64)).2.entries[(⟨"10.0.0.1", 7, 256⟩ : TemplateKey)]? = some entry ∧
      entry.useCount.toNat = (runCalls (sampleOneRecord.map (·.withMode .auto))
        (.empty 4 64)).1.flatten.countP (TemplateKey.hasRecord ⟨"10.0.0.1", 7, 256⟩) := by
  obtain ⟨entry, hentry⟩ := Option.isSome_iff_exists.mp (show ((runCalls sampleOneRecord (.empty 4 64)).2.entries[
    (⟨"10.0.0.1", 7, 256⟩ : TemplateKey)]?).isSome by decide +kernel)
  exact ⟨entry, hentry, useCount_runCalls (by decide +kernel) (by decide +kernel) hentry⟩

/-- A Data Set of two records is one use as well. -/
theorem not_forall_useCount :
    ¬ ∀ (calls : List Call) (capEntries capPendingBytes : UInt32) (key : TemplateKey) (entry : TemplateEntry),
      EveryCall (Call.Keeps key) calls (.empty capEntries capPendingBytes) →
        (runCalls calls (.empty capEntries capPendingBytes)).2.entries[key]? = some entry →
          entry.useCount.toNat = (runCalls (calls.map (·.withMode .auto))
            (.empty capEntries capPendingBytes)).1.flatten.countP key.hasRecord := by
  intro h
  have hone : ((runCalls sampleTwoRecords (.empty 4 64)).2.entries[
      (⟨"10.0.0.1", 7, 256⟩ : TemplateKey)]?).map TemplateEntry.useCount = some 1 := by
    decide +kernel
  obtain ⟨entry, hentry, huse⟩ := Option.map_eq_some_iff.mp hone
  have hrecords := h sampleTwoRecords 4 64 _ entry (by decide +kernel) hentry
  rw [huse] at hrecords
  revert hrecords
  decide +kernel

end Runs

end Netflow
