import Netflow.Order

/-!
# No output amplification

Every loop of the decoders takes input before it emits a further row. Each origin of rows
is therefore charged to bytes of its own: a Data Set to its body and Set header, a v5
record or an sFlow sample to its wire form. A buffered Data Set carries its charge until it
is decoded or flushed, so over a whole scan the rows are bounded by the bytes received.
-/

namespace Netflow

section Loops

/-- The record loop emits at most one row for each byte left. -/
theorem decodeRecords_length_le (tpl : TemplateEntry) (ctx : Ctx) (rounds : ℕ) (cur : Cursor) :
    (decodeRecords tpl ctx rounds cur).length ≤ cur.remaining := by
  induction rounds generalizing cur with
  | zero => exact Nat.zero_le _
  | succ rounds ih =>
    rw [decodeRecords]
    split
    · exact Nat.zero_le _
    · split
      · exact Nat.zero_le _
      · split
        · rw [List.length_singleton]
          omega
        · rename_i row cur' hone
          obtain ⟨⟨p, c⟩, hfields, hrow⟩ := Option.bind_eq_some_iff.mp hone
          cases hrow
          have hle := decodeFields_remaining hfields
          split
          · rw [List.length_singleton]
            omega
          · have hrest := ih cur'
            rw [List.length_cons]
            omega

/-- A Data Set gives at most one row for each byte of its body. -/
theorem decodeDataSet_length_le (tpl : TemplateEntry) (payload : Bytes) (ctx : Ctx) (flowsOnly : Bool) :
    (decodeDataSet tpl payload ctx flowsOnly).length ≤ payload.length := by
  rw [decodeDataSet]
  split
  · exact Nat.zero_le _
  · exact decodeRecords_length_le tpl ctx payload.length (.new payload)

/-- The v5 record loop takes 48 bytes for every row but its last. -/
theorem V5.decodeRecords_length_le (exporter : String) (obsDomain : UInt32) (hdr : ExportHeader)
    (bootMicros : Option Int64) (count : ℕ) (cur : Cursor) :
    (V5.decodeRecords exporter obsDomain hdr bootMicros count cur).length ≤ cur.remaining + 1 := by
  induction count generalizing cur with
  | zero => exact Nat.zero_le _
  | succ count ih =>
    rw [V5.decodeRecords]
    split
    · rw [List.length_singleton]
      omega
    · rename_i slice cur' htake
      have htaken := Cursor.take_remaining htake
      have hrest := ih cur'
      rw [List.length_cons]
      simp only [recordLen] at htaken
      omega

/-- A v5 datagram gives at most one row more than it has bytes. -/
theorem V5.decode_length_le (data : Bytes) (exporter : String) :
    (V5.decode data exporter).length ≤ data.length + 1 := by
  rw [V5.decode]
  split
  · rw [List.length_singleton]
    omega
  · have hskip : ((Cursor.new data).skip 24).2.remaining ≤ data.length := by
      unfold Cursor.skip
      split
      · rename_i bytes c htake
        have htaken := Cursor.take_remaining htake
        rw [Cursor.remaining_new] at htaken
        change c.remaining ≤ data.length
        omega
      · exact le_rfl
    exact (V5.decodeRecords_length_le ..).trans (Nat.add_le_add_right hskip 1)

/-- One sample gives at most one row. -/
theorem Sflow.sampleTrace_length_le (sampleType : UInt32) (body : Bytes) (exporterId : String)
    (subAgentId : UInt32) (sequence : UInt64) :
    (sampleTrace sampleType body exporterId subAgentId sequence).length ≤ 1 := by
  simp only [sampleTrace]
  split
  · rfl
  · split
    · rfl
    · exact Nat.zero_le _

/-- The sample loop takes eight bytes for every row. -/
theorem Sflow.samplesTrace_length_le (exporterId : String) (subAgentId : UInt32) (sequence : UInt64)
    (count : ℕ) (c : Cursor) :
    (samplesTrace exporterId subAgentId sequence count c).length ≤ c.remaining := by
  induction count generalizing c with
  | zero => exact Nat.zero_le _
  | succ count ih =>
    rw [samplesTrace]
    split
    · exact Nat.zero_le _
    · rename_i sampleType c₁ htype
      have hfour := Cursor.u32_remaining htype
      split
      · exact Nat.zero_le _
      · rename_i sampleLen c₂ hlen
        have height := Cursor.u32_remaining hlen
        split
        · rw [List.length_singleton]
          omega
        · rename_i body c₃ htake
          have htaken := Cursor.take_remaining htake
          have hsample := sampleTrace_length_le sampleType body exporterId subAgentId sequence
          have hrest := ih c₃
          rw [List.length_append]
          omega

/-- A read whose failure is ignored gives no bytes back. -/
theorem Cursor.attempt_remaining {α : Type} {read : Cursor → Option (α × Cursor)}
    (hread : ∀ c v c', read c = some (v, c') → c'.remaining ≤ c.remaining) (c : Cursor) :
    (c.attempt read).2.remaining ≤ c.remaining := by
  unfold Cursor.attempt
  split
  · rename_i v c' hsome
    exact hread c v c' hsome
  · exact le_rfl

/-- The counters that end the sFlow header are read off the datagram. -/
theorem Sflow.readCounters_remaining {agent : Option String} {hdr : Header} {c c' : Cursor}
    (h : (do
      let (subAgentId, c) ← c.u32
      let (sequence, c) ← c.u32
      let (_uptime, c) ← c.u32
      let (numSamples, c) ← c.u32
      some (⟨agent, subAgentId, sequence, numSamples⟩, c)) = some (hdr, c')) :
    c'.remaining ≤ c.remaining := by
  obtain ⟨⟨subAgentId, c₁⟩, hsub, h⟩ := Option.bind_eq_some_iff.mp h
  obtain ⟨⟨sequence, c₂⟩, hsequence, h⟩ := Option.bind_eq_some_iff.mp h
  obtain ⟨⟨uptime, c₃⟩, huptime, h⟩ := Option.bind_eq_some_iff.mp h
  obtain ⟨⟨numSamples, c₄⟩, hsamples, h⟩ := Option.bind_eq_some_iff.mp h
  have := Cursor.u32_remaining hsub
  have := Cursor.u32_remaining hsequence
  have := Cursor.u32_remaining huptime
  have := Cursor.u32_remaining hsamples
  cases h
  omega

/-- The sFlow header is read off the datagram. -/
theorem Sflow.readHeader_remaining {data : Bytes} {hdr : Header} {c : Cursor}
    (h : readHeader data = some (hdr, c)) : c.remaining ≤ data.length := by
  obtain ⟨⟨version, c₁⟩, hversion, h⟩ := Option.bind_eq_some_iff.mp h
  have hone := Cursor.u32_remaining hversion
  have htake : ∀ n c (v : Bytes) c', Cursor.take c n = some (v, c') → c'.remaining ≤ c.remaining := by
    intro n c v c' hsome
    have := Cursor.take_remaining hsome
    omega
  rw [Cursor.remaining_new] at hone
  simp only at h
  split at h
  · contradiction
  · obtain ⟨⟨addrType, c₂⟩, htype, h⟩ := Option.bind_eq_some_iff.mp h
    have htwo := Cursor.u32_remaining htype
    simp only at h
    split at h
    · have hagent := Cursor.attempt_remaining (htake 4) c₂
      have hcounters : c.remaining ≤ (c₂.attempt (·.take 4)).2.remaining := readCounters_remaining h
      omega
    · split at h
      · have hagent := Cursor.attempt_remaining (htake 16) c₂
        have hcounters : c.remaining ≤ (c₂.attempt (·.take 16)).2.remaining := readCounters_remaining h
        omega
      · contradiction

/-- An sFlow datagram gives at most one row more than it has bytes. -/
theorem Sflow.trace_length_le (data : Bytes) (exporter : String) :
    (trace data exporter).length ≤ data.length + 1 := by
  rw [trace]
  split
  · rw [List.length_singleton]
    omega
  · rename_i hdr c hread
    have hheader := readHeader_remaining hread
    exact (samplesTrace_length_le ..).trans (by omega)

/-- A datagram that reaches no template pass gives at most one row more than it has bytes. -/
theorem Call.statelessTrace_length_le (call : Call) :
    call.statelessTrace.length ≤ call.data.length + 1 := by
  unfold Call.statelessTrace
  split
  · exact Nat.le_add_left 1 _
  · split
    · rw [List.length_map]
      exact V5.decode_length_le call.data call.opts.exporter
    · rw [List.length_map]
      exact V5.decode_length_le call.data call.opts.exporter
    · exact Sflow.trace_length_le call.data call.opts.exporter
    · exact Sflow.trace_length_le call.data call.opts.exporter
    · exact Nat.le_add_left 1 _
    · exact Nat.le_add_left 1 _

end Loops

section Charges

/-- What a Data Set is charged: its body and one byte of its Set header. -/
def charge (p : TemplateKey × PendingRecord) : ℕ := p.2.bytes.length + 1

/-- What an origin of rows is charged: its Data Set's charge, or one byte. -/
def Emission.charge (e : Emission) : ℕ := (e.subject?.map Netflow.charge).getD 1

/-- An origin gives no more rows than it is charged. -/
theorem Emission.rows_length_le (e : Emission) (flowsOnly : Bool) :
    (e.rows flowsOnly).length ≤ e.charge := by
  cases e with
  | row record => exact le_rfl
  | counterSample record =>
    rw [rows]
    split
    · exact Nat.zero_le _
    · exact le_rfl
  | dataSet key tpl rec => exact (decodeDataSet_length_le ..).trans (Nat.le_add_right _ 1)
  | missing key rec version => exact Nat.le_add_left 1 _

/-- A trace gives no more rows than its origins are charged. -/
theorem traceRows_length_le (flowsOnly : Bool) (trace : List Emission) :
    (traceRows flowsOnly trace).length ≤ (trace.map Emission.charge).sum := by
  induction trace with
  | nil => exact le_rfl
  | cons e trace ih =>
    have hhead := e.rows_length_le flowsOnly
    rw [traceRows_cons, List.length_append, List.map_cons, List.sum_cons]
    omega

/-- The charges of a trace are those of its Data Sets and one byte for every other origin. -/
theorem charge_sum_eq (trace : List Emission) :
    (trace.map Emission.charge).sum =
      (trace.filter Emission.isStateless).length + ((trace.filterMap Emission.subject?).map charge).sum := by
  induction trace with
  | nil => rfl
  | cons e trace ih =>
    rw [List.map_cons, List.sum_cons, ih]
    cases e with
    | row | counterSample =>
      rw [List.filter_cons_of_pos rfl, List.filterMap_cons_none rfl, List.length_cons]
      simp only [Emission.charge, Emission.subject?, Emission.outcome?, Option.map_none, Option.getD_none]
      omega
    | dataSet key tpl rec =>
      have hsubject : (Emission.dataSet key tpl rec).subject? = some (key, rec) := rfl
      rw [List.filter_cons_of_neg Bool.false_ne_true, List.filterMap_cons_some hsubject, List.map_cons,
        List.sum_cons]
      exact Nat.add_left_comm _ _ _
    | missing key rec version =>
      have hsubject : (Emission.missing key rec version).subject? = some (key, rec) := rfl
      rw [List.filter_cons_of_neg Bool.false_ne_true, List.filterMap_cons_some hsubject, List.map_cons,
        List.sum_cons]
      exact Nat.add_left_comm _ _ _

/-- The Sets of a region are charged to different bytes of it. -/
theorem splitRegion_charge_le {badSet : String} {rounds : ℕ} {region : Bytes} {sets : List FlowSet}
    (h : splitRegion badSet rounds region = .ok sets) :
    (sets.map fun fs => fs.body.length + 1).sum ≤ region.length := by
  induction rounds generalizing region sets with
  | zero =>
    cases h
    exact Nat.zero_le _
  | succ rounds ih =>
    rcases splitRegion_succ_eq_ok h with ⟨-, rfl⟩ | ⟨hmin, hmax, out, hrest, rfl⟩
    · exact Nat.zero_le _
    · have hout := ih hrest
      simp only [List.map_cons, List.sum_cons, List.length_drop, List.length_take] at hout ⊢
      omega

/-- The Data Sets of a header context are charged no more than all Sets. -/
theorem Ctx.arrivals_charge_le (ctx : Ctx) (sets : List FlowSet) :
    ((ctx.arrivals sets).map charge).sum ≤ (sets.map fun fs => fs.body.length + 1).sum := by
  induction sets with
  | nil => exact le_rfl
  | cons fs sets ih =>
    rw [List.map_cons, List.sum_cons]
    by_cases hid : fs.id < 256
    · rw [Ctx.arrivals_cons_of_lt hid]
      omega
    · rw [Ctx.arrivals_cons_of_not_lt hid, List.map_cons, List.sum_cons]
      exact Nat.add_le_add_left ih _

/-- A datagram is charged at most its length and one byte. -/
theorem Call.charge_le (call : Call) :
    call.stateless.length + (call.arrivals.map charge).sum ≤ call.data.length + 1 := by
  cases hparsed : call.parsed with
  | none =>
    simp only [Call.stateless, Call.arrivals, hparsed]
    exact call.statelessTrace_length_le
  | some parsed =>
    obtain ⟨fmt, ctx, sets⟩ := parsed
    obtain ⟨-, hsplit, -⟩ := Call.parsed_eq_some hparsed
    have hsets := (ctx.arrivals_charge_le sets).trans (splitRegion_charge_le hsplit)
    simp only [Call.stateless, Call.arrivals, hparsed, Option.isSome_some, if_true, List.length_nil]
    rw [List.length_drop] at hsets
    omega

/-- A run is charged at most its bytes and one more for every datagram. -/
theorem charge_le_of_calls (calls : List Call) :
    (calls.flatMap Call.stateless).length + ((calls.flatMap Call.arrivals).map charge).sum ≤
      (calls.map (·.data.length)).sum + calls.length := by
  induction calls with
  | nil => exact le_rfl
  | cons call calls ih =>
    have hcall := call.charge_le
    simp only [List.flatMap_cons, List.length_append, List.map_append, List.sum_append, List.map_cons,
      List.sum_cons, List.length_cons]
    omega

/-- The rows of a run are no more than its origins are charged. -/
theorem runCalls_length_le (calls : List Call) (c : TemplateCache) :
    (runCalls calls c).1.flatten.length ≤ ((runTrace calls c).1.flatten.map Emission.charge).sum := by
  induction calls generalizing c with
  | nil => exact le_rfl
  | cons call calls ih =>
    have hrest := ih (call.trace c).2
    have hcall := traceRows_length_le call.opts.mode.isFlowsOnly (call.trace c).1
    rw [runCalls_cons, call.decode_eq_trace]
    simp only [runTrace, List.flatten_cons, List.length_append, List.map_append, List.sum_append]
    omega

end Charges

/-- No output amplification: every scan from an empty cache, whatever its datagrams, caps and
modes, emits at most one row for each byte received and one more for each datagram. A Data Set
gives at most one row for each byte of its body, under every template. -/
theorem scanRows_length_le (capEntries capPendingBytes : UInt32) (calls : List Call) :
    (scanRows calls (.empty capEntries capPendingBytes)).length ≤
        (calls.map (·.data.length)).sum + calls.length ∧
      ∀ (tpl : TemplateEntry) (payload : Bytes) (ctx : Ctx) (flowsOnly : Bool),
        (decodeDataSet tpl payload ctx flowsOnly).length ≤ payload.length := by
  refine ⟨?_, decodeDataSet_length_le⟩
  let start := TemplateCache.empty capEntries capPendingBytes
  have hflush := traceRows_length_le false (flushTrace (runTrace calls start).2)
  have hcalls := runCalls_length_le calls start
  have hsubjects := (scanTrace_subjects calls (c := start) rfl).map charge
  calc (scanRows calls start).length
      = (runCalls calls start).1.flatten.length +
          (flushPending (runTrace calls start).2).1.length := by
        rw [scanRows, runCalls_eq_trace, List.length_append]
    _ ≤ ((scanTrace calls start).map Emission.charge).sum := by
        rw [flushPending_eq_trace false, scanTrace, List.map_append, List.sum_append]
        exact Nat.add_le_add hcalls hflush
    _ = (calls.flatMap Call.stateless).length + ((calls.flatMap Call.arrivals).map charge).sum := by
        rw [charge_sum_eq, scanTrace_filter_isStateless, hsubjects.sum_eq]
    _ ≤ (calls.map (·.data.length)).sum + calls.length := charge_le_of_calls calls

end Netflow
