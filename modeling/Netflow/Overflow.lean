import Netflow.Decode.Checked
import Netflow.UseCount

/-!
# Where an overflow-checked build stops

The decode entry point with every fixed-width operation checked either returns what the
release build returns or nothing. From a reachable cache it returns nothing exactly where a
decoded payload has a time in seconds or milliseconds too large for microseconds, where a
template is used once too often for its 64-bit count, or where an uncapped buffer exceeds
its 32-bit total. The flush computes nothing.
-/

namespace Netflow

open Checked
open Std (ExtTreeMap)

section Definitions

/-- Look up a layout and bump its statistics with the count checked. -/
def TemplateCache.useTemplateChecked (c : TemplateCache) (key : TemplateKey) (now : Int64) :
    Option (Option (TemplateEntry × TemplateCache)) :=
  attempt c.entries[key]? fun e => do
    let useCount ← addU64 e.useCount 1
    let e := { e with useCount, lastSeen := now }
    some (some (e, { c with entries := c.entries.insert key e }))

/-- Buffer a record with the running total checked. -/
def TemplateCache.pushPendingChecked (c : TemplateCache) (key : TemplateKey) (rec : PendingRecord) :
    Option (Bool × TemplateCache) :=
  let cost := UInt32.ofNat rec.bytes.length
  if saturatingAdd c.pendingBytes cost > c.capPendingBytes then some (false, c)
  else do
    let pendingBytes ← addU32 c.pendingBytes cost
    some (true, { c with pendingBytes, pending := KeyedQueue.enqueue c.pending key rec })

/-- Pass 2 with its arithmetic checked. -/
def decodeSetsChecked (ctxBase : Ctx) (now : Int64) (modeFlowsOnly : Bool) :
    List FlowSet → TemplateCache → Option (List FlowRecord × TemplateCache)
  | [], cache => some ([], cache)
  | fs :: rest, cache =>
    if fs.id < 256 then decodeSetsChecked ctxBase now modeFlowsOnly rest cache
    else do
      let key := ctxBase.key fs.id
      match ← cache.useTemplateChecked key now with
      | some (tpl, cache) => do
        let rows ← decodeDataSetChecked tpl fs.body { ctxBase with templateId := fs.id } modeFlowsOnly
        let (out, cache) ← decodeSetsChecked ctxBase now modeFlowsOnly rest cache
        some (rows ++ out, cache)
      | none => do
        let (stored, cache) ← cache.pushPendingChecked key (ctxBase.pendingRecord fs.body)
        let (out, cache) ← decodeSetsChecked ctxBase now modeFlowsOnly rest cache
        let refused := missingTemplate key ctxBase.version ctxBase.exportTime ctxBase.sequence
        some (if stored then (out, cache) else (refused :: out, cache))

/-- Decode a datagram of a template-stateful format with its arithmetic checked. Learning templates
and splitting the Set region compute nothing. -/
def decodeTemplatedChecked (fmt : TemplatedFormat) (data : Bytes) (exporter : String)
    (obsOverride : Option UInt32) (cache : TemplateCache) (now : Int64) (modeFlowsOnly : Bool) :
    Option (List FlowRecord × TemplateCache) := do
  match ← parseHeaderChecked data with
  | none => some ([.diagnostic exporter fmt.version.asStr 0 none none fmt.badHeader], cache)
  | some hdr =>
    let ctxBase := fmt.ctxBase exporter obsOverride hdr
    match fmt.split data with
    | .error diag =>
      some ([.diagnostic exporter fmt.version.asStr ctxBase.obsDomain hdr.exportTime hdr.sequence diag],
        cache)
    | .ok sets =>
      decodeSetsChecked ctxBase now modeFlowsOnly sets
        (learnSets fmt exporter ctxBase.obsDomain now sets cache)

/-- Decode some released records with the arithmetic checked. -/
def decodeReleasedChecked (tpl : TemplateEntry) (key : TemplateKey) (modeFlowsOnly : Bool) :
    List PendingRecord → Option (List FlowRecord)
  | [] => some []
  | rec :: recs => do
    let rows ← decodeDataSetChecked tpl rec.bytes (rec.ctx key) modeFlowsOnly
    let rest ← decodeReleasedChecked tpl key modeFlowsOnly recs
    some (rows ++ rest)

/-- The retry with its arithmetic checked. -/
def retryKeysChecked (now : Int64) (flowsOnly : Bool) :
    List TemplateKey → TemplateCache → Option (List FlowRecord × TemplateCache)
  | [], cache => some ([], cache)
  | key :: keys, cache =>
    match cache.peek key with
    | none => retryKeysChecked now flowsOnly keys cache
    | some _ => do
      match ← cache.useTemplateChecked key now with
      | none => retryKeysChecked now flowsOnly keys cache
      | some (tpl, cache) => do
        let (recs, cache) := cache.takePending key
        let rows ← decodeReleasedChecked tpl key flowsOnly recs
        let (out, cache) ← retryKeysChecked now flowsOnly keys cache
        some (rows ++ out, cache)

/-- The dispatch on version and entry point with its arithmetic checked. An sFlow datagram is decoded
with saturating arithmetic only. -/
def dispatchChecked (data : Bytes) (opts : DecodeOptions) (cache : TemplateCache) (restrict : Restrict) :
    Option (List FlowRecord × TemplateCache) :=
  let flowsOnly := opts.mode.isFlowsOnly
  match probeVersion data, restrict with
  | some .v5, .any | some .v5, .netflowOnly => do
    let rows ← V5.decodeChecked data opts.exporter
    some (rows, cache)
  | some .v9, .any | some .v9, .netflowOnly =>
    decodeTemplatedChecked V9.format data opts.exporter opts.obsDomainOverride cache opts.nowMicros flowsOnly
  | some .v10, .any | some .v10, .ipfixOnly =>
    decodeTemplatedChecked Ipfix.format data opts.exporter opts.obsDomainOverride cache opts.nowMicros flowsOnly
  | some .sflow5, .any | some .sflow5, .sflowOnly =>
    some (Sflow.decode data opts.exporter flowsOnly, cache)
  | some v, _ =>
    some ([.diagnostic opts.exporter v.asStr 0 none none
      s!"decode-error:format-{v.asStr}-not-accepted-here"], cache)
  | none, _ =>
    some ([.diagnostic opts.exporter "" 0 none none "decode-error:not-a-flow-datagram"], cache)

/-- Decode one datagram with every fixed-width operation checked. -/
def decodeDatagramChecked (data : Bytes) (opts : DecodeOptions) (cache : TemplateCache)
    (restrict : Restrict) : Option (List FlowRecord × TemplateCache) := do
  let (out, cache) ← dispatchChecked data opts cache restrict
  if (probeVersion data = some .v9 ∨ probeVersion data = some .v10) ∧ ¬ cache.pendingIsEmpty then do
    let (retried, cache) ← retryKeysChecked opts.nowMicros opts.mode.isFlowsOnly cache.pendingKeys cache
    some (out ++ retried, cache)
  else some (out, cache)

/-- Decode the datagram of one call with every fixed-width operation checked. -/
def Call.decodeChecked (call : Call) (cache : TemplateCache) : Option (List FlowRecord × TemplateCache) :=
  decodeDatagramChecked call.data call.opts cache call.restrict

/-- The bytes the Data Sets without a template add to the buffer. -/
def TemplateCache.bufferCost (c : TemplateCache) (arrivals : List (TemplateKey × PendingRecord)) : ℕ :=
  ((arrivals.filter fun p => p.1 ∉ c.entries).map fun p => (UInt32.ofNat p.2.bytes.length).toNat).sum

/-- When a call stays in range: every time element cut off a Data Set it decodes fits, no template is
used more often than its count can tell, and an uncapped buffer does not outgrow its total. -/
structure Call.InRange (call : Call) (c : TemplateCache) : Prop where
  times : call.retries → ∀ key rec tpl, call.Presents c key rec → (call.pass1 c).entries[key]? = some tpl →
    (call.opts.mode.isFlowsOnly → tpl.kind ≠ .options) →
      ∀ s ∈ payloadSlices tpl rec.bytes.length (.new rec.bytes), s.1.FitsTime s.2
  uses : call.retries → ∀ (key : TemplateKey) tpl, (call.pass1 c).entries[key]? = some tpl →
    tpl.useCount.toNat + call.arrivals.countP (·.1 = key) + (if key ∈ c.pending then 1 else 0) < 2 ^ 64
  buffer : c.capPendingBytes.toNat = 2 ^ 32 - 1 →
    c.pendingBytes.toNat + (call.pass1 c).bufferCost call.arrivals < 2 ^ 32

/-- A run with every fixed-width operation checked. -/
def runCallsChecked : List Call → TemplateCache → Option (List (List FlowRecord) × TemplateCache)
  | [], cache => some ([], cache)
  | call :: calls, cache => do
    let (rows, cache) ← call.decodeChecked cache
    let (rest, cache) ← runCallsChecked calls cache
    some (rows :: rest, cache)

/-- When a run stays in range: each of its calls does in the state the ones before it leave. -/
def RunInRange : List Call → TemplateCache → Prop
  | [], _ => True
  | call :: calls, cache => call.InRange cache ∧ RunInRange calls (call.decode cache).2

end Definitions

section Cache

variable {c : TemplateCache} {key : TemplateKey}

/-- Whether the counts of the templates can tell their uses by some Data Sets. -/
def TemplateCache.UsesFit (c : TemplateCache) (arrivals : List (TemplateKey × PendingRecord)) : Prop :=
  ∀ (key : TemplateKey) tpl, c.entries[key]? = some tpl →
    tpl.useCount.toNat + arrivals.countP (·.1 = key) < 2 ^ 64

/-- Whether the running total can tell the buffer with some Data Sets, where no cap keeps it small. -/
def TemplateCache.BufferFits (c : TemplateCache) (arrivals : List (TemplateKey × PendingRecord)) : Prop :=
  c.capPendingBytes.toNat = 2 ^ 32 - 1 → c.pendingBytes.toNat + c.bufferCost arrivals < 2 ^ 32

/-- Using a template overflows exactly where its count is at its end. -/
theorem TemplateCache.useTemplateChecked_yields (c : TemplateCache) (key : TemplateKey) (now : Int64) :
    Yields (c.useTemplateChecked key now)
      (∀ e, c.entries[key]? = some e → e.useCount.toNat + 1 < 2 ^ 64) (c.useTemplate key now) := by
  unfold useTemplateChecked useTemplate
  cases c.entries[key]? with
  | none => exact (Yields.pure none).congr (by simp)
  | some e =>
    exact ((addU64_yields e.useCount 1).bind_some _).congr (by simp)

/-- Buffering a record overflows exactly where it is accepted and the total does not fit. -/
theorem TemplateCache.pushPendingChecked_yields (c : TemplateCache) (key : TemplateKey) (rec : PendingRecord) :
    Yields (c.pushPendingChecked key rec)
      (c.capPendingBytes.toNat = 2 ^ 32 - 1 →
        c.pendingBytes.toNat + (UInt32.ofNat rec.bytes.length).toNat < 2 ^ 32)
      (c.pushPending key rec) := by
  unfold pushPendingChecked pushPending
  have hcap := c.capPendingBytes.toNat_lt
  dsimp only
  split
  · rename_i hfull
    rw [gt_iff_lt, UInt32.lt_iff_toNat_lt, saturatingAdd_toNat] at hfull
    exact (Yields.pure _).congr ⟨fun _ h => by omega, fun _ => trivial⟩
  · rename_i hroom
    rw [gt_iff_lt, UInt32.lt_iff_toNat_lt, saturatingAdd_toNat, not_lt] at hroom
    exact ((addU32_yields _ _).bind_some _).congr (by omega)

/-- A Data Set whose key has a template uses it once more. -/
theorem TemplateCache.usesFit_cons_known {now : Int64} {tpl : TemplateEntry} {c₁ : TemplateCache}
    (huse : c.useTemplate key now = some (tpl, c₁)) (rec : PendingRecord)
    (arrivals : List (TemplateKey × PendingRecord)) :
    c.UsesFit ((key, rec) :: arrivals) ↔
      (∀ e, c.entries[key]? = some e → e.useCount.toNat + 1 < 2 ^ 64) ∧ c₁.UsesFit arrivals := by
  obtain ⟨e, he, rfl, rfl⟩ := TemplateCache.useTemplate_eq_some.mp huse
  have hbump : e.useCount.toNat + 1 < 2 ^ 64 → (e.useCount + 1).toNat = e.useCount.toNat + 1 := by
    intro hlt
    rw [UInt64.toNat_add]
    exact Nat.mod_eq_of_lt hlt
  simp only [UsesFit, he, Option.some_inj, forall_eq', ExtTreeMap.getElem?_insert,
    Std.LawfulEqCmp.compare_eq_iff_eq, List.countP_cons, decide_eq_true_eq]
  constructor
  · intro h
    have hkey := h key e he
    rw [if_pos rfl] at hkey
    have hlt : e.useCount.toNat + 1 < 2 ^ 64 := by omega
    refine ⟨hlt, ?_⟩
    intro k tpl htpl
    split at htpl
    · rename_i hk
      cases htpl
      rw [hbump hlt, ← hk]
      omega
    · have hk := h k tpl htpl
      omega
  · rintro ⟨hlt, h⟩ k tpl htpl
    by_cases hk : key = k
    · subst hk
      obtain rfl : e = tpl := Option.some.inj (he.symm.trans htpl)
      have hkey := h key { e with useCount := e.useCount + 1, lastSeen := now } (by rw [if_pos rfl])
      rw [hbump hlt] at hkey
      rw [if_pos rfl]
      omega
    · rw [if_neg hk, add_zero]
      exact h k tpl (by rwa [if_neg hk])

/-- A Data Set whose key has no template uses none. -/
theorem TemplateCache.usesFit_cons_absent (habsent : key ∉ c.entries) (rec : PendingRecord)
    (arrivals : List (TemplateKey × PendingRecord)) :
    c.UsesFit ((key, rec) :: arrivals) ↔ c.UsesFit arrivals := by
  apply forall₂_congr
  intro k tpl
  by_cases hk : key = k
  · subst hk
    simp [ExtTreeMap.getElem?_eq_none habsent]
  · simp [hk]

/-- Only the entries matter to the uses. -/
theorem TemplateCache.usesFit_congr {c' : TemplateCache} (h : c'.entries = c.entries)
    (arrivals : List (TemplateKey × PendingRecord)) : c'.UsesFit arrivals ↔ c.UsesFit arrivals := by
  unfold UsesFit
  rw [h]

/-- Using a template changes nothing about the buffer. -/
theorem TemplateCache.bufferFits_useTemplate {now : Int64} {tpl : TemplateEntry} {c₁ : TemplateCache}
    (huse : c.useTemplate key now = some (tpl, c₁)) (arrivals : List (TemplateKey × PendingRecord)) :
    c₁.BufferFits arrivals ↔ c.BufferFits arrivals := by
  have hmem : ∀ k, k ∈ c₁.entries ↔ k ∈ c.entries := fun k => TemplateCache.mem_useTemplate huse
  obtain ⟨e, -, -, rfl⟩ := TemplateCache.useTemplate_eq_some.mp huse
  simp only [BufferFits, bufferCost, hmem]

/-- A Data Set whose key has a template adds nothing to the buffer. -/
theorem TemplateCache.bufferFits_cons_known (hmem : key ∈ c.entries) (rec : PendingRecord)
    (arrivals : List (TemplateKey × PendingRecord)) :
    c.BufferFits ((key, rec) :: arrivals) ↔ c.BufferFits arrivals := by
  simp [BufferFits, bufferCost, hmem]

/-- A Data Set whose key has no template adds its body to the buffer, if there is no cap. -/
theorem TemplateCache.bufferFits_cons_absent (habsent : key ∉ c.entries) (rec : PendingRecord)
    (arrivals : List (TemplateKey × PendingRecord)) :
    c.BufferFits ((key, rec) :: arrivals) ↔
      (c.capPendingBytes.toNat = 2 ^ 32 - 1 →
        c.pendingBytes.toNat + (UInt32.ofNat rec.bytes.length).toNat < 2 ^ 32) ∧
      (c.pushPending key rec).2.BufferFits arrivals := by
  have hcost : c.bufferCost ((key, rec) :: arrivals) =
      (UInt32.ofNat rec.bytes.length).toNat + c.bufferCost arrivals := by
    simp [bufferCost, habsent]
  have hrest : (c.pushPending key rec).2.bufferCost arrivals = c.bufferCost arrivals := by
    rw [bufferCost, pushPending_entries, bufferCost]
  by_cases hcap : c.capPendingBytes.toNat = 2 ^ 32 - 1
  · have hpush : (c.pushPending key rec).2.pendingBytes =
        c.pendingBytes + UInt32.ofNat rec.bytes.length := by
      unfold pushPending
      dsimp only
      rw [if_neg]
      rw [gt_iff_lt, UInt32.lt_iff_toNat_lt, saturatingAdd_toNat]
      omega
    simp only [BufferFits, pushPending_capPendingBytes, hcap, true_implies, hcost, hrest, hpush]
    by_cases hlt : c.pendingBytes.toNat + (UInt32.ofNat rec.bytes.length).toNat < 2 ^ 32
    · rw [UInt32.toNat_add, Nat.mod_eq_of_lt hlt]
      omega
    · simp only [hlt, false_and, iff_false]
      omega
  · simp only [BufferFits, pushPending_capPendingBytes, hcap, false_implies, and_self]

end Cache

section Passes

/-- Whether every time element of an origin fits: it is no Data Set, or one that is dropped or whose
values all fit. -/
def Emission.FitsTimes (flowsOnly : Bool) : Emission → Prop
  | .row _ | .counterSample _ | .missing _ _ _ => True
  | .dataSet _ tpl rec => (flowsOnly → tpl.kind ≠ .options) →
      ∀ s ∈ payloadSlices tpl rec.bytes.length (.new rec.bytes), s.1.FitsTime s.2

/-- What is cut off a payload is a matter of the layout alone. -/
theorem payloadSlices_congr {tpl tpl' : TemplateEntry} (h : tpl.fields = tpl'.fields) (rounds : ℕ)
    (cur : Cursor) : payloadSlices tpl rounds cur = payloadSlices tpl' rounds cur := by
  have hmin : minFixed tpl = minFixed tpl' := by rw [minFixed, minFixed, h]
  induction rounds generalizing cur with
  | zero => rfl
  | succ rounds ih => simp only [payloadSlices, h, hmin, ih]

/-- Whether the times of a Data Set fit is not a matter of statistics. -/
theorem Emission.blind_fitsTimes (flowsOnly : Bool) : Emission.Blind (Emission.FitsTimes flowsOnly) := by
  intro key tpl useCount lastSeen rec
  simp only [FitsTimes]
  rw [@payloadSlices_congr { tpl with useCount, lastSeen } tpl rfl]

/-- Pass 2 stays in range exactly if all it decodes does and the counts and the total can tell its Data
Sets. -/
theorem decodeSetsChecked_yields {ctx : Ctx} (hctx : ctx.TimesSmall) (now : Int64) (flowsOnly : Bool)
    (sets : List FlowSet) (c : TemplateCache) :
    Yields (decodeSetsChecked ctx now flowsOnly sets c)
      ((∀ e ∈ (settleSets ctx now sets c).1, e.FitsTimes flowsOnly) ∧
        c.UsesFit (ctx.arrivals sets) ∧ c.BufferFits (ctx.arrivals sets))
      (decodeSets ctx now flowsOnly sets c) := by
  induction sets generalizing c with
  | nil =>
    have huses : c.UsesFit [] := fun key tpl _ => tpl.useCount.toNat_lt
    have hbuffer : c.BufferFits [] := fun _ => c.pendingBytes.toNat_lt
    exact (Yields.pure _).congr (by simp [settleSets, Ctx.arrivals, huses, hbuffer])
  | cons fs sets ih =>
    by_cases hid : fs.id < 256
    · rw [decodeSetsChecked, decodeSets, settleSets, if_pos hid, if_pos hid, if_pos hid,
        Ctx.arrivals_cons_of_lt hid]
      exact ih c
    · have hused := c.useTemplateChecked_yields (ctx.key fs.id) now
      rw [decodeSetsChecked, decodeSets, if_neg hid, if_neg hid, Ctx.arrivals_cons_of_not_lt hid]
      dsimp only
      cases huse : c.useTemplate (ctx.key fs.id) now with
      | some used =>
        obtain ⟨tpl, c₁⟩ := used
        have hdata := decodeDataSetChecked_yields tpl fs.body
          (show { ctx with templateId := fs.id }.TimesSmall from hctx) flowsOnly
        have htrace : (∀ e ∈ (settleSets ctx now (fs :: sets) c).1, e.FitsTimes flowsOnly) ↔
            (Emission.dataSet (ctx.key fs.id) tpl (ctx.pendingRecord fs.body)).FitsTimes flowsOnly ∧
              ∀ e ∈ (settleSets ctx now sets c₁).1, e.FitsTimes flowsOnly := by
          rw [settleSets, if_neg hid]
          dsimp only
          rw [huse]
          exact List.forall_mem_cons
        rw [huse] at hused
        rw [htrace, TemplateCache.usesFit_cons_known huse,
          TemplateCache.bufferFits_cons_known (TemplateCache.mem_of_useTemplate huse),
          ← TemplateCache.bufferFits_useTemplate huse]
        refine (hused.bind fun _ => hdata.bind fun _ => (ih c₁).bind_some _).congr ?_
        constructor
        · rintro ⟨hcount, hfits, htrace, huses, hbuffer⟩
          exact ⟨⟨hfits, htrace⟩, ⟨hcount, huses⟩, hbuffer⟩
        · rintro ⟨⟨hfits, htrace⟩, ⟨hcount, huses⟩, hbuffer⟩
          exact ⟨hcount, hfits, htrace, huses, hbuffer⟩
      | none =>
        have habsent := TemplateCache.useTemplate_eq_none.mp huse
        have hpushed := c.pushPendingChecked_yields (ctx.key fs.id) (ctx.pendingRecord fs.body)
        have hcount : ∀ e, c.entries[ctx.key fs.id]? = some e → e.useCount.toNat + 1 < 2 ^ 64 := by
          simp [ExtTreeMap.getElem?_eq_none habsent]
        rcases hpush : c.pushPending (ctx.key fs.id) (ctx.pendingRecord fs.body) with ⟨stored, c₁⟩
        have hentries : c₁.entries = c.entries := by
          rw [← c.pushPending_entries (ctx.key fs.id) (ctx.pendingRecord fs.body), hpush]
        have htrace : (∀ e ∈ (settleSets ctx now (fs :: sets) c).1, e.FitsTimes flowsOnly) ↔
            ∀ e ∈ (settleSets ctx now sets c₁).1, e.FitsTimes flowsOnly := by
          rw [settleSets, if_neg hid]
          dsimp only
          rw [huse, hpush]
          cases stored with
          | true => exact Iff.rfl
          | false => simp [Emission.FitsTimes]
        rw [huse] at hused
        rw [hpush] at hpushed
        rw [htrace, TemplateCache.usesFit_cons_absent habsent, TemplateCache.bufferFits_cons_absent habsent,
          hpush, ← TemplateCache.usesFit_congr hentries]
        refine (hused.bind fun _ => hpushed.bind fun _ => (ih c₁).bind_some _).congr ?_
        constructor
        · rintro ⟨-, hroom, htrace, huses, hbuffer⟩
          exact ⟨htrace, huses, hroom, hbuffer⟩
        · rintro ⟨htrace, huses, hroom, hbuffer⟩
          exact ⟨hcount, hroom, htrace, huses, hbuffer⟩

/-- The header times of every buffered record are as export headers have them. -/
def TemplateCache.PendingSmall (c : TemplateCache) : Prop :=
  ∀ (key : TemplateKey) (queue : List PendingRecord), c.pending[key]? = some queue →
    ∀ rec ∈ queue, (rec.ctx key).TimesSmall

/-- Using a template leaves the buffer alone, taking a queue leaves the others. -/
theorem TemplateCache.PendingSmall.release {c c₁ : TemplateCache} (h : c.PendingSmall) {key : TemplateKey}
    {now : Int64} {tpl : TemplateEntry} (huse : c.useTemplate key now = some (tpl, c₁)) :
    (∀ rec ∈ (c₁.takePending key).1, (rec.ctx key).TimesSmall) ∧ (c₁.takePending key).2.PendingSmall := by
  obtain ⟨e, -, -, rfl⟩ := TemplateCache.useTemplate_eq_some.mp huse
  constructor
  · rw [TemplateCache.takePending]
    cases hqueue : c.pending[key]? with
    | none => simp
    | some queue =>
      simp only [Option.getD_some]
      exact h key queue hqueue
  · intro k queue hqueue
    rw [TemplateCache.takePending_pending, ExtTreeMap.getElem?_erase] at hqueue
    split at hqueue
    · contradiction
    · exact h k queue hqueue

/-- Decoding released records stays in range exactly if all their times fit. -/
theorem decodeReleasedChecked_yields (tpl : TemplateEntry) (key : TemplateKey) (flowsOnly : Bool)
    {recs : List PendingRecord} (hsmall : ∀ rec ∈ recs, (rec.ctx key).TimesSmall) :
    Yields (decodeReleasedChecked tpl key flowsOnly recs)
      (∀ rec ∈ recs, (Emission.dataSet key tpl rec).FitsTimes flowsOnly)
      (recs.flatMap fun rec => decodeDataSet tpl rec.bytes (rec.ctx key) flowsOnly) := by
  induction recs with
  | nil => exact (Yields.pure _).congr (by simp)
  | cons rec recs ih =>
    rw [List.forall_mem_cons] at hsmall
    rw [List.forall_mem_cons, List.flatMap_cons, decodeReleasedChecked]
    exact (decodeDataSetChecked_yields tpl rec.bytes hsmall.1 flowsOnly).bind fun _ =>
      (ih hsmall.2).bind_some _

/-- The retry of distinct keys stays in range exactly if all it decodes does and no count is at its
end. -/
theorem retryKeysChecked_yields (now : Int64) (flowsOnly : Bool) {keys : List TemplateKey} (hnodup : keys.Nodup)
    {c : TemplateCache} (hsmall : c.PendingSmall) :
    Yields (retryKeysChecked now flowsOnly keys c)
      ((∀ e ∈ (retryKeysTrace now keys c).1, e.FitsTimes flowsOnly) ∧
        ∀ key ∈ keys, ∀ e, c.entries[key]? = some e → e.useCount.toNat + 1 < 2 ^ 64)
      (retryKeys now flowsOnly keys c) := by
  induction keys generalizing c with
  | nil => exact (Yields.pure _).congr (by simp [retryKeysTrace])
  | cons key keys ih =>
    obtain ⟨hnotMem, hrestNodup⟩ := List.nodup_cons.mp hnodup
    have hused := c.useTemplateChecked_yields key now
    rw [retryKeysChecked, retryKeys, retryKeysTrace, List.forall_mem_cons]
    cases huse : c.useTemplate key now with
    | none =>
      have habsent := ExtTreeMap.getElem?_eq_none (TemplateCache.useTemplate_eq_none.mp huse)
      rw [TemplateCache.peek, habsent]
      exact (ih hrestNodup hsmall).congr (by simp)
    | some used =>
      obtain ⟨tpl, c₁⟩ := used
      obtain ⟨hreleased, hrest⟩ := hsmall.release huse
      obtain ⟨e, he, htpl, hc₁⟩ := TemplateCache.useTemplate_eq_some.mp huse
      have hcounts : (∀ k ∈ keys, ∀ e, (c₁.takePending key).2.entries[k]? = some e →
          e.useCount.toNat + 1 < 2 ^ 64) ↔
            ∀ k ∈ keys, ∀ e, c.entries[k]? = some e → e.useCount.toNat + 1 < 2 ^ 64 := by
        apply forall₂_congr
        intro k hk
        have hne : key ≠ k := fun heq => hnotMem (heq ▸ hk)
        rw [TemplateCache.takePending_entries, hc₁, ExtTreeMap.getElem?_insert, if_neg (by simpa using hne)]
      rw [huse] at hused
      rw [TemplateCache.peek, he]
      dsimp only
      rw [List.forall_mem_append, List.forall_mem_map, ← hcounts]
      have hdata := decodeReleasedChecked_yields tpl key flowsOnly hreleased
      refine (hused.bind fun _ => hdata.bind fun _ => (ih hrestNodup hrest).bind_some _).congr ?_
      constructor
      · rintro ⟨hcount, hfits, htrace, hcounts⟩
        exact ⟨⟨hfits, htrace⟩, fun e' he' => hcount e' (he.trans he'), hcounts⟩
      · rintro ⟨⟨hfits, htrace⟩, hcount, hcounts⟩
        exact ⟨fun e' he' => hcount e' (he.symm.trans he'), hfits, htrace, hcounts⟩

end Passes

section Counts

/-- The passes of a call count the uses of every template, if the counts can tell them. -/
theorem Call.useCount_passes (call : Call) {c : TemplateCache} (hfits : (call.pass1 c).UsesFit call.arrivals)
    (key : TemplateKey) :
    ((call.passes c).2.entries[key]?).map (·.useCount.toNat) =
      ((call.pass1 c).entries[key]?).map (·.useCount.toNat + call.arrivals.countP (·.1 = key)) := by
  have hcount := congrArg (Option.map UInt64.toNat) (call.passes_uses c key).1
  rw [Option.map_map, Option.map_map] at hcount
  refine hcount.trans (Option.map_congr fun tpl htpl => ?_)
  have hlt := hfits key tpl htpl
  rw [Function.comp_apply, UInt64.toNat_add, UInt64.toNat_ofNat_of_lt'
    (show call.arrivals.countP (·.1 = key) < 2 ^ 64 by omega), Nat.mod_eq_of_lt hlt]

/-- The counts that can tell the Data Sets of a call and one release for each key buffered then. -/
theorem Call.usesFit_passes_iff (call : Call) (c : TemplateCache) :
    ((call.pass1 c).UsesFit call.arrivals ∧ ∀ key ∈ (call.passes c).2.pendingKeys,
        ∀ e, (call.passes c).2.entries[key]? = some e → e.useCount.toNat + 1 < 2 ^ 64) ↔
      ∀ (key : TemplateKey) tpl, (call.pass1 c).entries[key]? = some tpl →
        tpl.useCount.toNat + call.arrivals.countP (·.1 = key) + (if key ∈ c.pending then 1 else 0) < 2 ^ 64 := by
  have hpending : ∀ (key : TemplateKey) tpl, (call.pass1 c).entries[key]? = some tpl →
      (key ∈ (call.passes c).2.pending ↔ key ∈ c.pending) := by
    intro key tpl htpl
    rw [ExtTreeMap.mem_iff_isSome_getElem?, ExtTreeMap.mem_iff_isSome_getElem?,
      call.passes_pending c key (KeyedQueue.mem_of_getElem? htpl)]
  constructor
  · rintro ⟨hfits, hretry⟩ key tpl htpl
    have hcount := call.useCount_passes hfits key
    rw [htpl, Option.map_some] at hcount
    obtain ⟨e, he, hcount⟩ := Option.map_eq_some_iff.mp hcount
    split
    · rename_i hmem
      have hkey := ExtTreeMap.mem_keys.mpr ((hpending key tpl htpl).mpr hmem)
      have hone := hretry key hkey e he
      rwa [hcount] at hone
    · exact hfits key tpl htpl
  · intro h
    have hfits : (call.pass1 c).UsesFit call.arrivals := fun key tpl htpl =>
      (Nat.le_add_right _ _).trans_lt (h key tpl htpl)
    refine ⟨hfits, ?_⟩
    intro key hkey e he
    have hcount := call.useCount_passes hfits key
    rw [he, Option.map_some] at hcount
    obtain ⟨tpl, htpl, hcount⟩ := Option.map_eq_some_iff.mp hcount.symm
    have hone := h key tpl htpl
    rw [if_pos ((hpending key tpl htpl).mp (ExtTreeMap.mem_keys.mp hkey))] at hone
    omega

end Counts

section Times

/-- The header context of an export packet has its times. -/
theorem TemplatedFormat.ctxBase_timesSmall {call : Call} {fmt : TemplatedFormat} (hformat : call.format = some fmt)
    {data : Bytes} {hdr : ExportHeader} (hparse : parseHeader data = some hdr) (exporter : String)
    (obsOverride : Option UInt32) : (fmt.ctxBase exporter obsOverride hdr).TimesSmall := by
  refine ⟨fun e he => parseHeader_exportTime hparse he, ?_⟩
  intro u hu
  rcases call.format_version hformat with ⟨rfl, -⟩ | ⟨rfl, -⟩
  · obtain ⟨uptime, -, rfl⟩ := Option.map_eq_some_iff.mp (show hdr.sysUptime.map (·.toUInt64) = some u from hu)
    rw [UInt32.toNat_toUInt64]
    exact uptime.toNat_lt
  · contradiction

/-- The Data Sets of a datagram have the times of its header. -/
theorem Call.arrivals_timesSmall {call : Call} {key : TemplateKey} {rec : PendingRecord}
    (h : (key, rec) ∈ call.arrivals) : (rec.ctx key).TimesSmall := by
  unfold Call.arrivals at h
  split at h
  · rename_i fmt ctx sets hparsed
    obtain ⟨hformat, -, hdr, hparse, rfl⟩ := Call.parsed_eq_some hparsed
    obtain ⟨fs, -, heq⟩ := List.mem_map.mp h
    cases heq
    exact TemplatedFormat.ctxBase_timesSmall hformat hparse call.opts.exporter call.opts.obsDomainOverride
  · contradiction

/-- Every operation of a call keeps the times of the buffered records. -/
theorem Call.stable_pendingSmall (call : Call) :
    Stable call.learned call.arrivals TemplateCache.PendingSmall :=
  stable_pendingAll _ fun _ => Call.arrivals_timesSmall

/-- In every reachable state the buffered records have the times of their headers. -/
theorem Reachable.pendingSmall {serde : SerdeJson} (hserde : serde.Lawful) {c : TemplateCache}
    (h : Reachable serde c) : c.PendingSmall :=
  h.pendingAll hserde fun _ _ => Call.arrivals_timesSmall

end Times

section Calls

/-- Pass 1 leaves the total and the cap of the buffer alone. -/
theorem Call.pass1_buffer (call : Call) (c : TemplateCache) :
    (call.pass1 c).capPendingBytes = c.capPendingBytes ∧ (call.pass1 c).pendingBytes = c.pendingBytes := by
  cases hparsed : call.parsed with
  | none => simp only [Call.pass1, hparsed, and_self]
  | some parsed =>
    obtain ⟨fmt, ctx, sets⟩ := parsed
    obtain ⟨entries, hframe⟩ :=
      learnDefs_frame ctx.exporter ctx.obsDomain call.opts.nowMicros (fmt.definitions sets) c
    simp only [Call.pass1, hparsed, learnSets_eq, hframe, and_self]

/-- A datagram that reaches no template pass computes with no time element, count or total. -/
theorem Call.fits_of_parsed_eq_none {call : Call} (hparsed : call.parsed = none) (c : TemplateCache)
    (flowsOnly : Bool) :
    (∀ e ∈ (call.passes c).1, e.FitsTimes flowsOnly) ∧
      (call.pass1 c).UsesFit call.arrivals ∧ (call.pass1 c).BufferFits call.arrivals := by
  obtain ⟨hpass1, harrivals⟩ := Call.of_parsed_eq_none hparsed c
  rw [hpass1, harrivals]
  refine ⟨?_, fun key tpl _ => tpl.useCount.toNat_lt, fun _ => c.pendingBytes.toNat_lt⟩
  intro e he
  simp only [Call.passes, hparsed] at he
  have houtcome := Call.outcome?_of_mem_statelessTrace he
  cases e with
  | row | counterSample | missing => trivial
  | dataSet => contradiction

/-- A template-stateful datagram stays in range exactly if its passes do. -/
theorem decodeTemplatedChecked_yields {call : Call} {fmt : TemplatedFormat} (hformat : call.format = some fmt)
    (c : TemplateCache) :
    Yields
      (decodeTemplatedChecked fmt call.data call.opts.exporter call.opts.obsDomainOverride c
        call.opts.nowMicros call.opts.mode.isFlowsOnly)
      ((∀ e ∈ (call.passes c).1, e.FitsTimes call.opts.mode.isFlowsOnly) ∧
        (call.pass1 c).UsesFit call.arrivals ∧ (call.pass1 c).BufferFits call.arrivals)
      (decodeTemplated fmt call.data call.opts.exporter call.opts.obsDomainOverride c
        call.opts.nowMicros call.opts.mode.isFlowsOnly) := by
  unfold decodeTemplatedChecked decodeTemplated
  rw [parseHeaderChecked_eq, Option.bind_eq_bind, Option.bind_some]
  cases hparse : parseHeader call.data with
  | none =>
    have hparsed : call.parsed = none := by simp [Call.parsed, hformat, hparse]
    have hfits := Call.fits_of_parsed_eq_none hparsed c call.opts.mode.isFlowsOnly
    exact (Yields.pure _).congr (iff_of_true trivial hfits)
  | some hdr =>
    dsimp only
    cases hsplit : fmt.split call.data with
    | error diag =>
      have hparsed : call.parsed = none := by simp [Call.parsed, hformat, hparse, hsplit, Except.toOption]
      have hfits := Call.fits_of_parsed_eq_none hparsed c call.opts.mode.isFlowsOnly
      exact (Yields.pure _).congr (iff_of_true trivial hfits)
    | ok sets =>
      have hparsed : call.parsed =
          some (fmt, fmt.ctxBase call.opts.exporter call.opts.obsDomainOverride hdr, sets) := by
        simp [Call.parsed, hformat, hparse, hsplit, Except.toOption]
      have hctx := TemplatedFormat.ctxBase_timesSmall hformat hparse call.opts.exporter
        call.opts.obsDomainOverride
      simp only [Call.passes, Call.pass1, Call.arrivals, hparsed]
      exact decodeSetsChecked_yields hctx _ _ sets _

/-- The dispatch stays in range exactly if the passes do. -/
theorem dispatchChecked_yields (call : Call) (c : TemplateCache) :
    Yields (dispatchChecked call.data call.opts c call.restrict)
      ((∀ e ∈ (call.passes c).1, e.FitsTimes call.opts.mode.isFlowsOnly) ∧
        (call.pass1 c).UsesFit call.arrivals ∧ (call.pass1 c).BufferFits call.arrivals)
      (traceRows call.opts.mode.isFlowsOnly (call.passes c).1, (call.passes c).2) := by
  cases hformat : call.format with
  | some fmt =>
    have htemplated := decodeTemplatedChecked_yields hformat c
    rw [decodeTemplated_eq_trace hformat] at htemplated
    unfold Call.format at hformat
    split at hformat <;> simp_all [dispatchChecked]
  | none =>
    have hparsed : call.parsed = none := by simp [Call.parsed, hformat]
    have hfits := Call.fits_of_parsed_eq_none hparsed c call.opts.mode.isFlowsOnly
    have hpasses : call.passes c = (call.statelessTrace, c) := by simp [Call.passes, hparsed]
    refine (yields_true_iff.mpr ?_).congr (iff_of_true trivial hfits)
    rw [hpasses]
    simp only [Call.statelessTrace, hformat]
    unfold Call.format at hformat
    unfold dispatchChecked
    cases hversion : probeVersion call.data with
    | none => rfl
    | some v =>
      cases v <;> cases hrestrict : call.restrict <;>
        simp_all [V5.decodeChecked_eq, Sflow.decode_eq_trace, Emission.rows]

/-- A call stays in range if the times of all it decodes fit and the counts and the total do. -/
theorem Call.inRange_iff (call : Call) (c : TemplateCache) :
    call.InRange c ↔
      (∀ e ∈ (call.trace c).1, e.FitsTimes call.opts.mode.isFlowsOnly) ∧
        (call.retries → (call.pass1 c).UsesFit call.arrivals ∧ ∀ key ∈ (call.passes c).2.pendingKeys,
          ∀ e, (call.passes c).2.entries[key]? = some e → e.useCount.toNat + 1 < 2 ^ 64) ∧
        (call.pass1 c).BufferFits call.arrivals := by
  have hstateless : call.parsed = none →
      ∀ e ∈ call.statelessTrace, e.FitsTimes call.opts.mode.isFlowsOnly := by
    intro hparsed
    have hfits := (Call.fits_of_parsed_eq_none hparsed c call.opts.mode.isFlowsOnly).1
    rwa [show call.passes c = (call.statelessTrace, c) by simp [Call.passes, hparsed]] at hfits
  have hbuffer : (call.pass1 c).BufferFits call.arrivals ↔ (c.capPendingBytes.toNat = 2 ^ 32 - 1 →
      c.pendingBytes.toNat + (call.pass1 c).bufferCost call.arrivals < 2 ^ 32) := by
    unfold TemplateCache.BufferFits
    rw [call.pass1_buffer c |>.1, call.pass1_buffer c |>.2]
  rw [call.forall_trace (Emission.blind_fitsTimes _) (fun _ _ _ => trivial), call.usesFit_passes_iff, hbuffer]
  simp only [TemplateCache.Gives, Emission.FitsTimes]
  constructor
  · rintro ⟨htimes, huses, hbuffer⟩
    exact ⟨⟨hstateless, fun hretries key rec hpresent tpl htpl => htimes hretries key rec tpl hpresent htpl⟩,
      huses, hbuffer⟩
  · rintro ⟨⟨-, htimes⟩, huses, hbuffer⟩
    exact ⟨fun hretries key rec tpl hpresent htpl => htimes hretries key rec hpresent tpl htpl, huses, hbuffer⟩

/-- The retry at the end of a call stays in range exactly if all it decodes does and no count is at its
end. -/
theorem Call.retryChecked_yields {call : Call} (hretries : call.retries) (out : List FlowRecord)
    {c : TemplateCache} (hsmall : c.PendingSmall) :
    Yields
      (if (probeVersion call.data = some .v9 ∨ probeVersion call.data = some .v10) ∧ ¬ c.pendingIsEmpty then
        (retryKeysChecked call.opts.nowMicros call.opts.mode.isFlowsOnly c.pendingKeys c).bind
          fun retried => some (out ++ retried.1, retried.2)
      else some (out, c))
      ((∀ e ∈ (retryKeysTrace call.opts.nowMicros c.pendingKeys c).1,
          e.FitsTimes call.opts.mode.isFlowsOnly) ∧
        ∀ key ∈ c.pendingKeys, ∀ e, c.entries[key]? = some e → e.useCount.toNat + 1 < 2 ^ 64)
      (out ++ traceRows call.opts.mode.isFlowsOnly (retryKeysTrace call.opts.nowMicros c.pendingKeys c).1,
        (retryKeysTrace call.opts.nowMicros c.pendingKeys c).2) := by
  have hversion : probeVersion call.data = some .v9 ∨ probeVersion call.data = some .v10 := by
    simpa [Call.retries] using hretries
  have hnodup : c.pendingKeys.Nodup := ExtTreeMap.nodup_keys
  split
  · have hretry := retryKeysChecked_yields call.opts.nowMicros call.opts.mode.isFlowsOnly hnodup hsmall
    rw [retryKeys_eq_trace] at hretry
    exact hretry.bind_some fun retried => (out ++ retried.1, retried.2)
  · rename_i hnot
    have hempty : c.pending = ∅ := by simpa [hversion, TemplateCache.pendingIsEmpty] using hnot
    have hkeys : c.pendingKeys = [] := by rw [TemplateCache.pendingKeys, hempty, ExtTreeMap.keys_eq_nil_iff]
    rw [hkeys]
    exact (yields_true_iff.mpr (by simp [retryKeysTrace])).congr (by simp [retryKeysTrace])

/-- A call on a cache whose buffered records have the times of their headers stays in range under the
condition. -/
theorem Call.decodeChecked_yields (call : Call) {c : TemplateCache} (hsmall : c.PendingSmall) :
    Yields (call.decodeChecked c) (call.InRange c) (call.decode c) := by
  have hdispatch := dispatchChecked_yields call c
  rw [call.inRange_iff, call.decode_eq_trace]
  unfold Call.decodeChecked decodeDatagramChecked
  by_cases hretries : call.retries
  · have hretry := Call.retryChecked_yields hretries
      (traceRows call.opts.mode.isFlowsOnly (call.passes c).1) (call.stable_pendingSmall.passes hsmall)
    rw [Call.trace_of_retries hretries]
    dsimp only
    rw [traceRows_append, List.forall_mem_append]
    refine (hdispatch.bind fun _ => hretry).congr ?_
    constructor
    · rintro ⟨⟨hpassed, huses, hbuffer⟩, hretried, hcounts⟩
      exact ⟨⟨hpassed, hretried⟩, fun _ => ⟨huses, hcounts⟩, hbuffer⟩
    · rintro ⟨⟨hpassed, hretried⟩, huses, hbuffer⟩
      exact ⟨⟨hpassed, (huses hretries).1, hbuffer⟩, hretried, (huses hretries).2⟩
  · have hparsed : call.parsed = none := by
      cases hparsed : call.parsed with
      | none => rfl
      | some parsed => exact absurd (Call.retries_of_parsed hparsed) hretries
    have hversion : ¬ (probeVersion call.data = some .v9 ∨ probeVersion call.data = some .v10) := by
      simpa [Call.retries] using hretries
    have hfits := Call.fits_of_parsed_eq_none hparsed c call.opts.mode.isFlowsOnly
    rw [Call.trace_of_not_retries hretries]
    simp only [hversion, false_and, if_false, hretries, Bool.false_eq_true, false_implies, true_and]
    refine (hdispatch.bind_some fun decoded => decoded).congr ?_
    exact iff_of_true hfits ⟨hfits.1, hfits.2.2⟩

/-- A run stays in range exactly if each of its calls does. -/
theorem runCallsChecked_yields (calls : List Call) {c : TemplateCache} (hsmall : c.PendingSmall) :
    Yields (runCallsChecked calls c) (RunInRange calls c) (runCalls calls c) := by
  induction calls generalizing c with
  | nil => exact Yields.pure _
  | cons call calls ih =>
    have hafter : (call.decode c).2.PendingSmall := by
      rw [call.decode_eq_trace]
      exact call.stable_pendingSmall.call hsmall
    rw [runCalls_cons]
    exact (call.decodeChecked_yields hsmall).bind fun _ =>
      (ih hafter).bind_some fun rest => ((call.decode c).1 :: rest.1, rest.2)

/-- From a reachable cache an overflow-checked build returns what the release build returns exactly if
the call stays in range, and stops exactly if it does not. -/
theorem decodeDatagram_checked_iff {serde : SerdeJson} (hserde : serde.Lawful) {c : TemplateCache}
    (hreach : Reachable serde c) (call : Call) :
    (call.decodeChecked c = some (call.decode c) ↔ call.InRange c) ∧
      (call.decodeChecked c = none ↔ ¬ call.InRange c) :=
  have hyields := call.decodeChecked_yields (hreach.pendingSmall hserde)
  ⟨hyields.eq_some_iff, hyields.eq_none_iff⟩

/-- A datagram with template 256 of a flow start in seconds of eight bytes, and one record of it that
starts `2 ^ 60` seconds after the epoch. -/
def sampleFarFuture : Bytes :=
  sampleHeader ++ [0, 0, 0, 12, 1, 0, 0, 1, 0, 150, 0, 8] ++ [1, 0, 0, 12, 16, 0, 0, 0, 0, 0, 0, 0]

/-- A fresh cache and a datagram whose time does not fit. -/
theorem decodeDatagram_checked_iff_farFuture :
    let call := Call.of sampleFarFuture "10.0.0.1"
    let c := TemplateCache.empty 4 64
    (call.decodeChecked c = some (call.decode c) ↔ call.InRange c) ∧
      (call.decodeChecked c = none ↔ ¬ call.InRange c) :=
  decodeDatagram_checked_iff (@SerdeJson.writing_lawful [] (by simp)) (.empty 4 64) _

/-- An overflow-checked build does not always return what the release build returns, not even on the
first datagram of a scan. -/
theorem not_forall_decodeChecked :
    ¬ ∀ (serde : SerdeJson) (c : TemplateCache) (call : Call), serde.Lawful → Reachable serde c →
      call.decodeChecked c = some (call.decode c) := by
  intro h
  have hcall := h (SerdeJson.writing []) (.empty 4 64) (Call.of sampleFarFuture "10.0.0.1")
    (SerdeJson.writing_lawful (by simp)) (.empty 4 64)
  have hstops : (Call.decodeChecked (Call.of sampleFarFuture "10.0.0.1") (.empty 4 64)).isNone := by
    decide +kernel
  rw [hcall] at hstops
  contradiction

end Calls

end Netflow
