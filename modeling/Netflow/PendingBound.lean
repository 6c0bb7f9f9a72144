import Netflow.Reachable

/-!
# How many records the buffer can hold

The cap limits the bytes buffered, not the records: a record costs the length of its body.
While every record has a body, the cap limits their number too, and a full buffer answers
every further Data Set at once. A Data Set of the smallest declarable length has an empty
body and costs nothing, so where its template is unknown the buffer grows without bound.
-/

namespace Netflow

/-- The number of records buffered. -/
def TemplateCache.pendingCount (c : TemplateCache) : ℕ := (KeyedQueue.contents c.pending).length

/-- When every buffered record has a body, their number is within the cap. -/
theorem TemplateCache.Accounted.pendingCount_le {c : TemplateCache} (h : c.Accounted)
    (hbody : ∀ p ∈ KeyedQueue.contents c.pending, p.2.bytes ≠ []) :
    c.pendingCount ≤ c.capPendingBytes.toNat := by
  refine le_trans ?_ h.le_cap
  have hcosts : ∀ cost ∈ (KeyedQueue.contents c.pending).map (·.2.bytes.length), 1 ≤ cost := by
    intro cost hcost
    obtain ⟨p, hp, rfl⟩ := List.mem_map.mp hcost
    exact List.length_pos_iff.mpr (hbody p hp)
  have hlength := List.length_le_sum_of_one_le _ hcosts
  rwa [List.length_map] at hlength

/-- When no Data Set of a datagram fits or has a layout, pass 2 reports each one missing. -/
theorem Settles.eq_of_full {ctx : Ctx} {now : Int64} {sets : List FlowSet} {c c' : TemplateCache}
    {trace : List Emission} (h : Settles ctx now sets c trace c') (hacc : c.Accounted)
    (hfull : ∀ p ∈ ctx.arrivals sets, p.1 ∉ c.entries ∧ p.2.bytes.length < 2 ^ 32 ∧
      c.capPendingBytes.toNat < bufferedBytes c.pending + p.2.bytes.length) :
    trace = (ctx.arrivals sets).map (fun p => .missing p.1 p.2 ctx.version) ∧ c' = c := by
  induction h with
  | nil => exact ⟨rfl, rfl⟩
  | skip hid _ ih =>
    rw [Ctx.arrivals_cons_of_lt hid] at hfull ⊢
    exact ih hacc hfull
  | known hid huse _ _ =>
    rw [Ctx.arrivals_cons_of_not_lt hid] at hfull
    exact absurd (TemplateCache.mem_of_useTemplate huse) (hfull _ List.mem_cons_self).1
  | @stored fs _ _ _ _ _ hid _ hpush _ _ =>
    rw [Ctx.arrivals_cons_of_not_lt hid] at hfull
    obtain ⟨-, hlen, hover⟩ := hfull _ List.mem_cons_self
    have hrefused := (hacc.pushPending_eq_false (ctx.key fs.id) hlen).mpr hover
    rw [hpush] at hrefused
    contradiction
  | refused hid _ _ _ ih =>
    rw [Ctx.arrivals_cons_of_not_lt hid] at hfull ⊢
    obtain ⟨rfl, rfl⟩ := ih hacc fun p hp => hfull p (List.mem_cons_of_mem _ hp)
    exact ⟨rfl, rfl⟩

/-- A datagram without templates none of whose Data Sets fits or has a layout is answered with
one `missing-template` row for each, and nothing else happens. -/
theorem Call.decode_of_full {call : Call} {fmt : TemplatedFormat} {ctx : Ctx} {sets : List FlowSet}
    (hparsed : call.parsed = some (fmt, ctx, sets)) (hlearned : call.learned = []) {c : TemplateCache}
    (hacc : c.Accounted) (hsettled : c.Settled)
    (hfull : ∀ p ∈ call.arrivals, p.1 ∉ c.entries ∧
      c.capPendingBytes.toNat < bufferedBytes c.pending + p.2.bytes.length) :
    call.decode c =
      (call.arrivals.map fun p => missingTemplate p.1 ctx.version p.2.exportTime p.2.sequence, c) := by
  have harrivals : call.arrivals = ctx.arrivals sets := by simp only [Call.arrivals, hparsed]
  have hdefs : fmt.definitions sets = [] := by simpa [Call.learned, hparsed] using hlearned
  have hsettles := settleSets_settles ctx call.opts.nowMicros sets c
  have hpasses : call.passes c =
      (call.arrivals.map (fun p => .missing p.1 p.2 ctx.version), c) := by
    simp only [Call.passes, hparsed, learnSets_eq, hdefs, harrivals]
    exact Prod.ext_iff.mpr (hsettles.eq_of_full hacc fun p hp =>
      have hp' : p ∈ call.arrivals := harrivals ▸ hp
      ⟨(hfull p hp').1, call.length_lt_of_mem_arrivals p hp', (hfull p hp').2⟩)
  rw [call.decode_eq_trace, Call.trace_eq_of_passes hsettled hpasses, traceRows, List.flatMap_map]
  simp only [Emission.rows, ← List.map_eq_flatMap]

/-- No Data Set with an empty body meets a cache without its template: by the time pass 2 looks,
the template of each is cached. -/
def Call.EmptiesKnown (call : Call) (c : TemplateCache) : Prop :=
  ∀ p ∈ call.arrivals, p.2.bytes = [] → p.1 ∈ (call.pass1 c).entries

/-- Pass 2 buffers only Data Sets without a cached layout. -/
theorem Settles.mem_contents {ctx : Ctx} {now : Int64} {sets : List FlowSet} {c c' : TemplateCache}
    {trace : List Emission} (h : Settles ctx now sets c trace c') {p : TemplateKey × PendingRecord}
    (hp : p ∈ KeyedQueue.contents c'.pending) :
    p ∈ KeyedQueue.contents c.pending ∨ p ∈ ctx.arrivals sets ∧ p.1 ∉ c.entries := by
  induction h with
  | nil => exact .inl hp
  | skip hid _ ih =>
    rw [Ctx.arrivals_cons_of_lt hid]
    exact ih hp
  | known hid huse _ ih =>
    rw [Ctx.arrivals_cons_of_not_lt hid]
    have hmem := (TemplateCache.mem_useTemplate (k := p.1) huse).not
    obtain ⟨e, -, -, rfl⟩ := TemplateCache.useTemplate_eq_some.mp huse
    exact (ih hp).imp_right fun hnew => ⟨List.mem_cons_of_mem _ hnew.1, hmem.mp hnew.2⟩
  | stored hid habsent hpush _ ih =>
    rw [Ctx.arrivals_cons_of_not_lt hid]
    obtain rfl := TemplateCache.eq_of_pushPending hpush
    rcases ih hp with hold | ⟨hmem, hkey⟩
    · rw [(KeyedQueue.contents_enqueue_perm _ _ _).mem_iff] at hold
      rcases List.mem_cons.mp hold with rfl | hold
      · exact .inr ⟨List.mem_cons_self, habsent⟩
      · exact .inl hold
    · exact .inr ⟨List.mem_cons_of_mem _ hmem, hkey⟩
  | refused hid _ _ _ ih =>
    rw [Ctx.arrivals_cons_of_not_lt hid]
    exact (ih hp).imp_right fun hnew => ⟨List.mem_cons_of_mem _ hnew.1, hnew.2⟩

/-- The retry buffers nothing. -/
theorem Retries.mem_contents {now : Int64} {keys : List TemplateKey} {c c' : TemplateCache}
    {trace : List Emission} (h : Retries now keys c trace c') {p : TemplateKey × PendingRecord}
    (hp : p ∈ KeyedQueue.contents c'.pending) : p ∈ KeyedQueue.contents c.pending := by
  obtain ⟨queue, hqueue, hmem⟩ := KeyedQueue.mem_contents.mp hp
  rw [h.getElem?_pending] at hqueue
  split at hqueue
  · contradiction
  · exact KeyedQueue.mem_contents.mpr ⟨queue, hqueue, hmem⟩

/-- What a call leaves buffered was buffered before, or arrived without a cached layout. -/
theorem Call.mem_contents_trace {call : Call} {c : TemplateCache} {p : TemplateKey × PendingRecord}
    (hp : p ∈ KeyedQueue.contents (call.trace c).2.pending) :
    p ∈ KeyedQueue.contents c.pending ∨ p ∈ call.arrivals ∧ p.1 ∉ (call.pass1 c).entries := by
  have hpasses : p ∈ KeyedQueue.contents (call.passes c).2.pending := by
    rcases call.trace_cases c with ⟨-, htrace⟩ | ⟨retried, c', hretries, htrace⟩
    · rwa [htrace] at hp
    · rw [htrace] at hp
      exact hretries.mem_contents hp
  rcases call.passes_cases c with ⟨-, hpassed⟩ |
      ⟨fmt, ctx, sets, trace, c', hparsed, hsettles, hpassed⟩
  · rw [hpassed] at hpasses
    exact .inl hpasses
  · rw [hpassed] at hpasses
    simp only [Call.arrivals, Call.pass1, hparsed, learnSets_eq]
    have hcases := hsettles.mem_contents hpasses
    rwa [learnDefs_pending] at hcases

/-- While no empty Data Set meets an unknown template, every record a run buffers has a body. -/
theorem bytes_ne_nil_of_emptiesKnown {calls : List Call} {c : TemplateCache}
    (hbody : ∀ p ∈ KeyedQueue.contents c.pending, p.2.bytes ≠ [])
    (hknown : ∀ first call, first ++ [call] <+: calls → call.EmptiesKnown (runTrace first c).2) :
    ∀ p ∈ KeyedQueue.contents (runTrace calls c).2.pending, p.2.bytes ≠ [] := by
  induction calls generalizing c with
  | nil => exact hbody
  | cons call calls ih =>
    refine ih (fun p hp hempty => ?_) fun first next hinit =>
      hknown (call :: first) next ((List.prefix_cons_inj call).mpr hinit)
    rcases Call.mem_contents_trace hp with hold | ⟨harrived, habsent⟩
    · exact hbody p hold hempty
    · exact habsent (hknown [] call (List.prefix_append [call] calls) p harrived hempty)

/-- In every run in which no empty Data Set meets an unknown template, the number of buffered
records stays within the cap, and once nothing more fits, further Data Sets are answered at
once. -/
theorem pendingCount_le_of_emptiesKnown {capEntries capPendingBytes : UInt32}
    (hcap : capPendingBytes.toNat < 2 ^ 32 - 1) {calls : List Call}
    (hknown : ∀ first call, first ++ [call] <+: calls →
      call.EmptiesKnown (runCalls first (.empty capEntries capPendingBytes)).2) :
    let c := (runCalls calls (.empty capEntries capPendingBytes)).2
    c.pendingCount ≤ capPendingBytes.toNat ∧
    ∀ (call : Call) (fmt : TemplatedFormat) (ctx : Ctx) (sets : List FlowSet),
      call.parsed = some (fmt, ctx, sets) → call.learned = [] →
      (∀ p ∈ call.arrivals, p.1 ∉ c.entries ∧
        capPendingBytes.toNat < bufferedBytes c.pending + p.2.bytes.length) →
      decodeDatagram call.data call.opts c call.restrict =
        (call.arrivals.map fun p => missingTemplate p.1 ctx.version p.2.exportTime p.2.sequence, c) := by
  intro c
  have hc : c = (runTrace calls (.empty capEntries capPendingBytes)).2 := by
    simp only [c, runCalls_eq_trace]
  have hacc : c.Accounted := hc ▸ runTrace_accounted calls (TemplateCache.accounted_empty hcap)
  have hcaps : c.capPendingBytes = capPendingBytes := by
    rw [hc]
    exact ((stable_caps _ _ capEntries capPendingBytes).run ⟨rfl, rfl⟩).2
  have hsettled : c.Settled := hc ▸ runTrace_settled calls (TemplateCache.settled_of_pending_empty rfl)
  constructor
  · simp only [runCalls_eq_trace] at hknown
    rw [← hcaps]
    apply hacc.pendingCount_le
    rw [hc]
    exact bytes_ne_nil_of_emptiesKnown (by simp [TemplateCache.empty]) hknown
  · intro call fmt ctx sets hparsed hlearned hfull
    rw [← hcaps] at hfull
    exact Call.decode_of_full hparsed hlearned hacc hsettled hfull

/-- A run whose second Data Set no longer fits a buffer of five bytes. -/
theorem pendingCount_le_of_emptiesKnown_full :
    let call := Call.of sampleData "10.0.0.1"
    let c := (runCalls [call] (.empty 1 5)).2
    c.pendingCount ≤ 5 ∧ call.decode c =
      ([missingTemplate ⟨"10.0.0.1", 7, 256⟩ .v9 (some 5000000) (some 1)], c) := by
  have hbodies : ∀ call ∈ [Call.of sampleData "10.0.0.1"], ∀ p ∈ call.arrivals, p.2.bytes ≠ [] := by decide
  have h := @pendingCount_le_of_emptiesKnown 1 5 (by decide) [Call.of sampleData "10.0.0.1"]
    fun first call hinit p hp hempty => absurd hempty (hbodies call (hinit.subset (by simp)) p hp)
  exact ⟨h.1, h.2 (Call.of sampleData "10.0.0.1") _ _ _ rfl rfl (by decide)⟩

/-- A datagram whose only FlowSet belongs to template 256 and has an empty body. -/
def sampleEmpty : Bytes := sampleHeader ++ [1, 0, 0, 4]

/-- A record with an empty body is always stored, at no cost. -/
theorem TemplateCache.pushPending_of_empty {c : TemplateCache} {key : TemplateKey} {rec : PendingRecord}
    (hbody : rec.bytes = []) (hbytes : c.pendingBytes = 0) :
    c.pushPending key rec = (true, { c with pending := KeyedQueue.enqueue c.pending key rec }) := by
  have hfree : ¬ saturatingAdd 0 0 > c.capPendingBytes := UInt32.not_lt.mpr (UInt32.zero_le (a := _))
  simp [pushPending, hbody, hbytes, hfree]

/-- While no layout is cached, each datagram with an empty Data Set adds a record at no cost. -/
theorem decode_sampleEmpty {c : TemplateCache} (hentries : c.entries = ∅) (hbytes : c.pendingBytes = 0) :
    let c' := ((Call.of sampleEmpty "10.0.0.1").decode c).2
    c'.entries = ∅ ∧ c'.pendingBytes = 0 ∧ c'.pendingCount = c.pendingCount + 1 := by
  obtain ⟨ctx, hparsed⟩ : ∃ ctx, (Call.of sampleEmpty "10.0.0.1").parsed =
      some (V9.format, ctx, [⟨256, []⟩]) := ⟨_, rfl⟩
  have hpasses : (Call.of sampleEmpty "10.0.0.1").passes c =
      ([], { c with pending := KeyedQueue.enqueue c.pending (ctx.key 256) (ctx.pendingRecord []) }) := by
    have hdefs : V9.format.definitions [⟨256, []⟩] = [] := rfl
    have hunknown : c.useTemplate (ctx.key 256) (Call.of sampleEmpty "10.0.0.1").opts.nowMicros = none :=
      TemplateCache.useTemplate_eq_none.mpr (by simp [hentries])
    have hpush : c.pushPending (ctx.key 256) (ctx.pendingRecord []) = _ :=
      TemplateCache.pushPending_of_empty rfl hbytes
    simp [Call.passes, hparsed, learnSets_eq, hdefs, learnDefs, settleSets, hunknown, hpush]
  have hretry := fun c' : TemplateCache => retryKeysTrace_retries
    (Call.of sampleEmpty "10.0.0.1").opts.nowMicros c'.pendingKeys c'
  rw [Call.decode_eq_trace]
  simp only [Call.trace, hpasses]
  have hcount := (KeyedQueue.contents_enqueue_perm c.pending (ctx.key 256) (ctx.pendingRecord [])).length_eq
  split
  · rw [((hretry _).eq_of_notMem (by simp [hentries])).2]
    exact ⟨hentries, hbytes, hcount⟩
  · exact ⟨hentries, hbytes, hcount⟩

/-- So any number of them is buffered. -/
theorem pendingCount_replicate (count : ℕ) {c : TemplateCache} (hentries : c.entries = ∅)
    (hbytes : c.pendingBytes = 0) :
    (runCalls (List.replicate count (Call.of sampleEmpty "10.0.0.1")) c).2.pendingCount =
      c.pendingCount + count := by
  induction count generalizing c with
  | zero => rfl
  | succ count ih =>
    obtain ⟨hentries', hbytes', hcount⟩ := decode_sampleEmpty hentries hbytes
    rw [List.replicate_succ, runCalls_cons, ih hentries' hbytes', hcount]
    omega

/-- No bound that depends on the byte cap alone limits the number of buffered records, not even
when no template ever arrives. -/
theorem pendingCount_unbounded :
    ¬ ∃ bound : UInt32 → ℕ, ∀ (capEntries capPendingBytes : UInt32) (calls : List Call),
      (∀ call ∈ calls, call.learned = []) →
        (runCalls calls (.empty capEntries capPendingBytes)).2.pendingCount ≤ bound capPendingBytes := by
  rintro ⟨bound, hbound⟩
  have hcalls : ∀ call ∈ List.replicate (bound defaultCapPendingBytes + 1) (Call.of sampleEmpty "10.0.0.1"),
      call.learned = [] := by
    intro call hcall
    rw [List.eq_of_mem_replicate hcall]
    rfl
  have hle := hbound defaultCapEntries defaultCapPendingBytes _ hcalls
  rw [pendingCount_replicate _ rfl rfl] at hle
  omega

end Netflow
