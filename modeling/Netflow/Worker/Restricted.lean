import Netflow.Flush
import Netflow.Provenance
import Netflow.Streams
import Netflow.Worker.Flows

/-!
# The restricted functions

Three functions take one family of formats each, and `flows` takes them all. Together the three show what `flows`
shows, each datagram in the function that takes it: where one does not take a datagram it only says so, and its cache
is the part of the cache of `flows` that belongs to its datagrams.
-/

namespace Netflow

section Definitions

/-- Whether a function takes a datagram of a version, or one that is of none. -/
def Restrict.takes (restrict : Restrict) : Option Version → Bool
  | none => true
  | some v => restrict.Accepts v

/-- The call that a restricted function makes where `flows` makes the given one. -/
def Call.restricted (restrict : Restrict) (call : Call) : Call :=
  { data := call.data
    opts := { call.opts with
      obsDomainOverride := if restrict ≠ .sflowOnly then call.opts.obsDomainOverride else none
      mode := .auto }
    restrict }

/-- The calls that a function makes on the batches of a scan, each of them at its time. -/
def FlowDecode.allCalls (f : FlowDecode) (batches : List (Int64 × List InputRow)) : List Call :=
  batches.flatMap fun b => f.calls b.1 b.2

/-- The answer to a datagram of a version that a function does not take. -/
def Call.notAccepted (call : Call) : FlowRecord :=
  let version := (probeVersion call.data).elim "" Version.asStr
  .diagnostic call.opts.exporter version 0 none none s!"decode-error:format-{version}-not-accepted-here"

end Definitions

section Calls

variable {restrict : Restrict} {call : Call} {c : TemplateCache}

/-- A restricted function makes the calls of `flows`, restricted. -/
theorem FlowDecode.calls_new (restrict : Restrict) (now : Int64) (rows : List InputRow) :
    (FlowDecode.new restrict).calls now rows = (FlowDecode.flows.calls now rows).map (Call.restricted restrict) := by
  rw [calls, calls, List.map_filterMap]
  congr 1
  funext row
  cases row.datagram with
  | none => rfl
  | some data =>
    simp only [Option.map_some, Call.restricted, options, FlowDecode.new, flows, decide_eq_true_eq,
      if_true, Bool.false_eq_true, if_false]

/-- What a function takes of the formats with templates is as `flows` takes it. -/
theorem Call.format_restricted (hany : call.restrict = .any) (htakes : restrict.takes (probeVersion call.data)) :
    (call.restricted restrict).format = call.format := by
  unfold Call.format Call.restricted
  rw [hany]
  cases hprobe : probeVersion call.data with
  | none => rfl
  | some v =>
    rw [hprobe] at htakes
    cases v <;> cases restrict <;> simp_all [Restrict.takes, Restrict.Accepts]

/-- A function that takes a format with templates lets the domain be overridden. -/
theorem Restrict.ne_sflowOnly_of_format {fmt : TemplatedFormat} (h : (call.restricted restrict).format = some fmt) :
    restrict ≠ .sflowOnly := by
  rintro rfl
  unfold Call.format Call.restricted at h
  split at h <;> simp_all

/-- Where a function takes a datagram, its call goes as that of `flows`. -/
theorem Call.trace_restricted_of_takes (hany : call.restrict = .any)
    (htakes : restrict.takes (probeVersion call.data)) (c : TemplateCache) :
    (call.restricted restrict).trace c = call.trace c := by
  have hformat := format_restricted hany htakes
  have hpasses : (call.restricted restrict).passes c = call.passes c := by
    cases hfmt : call.format with
    | some fmt =>
      have hoverride := Restrict.ne_sflowOnly_of_format (hformat.trans hfmt)
      simp only [passes, parsed, statelessTrace, rejection, hformat, hfmt]
      simp only [restricted, if_pos hoverride]
    | none =>
      have hstateless : (call.restricted restrict).statelessTrace = call.statelessTrace := by
        simp only [statelessTrace, hformat, hfmt]
        simp only [restricted, hany]
        cases hprobe : probeVersion call.data with
        | none => rfl
        | some v =>
          rw [hprobe] at htakes
          cases v <;> cases restrict <;> simp_all [Restrict.takes, Restrict.Accepts]
      simp only [passes, parsed, hformat, hfmt, hstateless, Option.bind_eq_bind, Option.bind_none]
  rw [trace, trace, hpasses]
  rfl

/-- Where a function does not take a datagram, its call says so and leaves the cache as it is. -/
theorem Call.trace_restricted_of_not_takes (hsettled : c.Settled)
    (htakes : restrict.takes (probeVersion call.data) = false) :
    (call.restricted restrict).trace c = ([.row call.notAccepted], c) := by
  cases hprobe : probeVersion call.data with
  | none => simp [hprobe, Restrict.takes] at htakes
  | some v =>
    have haccepts : ¬ restrict.Accepts v := by simpa [hprobe, Restrict.takes] using htakes
    have hrejected : (call.restricted restrict).Rejected := .notAccepted hprobe haccepts
    have hformat : (call.restricted restrict).format = none := by
      cases hformat : (call.restricted restrict).format with
      | none => rfl
      | some fmt =>
        obtain ⟨v', hv', htaken⟩ := accepts_of_format hformat
        obtain rfl := Option.some.inj (hv'.symm.trans hprobe)
        exact absurd htaken haccepts
    refine trace_eq_of_passes hsettled ?_
    rw [passes, hrejected.parsed_eq_none]
    rcases statelessTrace_cases hformat hprobe with ⟨-, htaken, -⟩ | ⟨-, htaken, -⟩ | ⟨-, htrace⟩
    · exact absurd htaken haccepts
    · exact absurd htaken haccepts
    · rw [htrace, notAccepted, hprobe]
      rfl

end Calls

section Runs

variable {restrict : Restrict} {calls : List Call} {capEntries capPendingBytes : UInt32}

/-- The calls whose datagrams a function takes. -/
def taken (restrict : Restrict) (calls : List Call) : List Call :=
  calls.filter fun call => restrict.takes (probeVersion call.data)

/-- The version of a call that works in a scope is one of the two with templates. -/
theorem Call.version_of_scope {call : Call} {scope : String × UInt32} (h : call.scope? = some scope) :
    probeVersion call.data = some .v9 ∨ probeVersion call.data = some .v10 := by
  obtain ⟨⟨fmt, ctx, sets⟩, hparsed, -⟩ := Option.map_eq_some_iff.mp h
  exact (call.format_version (parsed_eq_some hparsed).1).imp And.right And.right

/-- Where v9 and IPFIX share no scope, a scope that a call works in is that of a call taken exactly if this is. -/
theorem ownsScope_taken (hdisjoint : ∀ a ∈ calls, ∀ b ∈ calls, probeVersion a.data = some .v9 →
      probeVersion b.data = some .v10 → ∀ scope ∈ a.scope?, scope ∉ b.scope?)
    {call : Call} (hcall : call ∈ calls) {scope : String × UInt32} (hscope : call.scope? = some scope) :
    ownsScope (taken restrict calls) scope = restrict.takes (probeVersion call.data) := by
  cases htakes : restrict.takes (probeVersion call.data) with
  | true =>
    exact List.any_eq_true.mpr ⟨call, List.mem_filter.mpr ⟨hcall, htakes⟩, decide_eq_true hscope⟩
  | false =>
    rw [ownsScope, List.any_eq_false]
    intro other hother
    obtain ⟨hmem, htaken⟩ := List.mem_filter.mp hother
    rw [decide_eq_true_eq]
    intro hsame
    rcases call.version_of_scope hscope with hv | hv <;> rcases other.version_of_scope hsame with hw | hw
    · rw [hv, ← hw, htaken] at htakes
      contradiction
    · exact hdisjoint call hcall other hmem hv hw scope hscope hsame
    · exact hdisjoint other hmem call hcall hw hv scope hsame hscope
    · rw [hv, ← hw, htaken] at htakes
      contradiction

variable {S : TemplateKey → Bool} {keys : Finset TemplateKey} {l m : TemplateCache}

/-- A restricted run goes as the run of `flows` does where its datagrams are taken, on the part of the cache that
belongs to these. -/
theorem Shadows.runTrace_restricted (h : Shadows S l m) (hany : ∀ call ∈ calls, call.restrict = .any)
    (hscope : ∀ call ∈ calls, call.AllKeys S (restrict.takes (probeVersion call.data)))
    (hkeys : ∀ call ∈ calls, ∀ d ∈ call.learned, d.1 ∈ keys) (hfits : m.Fits keys) (hsettled : m.Settled)
    (hsettled' : l.Settled) (hl : l.Exact) (hm : m.Exact)
    (hrefused : ∀ e ∈ (runTrace calls m).1.flatten, e.isMissing = false) :
    (runTrace (calls.map (Call.restricted restrict)) l).1 =
        List.zipWith (fun call trace => if restrict.takes (probeVersion call.data) then trace
          else [.row call.notAccepted]) calls (runTrace calls m).1 ∧
      Shadows S (runTrace (calls.map (Call.restricted restrict)) l).2 (runTrace calls m).2 := by
  induction calls generalizing l m with
  | nil => exact ⟨rfl, h⟩
  | cons call calls ih =>
    obtain ⟨hcallAny, hany⟩ := List.forall_mem_cons.mp hany
    obtain ⟨hcallScope, hscope⟩ := List.forall_mem_cons.mp hscope
    obtain ⟨hcallKeys, hkeys⟩ := List.forall_mem_cons.mp hkeys
    simp only [List.map_cons, runTrace, List.flatten_cons, List.forall_mem_append, List.zipWith_cons_cons]
      at hrefused ⊢
    have hexact := stable_exact call.learned call.length_lt_of_mem_arrivals
    have hfits' := (stable_fits hcallKeys call.arrivals).call hfits
    have hrest := fun {l'} (h' : Shadows S l' (call.trace m).2) (hs : l'.Settled) (hl' : l'.Exact) =>
      ih h' hany hscope hkeys hfits' (call.trace_settled hsettled) hs hl' (hexact.call hm) hrefused.2
    cases htakes : restrict.takes (probeVersion call.data) with
    | true =>
      rw [htakes] at hcallScope
      obtain ⟨hrows, hshadow⟩ := h.call hcallScope hcallKeys hfits hsettled hl hm hrefused.1
      rw [call.trace_restricted_of_takes hcallAny htakes, if_pos rfl, hrows]
      obtain ⟨htraces, hcache⟩ := hrest hshadow (call.trace_settled hsettled') (hexact.call hl)
      exact ⟨congrArg _ htraces, hcache⟩
    | false =>
      rw [htakes] at hcallScope
      have hsame := Call.trace_sameOn hcallScope hcallKeys hfits hsettled
      have hcaps := (stable_caps call.learned call.arrivals m.capEntries m.capPendingBytes).call ⟨rfl, rfl⟩
      rw [Call.trace_restricted_of_not_takes hsettled' htakes, if_neg Bool.false_ne_true]
      obtain ⟨htraces, hcache⟩ := hrest (h.of_sameOn hsame hcaps) hsettled' hl
      exact ⟨congrArg _ htraces, hcache⟩

/-- A Data Set is of the scope and the version of the call in which it arrives. -/
theorem Call.of_mem_arrivals {call : Call} {key : TemplateKey} {rec : PendingRecord} (h : (key, rec) ∈ call.arrivals) :
    call.scope? = some key.scope ∧ probeVersion call.data = some rec.version := by
  unfold arrivals at h
  split at h
  · rename_i fmt ctx sets hparsed
    obtain ⟨fs, -, heq⟩ := List.mem_map.mp h
    cases heq
    obtain ⟨hformat, -, hdr, -, rfl⟩ := parsed_eq_some hparsed
    refine ⟨by rw [scope?, hparsed]; rfl, ?_⟩
    rcases call.format_version hformat with ⟨rfl, hprobe⟩ | ⟨rfl, hprobe⟩ <;> exact hprobe
  · contradiction

/-- Where v9 and IPFIX share no scope, the rows of the flush that name the scopes of what is taken are those of the
versions that are taken. -/
theorem ownsScope_flushPending (hdisjoint : ∀ a ∈ calls, ∀ b ∈ calls, probeVersion a.data = some .v9 →
      probeVersion b.data = some .v10 → ∀ scope ∈ a.scope?, scope ∉ b.scope?)
    {row : FlowRecord} (hrow : row ∈ (flushPending (runCalls calls (.empty capEntries capPendingBytes)).2).1) :
    ownsScope (taken restrict calls) row.scope = restrict.takesText row.flowVersion := by
  rw [flushPending_eq_trace false, runCalls_eq_trace] at hrow
  obtain ⟨e, he, hrow⟩ := List.mem_flatMap.mp hrow
  obtain ⟨key, queue, rec, hqueue, hrec, rfl⟩ := mem_flushTrace he
  obtain ⟨oldest, others, rfl⟩ := List.exists_cons_of_ne_nil (List.ne_nil_of_mem hrec)
  have harrived := (mem_contents_runTrace (KeyedQueue.mem_contents.mpr ⟨_, hqueue, List.mem_cons_self⟩)).resolve_left
    (by simp [TemplateCache.empty])
  obtain ⟨first, hfirst, hmem⟩ := List.mem_flatMap.mp harrived
  obtain ⟨hscope, hversion⟩ := Call.of_mem_arrivals hmem
  have hflush : flushVersion (oldest :: others) = oldest.version := by
    rcases Call.version_of_mem_arrivals hmem with hv | hv <;> simp [flushVersion, hv]
  rw [List.mem_singleton.mp hrow, hflush]
  change ownsScope _ key.scope = restrict.takesText oldest.version.asStr
  rw [ownsScope_taken hdisjoint hfirst hscope, hversion, Restrict.takesText_asStr, Restrict.takes]

/-- The rows of a restricted run are those of the run of `flows` where its datagrams are taken. -/
theorem zipWith_rows_restricted (hmode : ∀ call ∈ calls, call.opts.mode.isFlowsOnly = false)
    (traces : List (List Emission)) :
    List.zipWith Call.rows (calls.map (Call.restricted restrict))
        (List.zipWith (fun call trace => if restrict.takes (probeVersion call.data) then trace
          else [.row call.notAccepted]) calls traces) =
      List.zipWith (fun call rows => if restrict.takes (probeVersion call.data) then rows else [call.notAccepted])
        calls (List.zipWith Call.rows calls traces) := by
  induction calls generalizing traces with
  | nil => rfl
  | cons call calls ih =>
    obtain ⟨hcall, hmode⟩ := List.forall_mem_cons.mp hmode
    cases traces with
    | nil => rfl
    | cons trace traces =>
      simp only [List.map_cons, List.zipWith_cons_cons, ih hmode]
      congr 1
      split
      · rw [Call.rows, Call.rows, hcall]
        rfl
      · rfl

/-- A restricted function shows of a scan exactly what `flows` shows of the datagrams that it takes, call by call and
in the flush, and of each other datagram one row that says that it does not take it, as long as no mode drops rows
of `flows`, v9 and IPFIX share no exporter and domain and `flows` reaches no cap. So the three restricted functions
share out what `flows` shows. -/
theorem FlowDecode.runCalls_restricted (restrict : Restrict) (batches : List (Int64 × List InputRow))
    (capEntries capPendingBytes : UInt32)
    (hmode : ∀ call ∈ flows.allCalls batches, call.opts.mode.isFlowsOnly = false)
    (hdisjoint : ∀ a ∈ flows.allCalls batches, ∀ b ∈ flows.allCalls batches, probeVersion a.data = some .v9 →
      probeVersion b.data = some .v10 → ∀ scope ∈ a.scope?, scope ∉ b.scope?)
    (hentries : (((flows.allCalls batches).flatMap Call.learned).map Prod.fst).toFinset.card ≤ capEntries.toNat)
    (hrefused : ∀ e ∈ (runTrace (flows.allCalls batches) (.empty capEntries capPendingBytes)).1.flatten,
      e.isMissing = false) :
    let all := runCalls (flows.allCalls batches) (.empty capEntries capPendingBytes)
    let only := runCalls ((FlowDecode.new restrict).allCalls batches) (.empty capEntries capPendingBytes)
    only.1 = List.zipWith (fun call rows => if restrict.takes (probeVersion call.data) then rows
        else [call.notAccepted]) (flows.allCalls batches) all.1 ∧
      (flushPending only.2).1 = (flushPending all.2).1.filter fun row => restrict.takesText row.flowVersion := by
  obtain ⟨calls, hcalls⟩ : ∃ calls, calls = flows.allCalls batches := ⟨_, rfl⟩
  have hany : ∀ call ∈ calls, call.restrict = .any := by
    intro call hcall
    rw [hcalls, allCalls, List.mem_flatMap] at hcall
    obtain ⟨b, -, hcall⟩ := hcall
    obtain ⟨row, -, hrow⟩ := List.mem_filterMap.mp hcall
    obtain ⟨data, -, rfl⟩ := Option.map_eq_some_iff.mp hrow
    rfl
  have hnew : (FlowDecode.new restrict).allCalls batches = calls.map (Call.restricted restrict) := by
    rw [hcalls, allCalls, allCalls, List.map_flatMap]
    simp only [calls_new]
  rw [← hcalls] at hmode hdisjoint hentries hrefused
  rw [hnew, ← hcalls]
  intro all only
  have hempty : TemplateCache.Settled (.empty capEntries capPendingBytes) := TemplateCache.settled_of_pending_empty rfl
  have hexact : (TemplateCache.empty capEntries capPendingBytes).Exact := fun hcap =>
    TemplateCache.accounted_empty hcap
  have hscope : ∀ call ∈ calls, call.AllKeys (fun key => ownsScope (taken restrict calls) key.scope)
      (restrict.takes (probeVersion call.data)) := fun call hcall =>
    Call.allKeys_ownsScope fun scope hscope => ownsScope_taken hdisjoint hcall hscope
  have hkeys : ∀ call ∈ calls, ∀ d ∈ call.learned, d.1 ∈ ((calls.flatMap Call.learned).map Prod.fst).toFinset :=
    fun call hcall d hd => List.mem_toFinset.mpr (List.mem_map_of_mem (List.mem_flatMap_of_mem hcall hd))
  obtain ⟨htraces, hshadow⟩ := Shadows.empty.runTrace_restricted hany hscope hkeys
    ⟨by simp [TemplateCache.empty], hentries⟩ hempty hempty hexact hexact hrefused
  have hall : all = _ := runCalls_eq_trace calls _
  have honly : only = _ := runCalls_eq_trace (calls.map (Call.restricted restrict)) _
  constructor
  · rw [honly, hall, htraces]
    exact zipWith_rows_restricted hmode _
  · have hflush := hshadow.flushPending
    rw [honly]
    refine hflush.trans ?_
    rw [← congrArg Prod.snd hall]
    exact List.filter_congr fun row hrow => ownsScope_flushPending hdisjoint hrow

/-- Two batches of a scan: a v9 Data Set, and then one of IPFIX by another exporter and an sFlow datagram. -/
def sampleBatches : List (Int64 × List InputRow) :=
  [(0, [⟨some sampleData, some "10.0.0.1", none, none⟩]),
    (1, [⟨some sampleIpfixData, some "10.0.0.2", none, none⟩, ⟨some sampleSflow, none, none, none⟩])]

/-- What the NetFlow function shows of them: the v9 Data Set, which waits until the flush. -/
theorem FlowDecode.runCalls_restricted_netflow :
    let all := runCalls (flows.allCalls sampleBatches) .new
    let only := runCalls ((FlowDecode.new .netflowOnly).allCalls sampleBatches) .new
    only.1 = List.zipWith (fun call rows => if Restrict.netflowOnly.takes (probeVersion call.data) then rows
        else [call.notAccepted]) (flows.allCalls sampleBatches) all.1 ∧
      (flushPending only.2).1 =
        (flushPending all.2).1.filter fun row => Restrict.netflowOnly.takesText row.flowVersion :=
  FlowDecode.runCalls_restricted .netflowOnly sampleBatches _ _ (by decide) (by decide) (by decide)
    (runTrace_of_hasRoom (by
      unfold TemplateCache.HasRoom
      decide))

end Runs

end Netflow
