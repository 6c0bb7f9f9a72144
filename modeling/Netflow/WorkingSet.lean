import Netflow.Statistics
import Netflow.Survival
import Netflow.UseCount

/-!
# Working sets

Below the entry cap a run leaves every layout that is given last. Above it templates are evicted. But a window of a
run, with all its clock values from some time on and all earlier ones before, is safe by itself if it touches no
more keys than the cap: a template that is defined or used in it stays to its end, however many others there are.
-/

namespace Netflow

open Std (ExtTreeMap)

section Definitions

variable {keys : Finset TemplateKey} {c : TemplateCache} {key : TemplateKey}

/-- The layout that is given last for a key. -/
def lastDefined (learned : List (TemplateKey × Layout)) (key : TemplateKey) : Option Layout :=
  learned.reverse.lookup key

/-- Of two lists of definitions the second counts, where it has one. -/
theorem lastDefined_append (first second : List (TemplateKey × Layout)) :
    lastDefined (first ++ second) key = (lastDefined second key).or (lastDefined first key) := by
  rw [lastDefined, List.reverse_append, List.lookup_append]
  rfl

/-- The first definition counts where no later one does. -/
theorem lastDefined_cons (p : TemplateKey × Layout) (learned : List (TemplateKey × Layout)) :
    lastDefined (p :: learned) key = (lastDefined learned key).or (if key = p.1 then some p.2 else none) := by
  obtain ⟨first, layout⟩ := p
  rw [← List.singleton_append, lastDefined_append]
  congr 1
  by_cases hkey : key = first
  · simp [lastDefined, hkey]
  · have hne : (key == first) = false := beq_false_of_ne hkey
    simp [lastDefined, List.lookup_cons, hne, hkey]

/-- A key that is defined has a layout that is given last. -/
theorem isSome_lastDefined {learned : List (TemplateKey × Layout)} (h : key ∈ learned.map Prod.fst) :
    (lastDefined learned key).isSome := by
  induction learned with
  | nil => contradiction
  | cons p learned ih =>
    rw [lastDefined_cons, Option.isSome_or, Bool.or_eq_true]
    rcases List.mem_cons.mp h with hkey | hmem
    · rw [if_pos hkey]
      exact .inr rfl
    · exact .inl (ih hmem)

/-- The layout after some definitions is the one they give last, or the one before them. -/
theorem layoutAfter_eq_lastDefined (ctx : Ctx) (defs : List TemplateDef) (cached : Option Layout) :
    ctx.layoutAfter defs key cached =
      (lastDefined (defs.map fun d => (d.key ctx.exporter ctx.obsDomain, d.layout)) key).or cached := by
  induction defs generalizing cached with
  | nil => rfl
  | cons d defs ih =>
    have hfirst : ctx.layoutAfter [d] key cached =
        (if key = d.key ctx.exporter ctx.obsDomain then some d.layout else none).or cached := by
      by_cases hkey : key = d.key ctx.exporter ctx.obsDomain
      · simp [Ctx.layoutAfter, hkey]
      · rw [layoutAfter_of_ne (by simpa using Ne.symm hkey), if_neg hkey, Option.none_or]
    rw [← List.singleton_append, layoutAfter_append, ih, hfirst, List.singleton_append, List.map_cons,
      lastDefined_cons, Option.or_assoc]

/-- Below the entry cap, a call leaves the layouts that are given last. -/
theorem TemplateCache.Fits.known_trace (h : c.Fits keys) {call : Call} (hkeys : ∀ p ∈ call.learned, p.1 ∈ keys) :
    (call.trace c).2.binding.known key = (lastDefined call.learned key).or (c.binding.known key) := by
  have hpass : (call.pass1 c).binding.known key = (lastDefined call.learned key).or (c.binding.known key) := by
    cases hparsed : call.parsed with
    | none =>
      simp only [Call.learned, Call.pass1, hparsed]
      rfl
    | some parsed =>
      simp only [Call.learned, Call.pass1, hparsed, learnSets_eq, List.forall_mem_map] at hkeys ⊢
      rw [h.known_learnDefs hkeys, layoutAfter_eq_lastDefined]
  rcases call.trace_cases c with ⟨-, htrace⟩ | ⟨retried, c', hretries, htrace⟩
  · rw [htrace, Call.passes_known, hpass]
  · rw [htrace, hretries.known_eq, Call.passes_known, hpass]

/-- Below the entry cap, a run leaves the layouts that are given last. -/
theorem TemplateCache.Fits.known_runTrace (h : c.Fits keys) {calls : List Call}
    (hkeys : ∀ p ∈ calls.flatMap Call.learned, p.1 ∈ keys) :
    (runTrace calls c).2.binding.known key =
      (lastDefined (calls.flatMap Call.learned) key).or (c.binding.known key) := by
  induction calls generalizing c with
  | nil => rfl
  | cons call calls ih =>
    rw [List.flatMap_cons, List.forall_mem_append] at hkeys
    have hcall : (call.trace c).2.Fits keys := (stable_fits hkeys.1 call.arrivals).call h
    rw [List.flatMap_cons, lastDefined_append, Option.or_assoc, ← h.known_trace hkeys.1]
    exact ih hcall hkeys.2

end Definitions

section Windows

/-- The keys that a call defines or has Data Sets for. -/
def Call.touched (call : Call) : List TemplateKey := call.learned.map Prod.fst ++ call.arrivals.map Prod.fst

/-- The keys that a window touches. -/
def touchedKeys (window : List Call) : Finset TemplateKey := (window.flatMap Call.touched).toFinset

/-- A property of caches that the operations keep which come at some times and touch some keys. -/
structure StableAt (times : Int64 → Prop) (keys : TemplateKey → Prop) (P : TemplateCache → Prop) : Prop where
  upsert : ∀ (c : TemplateCache) (key : TemplateKey) (entry : TemplateEntry),
    keys key → times entry.lastSeen → P c → P (c.upsert key entry)
  useTemplate : ∀ (c c' : TemplateCache) (key : TemplateKey) (now : Int64) (tpl : TemplateEntry),
    keys key → times now → c.useTemplate key now = some (tpl, c') → P c → P c'
  pushPending : ∀ (c : TemplateCache) (key : TemplateKey) (rec : PendingRecord), P c → P (c.pushPending key rec).2
  takePending : ∀ (c : TemplateCache) (key : TemplateKey), P c → P (c.takePending key).2

namespace StableAt

variable {times : Int64 → Prop} {keys : TemplateKey → Prop} {P : TemplateCache → Prop} {c : TemplateCache}

/-- Pass 1 keeps such a property. -/
theorem learnDefs (h : StableAt times keys P) {exporter : String} {obsDomain : UInt32} {now : Int64}
    {defs : List TemplateDef} (hkeys : ∀ d ∈ defs, keys (d.key exporter obsDomain)) (hnow : times now) (hc : P c) :
    P (Netflow.learnDefs exporter obsDomain now defs c) := by
  induction defs generalizing c with
  | nil => exact hc
  | cons d defs ih =>
    obtain ⟨hfirst, hothers⟩ := List.forall_mem_cons.mp hkeys
    exact ih hothers (h.upsert c _ (d.entry now) hfirst hnow hc)

/-- Pass 2 keeps such a property. -/
theorem settles (h : StableAt times keys P) {ctx : Ctx} {now : Int64} {sets : List FlowSet} {c' : TemplateCache}
    {trace : List Emission} (hkeys : ∀ p ∈ ctx.arrivals sets, keys p.1) (hnow : times now)
    (hsettles : Settles ctx now sets c trace c') (hc : P c) : P c' := by
  induction hsettles with
  | nil => exact hc
  | skip hid _ ih =>
    rw [Ctx.arrivals_cons_of_lt hid] at hkeys
    exact ih hkeys hc
  | known hid huse _ ih =>
    rw [Ctx.arrivals_cons_of_not_lt hid, List.forall_mem_cons] at hkeys
    exact ih hkeys.2 (h.useTemplate _ _ _ _ _ hkeys.1 hnow huse hc)
  | @stored fs sets c _ _ _ hid _ hpush _ ih =>
    rw [Ctx.arrivals_cons_of_not_lt hid, List.forall_mem_cons] at hkeys
    have hpushed := h.pushPending c (ctx.key fs.id) (ctx.pendingRecord fs.body) hc
    rw [hpush] at hpushed
    exact ih hkeys.2 hpushed
  | refused hid _ _ _ ih =>
    rw [Ctx.arrivals_cons_of_not_lt hid, List.forall_mem_cons] at hkeys
    exact ih hkeys.2 hc

/-- The retry keeps such a property. -/
theorem retries (h : StableAt times keys P) {now : Int64} {waiting : List TemplateKey} {c' : TemplateCache}
    {trace : List Emission} (hkeys : ∀ key ∈ waiting, key ∈ c.entries → keys key) (hnow : times now)
    (hretries : Retries now waiting c trace c') (hc : P c) : P c' := by
  induction hretries with
  | nil => exact hc
  | skip _ _ ih => exact ih (List.forall_mem_cons.mp hkeys).2 hc
  | release huse _ ih =>
    obtain ⟨hfirst, hothers⟩ := List.forall_mem_cons.mp hkeys
    have hused := h.useTemplate _ _ _ _ _ (hfirst (TemplateCache.mem_of_useTemplate huse)) hnow huse hc
    refine ih (fun key hkey hmem => hothers key hkey ?_) (h.takePending _ _ hused)
    rwa [TemplateCache.takePending_entries, TemplateCache.mem_useTemplate huse] at hmem

end StableAt

/-- A template that records of a settled cache can wait for during a call is one that the call touches. -/
theorem Call.touched_of_waiting {call : Call} {c : TemplateCache} (hsettled : c.Settled) {key : TemplateKey}
    (hwaiting : key ∈ (call.passes c).2.pending) (hcached : key ∈ (call.passes c).2.entries) :
    key ∈ call.touched := by
  have hstable : Stable call.learned call.arrivals
      fun c => ∀ key, key ∈ c.pending → key ∈ c.entries → key ∈ call.touched := by
    constructor
    · intro c k entry hmem h key hwaiting hcached
      obtain ⟨e, he⟩ := KeyedQueue.mem_iff_exists_getElem?.mp hcached
      rcases TemplateCache.getElem?_of_upsert he with ⟨rfl, -⟩ | ⟨-, hold⟩
      · exact List.mem_append_left _ (List.mem_map_of_mem hmem)
      · exact h key hwaiting (KeyedQueue.mem_of_getElem? hold)
    · intro c c' k now tpl huse h key hwaiting hcached
      rw [TemplateCache.mem_useTemplate huse] at hcached
      obtain ⟨e, -, -, rfl⟩ := TemplateCache.useTemplate_eq_some.mp huse
      exact h key hwaiting hcached
    · intro c k rec hmem h key hwaiting hcached
      rcases c.pushPending_cases k rec with hpush | hpush
      · rw [hpush] at hwaiting hcached
        exact h key hwaiting hcached
      · rw [hpush] at hwaiting hcached
        obtain ⟨queue, hqueue⟩ := KeyedQueue.mem_iff_exists_getElem?.mp hwaiting
        rw [KeyedQueue.getElem?_enqueue] at hqueue
        split at hqueue
        · rename_i heq
          exact heq ▸ List.mem_append_right _ (List.mem_map_of_mem hmem)
        · exact h key (KeyedQueue.mem_of_getElem? hqueue) hcached
    · intro c k h key hwaiting hcached
      rw [TemplateCache.takePending_pending, ExtTreeMap.mem_erase] at hwaiting
      exact h key hwaiting.2 hcached
  exact hstable.passes (fun key hkey hmem => absurd hmem (hsettled.disjoint key hkey)) key hwaiting hcached

namespace StableAt

variable {times : Int64 → Prop} {keys : TemplateKey → Prop} {P : TemplateCache → Prop} {c : TemplateCache}

/-- A call that touches such keys at such a time keeps such a property. -/
theorem call (h : StableAt times keys P) {call : Call} (hsettled : c.Settled) (hkeys : ∀ key ∈ call.touched, keys key)
    (hnow : times call.opts.nowMicros) (hc : P c) : P (call.trace c).2 := by
  have hpassed : P (call.passes c).2 := by
    rcases call.passes_cases c with ⟨-, hpasses⟩ | ⟨fmt, ctx, sets, trace, c', hparsed, hsettles, hpasses⟩
    · rwa [hpasses]
    · simp only [Call.touched, Call.learned, Call.arrivals, hparsed, List.forall_mem_append, List.forall_mem_map]
        at hkeys
      rw [hpasses]
      exact h.settles hkeys.2 hnow hsettles (h.learnDefs hkeys.1 hnow hc)
  rcases call.trace_cases c with ⟨-, htrace⟩ | ⟨retried, c', hretries, htrace⟩
  · rwa [htrace]
  · rw [htrace]
    refine h.retries (fun key hwaiting hcached => hkeys key ?_) hnow hretries hpassed
    exact Call.touched_of_waiting hsettled (ExtTreeMap.mem_keys.mp hwaiting) hcached

/-- A run of such calls keeps such a property. -/
theorem run (h : StableAt times keys P) {calls : List Call} (hsettled : c.Settled)
    (hkeys : ∀ call ∈ calls, ∀ key ∈ call.touched, keys key) (hnow : ∀ call ∈ calls, times call.opts.nowMicros)
    (hc : P c) : P (runTrace calls c).2 := by
  induction calls generalizing c with
  | nil => exact hc
  | cons call calls ih =>
    obtain ⟨hkey, hkeys⟩ := List.forall_mem_cons.mp hkeys
    obtain ⟨htime, hnow⟩ := List.forall_mem_cons.mp hnow
    exact ih (call.trace_settled hsettled) hkeys hnow (h.call hsettled hkey htime hc)

end StableAt

/-- What is asked of every cached template and the time it was last seen. -/
def TemplateCache.Seen (seen : TemplateKey → Int64 → Prop) (c : TemplateCache) : Prop :=
  ∀ (key : TemplateKey) (e : TemplateEntry), c.entries[key]? = some e → seen key e.lastSeen

/-- What the times and keys of some operations meet, their caches keep to. -/
theorem stableAt_seen {times : Int64 → Prop} {keys : TemplateKey → Prop} {seen : TemplateKey → Int64 → Prop}
    (h : ∀ key now, keys key → times now → seen key now) : StableAt times keys (TemplateCache.Seen seen) where
  upsert c key entry hkey hnow hc k e he := by
    rcases TemplateCache.getElem?_of_upsert he with ⟨rfl, rfl⟩ | ⟨-, hold⟩
    · rw [c.stored_lastSeen]
      exact h _ _ hkey hnow
    · exact hc k e hold
  useTemplate c c' key now tpl hkey hnow huse hc k e he := by
    obtain ⟨old, -, rfl, rfl⟩ := TemplateCache.useTemplate_eq_some.mp huse
    rw [ExtTreeMap.getElem?_insert] at he
    split at he
    · rename_i heq
      obtain rfl := Std.LawfulEqCmp.eq_of_compare heq
      obtain rfl := Option.some.inj he
      exact h _ _ hkey hnow
    · exact hc k e he
  pushPending c key rec hc := by simpa [TemplateCache.Seen] using hc
  takePending c key hc := hc

section Recent

variable {t : Int64} {keys : Finset TemplateKey} {c : TemplateCache} {k : TemplateKey}

/-- All templates seen since a time are among given ones, and the cap has room for all of these. -/
structure TemplateCache.InWindow (t : Int64) (keys : Finset TemplateKey) (c : TemplateCache) : Prop where
  recent : c.Seen fun key seen => t ≤ seen → key ∈ keys
  card_le : keys.card ≤ c.capEntries.toNat

/-- A template that is cached only if it was seen since a time. -/
def TemplateCache.Fresh (t : Int64) (k : TemplateKey) (c : TemplateCache) : Prop :=
  c.Seen fun key seen => key = k → t ≤ seen

/-- A window keeps to its keys. -/
theorem stableAt_inWindow : StableAt (t ≤ ·) (· ∈ keys) (TemplateCache.InWindow t keys) := by
  have hseen : StableAt (t ≤ ·) (· ∈ keys) (TemplateCache.Seen fun key seen => t ≤ seen → key ∈ keys) :=
    stableAt_seen fun _ _ hkey _ _ => hkey
  constructor
  · intro c key entry hkey hnow hc
    exact ⟨hseen.upsert c key entry hkey hnow hc.recent, hc.card_le⟩
  · intro c c' key now tpl hkey hnow huse hc
    refine ⟨hseen.useTemplate c c' key now tpl hkey hnow huse hc.recent, ?_⟩
    obtain ⟨e, -, -, rfl⟩ := TemplateCache.useTemplate_eq_some.mp huse
    exact hc.card_le
  · intro c key rec hc
    exact ⟨hseen.pushPending c key rec hc.recent, by simpa using hc.card_le⟩
  · intro c key hc
    exact ⟨hc.recent, hc.card_le⟩

/-- In a window a template stays fresh. -/
theorem stableAt_fresh (keys : TemplateKey → Prop) : StableAt (t ≤ ·) keys (TemplateCache.Fresh t k) := by
  change StableAt _ _ (TemplateCache.Seen fun key seen => key = k → t ≤ seen)
  exact stableAt_seen fun _ _ _ hnow _ => hnow

/-- Templates with keys among given ones are no more than these. -/
theorem countP_toList_le_card {map : EntryMap} {p : TemplateEntry → Prop} [DecidablePred p]
    (h : ∀ (key : TemplateKey) (e : TemplateEntry), map[key]? = some e → p e → key ∈ keys) :
    map.toList.countP (fun other => p other.2) ≤ keys.card := by
  have hnodup : ((map.toList.filter fun other => p other.2).map Prod.fst).Nodup := by
    rw [List.nodup_iff_pairwise_ne, List.pairwise_map]
    exact (ExtTreeMap.distinct_keys_toList.filter _).imp fun hne heq =>
      hne (Std.LawfulEqCmp.compare_eq_iff_eq.mpr heq)
  have hsubset : ((map.toList.filter fun other => p other.2).map Prod.fst).toFinset ⊆ keys := by
    intro key hkey
    obtain ⟨other, hother, rfl⟩ := List.mem_map.mp (List.mem_toFinset.mp hkey)
    obtain ⟨hmem, hp⟩ := List.mem_filter.mp hother
    exact h other.1 other.2 (ExtTreeMap.mem_toList_iff_getElem?_eq_some.mp hmem) (of_decide_eq_true hp)
  calc map.toList.countP (fun other => p other.2)
      = ((map.toList.filter fun other => p other.2).map Prod.fst).length := by
        rw [List.length_map, List.countP_eq_length_filter]
    _ = ((map.toList.filter fun other => p other.2).map Prod.fst).toFinset.card :=
        (List.toFinset_card_of_nodup hnodup).symm
    _ ≤ keys.card := Finset.card_le_card hsubset

/-- In a window no template is evicted that was seen in it. -/
theorem TemplateCache.InWindow.getElem?_upsert (h : c.InWindow t keys) {key : TemplateKey} (hkey : key ∈ keys)
    {entry e : TemplateEntry} (he : (c.inserted key entry)[k]? = some e) (hseen : t ≤ e.lastSeen) :
    (c.upsert key entry).entries[k]? = some e := by
  have hrecent : ∀ (k : TemplateKey) (e : TemplateEntry), (c.inserted key entry)[k]? = some e → t ≤ e.lastSeen →
      k ∈ keys := by
    intro k e he hseen
    rw [inserted, ExtTreeMap.getElem?_insert] at he
    split at he
    · rename_i heq
      exact Std.LawfulEqCmp.eq_of_compare heq ▸ hkey
    · exact h.recent k e he hseen
  have hcount := countP_toList_le_card hrecent
  have hsize := @List.countP_le_length _ (fun other => decide (t ≤ other.2.lastSeen)) (c.inserted key entry).toList
  have hmod := Nat.mod_le (c.inserted key entry).size (2 ^ 32)
  have hcard := h.card_le
  rw [ExtTreeMap.length_toList] at hsize
  rw [upsert_entries_eq]
  refine Eviction.getElem?_evict_of_le he hseen ?_
  rw [excess]
  omega

/-- In a window an upsert makes its own layout known and forgets no fresh one. -/
theorem TemplateCache.InWindow.known_upsert (h : c.InWindow t keys) {key : TemplateKey} (hkey : key ∈ keys)
    {entry : TemplateEntry} (hseen : t ≤ entry.lastSeen) (hfresh : k = key ∨ c.Fresh t k) :
    (c.upsert key entry).binding.known k = Function.update c.binding.known key (some entry.layout) k := by
  by_cases heq : k = key
  · subst heq
    have hin := h.getElem?_upsert hkey (c.getElem?_inserted k entry) (c.stored_lastSeen k entry ▸ hseen)
    simp only [TemplateCache.binding, hin, Option.map_some, c.stored_layout, Function.update_self]
  · have hinserted : (c.inserted key entry)[k]? = c.entries[k]? := by
      rw [inserted, ExtTreeMap.getElem?_insert, if_neg (by simpa using Ne.symm heq)]
    rw [Function.update_of_ne heq]
    cases he : c.entries[k]? with
    | some e =>
      have hin := h.getElem?_upsert hkey (hinserted.trans he) (hfresh.resolve_left heq k e he rfl)
      simp only [TemplateCache.binding, hin, he]
    | none =>
      cases hin : (c.upsert key entry).entries[k]? with
      | none => simp only [TemplateCache.binding, hin, he]
      | some e =>
        rcases getElem?_of_upsert hin with ⟨hsame, -⟩ | ⟨-, hold⟩
        · exact absurd hsame.symm heq
        · rw [he] at hold
          contradiction

/-- A template that was just upserted is fresh. -/
theorem TemplateCache.fresh_upsert {entry : TemplateEntry} (hseen : t ≤ entry.lastSeen) :
    (c.upsert k entry).Fresh t k := by
  rintro key e he rfl
  rcases getElem?_of_upsert he with ⟨-, rfl⟩ | ⟨hne, -⟩
  · rwa [c.stored_lastSeen]
  · contradiction

/-- A template that is not cached is fresh. -/
theorem TemplateCache.fresh_of_notMem (h : k ∉ c.entries) : c.Fresh t k := by
  rintro key e he rfl
  exact absurd (KeyedQueue.mem_of_getElem? he) h

/-- In a window, pass 2 leaves the templates that it has Data Sets for fresh. -/
theorem Settles.fresh {ctx : Ctx} {now : Int64} {sets : List FlowSet} {c' : TemplateCache} {trace : List Emission}
    (h : Settles ctx now sets c trace c') (hnow : t ≤ now)
    (hfresh : k ∈ (ctx.arrivals sets).map Prod.fst ∨ c.Fresh t k) : c'.Fresh t k := by
  have hstable := @stableAt_fresh t k fun _ => True
  induction h with
  | nil => exact hfresh.resolve_left List.not_mem_nil
  | skip hid _ ih =>
    rw [Ctx.arrivals_cons_of_lt hid] at hfresh
    exact ih hfresh
  | @known fs sets c c₁ _ _ tpl hid huse _ ih =>
    rw [Ctx.arrivals_cons_of_not_lt hid, List.map_cons, List.mem_cons, or_assoc] at hfresh
    rcases hfresh with heq | hlater | hfresh
    · refine ih (.inr ?_)
      obtain ⟨e, -, rfl, rfl⟩ := TemplateCache.useTemplate_eq_some.mp huse
      rintro key e' he' rfl
      rw [heq, ExtTreeMap.getElem?_insert_self] at he'
      rwa [← Option.some.inj he']
    · exact ih (.inl hlater)
    · exact ih (.inr (hstable.useTemplate _ _ _ _ _ trivial hnow huse hfresh))
  | @stored fs sets c c₁ _ _ hid habsent hpush _ ih =>
    rw [Ctx.arrivals_cons_of_not_lt hid, List.map_cons, List.mem_cons, or_assoc] at hfresh
    have hpushed : c.Fresh t k → c₁.Fresh t k := by
      have hkept := hstable.pushPending c (ctx.key fs.id) (ctx.pendingRecord fs.body)
      rwa [hpush] at hkept
    rcases hfresh with heq | hlater | hfresh
    · refine ih (.inr (hpushed (TemplateCache.fresh_of_notMem ?_)))
      rwa [heq]
    · exact ih (.inl hlater)
    · exact ih (.inr (hpushed hfresh))
  | @refused fs sets c _ _ hid habsent hpush _ ih =>
    rw [Ctx.arrivals_cons_of_not_lt hid, List.map_cons, List.mem_cons, or_assoc] at hfresh
    rcases hfresh with heq | hlater | hfresh
    · refine ih (.inr (TemplateCache.fresh_of_notMem ?_))
      rwa [heq]
    · exact ih (.inl hlater)
    · exact ih (.inr hfresh)

/-- In a window, pass 1 leaves the templates that it defines fresh. -/
theorem fresh_learnDefs {exporter : String} {obsDomain : UInt32} {now : Int64} {defs : List TemplateDef}
    (hnow : t ≤ now) (hfresh : k ∈ defs.map (fun d => d.key exporter obsDomain) ∨ c.Fresh t k) :
    (learnDefs exporter obsDomain now defs c).Fresh t k := by
  induction defs generalizing c with
  | nil => exact hfresh.resolve_left List.not_mem_nil
  | cons d defs ih =>
    rw [List.map_cons, List.mem_cons, or_assoc] at hfresh
    rcases hfresh with heq | hlater | hfresh
    · exact ih (.inr (heq ▸ TemplateCache.fresh_upsert hnow))
    · exact ih (.inl hlater)
    · exact ih (.inr ((stableAt_fresh fun _ => True).upsert _ _ (d.entry now) trivial hnow hfresh))

/-- In a window, a call leaves the templates that it touches fresh. -/
theorem Call.fresh_trace {call : Call} (hnow : t ≤ call.opts.nowMicros)
    (hfresh : k ∈ call.touched ∨ c.Fresh t k) : (call.trace c).2.Fresh t k := by
  have hpassed : (call.passes c).2.Fresh t k := by
    rcases call.passes_cases c with ⟨hparsed, hpasses⟩ | ⟨fmt, ctx, sets, trace, c', hparsed, hsettles, hpasses⟩
    · rw [hpasses]
      refine hfresh.resolve_left ?_
      simp [touched, learned, arrivals, hparsed]
    · simp only [touched, learned, arrivals, hparsed, List.map_map, List.mem_append, or_assoc] at hfresh
      rw [hpasses]
      rcases hfresh with hdefined | harrived | hfresh
      · exact hsettles.fresh hnow (.inr (fresh_learnDefs hnow (.inl hdefined)))
      · exact hsettles.fresh hnow (.inl harrived)
      · exact hsettles.fresh hnow (.inr (fresh_learnDefs hnow (.inr hfresh)))
  rcases call.trace_cases c with ⟨-, htrace⟩ | ⟨retried, c', hretries, htrace⟩
  · rwa [htrace]
  · rw [htrace]
    exact (stableAt_fresh fun _ => True).retries (fun _ _ _ => trivial) hnow hretries hpassed

/-- In a window, a run leaves the templates that it touches fresh. -/
theorem fresh_runTrace {calls : List Call} (hnow : ∀ call ∈ calls, t ≤ call.opts.nowMicros)
    (hfresh : k ∈ calls.flatMap Call.touched ∨ c.Fresh t k) : (runTrace calls c).2.Fresh t k := by
  induction calls generalizing c with
  | nil => exact hfresh.resolve_left List.not_mem_nil
  | cons call calls ih =>
    obtain ⟨htime, hnow⟩ := List.forall_mem_cons.mp hnow
    rw [List.flatMap_cons, List.mem_append, or_assoc] at hfresh
    rcases hfresh with hhere | hlater | hfresh
    · exact ih hnow (.inr (call.fresh_trace htime (.inl hhere)))
    · exact ih hnow (.inl hlater)
    · exact ih hnow (.inr (call.fresh_trace htime (.inr hfresh)))

/-- In a window, pass 1 leaves the layouts that are given last, of fresh templates and of those that it defines. -/
theorem TemplateCache.InWindow.known_learnDefs (h : c.InWindow t keys) {exporter : String} {obsDomain : UInt32}
    {now : Int64} {defs : List TemplateDef} (hkeys : ∀ d ∈ defs, d.key exporter obsDomain ∈ keys) (hnow : t ≤ now)
    (hfresh : k ∈ defs.map (fun d => d.key exporter obsDomain) ∨ c.Fresh t k) :
    (learnDefs exporter obsDomain now defs c).binding.known k =
      (lastDefined (defs.map fun d => (d.key exporter obsDomain, d.layout)) k).or (c.binding.known k) := by
  induction defs generalizing c with
  | nil => rfl
  | cons d defs ih =>
    obtain ⟨hfirst, hothers⟩ := List.forall_mem_cons.mp hkeys
    have hlayout : (d.entry now).layout = d.layout := rfl
    have hrest := @ih _ (stableAt_inWindow.upsert c _ (d.entry now) hfirst hnow h) hothers
    rw [List.map_cons, lastDefined_cons, Option.or_assoc]
    by_cases hkey : k = d.key exporter obsDomain
    · rw [if_pos hkey, Option.some_or, ← hlayout]
      refine (hrest (.inr (hkey ▸ fresh_upsert hnow))).trans (congrArg _ ?_)
      rw [h.known_upsert hfirst hnow (.inl hkey), hkey, Function.update_self]
    · rw [if_neg hkey, Option.none_or]
      rcases hfresh with hdefined | hfresh
      · have hlater := (List.mem_cons.mp hdefined).resolve_left hkey
        obtain ⟨layout, hlast⟩ := Option.isSome_iff_exists.mp
          (@isSome_lastDefined k (defs.map fun d => (d.key exporter obsDomain, d.layout)) (by simpa using hlater))
        have hknown := hrest (.inl hlater)
        rw [hlast, Option.some_or] at hknown ⊢
        exact hknown
      · have hstays := (stableAt_fresh (· ∈ keys)).upsert c _ (d.entry now) hfirst hnow hfresh
        refine (hrest (.inr hstays)).trans (congrArg _ ?_)
        rw [h.known_upsert hfirst hnow (.inr hfresh), Function.update_of_ne hkey]

/-- In a window, a call leaves the layouts that are given last, of fresh templates and of those that it defines. -/
theorem TemplateCache.InWindow.known_trace (h : c.InWindow t keys) {call : Call}
    (hkeys : ∀ key ∈ call.touched, key ∈ keys) (hnow : t ≤ call.opts.nowMicros)
    (hfresh : k ∈ call.learned.map Prod.fst ∨ c.Fresh t k) :
    (call.trace c).2.binding.known k = (lastDefined call.learned k).or (c.binding.known k) := by
  have hpass : (call.pass1 c).binding.known k = (lastDefined call.learned k).or (c.binding.known k) := by
    cases hparsed : call.parsed with
    | none =>
      simp only [Call.learned, Call.pass1, hparsed]
      rfl
    | some parsed =>
      simp only [Call.touched, Call.learned, Call.pass1, hparsed, learnSets_eq, List.map_map, List.forall_mem_append,
        List.forall_mem_map] at hkeys hfresh ⊢
      exact h.known_learnDefs hkeys.1 hnow hfresh
  rcases call.trace_cases c with ⟨-, htrace⟩ | ⟨retried, c', hretries, htrace⟩
  · rw [htrace, Call.passes_known, hpass]
  · rw [htrace, hretries.known_eq, Call.passes_known, hpass]

/-- In a window, a run leaves the layouts that are given last, of fresh templates and of those that it defines. -/
theorem TemplateCache.InWindow.known_runTrace_of_fresh (h : c.InWindow t keys) (hsettled : c.Settled)
    {calls : List Call} (hkeys : ∀ call ∈ calls, ∀ key ∈ call.touched, key ∈ keys)
    (hnow : ∀ call ∈ calls, t ≤ call.opts.nowMicros)
    (hfresh : k ∈ (calls.flatMap Call.learned).map Prod.fst ∨ c.Fresh t k) :
    (runTrace calls c).2.binding.known k =
      (lastDefined (calls.flatMap Call.learned) k).or (c.binding.known k) := by
  induction calls generalizing c with
  | nil => rfl
  | cons call calls ih =>
    obtain ⟨hkey, hkeys⟩ := List.forall_mem_cons.mp hkeys
    obtain ⟨htime, hnow⟩ := List.forall_mem_cons.mp hnow
    have hrest := @ih _ (stableAt_inWindow.call hsettled hkey htime h) (call.trace_settled hsettled) hkeys hnow
    rw [List.flatMap_cons, lastDefined_append, Option.or_assoc]
    by_cases hlater : k ∈ (calls.flatMap Call.learned).map Prod.fst
    · obtain ⟨layout, hlast⟩ := Option.isSome_iff_exists.mp (isSome_lastDefined hlater)
      have hknown := hrest (.inl hlater)
      rw [hlast, Option.some_or] at hknown ⊢
      exact hknown
    · have hhere : k ∈ call.learned.map Prod.fst ∨ c.Fresh t k := by
        rw [List.flatMap_cons, List.map_append, List.mem_append] at hfresh
        exact hfresh.imp_left (Or.resolve_right · hlater)
      rw [← h.known_trace hkey htime hhere]
      exact hrest (.inr (Call.fresh_trace htime (hhere.imp_left (List.mem_append_left _))))

/-- A template that is cached and was seen in the window. -/
structure TemplateCache.Held (t : Int64) (keys : Finset TemplateKey) (k : TemplateKey) (c : TemplateCache) : Prop where
  inWindow : c.InWindow t keys
  fresh : c.Fresh t k
  mem : k ∈ c.entries

/-- A cached template is one whose layout is known. -/
theorem mem_entries_iff_known : k ∈ c.entries ↔ (c.binding.known k).isSome := by
  rw [ExtTreeMap.mem_iff_isSome_getElem?, TemplateCache.binding, Option.isSome_map]

/-- A window holds what was seen in it. -/
theorem stableAt_held : StableAt (t ≤ ·) (· ∈ keys) (TemplateCache.Held t keys k) := by
  have hwindow := @stableAt_inWindow t keys
  have hfresh := @stableAt_fresh t k (· ∈ keys)
  constructor
  · intro c key entry hkey hnow hc
    refine ⟨hwindow.upsert c key entry hkey hnow hc.inWindow, hfresh.upsert c key entry hkey hnow hc.fresh, ?_⟩
    rw [mem_entries_iff_known, hc.inWindow.known_upsert hkey hnow (.inr hc.fresh), Function.update_apply]
    split
    · rfl
    · exact mem_entries_iff_known.mp hc.mem
  · intro c c' key now tpl hkey hnow huse hc
    exact ⟨hwindow.useTemplate c c' key now tpl hkey hnow huse hc.inWindow,
      hfresh.useTemplate c c' key now tpl hkey hnow huse hc.fresh, (TemplateCache.mem_useTemplate huse).mpr hc.mem⟩
  · intro c key rec hc
    exact ⟨hwindow.pushPending c key rec hc.inWindow, hfresh.pushPending c key rec hc.fresh, by simpa using hc.mem⟩
  · intro c key hc
    exact ⟨hwindow.takePending c key hc.inWindow, hfresh.takePending c key hc.fresh, hc.mem⟩

/-- Pass 2 does not report a Data Set of a held template missing. -/
theorem Settles.missing_notMem {ctx : Ctx} {now : Int64} {sets : List FlowSet} {c' : TemplateCache}
    {trace : List Emission} (h : Settles ctx now sets c trace c') (hkeys : ∀ p ∈ ctx.arrivals sets, p.1 ∈ keys)
    (hnow : t ≤ now) (hheld : c.Held t keys k) (rec : PendingRecord) (version : Version) :
    .missing k rec version ∉ trace := by
  have hstable := @stableAt_held t keys k
  induction h with
  | nil => exact List.not_mem_nil
  | skip hid _ ih =>
    rw [Ctx.arrivals_cons_of_lt hid] at hkeys
    exact ih hkeys hheld
  | known hid huse _ ih =>
    rw [Ctx.arrivals_cons_of_not_lt hid, List.forall_mem_cons] at hkeys
    have hrest := ih hkeys.2 (hstable.useTemplate _ _ _ _ _ hkeys.1 hnow huse hheld)
    simpa using hrest
  | @stored fs sets c _ _ _ hid _ hpush _ ih =>
    rw [Ctx.arrivals_cons_of_not_lt hid, List.forall_mem_cons] at hkeys
    have hpushed := hstable.pushPending c (ctx.key fs.id) (ctx.pendingRecord fs.body) hheld
    rw [hpush] at hpushed
    exact ih hkeys.2 hpushed
  | refused hid habsent _ _ ih =>
    rw [Ctx.arrivals_cons_of_not_lt hid, List.forall_mem_cons] at hkeys
    rw [List.mem_cons, not_or]
    refine ⟨fun heq => ?_, ih hkeys.2 hheld⟩
    injection heq with hkey
    exact habsent (hkey ▸ hheld.mem)

/-- A call does not report a Data Set of a held template missing. -/
theorem Call.missing_notMem_trace {call : Call} (hkeys : ∀ key ∈ call.touched, key ∈ keys)
    (hnow : t ≤ call.opts.nowMicros) (hheld : c.Held t keys k) (rec : PendingRecord) (version : Version) :
    .missing k rec version ∉ (call.trace c).1 := by
  have hpassed : .missing k rec version ∉ (call.passes c).1 := by
    rcases call.passes_cases c with ⟨-, hpasses⟩ | ⟨fmt, ctx, sets, trace, c', hparsed, hsettles, hpasses⟩
    · rw [hpasses]
      intro hmem
      obtain ⟨record, hrow | hrow, -⟩ := Call.exists_row_of_mem_statelessTrace hmem <;> contradiction
    · simp only [touched, learned, arrivals, hparsed, List.forall_mem_append, List.forall_mem_map] at hkeys
      rw [hpasses]
      exact hsettles.missing_notMem hkeys.2 hnow (stableAt_held.learnDefs hkeys.1 hnow hheld) rec version
  rcases call.trace_cases c with ⟨-, htrace⟩ | ⟨retried, c', hretries, htrace⟩
  · rwa [htrace]
  · rw [htrace, List.mem_append, not_or]
    refine ⟨hpassed, fun hmem => ?_⟩
    have hnone := hretries.isMissing_eq_false _ hmem
    contradiction

/-- A run does not report a Data Set of a held template missing, and none is left waiting. -/
theorem TemplateCache.Held.runTrace (h : c.Held t keys k) (hsettled : c.Settled) {calls : List Call}
    (hkeys : ∀ call ∈ calls, ∀ key ∈ call.touched, key ∈ keys) (hnow : ∀ call ∈ calls, t ≤ call.opts.nowMicros) :
    k ∉ (runTrace calls c).2.pending ∧ ∀ rec version, .missing k rec version ∉ (runTrace calls c).1.flatten := by
  refine ⟨fun hwaiting => (runTrace_settled calls hsettled).disjoint k hwaiting
    (stableAt_held.run hsettled hkeys hnow h).mem, fun rec version => ?_⟩
  induction calls generalizing c with
  | nil => exact List.not_mem_nil
  | cons call calls ih =>
    obtain ⟨hkey, hkeys⟩ := List.forall_mem_cons.mp hkeys
    obtain ⟨htime, hnow⟩ := List.forall_mem_cons.mp hnow
    have hrest := ih (stableAt_held.call hsettled hkey htime h) (call.trace_settled hsettled) hkeys hnow
    rw [Netflow.runTrace, List.flatten_cons, List.mem_append, not_or]
    exact ⟨call.missing_notMem_trace hkey htime h rec version, hrest⟩

/-- A window that touches no more keys than the entry cap forgets nothing in its second part, whatever came before it:
of a key that is touched in the first part or defined in the second, the layout known at the end is the one that the
second part gave last, or else what was known after the first. And of a template that is touched in the first part
and known after it no Data Set of the second is reported missing or left waiting. -/
theorem runCalls_workingSet {capEntries capPendingBytes : UInt32} {before first second : List Call}
    (hbefore : ∀ call ∈ before, call.opts.nowMicros < t) (hwindow : ∀ call ∈ first ++ second, t ≤ call.opts.nowMicros)
    (hcap : (touchedKeys (first ++ second)).card ≤ capEntries.toNat) (k : TemplateKey) :
    let cache := (runCalls (before ++ first) (.empty capEntries capPendingBytes)).2
    (k ∈ touchedKeys first ∨ k ∈ (second.flatMap Call.learned).map Prod.fst →
      (runCalls second cache).2.binding.known k =
        (lastDefined (second.flatMap Call.learned) k).or (cache.binding.known k)) ∧
    (k ∈ touchedKeys first → (cache.binding.known k).isSome →
      k ∉ (runCalls second cache).2.pending ∧
        ∀ rec version, .missing k rec version ∉ (runTrace second cache).1.flatten) := by
  intro cache
  obtain ⟨keys, hkeys⟩ : ∃ keys, keys = touchedKeys (first ++ second) := ⟨_, rfl⟩
  have htouched : ∀ call ∈ first ++ second, ∀ key ∈ call.touched, key ∈ keys := by
    intro call hcall key hkey
    rw [hkeys, touchedKeys, List.mem_toFinset]
    exact List.mem_flatMap.mpr ⟨call, hcall, hkey⟩
  rw [List.forall_mem_append] at hwindow htouched
  obtain ⟨start, hstart⟩ : ∃ start, start = (runTrace before (.empty capEntries capPendingBytes)).2 := ⟨_, rfl⟩
  have hempty : TemplateCache.Settled (.empty capEntries capPendingBytes) :=
    TemplateCache.settled_of_pending_empty rfl
  have hsettled : start.Settled := hstart ▸ runTrace_settled before hempty
  -- What is cached when the window begins was seen before it.
  have hearlier : start.Seen fun _ seen => seen < t := by
    have hstable : StableAt (· < t) (fun _ => True) (TemplateCache.Seen fun _ seen => seen < t) :=
      stableAt_seen fun _ _ _ hnow => hnow
    rw [hstart]
    exact hstable.run hempty (fun _ _ _ _ => trivial) hbefore fun key e he => by simp [TemplateCache.empty] at he
  have hcapEntries : start.capEntries = capEntries := by
    rw [hstart]
    exact ((stable_caps _ _ capEntries capPendingBytes).run ⟨rfl, rfl⟩).1
  have hopen : start.InWindow t keys := by
    refine ⟨fun key e he hseen => ?_, by rw [hcapEntries, hkeys]; exact hcap⟩
    have hlt : e.lastSeen < t := hearlier key e he
    have hge : t ≤ e.lastSeen := hseen
    rw [Int64.lt_iff_toInt_lt] at hlt
    rw [Int64.le_iff_toInt_le] at hge
    omega
  have hcache : cache = (runTrace first start).2 := by
    change (runCalls (before ++ first) (.empty capEntries capPendingBytes)).2 = _
    rw [runCalls_append, runCalls_eq_trace first, runCalls_eq_trace before, hstart]
  have hinWindow : cache.InWindow t keys := hcache ▸ stableAt_inWindow.run hsettled htouched.1 hwindow.1 hopen
  have hcacheSettled : cache.Settled := hcache ▸ runTrace_settled first hsettled
  have hfresh : k ∈ touchedKeys first → cache.Fresh t k := fun hk =>
    hcache ▸ fresh_runTrace hwindow.1 (.inl (List.mem_toFinset.mp hk))
  rw [runCalls_eq_trace]
  refine ⟨fun hk => ?_, fun hk hknown => ?_⟩
  · exact hinWindow.known_runTrace_of_fresh hcacheSettled htouched.2 hwindow.2 (hk.symm.imp_right hfresh)
  · have hheld : cache.Held t keys k := ⟨hinWindow, hfresh hk, mem_entries_iff_known.mpr hknown⟩
    exact hheld.runTrace hcacheSettled htouched.2 hwindow.2

/-- A call at clock 1. -/
def Call.later (data : Bytes) (exporter : String) : Call := ⟨data, { exporter, nowMicros := 1 }, .any⟩

/-- With room for two templates, of four the one that is used in the window stays and the two before it are evicted. -/
theorem runCalls_workingSet_two :
    let cache := (runCalls ([.of sampleTemplate "10.0.0.1", .of sampleTemplate "10.0.0.2"] ++
      [.later sampleTemplate "10.0.0.3"]) (.empty 2 0)).2
    let second := [.later sampleTemplate "10.0.0.4", .later sampleData "10.0.0.3"]
    (runCalls second cache).2.binding.known ⟨"10.0.0.3", 7, 256⟩ =
        (lastDefined (second.flatMap Call.learned) ⟨"10.0.0.3", 7, 256⟩).or
          (cache.binding.known ⟨"10.0.0.3", 7, 256⟩) ∧
      ⟨"10.0.0.3", 7, 256⟩ ∉ (runCalls second cache).2.pending ∧
        ∀ rec version, .missing ⟨"10.0.0.3", 7, 256⟩ rec version ∉ (runTrace second cache).1.flatten := by
  have hbefore : ∀ call ∈ [Call.of sampleTemplate "10.0.0.1", .of sampleTemplate "10.0.0.2"],
      call.opts.nowMicros < 1 := by
    simp only [List.forall_mem_cons]
    decide +kernel
  have hwindow : ∀ call ∈ [Call.later sampleTemplate "10.0.0.3"] ++
      [.later sampleTemplate "10.0.0.4", .later sampleData "10.0.0.3"], 1 ≤ call.opts.nowMicros := by
    simp only [List.cons_append, List.nil_append, List.forall_mem_cons]
    decide +kernel
  obtain ⟨hknown, hheld⟩ := @runCalls_workingSet 1 2 0 _ _ _ hbefore hwindow (by decide +kernel)
    ⟨"10.0.0.3", 7, 256⟩
  exact ⟨hknown (.inl (by decide +kernel)), hheld (by decide +kernel) (by decide +kernel)⟩

end Recent

end Windows

end Netflow
