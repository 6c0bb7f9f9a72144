import Mathlib.Data.Finset.Card
import Netflow.Reachable

/-!
# Runs below the caps

While the keys a run learns are no more than the entry cap, nothing is evicted and every
layout learned stays cached. While the Data Sets of a run are together no longer than the
byte cap, none is refused. Then only the flush reports a Data Set missing, and only one
whose template never came.
-/

namespace Netflow

open Std (ExtTreeMap)

section Entries

/-- All cached keys are among the given ones, and the cap has room for all of these. -/
structure TemplateCache.Fits (keys : Finset TemplateKey) (c : TemplateCache) : Prop where
  subset : ∀ key ∈ c.entries, key ∈ keys
  card_le : keys.card ≤ c.capEntries.toNat

/-- A map whose keys are among the given ones has no more entries than these. -/
theorem size_le_card {V : Type} {map : ExtTreeMap TemplateKey V compare} {keys : Finset TemplateKey}
    (h : ∀ key ∈ map, key ∈ keys) : map.size ≤ keys.card := by
  have hkeys : map.keys.toFinset ⊆ keys := fun key hkey =>
    h key (ExtTreeMap.mem_keys.mp (List.mem_toFinset.mp hkey))
  calc map.size = map.keys.length := ExtTreeMap.length_keys.symm
    _ = map.keys.toFinset.card := (List.toFinset_card_of_nodup ExtTreeMap.nodup_keys).symm
    _ ≤ keys.card := Finset.card_le_card hkeys

variable {keys : Finset TemplateKey} {c : TemplateCache}

/-- Learning one of the given keys evicts nothing. -/
theorem TemplateCache.Fits.upsert_entries (h : c.Fits keys) {key : TemplateKey} (hkey : key ∈ keys)
    (entry : TemplateEntry) :
    (c.upsert key entry).entries = c.entries.insert key (c.stored key entry) := by
  refine upsert_entries_of_le ?_
  have hsize : (c.entries.insert key (c.stored key entry)).size ≤ c.capEntries.toNat := by
    refine (size_le_card fun k hk => ?_).trans h.card_le
    rcases ExtTreeMap.mem_insert.mp hk with heq | hmem
    · rwa [← Std.LawfulEqCmp.eq_of_compare heq]
    · exact h.subset k hmem
  rw [UInt32.le_iff_toNat_le, UInt32.toNat_ofNat_of_lt' (lt_of_le_of_lt hsize c.capEntries.toNat_lt)]
  exact hsize

/-- Learning one of the given keys keeps the cached keys among them. -/
theorem TemplateCache.Fits.upsert (h : c.Fits keys) {key : TemplateKey} (hkey : key ∈ keys)
    (entry : TemplateEntry) : (c.upsert key entry).Fits keys := by
  refine ⟨?_, h.card_le⟩
  intro k hk
  rw [h.upsert_entries hkey, ExtTreeMap.mem_insert] at hk
  rcases hk with heq | hold
  · exact Std.LawfulEqCmp.eq_of_compare heq ▸ hkey
  · exact h.subset k hold

/-- Below the entry cap, learning a layout makes it known and forgets none. -/
theorem TemplateCache.Fits.known_upsert (h : c.Fits keys) {key : TemplateKey} (hkey : key ∈ keys)
    (entry : TemplateEntry) :
    (c.upsert key entry).binding.known = Function.update c.binding.known key (some entry.layout) := by
  funext k
  simp only [TemplateCache.binding, h.upsert_entries hkey, ExtTreeMap.getElem?_insert]
  by_cases hk : key = k
  · subst hk
    rw [Function.update_self, if_pos (by simp), Option.map_some, c.stored_layout]
  · rw [Function.update_of_ne (Ne.symm hk), if_neg (by simpa using hk)]

/-- Where the cache has room, a template just learned can be used. -/
theorem TemplateCache.exists_useTemplate_upsert {c : TemplateCache}
    (hroom : c.entries.size < c.capEntries.toNat) (key : TemplateKey) (entry : TemplateEntry) (now : Int64) :
    ∃ tpl c', (c.upsert key entry).useTemplate key now = some (tpl, c') ∧ tpl.layout = entry.layout := by
  have hkeys : c.Fits (insert key c.entries.keys.toFinset) := by
    constructor
    · intro k hk
      exact Finset.mem_insert_of_mem (List.mem_toFinset.mpr (ExtTreeMap.mem_keys.mpr hk))
    · have hle := (Finset.card_insert_le key c.entries.keys.toFinset).trans
        (Nat.succ_le_succ (List.toFinset_card_le c.entries.keys))
      rw [ExtTreeMap.length_keys] at hle
      omega
  have hknown : (c.upsert key entry).binding.known key = some entry.layout := by
    rw [hkeys.known_upsert (Finset.mem_insert_self _ _), Function.update_self]
  exact exists_useTemplate_of_known hknown now

/-- Every operation keeps the cached keys among the given ones. -/
theorem stable_mem_keys {learned : List (TemplateKey × Layout)} {keys : Finset TemplateKey}
    (hlearned : ∀ p ∈ learned, p.1 ∈ keys) (arrivals : List (TemplateKey × PendingRecord)) :
    Stable learned arrivals fun c => ∀ key ∈ c.entries, key ∈ keys where
  upsert c key entry hmem h k hk := by
    obtain ⟨e, he⟩ := KeyedQueue.mem_iff_exists_getElem?.mp hk
    rcases TemplateCache.getElem?_of_upsert he with ⟨rfl, -⟩ | ⟨-, hold⟩
    · exact hlearned _ hmem
    · exact h k (KeyedQueue.mem_of_getElem? hold)
  useTemplate c c' key now tpl huse h k hk := h k ((TemplateCache.mem_useTemplate huse).mp hk)
  pushPending c key rec _ h := by simpa using h
  takePending _ _ h := h

/-- Every operation keeps the cached keys among the given ones and the cap. -/
theorem stable_fits {learned : List (TemplateKey × Layout)} (hlearned : ∀ p ∈ learned, p.1 ∈ keys)
    (arrivals : List (TemplateKey × PendingRecord)) : Stable learned arrivals (TemplateCache.Fits keys) where
  upsert _ _ entry hmem h := h.upsert (hlearned _ hmem) entry
  useTemplate c c' key now tpl huse h := by
    refine ⟨(stable_mem_keys hlearned arrivals).useTemplate c c' key now tpl huse h.subset, ?_⟩
    obtain ⟨e, -, -, rfl⟩ := TemplateCache.useTemplate_eq_some.mp huse
    exact h.card_le
  pushPending c key rec _ h := ⟨by simpa using h.subset, by simpa using h.card_le⟩
  takePending _ _ h := ⟨h.subset, h.card_le⟩

end Entries

section Retention

/-- A property of caches that the four operations keep and under which learning evicts nothing. -/
structure Retaining (learned : List (TemplateKey × Layout)) (arrivals : List (TemplateKey × PendingRecord))
    (P : TemplateCache → Prop) : Prop extends Stable learned arrivals P where
  upsert_entries : ∀ (c : TemplateCache) (key : TemplateKey) (entry : TemplateEntry),
    (key, entry.layout) ∈ learned → P c →
      (c.upsert key entry).entries = c.entries.insert key (c.stored key entry)

/-- Learning keys that fit evicts nothing. -/
theorem retaining_fits {keys : Finset TemplateKey} {learned : List (TemplateKey × Layout)}
    (hlearned : ∀ p ∈ learned, p.1 ∈ keys) (arrivals : List (TemplateKey × PendingRecord)) :
    Retaining learned arrivals (TemplateCache.Fits keys) where
  toStable := stable_fits hlearned arrivals
  upsert_entries _ _ entry hmem h := h.upsert_entries (hlearned _ hmem) entry

variable {P : TemplateCache → Prop} {learned : List (TemplateKey × Layout)}
  {arrivals : List (TemplateKey × PendingRecord)}

/-- With fewer definitions and Data Sets no more is evicted. -/
theorem Retaining.mono {learned' : List (TemplateKey × Layout)} {arrivals' : List (TemplateKey × PendingRecord)}
    (h : Retaining learned arrivals P) (hlearned : learned' ⊆ learned) (harrivals : arrivals' ⊆ arrivals) :
    Retaining learned' arrivals' P :=
  ⟨h.toStable.mono hlearned harrivals, fun c key entry hmem => h.upsert_entries c key entry (hlearned hmem)⟩

/-- Where learning evicts nothing, every operation keeps a cached key cached. -/
theorem Retaining.stable_mem_entries (h : Retaining learned arrivals P) (k : TemplateKey) :
    Stable learned arrivals fun c => P c ∧ k ∈ c.entries where
  upsert c key entry hmem hc := by
    refine ⟨h.upsert c key entry hmem hc.1, ?_⟩
    rw [h.upsert_entries c key entry hmem hc.1, ExtTreeMap.mem_insert]
    exact .inr hc.2
  useTemplate c c' key now tpl huse hc :=
    ⟨h.useTemplate c c' key now tpl huse hc.1, (TemplateCache.mem_useTemplate huse).mpr hc.2⟩
  pushPending c key rec hmem hc := ⟨h.pushPending c key rec hmem hc.1, by simpa using hc.2⟩
  takePending c key hc := ⟨h.takePending c key hc.1, hc.2⟩

/-- Where learning evicts nothing, pass 1 caches every key it defines. -/
theorem Retaining.mem_entries_learnDefs {exporter : String} {obsDomain : UInt32} {now : Int64}
    {defs : List TemplateDef}
    (h : Retaining (defs.map fun d => (d.key exporter obsDomain, d.layout)) arrivals P) {c : TemplateCache}
    (hc : P c) {d : TemplateDef} (hd : d ∈ defs) :
    d.key exporter obsDomain ∈ (learnDefs exporter obsDomain now defs c).entries := by
  induction defs generalizing c with
  | nil => contradiction
  | cons d' defs ih =>
    have htail := h.mono (List.subset_cons_self _ _) fun _ => id
    have hc' := h.upsert c _ (d'.entry now) List.mem_cons_self hc
    rcases List.mem_cons.mp hd with rfl | hd
    · refine ((htail.stable_mem_entries _).learnDefs ⟨hc', ?_⟩).2
      rw [h.upsert_entries c _ (d.entry now) List.mem_cons_self hc]
      exact ExtTreeMap.mem_insert_self
    · exact ih htail hc' hd

/-- Where learning evicts nothing, a call leaves every key it learns cached. -/
theorem Retaining.mem_entries_of_learned {call : Call} (h : Retaining call.learned call.arrivals P)
    {c : TemplateCache} (hc : P c) {key : TemplateKey} {layout : Layout}
    (hmem : (key, layout) ∈ call.learned) : key ∈ (call.trace c).2.entries := by
  suffices hpassed : P (call.passes c).2 ∧ key ∈ (call.passes c).2.entries by
    rcases call.trace_cases c with ⟨-, htrace⟩ | ⟨retried, c', hretries, htrace⟩
    · rw [htrace]
      exact hpassed.2
    · rw [htrace]
      exact ((h.stable_mem_entries key).retries hretries hpassed).2
  rcases call.passes_cases c with ⟨hparsed, -⟩ |
      ⟨fmt, ctx, sets, trace, c', hparsed, hsettles, hpasses⟩
  · simp [Call.learned, hparsed] at hmem
  · simp only [Call.learned, Call.arrivals, hparsed] at hmem h
    obtain ⟨d, hd, heq⟩ := List.mem_map.mp hmem
    cases heq
    rw [hpasses]
    apply (h.stable_mem_entries _).settles hsettles
    exact ⟨h.learnDefs hc, h.mem_entries_learnDefs hc hd⟩

/-- Where learning evicts nothing, a run leaves every key it learns cached. -/
theorem Retaining.mem_entries_runTrace {calls : List Call}
    (h : Retaining (calls.flatMap Call.learned) (calls.flatMap Call.arrivals) P) {c : TemplateCache}
    (hc : P c) {key : TemplateKey} {layout : Layout} (hmem : (key, layout) ∈ calls.flatMap Call.learned) :
    key ∈ (runTrace calls c).2.entries := by
  induction calls generalizing c with
  | nil => contradiction
  | cons call calls ih =>
    simp only [List.flatMap_cons] at h hmem
    have hhead := h.mono (List.subset_append_left _ _) (List.subset_append_left _ _)
    have htail := h.mono (List.subset_append_right _ _) (List.subset_append_right _ _)
    have hc' := hhead.toStable.call hc
    rcases List.mem_append.mp hmem with hcall | hrest
    · exact ((htail.stable_mem_entries key).run ⟨hc', hhead.mem_entries_of_learned hc hcall⟩).2
    · exact ih htail hc' hrest

end Retention

section Bytes

/-- The total length of some Data Sets. -/
def arrivedBytes (arrivals : List (TemplateKey × PendingRecord)) : ℕ :=
  (arrivals.map (·.2.bytes.length)).sum

@[simp] theorem arrivedBytes_nil : arrivedBytes [] = 0 := rfl

@[simp] theorem arrivedBytes_cons (p : TemplateKey × PendingRecord)
    (arrivals : List (TemplateKey × PendingRecord)) :
    arrivedBytes (p :: arrivals) = p.2.bytes.length + arrivedBytes arrivals := rfl

@[simp] theorem arrivedBytes_append (first second : List (TemplateKey × PendingRecord)) :
    arrivedBytes (first ++ second) = arrivedBytes first + arrivedBytes second := by
  simp [arrivedBytes]

/-- The buffer has room for so many more bytes. -/
def TemplateCache.HasRoom (bytes : ℕ) (c : TemplateCache) : Prop :=
  c.pendingBytes.toNat + bytes ≤ c.capPendingBytes.toNat

/-- Whether an origin reports a Data Set missing. -/
def Emission.isMissing : Emission → Bool
  | .missing _ _ _ => true
  | _ => false

/-- With room for a record it is stored, and the room shrinks by its length. -/
theorem TemplateCache.HasRoom.pushPending {c : TemplateCache} (key : TemplateKey) (rec : PendingRecord)
    {rest : ℕ} (h : c.HasRoom (rec.bytes.length + rest)) :
    (c.pushPending key rec).1 = true ∧ (c.pushPending key rec).2.HasRoom rest := by
  unfold HasRoom at h
  have hlt := c.capPendingBytes.toNat_lt
  have hcost : (UInt32.ofNat rec.bytes.length).toNat = rec.bytes.length :=
    UInt32.toNat_ofNat_of_lt' (show rec.bytes.length < 2 ^ 32 by omega)
  have hfits : ¬ saturatingAdd c.pendingBytes (.ofNat rec.bytes.length) > c.capPendingBytes := by
    rw [gt_iff_lt, UInt32.lt_iff_toNat_lt, saturatingAdd_toNat, hcost]
    omega
  simp only [TemplateCache.pushPending, if_neg hfits]
  refine ⟨trivial, ?_⟩
  change (c.pendingBytes + UInt32.ofNat rec.bytes.length).toNat + rest ≤ c.capPendingBytes.toNat
  rw [UInt32.toNat_add, hcost, Nat.mod_eq_of_lt (by omega)]
  omega

/-- Operations other than buffering leave the room. -/
theorem stable_hasRoom (learned : List (TemplateKey × Layout)) (bytes : ℕ) :
    Stable learned [] (TemplateCache.HasRoom bytes) where
  upsert _ _ _ _ h := h
  useTemplate c c' key now tpl huse h := by
    obtain ⟨e, -, -, rfl⟩ := TemplateCache.useTemplate_eq_some.mp huse
    exact h
  pushPending _ _ _ hmem _ := by contradiction
  takePending c key h := by
    refine le_trans (Nat.add_le_add_right ?_ bytes) h
    change (saturatingSub c.pendingBytes _).toNat ≤ c.pendingBytes.toNat
    rw [saturatingSub_toNat]
    exact Nat.sub_le _ _

/-- With room for its Data Sets, pass 2 reports none of them missing. -/
theorem Settles.of_hasRoom {ctx : Ctx} {now : Int64} {sets : List FlowSet} {c c' : TemplateCache}
    {trace : List Emission} (h : Settles ctx now sets c trace c') {rest : ℕ}
    (hroom : c.HasRoom (arrivedBytes (ctx.arrivals sets) + rest)) :
    c'.HasRoom rest ∧ ∀ e ∈ trace, e.isMissing = false := by
  induction h with
  | nil => exact ⟨by simpa [Ctx.arrivals] using hroom, by simp⟩
  | skip hid _ ih => exact ih (by rwa [Ctx.arrivals_cons_of_lt hid] at hroom)
  | @known fs sets c c₁ c' trace tpl hid huse _ ih =>
    rw [Ctx.arrivals_cons_of_not_lt hid, arrivedBytes_cons] at hroom
    have hused := (stable_hasRoom [] _).useTemplate _ _ _ _ _ huse hroom
    have hrest := ih (le_trans (by omega) hused)
    exact ⟨hrest.1, List.forall_mem_cons.mpr ⟨rfl, hrest.2⟩⟩
  | @stored fs sets c c₁ c' trace hid _ hpush _ ih =>
    rw [Ctx.arrivals_cons_of_not_lt hid, arrivedBytes_cons, add_assoc] at hroom
    have hpushed := (TemplateCache.HasRoom.pushPending (ctx.key fs.id) (ctx.pendingRecord fs.body) hroom).2
    rw [hpush] at hpushed
    exact ih hpushed
  | @refused fs sets c c' trace hid _ hpush _ ih =>
    rw [Ctx.arrivals_cons_of_not_lt hid, arrivedBytes_cons, add_assoc] at hroom
    have hstored := (TemplateCache.HasRoom.pushPending (ctx.key fs.id) (ctx.pendingRecord fs.body) hroom).1
    rw [hpush] at hstored
    contradiction

/-- The retry reports nothing missing. -/
theorem Retries.isMissing_eq_false {now : Int64} {keys : List TemplateKey} {c c' : TemplateCache}
    {trace : List Emission} (h : Retries now keys c trace c') : ∀ e ∈ trace, e.isMissing = false := by
  induction h with
  | nil => simp
  | skip _ _ ih => exact ih
  | release _ _ ih =>
    rw [List.forall_mem_append]
    refine ⟨?_, ih⟩
    intro e he
    obtain ⟨rec, -, rfl⟩ := List.mem_map.mp he
    rfl

/-- With room for its Data Sets, a call reports none of them missing. -/
theorem Call.trace_of_hasRoom {call : Call} {c : TemplateCache} {rest : ℕ}
    (hroom : c.HasRoom (arrivedBytes call.arrivals + rest)) :
    (call.trace c).2.HasRoom rest ∧ ∀ e ∈ (call.trace c).1, e.isMissing = false := by
  have hpassed : (call.passes c).2.HasRoom rest ∧ ∀ e ∈ (call.passes c).1, e.isMissing = false := by
    rcases call.passes_cases c with ⟨hparsed, hpasses⟩ |
        ⟨fmt, ctx, sets, trace, c', hparsed, hsettles, hpasses⟩
    · simp only [Call.arrivals, hparsed] at hroom
      rw [hpasses]
      refine ⟨by simpa using hroom, ?_⟩
      intro e he
      have hnone := Call.outcome?_of_mem_statelessTrace he
      cases e with
      | row | counterSample => rfl
      | dataSet | missing => contradiction
    · simp only [Call.arrivals, hparsed] at hroom
      rw [hpasses]
      exact hsettles.of_hasRoom ((stable_hasRoom _ _).learnDefs hroom)
  rcases call.trace_cases c with ⟨-, htrace⟩ | ⟨retried, c', hretries, htrace⟩
  · rwa [htrace]
  · rw [htrace]
    exact ⟨(stable_hasRoom [] rest).retries hretries hpassed.1,
      List.forall_mem_append.mpr ⟨hpassed.2, hretries.isMissing_eq_false⟩⟩

/-- With room for all its Data Sets, a run reports none of them missing. -/
theorem runTrace_of_hasRoom {calls : List Call} {c : TemplateCache}
    (hroom : c.HasRoom (arrivedBytes (calls.flatMap Call.arrivals))) :
    ∀ e ∈ (runTrace calls c).1.flatten, e.isMissing = false := by
  induction calls generalizing c with
  | nil => simp [runTrace]
  | cons call calls ih =>
    rw [List.flatMap_cons, arrivedBytes_append] at hroom
    obtain ⟨hroom', hcall⟩ := Call.trace_of_hasRoom hroom
    simp only [runTrace, List.flatten_cons]
    exact List.forall_mem_append.mpr ⟨hcall, ih hroom'⟩

end Bytes

end Netflow
