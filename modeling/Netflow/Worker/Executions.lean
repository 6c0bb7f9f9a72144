import Netflow.Common.Unwinding
import Netflow.Worker.Projection

/-!
# Overlapping executions

The functions of a worker run in several executions at once, and nothing orders their accesses to the storage.
Each answers its requests one after the other: it gets its cache, decodes, puts the cache back, gets the global
projection and puts it back with the cache merged in. Other executions can take any number of steps between two
of these.
-/

namespace Netflow

open Std (ExtTreeMap)

section Model

/-- What an execution is asked for: to process a batch, or to finish. -/
inductive Request
  | batch (calls : List Call)
  | finish

/-- The rows that answer a request, and the cache they leave. -/
def Request.answer : Request → TemplateCache → List FlowRecord × TemplateCache
  | .batch calls, cache => ((runCalls calls cache).1.flatten, (runCalls calls cache).2)
  | .finish, cache => flushPending cache

/-- How far an execution is with its request, and what it holds. -/
inductive Phase
  | idle
  | answered (rows : List FlowRecord) (cache : TemplateCache)
  | stored (rows : List FlowRecord) (cache : TemplateCache)
  | merging (rows : List FlowRecord) (cache global : TemplateCache)

/-- An execution: the requests it has left, how far it is, and the answers it has given. -/
structure Execution where
  todo : List Request
  phase : Phase
  answers : List (List FlowRecord)

/-- An execution before its first request. -/
def Execution.start (requests : List Request) : Execution := ⟨requests, .idle, []⟩

variable {σ ι : Type} (w : Worker σ) (ids : ι → Bytes)

/-- The accesses of the executions to the storage, one at a time. -/
def Worker.executions : Parties ι σ Execution where
  act i e store :=
    match e.phase, e.todo with
    | .idle, r :: _ =>
      let (rows, cache) := r.answer (w.readCache store (ids i))
      some ({ e with phase := .answered rows cache }, store)
    | .answered rows cache, _ =>
      some ({ e with phase := .stored rows cache }, w.kv.kvPut store (ids i) cacheKey (cache.toBytes w.serde))
    | .stored rows cache, _ =>
      some ({ e with phase := .merging rows cache (w.readCache store globalScope) }, store)
    | .merging rows cache global, _ :: rest =>
      some (⟨rest, .idle, e.answers ++ [rows]⟩,
        w.kv.kvPut store globalScope cacheKey ((global.merge cache).toBytes w.serde))
    | _, _ => none

/-- Before the first step of any execution. -/
def executionsStart (store : σ) (requests : ι → List Request) : Parties.State ι σ Execution :=
  ⟨store, fun i => .start (requests i)⟩

/-- One request of an execution that is alone with the storage. -/
def Worker.request (storage : Option σ) : Request → List FlowRecord × Option σ
  | .batch calls => w.processCalls calls storage
  | .finish => w.finish storage

/-- The answers to some requests of an execution that is alone with the storage. -/
def Worker.requests : List Request → Option σ → List (List FlowRecord)
  | [], _ => []
  | r :: rest, storage => (w.request storage r).1 :: requests rest (w.request storage r).2

end Model

section Isolation

variable {σ ι : Type} {w : Worker σ} {ids : ι → Bytes}

/-- A phase without the global projection that was got. -/
def Phase.own : Phase → Phase
  | .merging rows cache _ => .merging rows cache .new
  | phase => phase

/-- What an execution's answers and its own cache depend on. -/
def Execution.own (e : Execution) : Execution := { e with phase := e.phase.own }

/-- No execution changes what another has stored, and what it got of the global projection goes nowhere else. -/
theorem Worker.executions_undisturbed (hkv : w.kv.Lawful) (hids : ids.Injective)
    (hscope : ∀ i, ids i ≠ globalScope) :
    (w.executions ids).Undisturbed (fun i store => w.kv.kvGet store (ids i) cacheKey) Execution.own where
  respects i j e store e' store' hne hact := by
    have hother : ids i ≠ ids j := fun heq => hne (hids heq)
    obtain ⟨todo, phase, answers⟩ := e
    cases phase <;> cases todo <;>
      simp only [executions, reduceCtorEq, Option.some.injEq, Prod.mk.injEq] at hact <;>
      obtain ⟨-, rfl⟩ := hact <;>
      simp [hkv.kvGet_kvPut, hother, hscope i]
  consistent i e e' store store' hsame hview := by
    obtain ⟨todo, phase, answers⟩ := e
    obtain ⟨todo', phase', answers'⟩ := e'
    obtain ⟨rfl, hphase, rfl⟩ := Execution.mk.inj hsame
    have hread : w.readCache store (ids i) = w.readCache store' (ids i) := by
      rw [readCache, hview, readCache]
    cases phase <;> cases phase' <;>
      simp only [Phase.own, reduceCtorEq, Phase.answered.injEq, Phase.stored.injEq, Phase.merging.injEq]
        at hphase
    case idle.idle => cases todo <;> simp [executions, Execution.own, Phase.own, hread, hview]
    case answered.answered =>
      obtain ⟨rfl, rfl⟩ := hphase
      simp [executions, Execution.own, Phase.own, hkv.kvGet_kvPut]
    case stored.stored =>
      obtain ⟨rfl, rfl⟩ := hphase
      simp [executions, Execution.own, Phase.own, hview]
    case merging.merging =>
      obtain ⟨rfl, rfl, -⟩ := hphase
      cases todo <;> simp [executions, Execution.own, Phase.own, hkv.kvGet_kvPut, hscope i, hview]

/-- The answers of an execution that has come this far and is alone from now on. -/
def Worker.toCome (w : Worker σ) (store : σ) : Execution → List (List FlowRecord)
  | ⟨todo, .idle, _⟩ => w.requests todo (some store)
  | ⟨todo, .answered rows cache, _⟩ => rows :: w.requests todo.tail (w.storeScanCache (some store) cache)
  | ⟨todo, .stored rows cache, _⟩ =>
    rows :: w.requests todo.tail (some (w.kv.kvPut store globalScope cacheKey
      (((w.readCache store globalScope).merge cache).toBytes w.serde)))
  | ⟨todo, .merging rows cache global, _⟩ =>
    rows :: w.requests todo.tail (some (w.kv.kvPut store globalScope cacheKey
      ((global.merge cache).toBytes w.serde)))

/-- A step of an execution that is alone changes nothing about its answers. -/
theorem Worker.toCome_act {i : ι} {e e' : Execution} {store store' : σ}
    (hact : (w.executions ids).act i e store = some (e', store')) :
    e'.answers ++ { w with executionId := ids i }.toCome store' e' =
      e.answers ++ { w with executionId := ids i }.toCome store e := by
  obtain ⟨todo, phase, answers⟩ := e
  cases phase <;> cases todo <;> simp only [executions, reduceCtorEq, Option.some.injEq, Prod.mk.injEq] at hact <;>
    obtain ⟨rfl, rfl⟩ := hact
  case idle.cons r rest => cases r <;> rfl
  case merging.cons rows cache global r rest => simp [toCome]
  all_goals rfl

variable (ids) in
/-- An execution that has its answer and stores its cache without an access of another in between leaves what
storing a scan cache leaves, and the others where they were. -/
theorem Worker.run_store [DecidableEq ι] {st : Parties.State ι σ Execution} {i : ι} {r : Request}
    {rest : List Request} {rows : List FlowRecord} {cache : TemplateCache} {answers : List (List FlowRecord)}
    (hlocal : st.locals i = ⟨r :: rest, .answered rows cache, answers⟩) :
    ∃ final, (w.executions ids).run [i, i, i] st = some final ∧
      { w with executionId := ids i }.storeScanCache (some st.store) cache = some final.store ∧
      ∀ j, j ≠ i → final.locals j = st.locals j := by
  simp only [Parties.run, Parties.step, executions, hlocal, Function.update_self, Option.map_some,
    Option.bind_some, Option.some.injEq, exists_eq_left', Function.update_idem]
  exact ⟨rfl, fun j hne => Function.update_of_ne hne _ _⟩

/-- The accesses an execution has made for the request it is at. -/
def Phase.taken : Phase → ℕ
  | .idle => 0
  | .answered _ _ => 1
  | .stored _ _ => 2
  | .merging _ _ _ => 3

/-- The accesses an execution has made. -/
def Execution.taken (e : Execution) : ℕ := 4 * e.answers.length + e.phase.taken

/-- The number of requests stays what it was, and an execution without one is idle. -/
structure Execution.Of (requests : List Request) (e : Execution) : Prop where
  length : e.answers.length + e.todo.length = requests.length
  idle : e.todo = [] → e.phase = .idle

/-- An execution makes four accesses for each request. -/
theorem Worker.executions_paced (requests : ι → List Request) :
    (w.executions ids).Paced (fun i => Execution.Of (requests i)) Execution.taken
      fun i => 4 * (requests i).length where
  act i e store hof htaken := by
    obtain ⟨todo, phase, answers⟩ := e
    obtain ⟨hlength, hidle⟩ := hof
    cases todo with
    | nil =>
      -- Without a request left, all accesses have been made.
      obtain rfl : phase = .idle := hidle rfl
      simp only [Execution.taken, Phase.taken, List.length_nil] at htaken hlength
      omega
    | cons r rest =>
      cases phase with
      | merging rows cache global =>
        refine ⟨_, _, rfl, ⟨?_, fun _ => rfl⟩, ?_⟩
        · simp only [List.length_append, List.length_cons, List.length_nil] at hlength ⊢
          omega
        · simp only [Execution.taken, Phase.taken, List.length_append, List.length_cons, List.length_nil]
          omega
      | _ => exact ⟨_, _, rfl, ⟨hlength, fun h => absurd h (List.cons_ne_nil _ _)⟩, rfl⟩

/-- However the accesses of executions with scopes of their own interleave, each gives the answers it gives when
it is alone with the storage: all whose four accesses it has made. -/
theorem Worker.executions_isolated [DecidableEq ι] (hkv : w.kv.Lawful) (hids : ids.Injective)
    (hscope : ∀ i, ids i ≠ globalScope) (store : σ) (requests : ι → List Request) (turns : List ι)
    (hturns : ∀ i, turns.count i ≤ 4 * (requests i).length) :
    ∃ final, (w.executions ids).run turns (executionsStart store requests) = some final ∧ ∀ i,
      (final.locals i).answers =
        ({ w with executionId := ids i }.requests (requests i) (some store)).take (turns.count i / 4) := by
  have hpaced : (w.executions ids).Paced (fun i => Execution.Of (requests i)) Execution.taken
      fun i => 4 * (requests i).length := w.executions_paced requests
  have hstart : ∀ i, Execution.Of (requests i) ((executionsStart store requests).locals i) :=
    fun i => ⟨by simp [executionsStart, Execution.start], fun _ => rfl⟩
  have hleft : ∀ i, ((executionsStart store requests).locals i).taken + turns.count i ≤ 4 * (requests i).length :=
    fun i => by simpa [executionsStart, Execution.start, Execution.taken, Phase.taken] using hturns i
  obtain ⟨final, hrun, hfinal⟩ := hpaced.run hstart hleft
  refine ⟨final, hrun, fun i => ?_⟩
  obtain ⟨alone, halone, hsame⟩ := (w.executions_undisturbed hkv hids hscope).run_own i ⟨rfl, rfl⟩ hrun
  have hanswers : (final.locals i).own.answers = (alone.locals i).own.answers := congrArg _ hsame.1
  change (final.locals i).answers = (alone.locals i).answers at hanswers
  have hkept : ∀ e s e' s', e.answers ++ { w with executionId := ids i }.toCome s e =
        { w with executionId := ids i }.requests (requests i) (some store) →
      (w.executions ids).act i e s = some (e', s') → e'.answers ++ { w with executionId := ids i }.toCome s' e' =
        { w with executionId := ids i }.requests (requests i) (some store) :=
    fun e s e' s' h hact => (w.toCome_act hact).trans h
  have hall := Parties.run_alone hkept (by simp) halone (by simp [executionsStart, Execution.start, toCome])
  have htaken : 4 * (final.locals i).answers.length + (final.locals i).phase.taken = turns.count i := by
    simpa [executionsStart, Execution.start, Execution.taken, Phase.taken] using (hfinal i).2
  have hlast : (final.locals i).phase.taken < 4 := by
    cases (final.locals i).phase <;> simp [Phase.taken]
  rw [← hall, ← hanswers, show turns.count i / 4 = (final.locals i).answers.length by omega, List.take_left]

/-- The templates and the data of two executions, access by access in turn; the second stops before its end. -/
theorem Worker.executions_isolated_two :
    let ids := fun second => if second then [2] else [1]
    let requests : Bool → List Request := fun _ =>
      [.batch [Call.of sampleTemplate "10.0.0.1"], .batch [Call.of sampleData "10.0.0.1"], .finish]
    let turns := (List.replicate 6 [false, true, false]).flatten
    ∃ final, ((Worker.inMemory []).executions ids).run turns (executionsStart (fun _ _ => none) requests) =
        some final ∧ ∀ i, (final.locals i).answers =
      ({ Worker.inMemory [] with executionId := ids i }.requests (requests i) (some fun _ _ => none)).take
        (turns.count i / 4) :=
  Worker.executions_isolated ⟨fun _ _ _ _ _ _ => rfl⟩ (by decide) (by decide +kernel) (fun _ _ => none)
    (fun _ => [.batch [Call.of sampleTemplate "10.0.0.1"], .batch [Call.of sampleData "10.0.0.1"], .finish])
    (List.replicate 6 [false, true, false]).flatten (by decide)

end Isolation

section Provenance

variable {σ ι : Type} {w : Worker σ} {ids : ι → Bytes} {known : Set (TemplateKey × Layout)}

/-- Whether all templates of a cache are among the given ones. -/
def TemplateCache.From (known : Set (TemplateKey × Layout)) (c : TemplateCache) : Prop :=
  ∀ (key : TemplateKey) (e : TemplateEntry), c.entries[key]? = some e → (key, e.layout) ∈ known

/-- An upsert brings in no other template than its own. -/
theorem TemplateCache.From.upsert {c : TemplateCache} (h : c.From known) {key : TemplateKey} {entry : TemplateEntry}
    (hentry : (key, entry.layout) ∈ known) : (c.upsert key entry).From known := by
  intro k e he
  have hinserted : (c.entries.insert key (c.stored key entry))[k]? = some e := getElem?_of_evictLoop he
  rw [ExtTreeMap.getElem?_insert] at hinserted
  split at hinserted
  · rename_i hkey
    obtain rfl := Std.LawfulEqCmp.eq_of_compare hkey
    rw [← Option.some.inj hinserted, c.stored_layout]
    exact hentry
  · exact h k e hinserted

/-- Every operation brings in no other template than those that are learned. -/
theorem stable_from {learned : List (TemplateKey × Layout)} (hlearned : ∀ p ∈ learned, p ∈ known)
    (arrivals : List (TemplateKey × PendingRecord)) : Stable learned arrivals (TemplateCache.From known) where
  upsert _ _ _ hmem h := h.upsert (hlearned _ hmem)
  useTemplate c c' key now tpl huse h := by
    obtain ⟨e, he, rfl, rfl⟩ := TemplateCache.useTemplate_eq_some.mp huse
    intro k e' he'
    rw [ExtTreeMap.getElem?_insert] at he'
    split at he'
    · rename_i hkey
      obtain rfl := Std.LawfulEqCmp.eq_of_compare hkey
      exact Option.some.inj he' ▸ h key e he
    · exact h k e' he'
  pushPending c key rec _ h := by simpa [TemplateCache.From] using h
  takePending _ _ h := h

/-- A merge brings in no other template than those of the two caches. -/
theorem TemplateCache.From.merge {g cache : TemplateCache} (hg : g.From known) (hcache : cache.From known) :
    (g.merge cache).From known := by
  have hentries : ∀ p ∈ cache.entries.toList, (p.1, p.2.layout) ∈ known := fun p hp =>
    hcache p.1 p.2 (ExtTreeMap.mem_toList_iff_getElem?_eq_some.mp hp)
  unfold TemplateCache.merge
  generalize cache.entries.toList = entries at hentries
  induction entries generalizing g with
  | nil => exact hg
  | cons p entries ih =>
    obtain ⟨hp, hrest⟩ := List.forall_mem_cons.mp hentries
    exact ih (hg.upsert hp) hrest

/-- What is put has the templates of the cache, whatever its account says. -/
theorem Worker.readCache_kvPut_from (hkv : w.kv.Lawful) (hserde : w.serde.Lawful) {store : σ}
    {cache : TemplateCache} (hcache : cache.From known) (h : ∀ scope, (w.readCache store scope).From known)
    (scope scope' : Bytes) :
    (w.readCache (w.kv.kvPut store scope cacheKey (cache.toBytes w.serde)) scope').From known := by
  rw [readCache_kvPut hkv]
  split
  · rw [TemplateCache.fromBytes_toBytes_eq_ofDto hserde]
    intro key e he
    rw [TemplateCache.ofDto_toDto_entries] at he
    exact hcache key e he
  · exact h scope'

/-- The templates that the batches of some requests define. -/
def requestedTemplates (requests : List Request) : Set (TemplateKey × Layout) :=
  {p | ∃ calls, .batch calls ∈ requests ∧ p ∈ calls.flatMap Call.learned}

/-- A request brings in no other template than those that it defines. -/
theorem Request.answer_from {r : Request} {cache : TemplateCache}
    (hr : requestedTemplates [r] ⊆ known) (h : cache.From known) : (r.answer cache).2.From known := by
  cases r with
  | batch calls =>
    simp only [answer, runCalls_eq_trace]
    exact (stable_from (fun p hp => hr ⟨calls, List.mem_singleton_self _, hp⟩) _).run h
  | finish => exact h

/-- Whether all templates an execution holds are among the given ones. -/
def Phase.From (known : Set (TemplateKey × Layout)) : Phase → Prop
  | .idle => True
  | .answered _ cache => cache.From known
  | .stored _ cache => cache.From known
  | .merging _ cache global => cache.From known ∧ global.From known

/-- The templates an execution holds and those it is still asked to define. -/
structure Execution.From (known : Set (TemplateKey × Layout)) (e : Execution) : Prop where
  todo : requestedTemplates e.todo ⊆ known
  held : e.phase.From known

/-- Every access keeps to the templates that were there or are asked for. -/
theorem Worker.executions_from (hkv : w.kv.Lawful) (hserde : w.serde.Lawful) :
    (w.executions ids).Invariant (fun store => ∀ scope, (w.readCache store scope).From known)
      fun _ => Execution.From known where
  act i e store e' store' hstore he hact := by
    obtain ⟨todo, phase, answers⟩ := e
    obtain ⟨htodo, hheld⟩ := he
    cases phase with
    | idle =>
      cases todo with
      | nil => contradiction
      | cons r rest =>
        cases hact
        refine ⟨hstore, htodo, Request.answer_from (fun p hp => htodo ?_) (hstore (ids i))⟩
        obtain ⟨calls, hmem, hp⟩ := hp
        exact ⟨calls, List.mem_cons.mpr (.inl (List.mem_singleton.mp hmem)), hp⟩
    | answered rows cache =>
      cases hact
      exact ⟨w.readCache_kvPut_from hkv hserde hheld hstore (ids i), htodo, hheld⟩
    | stored rows cache =>
      cases hact
      exact ⟨hstore, htodo, hheld, hstore globalScope⟩
    | merging rows cache global =>
      cases todo with
      | nil => contradiction
      | cons r rest =>
        cases hact
        refine ⟨w.readCache_kvPut_from hkv hserde (hheld.2.merge hheld.1) hstore globalScope, ?_, trivial⟩
        rintro p ⟨calls, hmem, hp⟩
        exact htodo ⟨calls, List.mem_cons_of_mem _ hmem, hp⟩

/-- However executions interleave and whatever their scopes, the projection shows no template but those that
were in the storage before and those that a datagram of one of them defines, for the exporter and the
observation domain it defines it for. -/
theorem Worker.globalCache_from [DecidableEq ι] (hkv : w.kv.Lawful) (hserde : w.serde.Lawful) {store : σ}
    {requests : ι → List Request} {turns : List ι} {final : Parties.State ι σ Execution}
    (hrun : (w.executions ids).run turns (executionsStart store requests) = some final) {key : TemplateKey}
    {e : TemplateEntry} (hshown : (w.globalCache (some final.store)).entries[key]? = some e) :
    (∃ scope old, (w.readCache store scope).entries[key]? = some old ∧ old.layout = e.layout) ∨
      ∃ i calls call, .batch calls ∈ requests i ∧ call ∈ calls ∧ (key, e.layout) ∈ call.learned := by
  obtain ⟨known, hknown⟩ : ∃ known : Set (TemplateKey × Layout), known = fun p =>
    (∃ scope old, (w.readCache store scope).entries[p.1]? = some old ∧ old.layout = p.2) ∨
      ∃ i calls call, .batch calls ∈ requests i ∧ call ∈ calls ∧ p ∈ call.learned := ⟨_, rfl⟩
  have hkept : (w.executions ids).Invariant (fun store => ∀ scope, (w.readCache store scope).From known)
      fun _ => Execution.From known := w.executions_from hkv hserde
  have hfrom := hkept.run hrun
    (fun scope key e he => hknown ▸ .inl ⟨scope, e, he, rfl⟩) fun i => by
      refine ⟨?_, trivial⟩
      rintro p ⟨calls, hmem, hp⟩
      obtain ⟨call, hcall, hp⟩ := List.mem_flatMap.mp hp
      exact hknown ▸ .inr ⟨i, calls, call, hmem, hcall, hp⟩
  have hmem := hfrom.1 globalScope key e hshown
  rwa [hknown] at hmem

/-- The second execution gets its cache before the first has stored a template, and stores its own afterwards: the
projection shows the template of the first, and its batch defines it. -/
theorem Worker.globalCache_from_two :
    let cache : Bool → TemplateCache := fun second => if second then
      (runCalls [Call.of sampleTemplate "10.0.0.2"] .new).2 else (runCalls [Call.of sampleTemplate "10.0.0.1"] .new).2
    let w := Worker.inMemory [cache false, cache true]
    let ids := fun second => if second then [2] else [1]
    let requests : Bool → List Request := fun second =>
      [.batch [Call.of sampleTemplate (if second then "10.0.0.2" else "10.0.0.1")]]
    let key : TemplateKey := ⟨"10.0.0.1", 7, 256⟩
    ∃ final e, (w.executions ids).run [false, true, false, false, false, true, true, true]
        (executionsStart (fun _ _ => none) requests) = some final ∧
      (w.globalCache (some final.store)).entries[key]? = some e ∧
      ((∃ scope old, (w.readCache (fun _ _ => none) scope).entries[key]? = some old ∧ old.layout = e.layout) ∨
        ∃ i calls call, .batch calls ∈ requests i ∧ call ∈ calls ∧ (key, e.layout) ∈ call.learned) := by
  intro cache w ids requests key
  have hkv : w.kv.Lawful := ⟨fun _ _ _ _ _ _ => rfl⟩
  have hserde : w.serde.Lawful := SerdeJson.writing_lawful (by decide +kernel)
  have hcold : w.Cold fun _ _ => none := fun _ => rfl
  have hscope : ∀ i, ids i ≠ globalScope := by decide +kernel
  have hanswered : ∃ mid, (w.executions ids).run [false, true] (executionsStart (fun _ _ => none) requests) =
      some mid ∧ mid.store = (fun _ _ => none) ∧
      ∀ i, ∃ rows, mid.locals i = ⟨requests i, .answered rows (cache i), []⟩ := by
    refine ⟨_, rfl, rfl, fun i => ?_⟩
    cases i <;> exact ⟨_, rfl⟩
  obtain ⟨mid, hmid, hstore, hlocals⟩ := hanswered
  obtain ⟨rows, hfirst⟩ := hlocals false
  obtain ⟨next, hnext, hput, hothers⟩ := w.run_store ids hfirst
  obtain ⟨rows', hsecond⟩ := hlocals true
  obtain ⟨final, hfinal, hput', -⟩ := w.run_store ids ((hothers true (by decide)).trans hsecond)
  have hrun : (w.executions ids).run ([false, true] ++ ([false, false, false] ++ [true, true, true]))
      (executionsStart (fun _ _ => none) requests) = some final := by
    rw [Parties.run_append hmid, Parties.run_append hnext, hfinal]
  have hglobal : w.globalCache (some mid.store) = .new := hstore ▸ hcold.readCache _
  have hshown : w.globalCache (some next.store) = TemplateCache.new.merge (cache false) := by
    rw [← hglobal]
    exact Worker.globalCache_storeScanCache (w := { w with executionId := ids false }) hkv hserde (hscope false)
      (hglobal ▸ TemplateCache.accounted_new) _ hput
  have hshown' : w.globalCache (some final.store) = (TemplateCache.new.merge (cache false)).merge (cache true) := by
    rw [← hshown]
    exact Worker.globalCache_storeScanCache (w := { w with executionId := ids true }) hkv hserde (hscope true)
      (hshown ▸ TemplateCache.accounted_new.merge _) _ hput'
  have hmerged : (((TemplateCache.new.merge (cache false)).merge (cache true)).entries[key]?).isSome := by
    decide +kernel
  obtain ⟨e, he⟩ := Option.isSome_iff_exists.mp hmerged
  rw [← hshown'] at he
  exact ⟨final, e, hrun, he, Worker.globalCache_from hkv hserde hrun he⟩

end Provenance

end Netflow
