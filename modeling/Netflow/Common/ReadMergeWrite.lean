import Mathlib.Logic.Function.Basic

/-!
# Read, merge, write

Several parties each apply a list of updates to one store, an update by a read and a later
write that uses what was read. Nothing holds the store between the two, so the steps of the
parties interleave. The history keeps the updates in the order in which they were written.
-/

/-- How a party reads the store for an update, and how it writes the update with what it read. -/
structure ReadMergeWrite (ι S V U : Type) where
  read : ι → U → S → S × V
  write : ι → U → V → S → S

namespace ReadMergeWrite

variable {ι S V U : Type}

/-- The store, what each party has left to do and holds from its last read, and the history. -/
structure State (ι S V U : Type) where
  store : S
  todo : ι → List U
  held : ι → Option V
  written : List U

/-- The next step of a party. -/
inductive Action (ι : Type)
  | read (i : ι)
  | write (i : ι)

/-- Before the first step. -/
def State.start (store : S) (todo : ι → List U) : State ι S V U := ⟨store, todo, fun _ => none, []⟩

/-- All parties have written all their updates. -/
def State.Finished (st : State ι S V U) : Prop := ∀ i, st.todo i = []

section Steps

variable [DecidableEq ι]

/-- A party reads when it holds nothing and has an update left, and writes when it holds a read. -/
def step (sys : ReadMergeWrite ι S V U) (st : State ι S V U) : Action ι → Option (State ι S V U)
  | .read i =>
    match st.held i, st.todo i with
    | none, u :: _ =>
      let (store, v) := sys.read i u st.store
      some { st with store, held := Function.update st.held i (some v) }
    | _, _ => none
  | .write i =>
    match st.held i, st.todo i with
    | some v, u :: rest =>
      some {
        store := sys.write i u v st.store
        todo := Function.update st.todo i rest
        held := Function.update st.held i none
        written := st.written ++ [u] }
    | _, _ => none

variable {sys : ReadMergeWrite ι S V U} {st st' : State ι S V U} {i : ι}

/-- What a read does. -/
theorem step_read : sys.step st (.read i) = some st' ↔
    ∃ u rest, st.held i = none ∧ st.todo i = u :: rest ∧
      st' = { st with
        store := (sys.read i u st.store).1
        held := Function.update st.held i (some (sys.read i u st.store).2) } := by
  simp only [step]
  split
  · rename_i u rest hheld htodo
    simp [hheld, htodo, eq_comm]
  · rename_i hnot
    simp only [reduceCtorEq, false_iff, not_exists]
    rintro u rest ⟨hheld, htodo, -⟩
    exact hnot u rest hheld htodo

/-- What a write does. -/
theorem step_write : sys.step st (.write i) = some st' ↔
    ∃ u rest v, st.held i = some v ∧ st.todo i = u :: rest ∧
      st' = {
        store := sys.write i u v st.store
        todo := Function.update st.todo i rest
        held := Function.update st.held i none
        written := st.written ++ [u] } := by
  simp only [step]
  split
  · rename_i v u rest hheld htodo
    simp [hheld, htodo, and_assoc, eq_comm]
  · rename_i hnot
    simp only [reduceCtorEq, false_iff, not_exists]
    rintro u rest v ⟨hheld, htodo, -⟩
    exact hnot v u rest hheld htodo

/-- The steps of an interleaving, one after the other. -/
def run (sys : ReadMergeWrite ι S V U) : List (Action ι) → State ι S V U → Option (State ι S V U)
  | [], st => some st
  | a :: actions, st => (sys.step st a).bind (sys.run actions)

/-- The states reached by steps that all meet a condition on the state before them. -/
inductive Run (sys : ReadMergeWrite ι S V U) (ok : State ι S V U → Action ι → Prop) (start : State ι S V U) :
    State ι S V U → Prop
  | refl : Run sys ok start start
  | step {st st' a} : Run sys ok start st → ok st a → sys.step st a = some st' → Run sys ok start st'

end Steps

section Alone

variable [DecidableEq ι] (sys : ReadMergeWrite ι S V U)

/-- One update by one party, read and written without a step in between. -/
def update (i : ι) (store : S) (u : U) : S :=
  let (store, v) := sys.read i u store
  sys.write i u v store

/-- An update without a step in between. -/
theorem run_update {i : ι} {u : U} {rest : List U} {st : State ι S V U} (hheld : st.held i = none)
    (htodo : st.todo i = u :: rest) (actions : List (Action ι)) :
    sys.run (.read i :: .write i :: actions) st =
      sys.run actions {
        store := sys.update i st.store u
        todo := Function.update st.todo i rest
        held := st.held
        written := st.written ++ [u] } := by
  have hback : Function.update st.held i none = st.held := hheld ▸ Function.update_eq_self i st.held
  simp [run, step, update, hheld, htodo, hback]

/-- A party left alone writes its updates in turn, each to what the last one left. -/
theorem run_alone {i : ι} {updates rest : List U} {st : State ι S V U} (hheld : st.held i = none)
    (htodo : st.todo i = updates ++ rest) :
    sys.run (updates.flatMap fun _ => [.read i, .write i]) st =
      some {
        store := updates.foldl (sys.update i) st.store
        todo := Function.update st.todo i rest
        held := st.held
        written := st.written ++ updates } := by
  induction updates generalizing st with
  | nil =>
    rw [List.nil_append] at htodo
    simp [run, ← htodo]
  | cons u updates ih =>
    simp only [List.flatMap_cons, List.cons_append, List.nil_append]
    rw [sys.run_update hheld htodo, ih]
    · simp
    · exact hheld
    · exact Function.update_self ..

end Alone

section Runs

variable [DecidableEq ι] {sys : ReadMergeWrite ι S V U} {ok : State ι S V U → Action ι → Prop}

/-- A relation between history and store, and a property of what is read, that allowed updates keep. -/
structure Invariant (sys : ReadMergeWrite ι S V U) (ok : State ι S V U → Action ι → Prop) (allowed : U → Prop)
    (P : List U → S → Prop) (Q : V → Prop) : Prop where
  read : ∀ st i u, ok st (.read i) → allowed u → P st.written st.store →
    P st.written (sys.read i u st.store).1 ∧ Q (sys.read i u st.store).2
  write : ∀ st i u v rest, ok st (.write i) → st.held i = some v → st.todo i = u :: rest → allowed u → Q v →
    P st.written st.store → P (st.written ++ [u]) (sys.write i u v st.store)

variable {allowed : U → Prop} {P : List U → S → Prop} {Q : V → Prop} {store : S} {todo : ι → List U}
  {st : State ι S V U}

/-- An invariant that holds of the empty history holds in every state reached. -/
theorem Invariant.run (hinv : Invariant sys ok allowed P Q) (hstart : P [] store)
    (htodo : ∀ i, ∀ u ∈ todo i, allowed u) (h : sys.Run ok (.start store todo) st) :
    P st.written st.store ∧ (∀ i v, st.held i = some v → Q v) ∧ ∀ i, ∀ u ∈ st.todo i, allowed u := by
  induction h with
  | refl => exact ⟨hstart, by simp [State.start], htodo⟩
  | @step st st' a _ hok hstep ih =>
    obtain ⟨hP, hQ, hallowed⟩ := ih
    cases a with
    | read i =>
      obtain ⟨u, rest, -, hi, rfl⟩ := step_read.mp hstep
      obtain ⟨hstore, hheld⟩ := hinv.read st i u hok (hallowed i u (hi ▸ List.mem_cons_self)) hP
      refine ⟨hstore, ?_, hallowed⟩
      exact (Function.forall_update_iff _ fun _ held => ∀ v, held = some v → Q v).mpr
        ⟨fun v hv => Option.some_inj.mp hv ▸ hheld, fun j _ => hQ j⟩
    | write i =>
      obtain ⟨u, rest, v, hv, hi, rfl⟩ := step_write.mp hstep
      have hu : ∀ u' ∈ u :: rest, allowed u' := hi ▸ hallowed i
      refine ⟨hinv.write st i u v rest hok hv hi (hu u List.mem_cons_self) (hQ i v hv) hP, ?_, ?_⟩
      · exact (Function.forall_update_iff _ fun _ held => ∀ v, held = some v → Q v).mpr
          ⟨fun v hnone => absurd hnone (by simp), fun j _ => hQ j⟩
      · exact (Function.forall_update_iff _ fun _ todo => ∀ u ∈ todo, allowed u).mpr
          ⟨fun u' hu' => hu u' (List.mem_cons_of_mem _ hu'), fun j _ => hallowed j⟩

/-- No update is lost from the history or made up: each is written or still to do. -/
theorem Run.written_or_todo (h : sys.Run ok (.start store todo) st) (u : U) :
    (u ∈ st.written ∨ ∃ i, u ∈ st.todo i) ↔ ∃ i, u ∈ todo i := by
  induction h with
  | refl => simp [State.start]
  | @step st st' a _ _ hstep ih =>
    rw [← ih]
    cases a with
    | read i =>
      obtain ⟨u, rest, -, -, rfl⟩ := step_read.mp hstep
      rfl
    | write i =>
      obtain ⟨w, rest, v, -, hi, rfl⟩ := step_write.mp hstep
      rw [List.mem_append, List.mem_singleton, or_assoc]
      refine or_congr_right ?_
      rw [Function.exists_update_iff st.todo fun _ todo => u ∈ todo, ← or_assoc, ← List.mem_cons, ← hi]
      constructor
      · rintro (hhere | ⟨j, -, hj⟩)
        · exact ⟨i, hhere⟩
        · exact ⟨j, hj⟩
      · rintro ⟨j, hj⟩
        rcases eq_or_ne j i with rfl | hne
        · exact .inl hj
        · exact .inr ⟨j, hne, hj⟩

/-- Once all are finished the history has exactly the updates of all parties. -/
theorem Run.mem_written (h : sys.Run ok (.start store todo) st) (hfinished : st.Finished) {u : U} :
    u ∈ st.written ↔ ∃ i, u ∈ todo i := by
  rw [← h.written_or_todo]
  simp [hfinished _]

end Runs

end ReadMergeWrite
