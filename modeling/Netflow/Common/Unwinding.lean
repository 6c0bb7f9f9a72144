import Mathlib.Data.List.Basic
import Mathlib.Logic.Function.Basic

/-!
# Unwinding

Several parties take steps on one store, each with a state of its own, in any order. A party is not disturbed
when no step of another changes what it sees of the store, and its own steps depend on nothing else. Then it
observes in every interleaving what it observes when it is left alone.
-/

/-- What a step of a party does to its own state and to the store, if it has one to take. -/
structure Parties (ι S L : Type) where
  act : ι → L → S → Option (L × S)

namespace Parties

variable {ι S L : Type}

/-- The store, and the state of each party. -/
structure State (ι S L : Type) where
  store : S
  locals : ι → L

section Steps

variable [DecidableEq ι]

/-- One step of a party. -/
def step (sys : Parties ι S L) (i : ι) (st : State ι S L) : Option (State ι S L) :=
  (sys.act i (st.locals i) st.store).map fun r => ⟨r.2, Function.update st.locals i r.1⟩

/-- The steps of an interleaving, given by whose turn it is. -/
def run (sys : Parties ι S L) : List ι → State ι S L → Option (State ι S L)
  | [], st => some st
  | i :: turns, st => (sys.step i st).bind (sys.run turns)

variable {sys : Parties ι S L} {st st' : State ι S L} {i : ι}

/-- What a step does. -/
theorem step_eq_some : sys.step i st = some st' ↔
    ∃ l s, sys.act i (st.locals i) st.store = some (l, s) ∧ st' = ⟨s, Function.update st.locals i l⟩ := by
  rw [step, Option.map_eq_some_iff]
  constructor
  · rintro ⟨⟨l, s⟩, hact, heq⟩
    exact ⟨l, s, hact, heq.symm⟩
  · rintro ⟨l, s, hact, heq⟩
    exact ⟨(l, s), hact, heq.symm⟩

/-- A run takes its first step and goes on from there. -/
theorem run_cons {turns : List ι} {final : State ι S L} : sys.run (i :: turns) st = some final ↔
    ∃ mid, sys.step i st = some mid ∧ sys.run turns mid = some final := Option.bind_eq_some_iff

/-- A run goes on from where its first part ends. -/
theorem run_append {turns turns' : List ι} {mid : State ι S L} (h : sys.run turns st = some mid) :
    sys.run (turns ++ turns') st = sys.run turns' mid := by
  induction turns generalizing st with
  | nil =>
    cases h
    rfl
  | cons i turns ih =>
    obtain ⟨next, hstep, hrest⟩ := run_cons.mp h
    rw [List.cons_append, run, hstep, Option.bind_some, ih hrest]

end Steps

section Invariants

variable [DecidableEq ι] {sys : Parties ι S L}

/-- A property of the store and one of the states of the parties that every step keeps. -/
structure Invariant (sys : Parties ι S L) (P : S → Prop) (Q : ι → L → Prop) : Prop where
  act : ∀ i l s l' s', P s → Q i l → sys.act i l s = some (l', s') → P s' ∧ Q i l'

/-- What every step keeps holds after any run. -/
theorem Invariant.run {P : S → Prop} {Q : ι → L → Prop} (h : Invariant sys P Q) {turns : List ι}
    {st final : State ι S L} (hrun : sys.run turns st = some final) (hstore : P st.store)
    (hlocals : ∀ i, Q i (st.locals i)) : P final.store ∧ ∀ i, Q i (final.locals i) := by
  induction turns generalizing st with
  | nil =>
    obtain rfl := Option.some.inj hrun
    exact ⟨hstore, hlocals⟩
  | cons i turns ih =>
    obtain ⟨mid, hstep, hrest⟩ := run_cons.mp hrun
    obtain ⟨l, s, hact, rfl⟩ := step_eq_some.mp hstep
    obtain ⟨hstore', hlocal⟩ := h.act i _ _ l s hstore (hlocals i) hact
    refine ih hrest hstore' fun j => ?_
    by_cases hj : j = i
    · subst hj
      simpa only [Function.update_self] using hlocal
    · simpa only [Function.update_of_ne hj] using hlocals j

/-- What the steps of one party keep holds after a run of it alone. -/
theorem run_alone {P : L → S → Prop} {i : ι}
    (hact : ∀ l s l' s', P l s → sys.act i l s = some (l', s') → P l' s') {turns : List ι}
    (hown : ∀ j ∈ turns, j = i) {st final : State ι S L} (hrun : sys.run turns st = some final)
    (hstart : P (st.locals i) st.store) : P (final.locals i) final.store := by
  induction turns generalizing st with
  | nil =>
    obtain rfl := Option.some.inj hrun
    exact hstart
  | cons j turns ih =>
    obtain ⟨rfl, hrest⟩ := List.forall_mem_cons.mp hown
    obtain ⟨mid, hstep, hrun⟩ := run_cons.mp hrun
    obtain ⟨l, s, hlocal, rfl⟩ := step_eq_some.mp hstep
    refine ih hrest hrun ?_
    simpa only [Function.update_self] using hact _ _ l s hstart hlocal

end Invariants

section Pace

variable [DecidableEq ι] {sys : Parties ι S L}

/-- A count of the steps a party has taken: it has another one to take as long as the count is below a limit. -/
structure Paced (sys : Parties ι S L) (Q : ι → L → Prop) (taken : L → ℕ) (limit : ι → ℕ) : Prop where
  act : ∀ i l s, Q i l → taken l < limit i →
    ∃ l' s', sys.act i l s = some (l', s') ∧ Q i l' ∧ taken l' = taken l + 1

/-- Any order of turns is a run, if no party has more turns than it has steps left. -/
theorem Paced.run {Q : ι → L → Prop} {taken : L → ℕ} {limit : ι → ℕ} (h : Paced sys Q taken limit)
    {turns : List ι} {st : State ι S L} (hlocals : ∀ i, Q i (st.locals i))
    (hturns : ∀ i, taken (st.locals i) + turns.count i ≤ limit i) :
    ∃ final, sys.run turns st = some final ∧ ∀ i, Q i (final.locals i) ∧
      taken (final.locals i) = taken (st.locals i) + turns.count i := by
  induction turns generalizing st with
  | nil => exact ⟨st, rfl, fun i => ⟨hlocals i, by simp⟩⟩
  | cons j turns ih =>
    have hfirst := hturns j
    rw [List.count_cons_self] at hfirst
    obtain ⟨l, s, hact, hQ, htaken⟩ := h.act j _ st.store (hlocals j) (by omega)
    have hlocal : ∀ i, Q i (Function.update st.locals j l i) ∧
        taken (Function.update st.locals j l i) + turns.count i =
          taken (st.locals i) + (j :: turns).count i := by
      intro i
      by_cases hi : i = j
      · subst hi
        simp only [Function.update_self, List.count_cons_self, htaken]
        exact ⟨hQ, by omega⟩
      · rw [Function.update_of_ne hi, List.count_cons_of_ne (Ne.symm hi)]
        exact ⟨hlocals i, rfl⟩
    obtain ⟨final, hrun, hfinal⟩ := @ih ⟨s, Function.update st.locals j l⟩ (fun i => (hlocal i).1)
      fun i => (hlocal i).2 ▸ hturns i
    exact ⟨final, run_cons.mpr ⟨_, step_eq_some.mpr ⟨l, s, hact, rfl⟩, hrun⟩, fun i =>
      ⟨(hfinal i).1, (hfinal i).2.trans (hlocal i).2⟩⟩

end Pace

section Noninterference

variable {V O : Type}

/-- What a party sees of the store, and what is observed of its state: no other party changes what it sees, and
its own steps go by that and keep what is observed. -/
structure Undisturbed (sys : Parties ι S L) (view : ι → S → V) (observe : L → O) : Prop where
  respects : ∀ i j l s l' s', i ≠ j → sys.act j l s = some (l', s') → view i s' = view i s
  consistent : ∀ i l l' s s', observe l = observe l' → view i s = view i s' →
    (sys.act i l s).map (fun r => (observe r.1, view i r.2)) =
      (sys.act i l' s').map fun r => (observe r.1, view i r.2)

variable [DecidableEq ι] {sys : Parties ι S L} {view : ι → S → V} {observe : L → O}

/-- Whether two states are the same to a party. -/
def Alike (view : ι → S → V) (observe : L → O) (i : ι) (st st' : State ι S L) : Prop :=
  observe (st.locals i) = observe (st'.locals i) ∧ view i st.store = view i st'.store

/-- A step of another party is not noticed. -/
theorem Undisturbed.step_other (h : Undisturbed sys view observe) {i j : ι} (hne : i ≠ j) {st mid : State ι S L}
    (hstep : sys.step j st = some mid) : Alike view observe i mid st := by
  obtain ⟨l, s, hact, rfl⟩ := step_eq_some.mp hstep
  exact ⟨congrArg observe (Function.update_of_ne hne l st.locals), h.respects i j _ _ l s hne hact⟩

/-- A step that a party takes in one state it takes in any other that is the same to it. -/
theorem Undisturbed.step_own (h : Undisturbed sys view observe) {i : ι} {st st' mid : State ι S L}
    (halike : Alike view observe i st st') (hstep : sys.step i st = some mid) :
    ∃ mid', sys.step i st' = some mid' ∧ Alike view observe i mid mid' := by
  obtain ⟨l, s, hact, rfl⟩ := step_eq_some.mp hstep
  have hsame := h.consistent i _ _ _ _ halike.1 halike.2
  rw [hact, Option.map_some] at hsame
  obtain ⟨⟨l', s'⟩, hact', hobserved⟩ := Option.map_eq_some_iff.mp hsame.symm
  obtain ⟨hlocal, hview⟩ := Prod.mk.inj hobserved
  refine ⟨_, step_eq_some.mpr ⟨l', s', hact', rfl⟩, ?_, hview.symm⟩
  simp only [Function.update_self, hlocal]

/-- What a party observes in an interleaving it observes when it takes its own steps alone. -/
theorem Undisturbed.run_own (h : Undisturbed sys view observe) (i : ι) {turns : List ι} {st st' final : State ι S L}
    (halike : Alike view observe i st st') (hrun : sys.run turns st = some final) :
    ∃ final', sys.run (turns.filter (· = i)) st' = some final' ∧ Alike view observe i final final' := by
  induction turns generalizing st st' with
  | nil =>
    obtain rfl := Option.some.inj hrun
    exact ⟨st', rfl, halike⟩
  | cons j turns ih =>
    obtain ⟨mid, hstep, hrest⟩ := run_cons.mp hrun
    by_cases hj : j = i
    · subst hj
      obtain ⟨mid', hstep', halike'⟩ := h.step_own halike hstep
      obtain ⟨final', hrun', hfinal⟩ := ih halike' hrest
      rw [List.filter_cons_of_pos (by simp)]
      exact ⟨final', run_cons.mpr ⟨mid', hstep', hrun'⟩, hfinal⟩
    · obtain ⟨hlocal, hview⟩ := h.step_other (Ne.symm hj) hstep
      rw [List.filter_cons_of_neg (by simpa using hj)]
      exact ih ⟨hlocal.trans halike.1, hview.trans halike.2⟩ hrest

end Noninterference

end Parties
