import Mathlib.Algebra.Order.Group.Multiset
import Mathlib.Data.Multiset.Bind
import Mathlib.Logic.Function.Basic

/-!
# Late binding

Items arrive under a key and need that key's definition. An item whose definition is known
is resolved at once; one whose definition is not known may wait, or be given up. When a
definition becomes known the items waiting for it may be released against it. Definitions
may be learned, replaced and forgotten at any time.

Two facts hold over every run. No item is lost or settled twice, and when all definitions
ever learned for a key agree, the outcomes depend on the arrivals and the definitions
alone, not on their order.
-/

namespace LateBinding

variable {K D P : Type}

/-- What became of an item. -/
inductive Outcome (K D P : Type)
  | resolved (key : K) (defn : D) (item : P)
  | unresolved (key : K) (item : P)

/-- The item an outcome is about. -/
def Outcome.subject : Outcome K D P → K × P
  | .resolved key _ item => (key, item)
  | .unresolved key item => (key, item)

/-- The definitions known and the items waiting for one. -/
structure State (K D P : Type) where
  known : K → Option D
  waiting : Multiset (K × P)

/-- One step: the items that arrive, the outcomes it produces and the state it leaves.
Only pairs satisfying `learnable` are ever learned. -/
inductive Step [DecidableEq K] (learnable : K → D → Prop) :
    State K D P → Multiset (K × P) → Multiset (Outcome K D P) → State K D P → Prop
  | learn {s : State K D P} {key : K} {defn : D} (h : learnable key defn) :
      Step learnable s 0 0 { s with known := Function.update s.known key (some defn) }
  | forget {s : State K D P} {known : K → Option D}
      (h : ∀ key defn, known key = some defn → s.known key = some defn) :
      Step learnable s 0 0 { s with known }
  | resolve {s : State K D P} {key : K} {defn : D} {item : P} (h : s.known key = some defn) :
      Step learnable s {(key, item)} {.resolved key defn item} s
  | hold {s : State K D P} {key : K} {item : P} :
      Step learnable s {(key, item)} 0 { s with waiting := (key, item) ::ₘ s.waiting }
  | refuse {s : State K D P} {key : K} {item : P} :
      Step learnable s {(key, item)} {.unresolved key item} s
  | release {s : State K D P} {key : K} {defn : D} {items : Multiset P} {rest : Multiset (K × P)}
      (h : s.known key = some defn) (hw : s.waiting = items.map (Prod.mk key) + rest) :
      Step learnable s 0 (items.map (Outcome.resolved key defn)) { s with waiting := rest }
  | abandon {s : State K D P} :
      Step learnable s 0 (s.waiting.map fun subject => .unresolved subject.1 subject.2)
        { s with waiting := 0 }

/-- A run: the arrivals and the outcomes of its steps add up. -/
inductive Run [DecidableEq K] (learnable : K → D → Prop) :
    State K D P → Multiset (K × P) → Multiset (Outcome K D P) → State K D P → Prop
  | refl (s : State K D P) : Run learnable s 0 0 s
  | tail {s t u : State K D P} {arrived arrived' : Multiset (K × P)}
      {settled settled' : Multiset (Outcome K D P)} :
      Run learnable s arrived settled t → Step learnable t arrived' settled' u →
      Run learnable s (arrived + arrived') (settled + settled') u

/-- An outcome resolves only against a learnable definition. -/
def Outcome.Sound (learnable : K → D → Prop) : Outcome K D P → Prop
  | .resolved key defn _ => learnable key defn
  | .unresolved _ _ => True

open scoped Classical in
/-- The outcome of an item when every key has at most one learnable definition. -/
noncomputable def settle (learnable : K → D → Prop) (key : K) (item : P) : Outcome K D P :=
  if h : ∃ defn, learnable key defn then .resolved key h.choose item else .unresolved key item

/-- When definitions agree and only undefinable items stay unresolved, each outcome is the one
its item calls for. -/
theorem settle_subject {learnable : K → D → Prop}
    (hfun : ∀ key defn defn', learnable key defn → learnable key defn' → defn = defn')
    {outcome : Outcome K D P} (hsound : outcome.Sound learnable)
    (hlate : ∀ key item, outcome = .unresolved key item → ¬ ∃ defn, learnable key defn) :
    settle learnable outcome.subject.1 outcome.subject.2 = outcome := by
  cases outcome with
  | resolved key defn item =>
    have h : ∃ defn, learnable key defn := ⟨defn, hsound⟩
    change settle learnable key item = _
    rw [settle, dif_pos h, hfun key _ _ h.choose_spec hsound]
  | unresolved key item =>
    change settle learnable key item = _
    rw [settle, dif_neg (hlate key item rfl)]

variable [DecidableEq K] {learnable : K → D → Prop} {s t u : State K D P}
  {arrived arrived' : Multiset (K × P)} {settled settled' : Multiset (Outcome K D P)}

/-- A single step is a run. -/
theorem Step.run (h : Step learnable s arrived settled t) : Run learnable s arrived settled t := by
  simpa using (Run.refl s).tail h

/-- Runs compose. -/
theorem Run.trans (h : Run learnable s arrived settled t)
    (h' : Run learnable t arrived' settled' u) :
    Run learnable s (arrived + arrived') (settled + settled') u := by
  induction h' with
  | refl => simpa using h
  | tail _ hstep ih => simpa only [add_assoc] using ih.tail hstep

/-- One step neither loses an item nor settles one twice. -/
theorem Step.ledger (h : Step learnable s arrived settled t) :
    s.waiting + arrived = settled.map Outcome.subject + t.waiting := by
  cases h with
  | learn | forget => simp
  | resolve => simp [Outcome.subject, add_comm]
  | hold => simp [← Multiset.singleton_add, add_comm]
  | refuse => simp [Outcome.subject, add_comm]
  | release hk hw => simp [hw, Function.comp_def, Outcome.subject]
  | abandon => simp [Function.comp_def, Outcome.subject]

/-- Over a whole run, the items that were waiting or arrived are those settled or waiting. -/
theorem Run.ledger (h : Run learnable s arrived settled t) :
    s.waiting + arrived = settled.map Outcome.subject + t.waiting := by
  induction h with
  | refl => simp
  | tail _ hstep ih =>
    rw [← add_assoc, ih, add_assoc, hstep.ledger, Multiset.map_add, add_assoc]

/-- Every definition known was learnable. -/
def State.Sound (learnable : K → D → Prop) (s : State K D P) : Prop :=
  ∀ key defn, s.known key = some defn → learnable key defn

/-- One step keeps the known definitions learnable. -/
theorem Step.sound (h : Step learnable s arrived settled t) (hs : s.Sound learnable) :
    t.Sound learnable := by
  cases h with
  | learn hl =>
    intro key defn hkey
    simp only [Function.update_apply] at hkey
    split at hkey
    · rename_i heq
      cases hkey
      exact heq ▸ hl
    · exact hs key defn hkey
  | forget hf => exact fun key defn hkey => hs key defn (hf key defn hkey)
  | resolve | hold | refuse | release | abandon => exact hs

/-- One step resolves only against learnable definitions. -/
theorem Step.outcomes_sound (h : Step learnable s arrived settled t) (hs : s.Sound learnable) :
    ∀ outcome ∈ settled, outcome.Sound learnable := by
  cases h with
  | learn | forget | hold => simp
  | resolve hk => simpa [Outcome.Sound] using hs _ _ hk
  | refuse => simp [Outcome.Sound]
  | release hk =>
    simp only [Multiset.mem_map, forall_exists_index, and_imp, forall_apply_eq_imp_iff₂]
    exact fun item _ => hs _ _ hk
  | abandon =>
    intro outcome hmem
    obtain ⟨subject, -, rfl⟩ := Multiset.mem_map.mp hmem
    trivial

/-- Over a whole run, known definitions and resolutions are learnable. -/
theorem Run.sound (h : Run learnable s arrived settled t) (hs : s.Sound learnable) :
    t.Sound learnable ∧ ∀ outcome ∈ settled, outcome.Sound learnable := by
  induction h with
  | refl => exact ⟨hs, by simp⟩
  | tail _ hstep ih =>
    constructor
    · exact hstep.sound ih.1
    · intro outcome hmem
      rcases Multiset.mem_add.mp hmem with hold | hnew
      · exact ih.2 outcome hold
      · exact hstep.outcomes_sound ih.1 outcome hnew

/-- Order independence: a run from and to an empty waiting list, with agreeing definitions and
only undefinable items left unresolved, settles its arrivals one by one. -/
theorem Run.settled_eq (h : Run learnable s arrived settled t) (hs : s.Sound learnable)
    (hstart : s.waiting = 0) (hend : t.waiting = 0)
    (hfun : ∀ key defn defn', learnable key defn → learnable key defn' → defn = defn')
    (hlate : ∀ key item, .unresolved key item ∈ settled → ¬ ∃ defn, learnable key defn) :
    settled = arrived.map fun subject => settle learnable subject.1 subject.2 := by
  have hledger := h.ledger
  rw [hstart, hend, zero_add, add_zero] at hledger
  rw [hledger, Multiset.map_map]
  symm
  calc settled.map ((fun subject => settle learnable subject.1 subject.2) ∘ Outcome.subject)
      = settled.map id := Multiset.map_congr rfl fun outcome hmem =>
        settle_subject hfun ((h.sound hs).2 outcome hmem)
          (fun key item heq => hlate key item (heq ▸ hmem))
    _ = settled := Multiset.map_id _

end LateBinding
