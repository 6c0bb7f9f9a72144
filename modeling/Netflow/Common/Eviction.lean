import Netflow.Common.KeyedQueue

/-!
# Evicting by priority

An ordered map from which the entry of least priority is removed again and again, the first
in key order on a tie. Each entry has a rank, the number of entries that come before it in
this order, and `n` removals take exactly the entries of rank below `n`.
-/

namespace Eviction

open Std

variable {K V P : Type} {cmp : K → K → Ordering} [LE P]

section Order

/-- Whether an entry is evicted before another: it has less priority, or the same and a smaller key. -/
def Before (cmp : K → K → Ordering) (prio : V → P) (a b : K × V) : Prop :=
  prio a.2 ≤ prio b.2 ∧ (prio b.2 ≤ prio a.2 → cmp a.1 b.1 = .lt)

instance [DecidableLE P] (prio : V → P) (a b : K × V) : Decidable (Before cmp prio a b) :=
  inferInstanceAs (Decidable (_ ∧ _))

variable [TransCmp cmp] {prio : V → P} {a b c : K × V}

/-- No two entries are evicted each before the other. -/
theorem Before.asymm (h : Before cmp prio a b) : ¬ Before cmp prio b a := by
  intro h'
  have hlt := h.2 h'.1
  rw [@OrientedCmp.eq_swap _ cmp, h'.2 h.1] at hlt
  contradiction

/-- No entry is evicted before itself. -/
theorem Before.irrefl (prio : V → P) (a : K × V) : ¬ Before cmp prio a a := fun h => h.asymm h

/-- What is evicted before an entry is evicted before every later one. -/
theorem Before.trans [IsLinearPreorder P] (hab : Before cmp prio a b) (hbc : Before cmp prio b c) :
    Before cmp prio a c := by
  refine ⟨le_trans hab.1 hbc.1, fun hca => ?_⟩
  exact TransCmp.lt_trans (hab.2 (le_trans hbc.1 hca)) (hbc.2 (le_trans hca hab.1))

end Order

variable [DecidableLE P] [TransCmp cmp]

/-- The key of the entry to evict. -/
def first (prio : V → P) (map : ExtTreeMap K V cmp) : Option K :=
  (map.toList.minOn? fun (_, v) => prio v).map (·.1)

/-- Evict the given number of entries, or all. -/
def evict (prio : V → P) : ℕ → ExtTreeMap K V cmp → ExtTreeMap K V cmp
  | 0, map => map
  | n + 1, map =>
    match first prio map with
    | some key => evict prio n (map.erase key)
    | none => map

/-- The number of entries that are evicted before the given one. -/
def rank (prio : V → P) (map : ExtTreeMap K V cmp) (entry : K × V) : ℕ :=
  map.toList.countP fun other => Before cmp prio other entry

/-- The number of entries with a greater key that have at least the given one's priority. -/
def laterTies (prio : V → P) (map : ExtTreeMap K V cmp) (entry : K × V) : ℕ :=
  map.toList.countP fun other => prio entry.2 ≤ prio other.2 ∧ cmp entry.1 other.1 = .lt

section First

variable [IsLinearPreorder P] {prio : V → P}

omit [TransCmp cmp] in
/-- In a list in key order the entry of least priority that comes first is evicted before the others. -/
theorem before_of_minOn? {l : List (K × V)} (hl : l.Pairwise fun a b => cmp a.1 b.1 = .lt) {a : K × V}
    (h : l.minOn? (fun (_, v) => prio v) = some a) : ∀ b ∈ l, b = a ∨ Before cmp prio a b := by
  induction l generalizing a with
  | nil => contradiction
  | cons x l ih =>
    obtain ⟨hx, hl⟩ := List.pairwise_cons.mp hl
    rw [List.minOn?_cons] at h
    cases hrest : l.minOn? (fun (_, v) => prio v) with
    | none =>
      have hnil : l = [] := by
        by_contra hne
        rw [List.minOn?_eq_some_minOn hne] at hrest
        contradiction
      rw [hrest] at h
      cases h
      subst hnil
      simp
    | some y =>
      have hy := ih hl hrest
      have hmem := List.minOn?_mem hrest
      rw [hrest] at h
      simp only [Option.elim_some, minOn, Option.some_inj] at h
      rw [List.forall_mem_cons]
      split at h
      · -- The head is kept on a tie, and its key is the smaller one.
        rename_i hle
        subst h
        refine ⟨.inl rfl, fun b hb => .inr ⟨?_, fun _ => hx b hb⟩⟩
        rcases hy b hb with rfl | hbefore
        · exact hle
        · exact le_trans hle hbefore.1
      · rename_i hnot
        subst h
        exact ⟨.inr ⟨le_of_not_ge hnot, fun hle => absurd hle hnot⟩, hy⟩

/-- The entry to evict is evicted before all others. -/
theorem first_eq_some [LawfulEqCmp cmp] {map : ExtTreeMap K V cmp} {key : K} (h : first prio map = some key) :
    ∃ v, map[key]? = some v ∧ ∀ b ∈ map.toList, b = (key, v) ∨ Before cmp prio (key, v) b := by
  obtain ⟨⟨k, v⟩, hmin, rfl⟩ := Option.map_eq_some_iff.mp h
  exact ⟨v, ExtTreeMap.mem_toList_iff_getElem?_eq_some.mp (List.minOn?_mem hmin),
    before_of_minOn? ExtTreeMap.ordered_keys_toList hmin⟩

omit [IsLinearPreorder P] in
/-- Only an empty map has no entry to evict. -/
theorem first_eq_none {map : ExtTreeMap K V cmp} (h : first prio map = none) : map = ∅ := by
  by_contra hne
  have hlist : map.toList ≠ [] := fun hnil => hne (ExtTreeMap.toList_eq_nil_iff.mp hnil)
  have hnone := Option.map_eq_none_iff.mp h
  rw [List.minOn?_eq_some_minOn hlist] at hnone
  contradiction

omit [IsLinearPreorder P] in
/-- Removing an entry takes it from the ranks of those it comes before. -/
theorem rank_erase [LawfulEqCmp cmp] [DecidableEq K] {map : ExtTreeMap K V cmp} {key : K} {v : V}
    (h : map[key]? = some v) (entry : K × V) :
    rank prio map entry =
      rank prio (map.erase key) entry + if Before cmp prio (key, v) entry then 1 else 0 := by
  rw [rank, (KeyedQueue.toList_perm_cons_erase h).countP_eq, List.countP_cons, ← rank]
  simp only [decide_eq_true_eq]

end First

section Evict

variable [IsLinearPreorder P] [LawfulEqCmp cmp] {prio : V → P}

/-- Evicting `n` entries leaves those of rank `n` and above. -/
theorem getElem?_evict [DecidableEq K] {n : ℕ} {map : ExtTreeMap K V cmp} {key : K} {v : V} :
    (evict prio n map)[key]? = some v ↔ map[key]? = some v ∧ n ≤ rank prio map (key, v) := by
  induction n generalizing map with
  | zero => simp [evict]
  | succ n ih =>
    rw [evict]
    cases hfirst : first prio map with
    | none => simp [first_eq_none hfirst]
    | some oldest =>
      obtain ⟨w, hw, hbefore⟩ := first_eq_some hfirst
      dsimp only
      rw [ih, ExtTreeMap.getElem?_erase, rank_erase hw]
      by_cases hkey : oldest = key
      · -- The entry evicted first has rank zero.
        subst hkey
        have hzero : rank prio map (oldest, w) = 0 := by
          rw [rank, List.countP_eq_zero]
          intro b hb
          rw [decide_eq_true_eq]
          rcases hbefore b hb with rfl | hlater
          · exact Before.irrefl prio _
          · exact hlater.asymm
        rw [rank_erase hw] at hzero
        simp only [ReflCmp.compare_self, if_true, reduceCtorEq, false_and, false_iff, not_and]
        intro hv
        rw [hw, Option.some_inj] at hv
        subst hv
        omega
      · rw [if_neg (by simpa using hkey)]
        apply and_congr_right
        intro hv
        have hlater : Before cmp prio (oldest, w) (key, v) :=
          (hbefore _ (ExtTreeMap.mem_toList_iff_getElem?_eq_some.mpr hv)).resolve_left fun heq =>
            hkey (congrArg Prod.fst heq).symm
        rw [if_pos hlater]
        omega

/-- An entry of at least some priority stays if the entries below that priority are enough to be evicted. -/
theorem getElem?_evict_of_le [DecidableEq K] {n : ℕ} {map : ExtTreeMap K V cmp} {key : K} {v : V} {least : P}
    (h : map[key]? = some v) (hv : least ≤ prio v)
    (hn : n + map.toList.countP (fun other => least ≤ prio other.2) ≤ map.size) :
    (evict prio n map)[key]? = some v := by
  refine getElem?_evict.mpr ⟨h, ?_⟩
  have hbelow : map.toList.countP (fun other => ¬ least ≤ prio other.2) ≤ rank prio map (key, v) := by
    apply List.countP_mono_left
    intro other _ hother
    rw [decide_eq_true_eq] at hother ⊢
    exact ⟨le_trans (le_of_not_ge hother) hv, fun hge => absurd (le_trans hv hge) hother⟩
  have hsize := @List.length_eq_countP_add_countP _ (fun other => decide (least ≤ prio other.2)) map.toList
  simp only [ExtTreeMap.length_toList, decide_eq_true_eq] at hsize
  omega

/-- Before an entry of greatest priority come all the others but its ties with greater keys. -/
theorem rank_add_laterTies [DecidableEq K] {map : ExtTreeMap K V cmp} {key : K} {v : V} (h : map[key]? = some v)
    (hgreatest : ∀ (k : K) (w : V), map[k]? = some w → prio w ≤ prio v) :
    rank prio map (key, v) + laterTies prio map (key, v) + 1 = map.size := by
  have hperm := KeyedQueue.toList_perm_cons_erase h
  have hself : ¬ (prio v ≤ prio v ∧ cmp key key = .lt) := by simp [ReflCmp.compare_self]
  have hlater : ∀ other ∈ (map.erase key).toList,
      (prio v ≤ prio other.2 ∧ cmp key other.1 = .lt) ↔ ¬ Before cmp prio other (key, v) := by
    rintro ⟨k, w⟩ hmem
    rw [ExtTreeMap.mem_toList_iff_getElem?_eq_some, ExtTreeMap.getElem?_erase] at hmem
    split at hmem
    · contradiction
    · rename_i hne
      simp only [Before, hgreatest k w hmem, true_and, Classical.not_imp]
      rw [@OrientedCmp.eq_swap _ cmp _ k]
      cases hcmp : cmp key k <;> simp_all
  rw [rank, laterTies, ← ExtTreeMap.length_toList, hperm.countP_eq, hperm.countP_eq, hperm.length_eq,
    List.countP_cons_of_neg (by simpa using Before.irrefl prio (key, v)),
    List.countP_cons_of_neg (by simpa using hself), List.length_cons,
    List.length_eq_countP_add_countP (fun other => decide (Before cmp prio other (key, v)))]
  congr 2
  apply List.countP_congr
  intro other hother
  simpa using hlater other hother

end Evict

end Eviction
