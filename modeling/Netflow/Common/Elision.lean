import Mathlib.Data.List.Basic
import Mathlib.Data.Nat.Notation

/-!
# Text with one run left out

Numbers are written one after the other with a separator between them, and one run of equal numbers may be left out:
two separators in a row stand for it. Where it is known how many numbers there are, the text determines them.
-/

namespace Elision

section Digits

variable {base : ℕ}

/-- Every character of a number is the digit of a smaller one than the base. -/
theorem exists_of_mem_toDigits (hbase : 1 < base) {n : ℕ} {c : Char} (h : c ∈ Nat.toDigits base n) :
    ∃ d < base, c = Nat.digitChar d := by
  induction n using Nat.strongRecOn with
  | ind n ih =>
    rw [Nat.toDigits_eq_if hbase] at h
    split at h
    · rename_i hlt
      exact ⟨n, hlt, List.mem_singleton.mp h⟩
    · rename_i hge
      rcases List.mem_append.mp h with hfirst | hlast
      · exact ih (n / base) (Nat.div_lt_self (by omega) hbase) hfirst
      · exact ⟨n % base, Nat.mod_lt _ (by omega), List.mem_singleton.mp hlast⟩

/-- Digits up to sixteen are told apart. -/
theorem digitChar_inj {d d' : ℕ} (hd : d < 16) (hd' : d' < 16) (h : Nat.digitChar d = Nat.digitChar d') : d = d' := by
  have hall : ∀ a < 16, ∀ b < 16, Nat.digitChar a = Nat.digitChar b → a = b := by decide
  exact hall d hd d' hd' h

/-- Numbers are told apart by their digits. -/
theorem toDigits_injective (hbase : 1 < base) (hmax : base ≤ 16) : Function.Injective (Nat.toDigits base) := by
  intro n
  induction n using Nat.strongRecOn with
  | ind n ih =>
    intro m h
    rw [Nat.toDigits_eq_if hbase, @Nat.toDigits_eq_if base m hbase] at h
    have hn := Nat.mod_lt n (show base > 0 by omega)
    have hm := Nat.mod_lt m (show base > 0 by omega)
    split at h <;> split at h
    · exact digitChar_inj (by omega) (by omega) (List.singleton_inj.mp h)
    · rw [← List.nil_append [n.digitChar]] at h
      exact absurd (List.append_inj_left' h rfl).symm Nat.toDigits_ne_nil
    · rw [← List.nil_append [m.digitChar]] at h
      exact absurd (List.append_inj_left' h rfl) Nat.toDigits_ne_nil
    · rename_i hge hge'
      have hquot := ih (n / base) (Nat.div_lt_self (by omega) hbase) (List.append_inj_left' h rfl)
      have hrem := digitChar_inj (by omega) (by omega) (List.singleton_inj.mp (List.append_inj_right' h rfl))
      rw [← Nat.div_add_mod n base, ← Nat.div_add_mod m base, hquot, hrem]

end Digits

section Text

variable {A : Type} {sep : Char} {print : A → List Char} {xs ys xs' ys' : List A}

/-- Whether values are told apart by their text, which is never empty and has no separator in it. -/
structure Readable (sep : Char) (print : A → List Char) : Prop where
  injective : Function.Injective print
  ne_nil : ∀ a, print a ≠ []
  sep_notMem : ∀ a, sep ∉ print a

/-- Values with separators between them. -/
def plain (sep : Char) (print : A → List Char) (xs : List A) : List Char := [sep].intercalate (xs.map print)

/-- Values before and after a run that is left out. -/
def elided (sep : Char) (print : A → List Char) (xs ys : List A) : List Char :=
  plain sep print xs ++ [sep, sep] ++ plain sep print ys

/-- The texts that a reader finds between the separators: an empty one where there is no value. -/
def groups (print : A → List Char) : List A → List (List Char)
  | [] => [[]]
  | x :: xs => (x :: xs).map print

theorem groups_ne_nil (xs : List A) : groups print xs ≠ [] := by
  cases xs <;> exact List.cons_ne_nil _ _

/-- Texts between the separators have none in them. -/
theorem Readable.sep_notMem_groups (h : Readable sep print) : ∀ group ∈ groups print xs, sep ∉ group := by
  intro group hgroup
  cases xs with
  | nil => simp_all [groups]
  | cons x xs =>
    obtain ⟨a, -, rfl⟩ := List.mem_map.mp hgroup
    exact h.sep_notMem a

theorem plain_eq_groups (xs : List A) : plain sep print xs = [sep].intercalate (groups print xs) := by
  cases xs <;> rfl

/-- Between two lists of texts stands an empty one, where a run is left out. -/
theorem elided_eq_groups (xs ys : List A) :
    elided sep print xs ys = [sep].intercalate (groups print xs ++ [] :: groups print ys) := by
  have hjoin : ∀ first rest : List (List Char), first ≠ [] → rest ≠ [] →
      [sep].intercalate (first ++ [] :: rest) = [sep].intercalate first ++ [sep, sep] ++ [sep].intercalate rest := by
    intro first rest hfirst hrest
    induction first with
    | nil => contradiction
    | cons group first ih =>
      cases first with
      | nil => simp [List.intercalate_cons_of_ne_nil, hrest]
      | cons next first =>
        have hnext := ih (List.cons_ne_nil _ _)
        rw [List.cons_append, List.intercalate_cons_of_ne_nil (by simp), hnext,
          List.intercalate_cons_of_ne_nil (List.cons_ne_nil _ _)]
        simp
  rw [elided, plain_eq_groups, plain_eq_groups, hjoin _ _ (groups_ne_nil xs) (groups_ne_nil ys)]

/-- A text is read group by group. -/
theorem Readable.splitOn_plain (h : Readable sep print) (xs : List A) :
    (plain sep print xs).splitOn sep = groups print xs := by
  rw [plain_eq_groups, List.splitOn_intercalate sep h.sep_notMem_groups (groups_ne_nil xs)]

/-- A text with a run left out is read group by group. -/
theorem Readable.splitOn_elided (h : Readable sep print) (xs ys : List A) :
    (elided sep print xs ys).splitOn sep = groups print xs ++ [] :: groups print ys := by
  rw [elided_eq_groups, List.splitOn_intercalate sep _ (by simp)]
  simp only [List.forall_mem_append, List.forall_mem_cons]
  exact ⟨h.sep_notMem_groups, List.not_mem_nil, h.sep_notMem_groups⟩

/-- The values before the run are those up to the first empty group. -/
theorem Readable.takeWhile_groups (h : Readable sep print) (xs : List A) (rest : List (List Char)) :
    (groups print xs ++ [] :: rest).takeWhile (· ≠ []) = xs.map print := by
  have hall : ∀ group ∈ xs.map print, decide (group ≠ []) = true := by
    intro group hgroup
    obtain ⟨a, -, rfl⟩ := List.mem_map.mp hgroup
    exact decide_eq_true (h.ne_nil a)
  cases xs with
  | nil => rfl
  | cons x xs =>
    rw [groups, List.takeWhile_append_of_pos hall, List.takeWhile_cons_of_neg (by simp), List.append_nil]

theorem groups_reverse (xs : List A) : groups print xs.reverse = (groups print xs).reverse := by
  rcases List.eq_nil_or_concat xs with rfl | ⟨xs, x, rfl⟩
  · rfl
  · have hgroups : ∀ ys : List A, ys ≠ [] → groups print ys = ys.map print := by
      intro ys hys
      cases ys with
      | nil => contradiction
      | cons y ys => rfl
    rw [hgroups _ (by simp), hgroups _ (by simp), List.map_reverse]

/-- The values before and after the run are determined by the text. -/
theorem Readable.elided_inj (h : Readable sep print) (heq : elided sep print xs ys = elided sep print xs' ys') :
    xs = xs' ∧ ys = ys' := by
  have hgroups := congrArg (List.splitOn sep) heq
  rw [h.splitOn_elided, h.splitOn_elided] at hgroups
  have hfront := congrArg (List.takeWhile (· ≠ [])) hgroups
  rw [h.takeWhile_groups, h.takeWhile_groups] at hfront
  have hback := congrArg (fun groups => groups.reverse.takeWhile (· ≠ [])) hgroups
  simp only [List.reverse_append, List.reverse_cons, List.append_assoc, List.singleton_append, ← groups_reverse,
    h.takeWhile_groups] at hback
  exact ⟨List.map_injective_iff.mpr h.injective hfront,
    List.reverse_injective (List.map_injective_iff.mpr h.injective hback)⟩

/-- The values are determined by the text without a run left out. -/
theorem Readable.plain_inj (h : Readable sep print) (hne : xs ≠ []) (hne' : xs' ≠ [])
    (heq : plain sep print xs = plain sep print xs') : xs = xs' := by
  have hgroups := congrArg (List.splitOn sep) heq
  rw [h.splitOn_plain, h.splitOn_plain] at hgroups
  cases xs with
  | nil => contradiction
  | cons x xs =>
    cases xs' with
    | nil => contradiction
    | cons x' xs' => exact List.map_injective_iff.mpr h.injective hgroups

/-- It is seen whether a run is left out. -/
theorem Readable.plain_ne_elided (h : Readable sep print) (hne : xs ≠ []) :
    plain sep print xs ≠ elided sep print ys ys' := by
  intro heq
  have hgroups := congrArg (List.splitOn sep) heq
  rw [h.splitOn_plain, h.splitOn_elided] at hgroups
  have hempty : [] ∈ groups print xs := hgroups ▸ List.mem_append_right _ List.mem_cons_self
  cases xs with
  | nil => contradiction
  | cons x xs =>
    obtain ⟨a, -, ha⟩ := List.mem_map.mp hempty
    exact h.ne_nil a ha

/-- Whether a number of values from a place on are all the same one. -/
def IsRun (value : A) (run : ℕ × ℕ) (xs : List A) : Prop :=
  xs = xs.take run.1 ++ List.replicate run.2 value ++ xs.drop (run.1 + run.2)

/-- Values with a run left out if it has more than one. -/
def shortened (sep : Char) (print : A → List Char) (run : ℕ × ℕ) (xs : List A) : List Char :=
  if run.2 > 1 then elided sep print (xs.take run.1) (xs.drop (run.1 + run.2)) else plain sep print xs

/-- Values of a known number are determined by their text with a run left out. -/
theorem Readable.shortened_inj (h : Readable sep print) {value : A} {run run' : ℕ × ℕ} (hne : xs ≠ [])
    (hlength : xs.length = xs'.length) (hrun : IsRun value run xs) (hrun' : IsRun value run' xs')
    (heq : shortened sep print run xs = shortened sep print run' xs') : xs = xs' := by
  have hne' : xs' ≠ [] := fun hnil => hne (List.length_eq_zero_iff.mp (by rw [hlength, hnil]; rfl))
  unfold shortened at heq
  split at heq <;> split at heq
  · obtain ⟨hfront, hback⟩ := h.elided_inj heq
    have htotal := congrArg List.length hrun
    have htotal' := congrArg List.length hrun'
    rw [List.length_append, List.length_append, List.length_replicate] at htotal htotal'
    have hcount : run.2 = run'.2 := by
      rw [hfront, hback] at htotal
      omega
    rw [hrun, hrun', hfront, hback, hcount]
  · exact absurd heq.symm (h.plain_ne_elided hne')
  · exact absurd heq (h.plain_ne_elided hne)
  · exact h.plain_inj hne hne' heq

/-- What stands in a text is the separator or stands in the text of a value. -/
theorem of_mem_plain {c : Char} (h : c ∈ plain sep print xs) : c = sep ∨ ∃ a ∈ xs, c ∈ print a := by
  induction xs with
  | nil => contradiction
  | cons x xs ih =>
    cases xs with
    | nil =>
      rw [plain, List.map_cons, List.map_nil, List.intercalate_singleton] at h
      exact .inr ⟨x, List.mem_cons_self, h⟩
    | cons y xs =>
      rw [plain, List.map_cons, List.map_cons, List.intercalate_cons_cons, List.mem_append, List.mem_append,
        List.mem_singleton] at h
      rcases h with (hfirst | hsep) | hrest
      · exact .inr ⟨x, List.mem_cons_self, hfirst⟩
      · exact .inl hsep
      · exact (ih hrest).imp_right fun ⟨a, ha, hc⟩ => ⟨a, List.mem_cons_of_mem _ ha, hc⟩

/-- Between two values stands the separator. -/
theorem sep_mem_plain (h : 2 ≤ xs.length) : sep ∈ plain sep print xs := by
  rcases xs with _ | ⟨x, _ | ⟨y, xs⟩⟩
  · contradiction
  · exact absurd h (by simp)
  · rw [plain, List.map_cons, List.map_cons, List.intercalate_cons_cons]
    simp

/-- What stands in a text with a run left out is the separator or stands in the text of a value. -/
theorem of_mem_shortened {c : Char} {run : ℕ × ℕ} (h : c ∈ shortened sep print run xs) :
    c = sep ∨ ∃ a ∈ xs, c ∈ print a := by
  unfold shortened at h
  split at h
  · rw [elided, List.mem_append, List.mem_append] at h
    rcases h with (hfront | hsep) | hback
    · exact (of_mem_plain hfront).imp_right fun ⟨a, ha, hc⟩ => ⟨a, List.mem_of_mem_take ha, hc⟩
    · exact .inl (by simpa using hsep)
    · exact (of_mem_plain hback).imp_right fun ⟨a, ha, hc⟩ => ⟨a, List.mem_of_mem_drop ha, hc⟩
  · exact of_mem_plain h

/-- In a text of two values at least stands the separator. -/
theorem sep_mem_shortened {run : ℕ × ℕ} (h : 2 ≤ xs.length) : sep ∈ shortened sep print run xs := by
  unfold shortened
  split
  · simp [elided]
  · exact sep_mem_plain h

end Text

end Elision
