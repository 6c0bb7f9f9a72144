import Mathlib.Algebra.Ring.Nat
import Mathlib.Data.List.Basic

/-!
# Columns of lists

A column of lists is stored flat: one column of all elements, and offsets at which each list begins and the last
one ends. An offset has 32 bits and a sign, and adding up lengths wraps around. So the offsets are in order, and the
lists between them those that were stored, exactly if there are fewer than `2 ^ 31` elements.
-/

namespace Columnar

variable {α : Type}

/-- The offsets of lists of some lengths, from a first one on. -/
def runningOffsets : Int32 → List ℕ → List Int32
  | start, [] => [start]
  | start, n :: lengths => start :: runningOffsets (start + .ofNat n) lengths

/-- Offsets in order: at least one, none of them negative. -/
structure InOrder (offsets : List Int32) : Prop where
  ne_nil : offsets ≠ []
  nonneg : ∀ o ∈ offsets, 0 ≤ o
  ordered : offsets.Pairwise (· ≤ ·)

/-- Where the last list ends. -/
def finalOffset (offsets : List Int32) : ℕ := (offsets.getLastD 0).toNatClampNeg

/-- The elements between each two offsets in a row. -/
def slices (values : List α) : List Int32 → List (List α)
  | [] => []
  | [_] => []
  | a :: b :: offsets =>
    (values.drop a.toNatClampNeg).take (b.toNatClampNeg - a.toNatClampNeg) :: slices values (b :: offsets)

section Running

/-- The running offsets start where they should. -/
theorem runningOffsets_eq_cons (start : Int32) (lengths : List ℕ) :
    ∃ offsets, runningOffsets start lengths = start :: offsets := by
  cases lengths with
  | nil => exact ⟨[], rfl⟩
  | cons n lengths => exact ⟨_, rfl⟩

theorem runningOffsets_ne_nil (start : Int32) (lengths : List ℕ) : runningOffsets start lengths ≠ [] := by
  obtain ⟨offsets, heq⟩ := runningOffsets_eq_cons start lengths
  rw [heq]
  exact List.cons_ne_nil _ _

/-- Without wrapping around, each running offset is a number between the start and the end. -/
theorem mem_runningOffsets {start : ℕ} {lengths : List ℕ} {o : Int32}
    (h : o ∈ runningOffsets (.ofNat start) lengths) :
    ∃ n, o = .ofNat n ∧ start ≤ n ∧ n ≤ start + lengths.sum := by
  induction lengths generalizing start with
  | nil => exact ⟨start, List.mem_singleton.mp h, Nat.le_refl _, Nat.le_add_right _ _⟩
  | cons n lengths ih =>
    rcases List.mem_cons.mp h with rfl | hrest
    · exact ⟨start, rfl, Nat.le_refl _, Nat.le_add_right _ _⟩
    · rw [← Int32.ofNat_add] at hrest
      obtain ⟨m, hm, hlow, hhigh⟩ := ih hrest
      rw [List.sum_cons]
      exact ⟨m, hm, by omega, by omega⟩

/-- Without wrapping around, the running offsets are in order. -/
theorem runningOffsets_ordered {start : ℕ} {lengths : List ℕ} (h : start + lengths.sum < 2 ^ 31) :
    (∀ o ∈ runningOffsets (.ofNat start) lengths, 0 ≤ o) ∧
      (runningOffsets (.ofNat start) lengths).Pairwise (· ≤ ·) := by
  constructor
  · intro o ho
    obtain ⟨n, rfl, -, hn⟩ := mem_runningOffsets ho
    exact (Int32.ofNat_le_iff_le (by decide) (by omega)).mpr (Nat.zero_le n)
  · induction lengths generalizing start with
    | nil => exact List.pairwise_singleton _ _
    | cons n lengths ih =>
      rw [List.sum_cons] at h
      rw [runningOffsets, ← Int32.ofNat_add]
      refine List.Pairwise.cons ?_ (ih (by omega))
      intro o ho
      obtain ⟨m, rfl, hlow, hhigh⟩ := mem_runningOffsets ho
      exact (Int32.ofNat_le_iff_le (by omega) (by omega)).mpr (by omega)

/-- The last running offset is the sum of all. -/
theorem getLast_runningOffsets (start : ℕ) (lengths : List ℕ) :
    (runningOffsets (.ofNat start) lengths).getLast (runningOffsets_ne_nil _ _) =
      .ofNat (start + lengths.sum) := by
  induction lengths generalizing start with
  | nil => rfl
  | cons n lengths ih =>
    have hrest := ih (start + n)
    simp only [runningOffsets, Int32.ofNat_add, List.sum_cons, ← Int32.add_assoc] at hrest ⊢
    rw [List.getLast_cons (runningOffsets_ne_nil _ _), hrest]

/-- Without wrapping around, the slices at the running offsets are the lists. -/
theorem slices_runningOffsets (before : List α) {lists : List (List α)}
    (h : before.length + lists.flatten.length < 2 ^ 31) :
    slices (before ++ lists.flatten) (runningOffsets (.ofNat before.length) (lists.map List.length)) = lists := by
  induction lists generalizing before with
  | nil => rfl
  | cons list lists ih =>
    rw [List.flatten_cons, List.length_append] at h
    have hrest := ih (before ++ list) (by rw [List.length_append]; omega)
    rw [List.length_append, Int32.ofNat_add, List.append_assoc] at hrest
    obtain ⟨offsets, heq⟩ := runningOffsets_eq_cons (.ofNat before.length + .ofNat list.length)
      (lists.map List.length)
    rw [heq] at hrest
    rw [List.map_cons, runningOffsets, heq, slices, List.flatten_cons, hrest, ← Int32.ofNat_add,
      Int32.toNatClampNeg_ofNat_of_lt (by omega), Int32.toNatClampNeg_ofNat_of_lt (by omega), List.drop_left,
      Nat.add_sub_cancel_left, List.take_left]

/-- There is one offset more than there are lists. -/
theorem length_runningOffsets (start : Int32) (lengths : List ℕ) :
    (runningOffsets start lengths).length = lengths.length + 1 := by
  induction lengths generalizing start with
  | nil => rfl
  | cons n lengths ih => rw [runningOffsets, List.length_cons, ih, List.length_cons]

/-- There is a slice between each two offsets in a row. -/
theorem length_slices (values : List α) (offsets : List Int32) :
    (slices values offsets).length = offsets.length - 1 := by
  induction offsets with
  | nil => rfl
  | cons first offsets ih =>
    cases offsets with
    | nil => rfl
    | cons next offsets =>
      rw [slices, List.length_cons, ih]
      simp only [List.length_cons]
      omega

end Running

section Exact

variable {lists : List (List α)}

/-- A later offset is no smaller a position. -/
theorem toNatClampNeg_mono {a b : Int32} (h : a ≤ b) : a.toNatClampNeg ≤ b.toNatClampNeg :=
  Int.toNat_le_toNat (Int32.le_iff_toInt_le.mp h)

/-- The slices have no more elements than lie between the first offset and the last. -/
theorem length_flatten_slices_le (values : List α) {first : Int32} {offsets : List Int32}
    (hordered : (first :: offsets).Pairwise (· ≤ ·)) :
    (slices values (first :: offsets)).flatten.length + first.toNatClampNeg ≤
      ((first :: offsets).getLast (List.cons_ne_nil _ _)).toNatClampNeg := by
  induction offsets generalizing first with
  | nil => simp [slices]
  | cons next offsets ih =>
    obtain ⟨hfirst, hrest⟩ := List.pairwise_cons.mp hordered
    have hle := toNatClampNeg_mono (hfirst next List.mem_cons_self)
    have hothers := ih hrest
    have hslice := List.length_take_le (next.toNatClampNeg - first.toNatClampNeg) (values.drop first.toNatClampNeg)
    rw [slices, List.flatten_cons, List.length_append, List.getLast_cons (List.cons_ne_nil _ _)]
    omega

/-- Between offsets in order there are fewer than `2 ^ 31` elements. -/
theorem InOrder.length_flatten_slices_lt {offsets : List Int32} (h : InOrder offsets) (values : List α) :
    (slices values offsets).flatten.length < 2 ^ 31 := by
  obtain ⟨first, offsets, rfl⟩ := List.exists_cons_of_ne_nil h.ne_nil
  have hle := length_flatten_slices_le values h.ordered
  have hlast := Int32.toInt_lt (List.getLast (first :: offsets) h.ne_nil)
  have hpos : (List.getLast (first :: offsets) h.ne_nil).toNatClampNeg < 2 ^ 31 := by
    rw [Int32.toNatClampNeg]
    omega
  omega

/-- Fewer than `2 ^ 31` elements have offsets in order that end where the elements do. -/
theorem inOrder_runningOffsets (h : lists.flatten.length < 2 ^ 31) :
    InOrder (runningOffsets 0 (lists.map List.length)) ∧
      finalOffset (runningOffsets 0 (lists.map List.length)) = lists.flatten.length := by
  have hsum : 0 + (lists.map List.length).sum < 2 ^ 31 := by rwa [Nat.zero_add, ← List.length_flatten]
  obtain ⟨hnonneg, hordered⟩ := runningOffsets_ordered hsum
  refine ⟨⟨runningOffsets_ne_nil _ _, hnonneg, hordered⟩, ?_⟩
  have hend := getLast_runningOffsets 0 (lists.map List.length)
  rw [Nat.zero_add, ← List.length_flatten] at hend
  rw [finalOffset, List.getLastD_eq_getLast?, List.getLast?_eq_some_getLast (runningOffsets_ne_nil _ _),
    Option.getD_some]
  exact (congrArg Int32.toNatClampNeg hend).trans (Int32.toNatClampNeg_ofNat_of_lt h)

/-- There are as many slices as lists, also where they are not the lists. -/
theorem length_slices_runningOffsets (values : List α) (lists : List (List α)) :
    (slices values (runningOffsets 0 (lists.map List.length))).length = lists.length := by
  rw [length_slices, length_runningOffsets, List.length_map, Nat.add_sub_cancel]

/-- Lists have offsets in order at which they are found again exactly if they have fewer than `2 ^ 31` elements. -/
theorem slices_runningOffsets_iff (lists : List (List α)) :
    (InOrder (runningOffsets 0 (lists.map List.length)) ∧
        slices lists.flatten (runningOffsets 0 (lists.map List.length)) = lists) ↔
      lists.flatten.length < 2 ^ 31 := by
  constructor
  · rintro ⟨horder, hslices⟩
    have hlength := horder.length_flatten_slices_lt lists.flatten
    rwa [hslices] at hlength
  · intro h
    exact ⟨(inOrder_runningOffsets h).1, slices_runningOffsets [] (by simpa using h)⟩

end Exact

end Columnar
