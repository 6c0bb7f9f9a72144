import Netflow.Encode

/-!
# The framing of Sets

A region of Sets is walked over by their declared lengths. The walk succeeds exactly on the regions that are
Sets in a row with at most three bytes behind them, and there is no other way to read such a region.
-/

namespace Netflow

section Definitions

/-- Whether a region is the given Sets in a row, each short enough for its length field, and fewer than four
bytes behind them. -/
def ConsistsOf (region : Bytes) (sets : List FlowSet) : Prop :=
  (∀ fs ∈ sets, fs.body.length ≤ 65531) ∧ ∃ tail : Bytes, tail.length < 4 ∧ region = encodeSets sets ++ tail

/-- Whether a splitter returns the Sets of a region exactly, and fails exactly on the other regions. -/
structure SplitsExactly (split : Bytes → Except String (List FlowSet)) : Prop where
  complete : ∀ sets tail, (∀ fs ∈ sets, fs.body.length ≤ 65531) → tail.length < 4 →
    split (encodeSets sets ++ tail) = .ok sets
  sound : ∀ region sets, split region = .ok sets → ConsistsOf region sets
  fails : ∀ region diag, split region = .error diag → ∀ sets, ¬ ConsistsOf region sets

end Definitions

section Split

variable {badSet : String} {region : Bytes}

/-- The Sets of a region are the records it decomposes into. -/
theorem consistsOf_iff {sets : List FlowSet} :
    ConsistsOf region sets ↔ Framing.Decomposes (fun fs => flowset fs.id fs.body) FlowSet.Fits 4 region sets := by
  have hfits : ∀ fs : FlowSet, fs.body.length ≤ 65531 ↔ fs.Fits := by
    intro fs
    rw [FlowSet.Fits]
    omega
  simp only [ConsistsOf, hfits]
  rfl

/-- A region splits into some Sets exactly if it consists of them. -/
theorem splitRegion_eq_ok_iff (sets : List FlowSet) :
    splitRegion badSet region.length region = .ok sets ↔ ConsistsOf region sets := by
  rw [consistsOf_iff, ← readSet_inverse.walk_eq_some_iff le_rfl, splitRegion_eq_walk]
  cases Framing.walk readSet 4 region.length region <;> simp

/-- The walk over the Sets of a region splits it exactly. -/
theorem splitRegion_exactly (badSet : String) :
    SplitsExactly fun region => splitRegion badSet region.length region where
  complete sets tail hfits htail := (splitRegion_eq_ok_iff sets).mpr ⟨hfits, tail, htail, rfl⟩
  sound _ sets h := (splitRegion_eq_ok_iff sets).mp h
  fails region diag h sets hconsists := by
    have hok := (@splitRegion_eq_ok_iff badSet region sets).mpr hconsists
    rw [h] at hok
    contradiction

/-- Both splitters are exact: they return the Sets that were written, with up to three bytes behind them; what
they return gives the region back up to such a tail; and where they fail the region is no Sets in a row. -/
theorem splitters_exact : SplitsExactly V9.splitFlowsets ∧ SplitsExactly Ipfix.splitSets :=
  ⟨splitRegion_exactly _, splitRegion_exactly _⟩

end Split

end Netflow
