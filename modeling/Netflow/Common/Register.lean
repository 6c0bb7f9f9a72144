import Mathlib.Init

/-!
# Registers

A register holds at most one value. A write replaces what is there, or fills the register
only while it is empty, or does nothing. Which of some writes a register shows in the end is
a matter of their kinds alone: a write that is not shown could have written anything.
-/

namespace Register

variable {V : Type}

/-- A write to a register. -/
inductive Write (V : Type)
  | overwrite (value : V)
  | fill (value : V)
  | skip
  deriving DecidableEq

/-- What a register holds after a write. -/
def Write.apply : Write V → Option V → Option V
  | .overwrite value, _ => some value
  | .fill value, held => held.or (some value)
  | .skip, held => held

/-- Replace what is there when there is something to write. -/
def Write.ofOption : Option V → Write V
  | some value => .overwrite value
  | none => .skip

@[simp] theorem Write.apply_ofOption (value held : Option V) :
    (Write.ofOption value).apply held = value.or held := by
  cases value <;> rfl

/-- How a write acts, whatever it writes. -/
inductive Kind
  | overwrite | fill | skip
  deriving DecidableEq

/-- The kind of a write. -/
def Write.kind : Write V → Kind
  | .overwrite _ => .overwrite
  | .fill _ => .fill
  | .skip => .skip

/-- The value of a write, if it writes one. -/
def Write.value? : Write V → Option V
  | .overwrite value | .fill value => some value
  | .skip => none

/-- What a register holds after some writes in order. -/
def run (writes : List (Write V)) (held : Option V) : Option V :=
  writes.foldl (fun held write => write.apply held) held

/-- The values that replace what is there, in order. -/
def overwrites (writes : List (Write V)) : List V :=
  writes.filterMap fun write => if write.kind = .overwrite then write.value? else none

/-- The values that only fill an empty register, in order. -/
def fills (writes : List (Write V)) : List V :=
  writes.filterMap fun write => if write.kind = .fill then write.value? else none

/-- Whether a register that was empty shows a write of this kind after all writes: nothing overwrites it
later, and it overwrites or finds the register empty. -/
def Kind.Shows (before after : List Kind) : Kind → Prop
  | .overwrite => .overwrite ∉ after
  | .fill => (∀ kind ∈ before, kind = .skip) ∧ .overwrite ∉ after
  | .skip => False

section Runs

variable {writes : List (Write V)}

@[simp] theorem run_nil (held : Option V) : run [] held = held := rfl

@[simp] theorem run_cons (write : Write V) (writes : List (Write V)) (held : Option V) :
    run (write :: writes) held = run writes (write.apply held) := rfl

@[simp] theorem run_append (first second : List (Write V)) (held : Option V) :
    run (first ++ second) held = run second (run first held) :=
  List.foldl_append

/-- A register shows the last value that replaced what was there, else what it held, else the first that
filled it. -/
theorem run_eq (writes : List (Write V)) (held : Option V) :
    run writes held = (overwrites writes).getLast?.or (held.or (fills writes).head?) := by
  induction writes generalizing held with
  | nil => simp [overwrites, fills]
  | cons write writes ih =>
    rw [run_cons, ih]
    cases write with
    | overwrite value =>
      have hwrites : overwrites (.overwrite value :: writes) = value :: overwrites writes := rfl
      rw [hwrites, List.getLast?_cons, Write.apply, Option.some_or]
      cases (overwrites writes).getLast? <;> rfl
    | fill value =>
      have hfills : fills (.fill value :: writes) = value :: fills writes := rfl
      have hwrites : overwrites (.fill value :: writes) = overwrites writes := rfl
      rw [hfills, hwrites, Write.apply, List.head?_cons, Option.or_assoc, Option.some_or]
    | skip => rfl

/-- Writes of one value leave that value. -/
theorem run_of_forall_eq {value : V} (h : ∀ write ∈ writes, write = .overwrite value) (hne : writes ≠ [])
    (held : Option V) : run writes held = some value := by
  induction writes generalizing held with
  | nil => contradiction
  | cons write writes ih =>
    rw [List.forall_mem_cons] at h
    rw [run_cons, h.1]
    cases writes with
    | nil => rfl
    | cons next writes => exact ih h.2 (List.cons_ne_nil _ _) _

/-- A value that nothing overwrites stays. -/
theorem run_of_notMem (h : .overwrite ∉ writes.map Write.kind) (value : V) :
    run writes (some value) = some value := by
  induction writes with
  | nil => rfl
  | cons write writes ih =>
    rw [List.map_cons, List.mem_cons, not_or] at h
    cases write with
    | overwrite => exact absurd rfl h.1
    | fill | skip => exact ih h.2

/-- What was there before an overwrite does not matter. -/
theorem run_of_mem (h : .overwrite ∈ writes.map Write.kind) (held held' : Option V) :
    run writes held = run writes held' := by
  induction writes generalizing held held' with
  | nil => contradiction
  | cons write writes ih =>
    cases write with
    | overwrite => rfl
    | fill | skip =>
      rw [List.map_cons, List.mem_cons] at h
      exact ih (h.resolve_left (by simp [Write.kind])) _ _

/-- A register that holds a value never becomes empty. -/
theorem run_some_ne_none (writes : List (Write V)) (value : V) : run writes (some value) ≠ none := by
  induction writes generalizing value with
  | nil => exact Option.some_ne_none value
  | cons write writes ih => cases write <;> exact ih _

/-- An empty register stays empty exactly if nothing is written. -/
theorem run_eq_none_iff : run writes none = none ↔ ∀ kind ∈ writes.map Write.kind, kind = .skip := by
  induction writes with
  | nil => simp
  | cons write writes ih =>
    rw [List.map_cons, List.forall_mem_cons]
    cases write with
    | overwrite value | fill value => simp [Write.kind, Write.apply, run_some_ne_none]
    | skip => simpa [Write.kind, Write.apply] using ih

/-- A register holds the write it shows. -/
theorem run_of_shows {before after : List (Write V)} {write : Write V}
    (h : write.kind.Shows (before.map Write.kind) (after.map Write.kind)) :
    run (before ++ write :: after) none = write.value? := by
  cases write with
  | overwrite value =>
    rw [run_append, run_cons]
    exact run_of_notMem h value
  | fill value =>
    rw [run_append, run_cons, run_eq_none_iff.mpr h.1]
    exact run_of_notMem h.2 value
  | skip => exact h.elim

/-- A write that a register does not show could have written anything. -/
theorem run_of_not_shows {before after : List (Write V)} {write write' : Write V} (hkind : write.kind = write'.kind)
    (h : ¬ write.kind.Shows (before.map Write.kind) (after.map Write.kind)) :
    run (before ++ write :: after) none = run (before ++ write' :: after) none := by
  simp only [run_append, run_cons]
  by_cases hlater : .overwrite ∈ after.map Write.kind
  · exact run_of_mem hlater _ _
  · congr 1
    cases write with
    | overwrite => exact absurd hlater h
    | fill =>
      obtain ⟨value', rfl⟩ : ∃ value', write' = .fill value' := by
        cases write' with
        | fill value' => exact ⟨value', rfl⟩
        | overwrite | skip => contradiction
      cases hheld : run before none with
      | none => exact absurd ⟨run_eq_none_iff.mp hheld, hlater⟩ h
      | some held => rfl
    | skip =>
      cases write' with
      | skip => rfl
      | overwrite | fill => contradiction

end Runs

end Register
