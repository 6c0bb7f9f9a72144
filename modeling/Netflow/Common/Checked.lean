import Mathlib.Algebra.Ring.Int.Defs
import Mathlib.Algebra.Ring.Nat

/-!
# Checked arithmetic

Machine arithmetic that stops where a result leaves its type, as an overflow-checked build
runs it. A checked computation is an option: it yields the value of the unchecked one under
some condition, and nothing where the condition fails.
-/

namespace Checked

variable {α β : Type} {P Q : Prop}

/-- The computation yields the value exactly under the condition. -/
def Yields (x : Option α) (P : Prop) (a : α) : Prop := P ∧ x = some a ∨ ¬ P ∧ x = none

/-- Go on after a read, or end without a value where the read fails. -/
def attempt (read : Option α) (next : α → Option (Option β)) : Option (Option β) :=
  match read with
  | none => some none
  | some a => next a

section Rules

variable {x : Option α} {a : α}

/-- What yields its value in any case is that value. -/
theorem yields_true_iff : Yields x True a ↔ x = some a := by simp [Yields]

/-- A value yields itself. -/
theorem Yields.pure (a : α) : Yields (some a) True a := yields_true_iff.mpr rfl

/-- The condition counts up to equivalence. -/
theorem Yields.congr (h : Yields x P a) (hiff : P ↔ Q) : Yields x Q a := by
  rwa [Yields, ← hiff]

/-- The value comes out exactly under the condition. -/
theorem Yields.eq_some_iff (h : Yields x P a) : x = some a ↔ P := by
  rcases h with ⟨hP, rfl⟩ | ⟨hP, rfl⟩ <;> simp [hP]

/-- Nothing comes out exactly where the condition fails. -/
theorem Yields.eq_none_iff (h : Yields x P a) : x = none ↔ ¬ P := by
  rcases h with ⟨hP, rfl⟩ | ⟨hP, rfl⟩ <;> simp [hP]

/-- Computations in a row yield the last value under both conditions. -/
theorem Yields.bind {f : α → Option β} {b : β} (hx : Yields x P a) (hf : P → Yields (f a) Q b) :
    Yields (x.bind f) (P ∧ Q) b := by
  rcases hx with ⟨hP, rfl⟩ | ⟨hP, rfl⟩
  · exact (hf hP).congr (by simp [hP])
  · exact .inr ⟨by simp [hP], rfl⟩

/-- A value computed without arithmetic keeps the condition. -/
theorem Yields.map (hx : Yields x P a) (f : α → β) : Yields (x.map f) P (f a) := by
  rcases hx with ⟨hP, rfl⟩ | ⟨hP, rfl⟩
  · exact .inl ⟨hP, rfl⟩
  · exact .inr ⟨hP, rfl⟩

/-- A value put together from a checked one keeps the condition. -/
theorem Yields.bind_some (hx : Yields x P a) (f : α → β) : Yields (x.bind fun a => some (f a)) P (f a) := by
  rcases hx with ⟨hP, rfl⟩ | ⟨hP, rfl⟩
  · exact .inl ⟨hP, rfl⟩
  · exact .inr ⟨hP, rfl⟩

/-- What follows a read without a condition on what is read has none either. -/
theorem attempt_eq {read : Option α} {f : α → Option (Option β)} {g : α → Option β}
    (h : ∀ a, f a = some (g a)) : Checked.attempt read f = some (read.bind g) := by
  cases read with
  | none => rfl
  | some a => exact h a

end Rules

section Operations

/-- Whether an integer is one of 64 signed bits. -/
def FitsI64 (z : ℤ) : Prop := -2 ^ 63 ≤ z ∧ z < 2 ^ 63

instance (z : ℤ) : Decidable (FitsI64 z) := inferInstanceAs (Decidable (_ ∧ _))

/-- The signed number with the given value, if it has 64 bits. -/
def i64 (z : ℤ) : Option Int64 := if FitsI64 z then some (.ofInt z) else none

/-- Checked addition of signed numbers. -/
def addI64 (a b : Int64) : Option Int64 := i64 (a.toInt + b.toInt)

/-- Checked subtraction of signed numbers. -/
def subI64 (a b : Int64) : Option Int64 := i64 (a.toInt - b.toInt)

/-- Checked multiplication of signed numbers. -/
def mulI64 (a b : Int64) : Option Int64 := i64 (a.toInt * b.toInt)

/-- Checked addition of unsigned numbers of 64 bits. -/
def addU64 (a b : UInt64) : Option UInt64 :=
  if a.toNat + b.toNat < 2 ^ 64 then some (.ofNat (a.toNat + b.toNat)) else none

/-- Checked multiplication of unsigned numbers of 64 bits. -/
def mulU64 (a b : UInt64) : Option UInt64 :=
  if a.toNat * b.toNat < 2 ^ 64 then some (.ofNat (a.toNat * b.toNat)) else none

/-- Checked addition of unsigned numbers of 32 bits. -/
def addU32 (a b : UInt32) : Option UInt32 :=
  if a.toNat + b.toNat < 2 ^ 32 then some (.ofNat (a.toNat + b.toNat)) else none

/-- A sum that fits is the wrapping sum. -/
theorem toInt_add {a b : Int64} (h : FitsI64 (a.toInt + b.toInt)) : (a + b).toInt = a.toInt + b.toInt := by
  rw [← Int64.toInt_ofInt_of_le h.1 h.2, Int64.ofInt_add, Int64.ofInt_toInt, Int64.ofInt_toInt]

/-- A difference that fits is the wrapping difference. -/
theorem toInt_sub {a b : Int64} (h : FitsI64 (a.toInt - b.toInt)) : (a - b).toInt = a.toInt - b.toInt := by
  rw [← Int64.toInt_ofInt_of_le h.1 h.2, Int64.ofInt_sub, Int64.ofInt_toInt, Int64.ofInt_toInt]

/-- A product that fits is the wrapping product. -/
theorem toInt_mul {a b : Int64} (h : FitsI64 (a.toInt * b.toInt)) : (a * b).toInt = a.toInt * b.toInt := by
  rw [← Int64.toInt_ofInt_of_le h.1 h.2, Int64.ofInt_mul, Int64.ofInt_toInt, Int64.ofInt_toInt]

/-- An unsigned number of 63 bits is itself when read as a signed one. -/
theorem toInt_toInt64 {u : UInt64} (h : u.toNat < 2 ^ 63) : u.toInt64.toInt = u.toNat := by
  rw [← @UInt64.ofNat_toNat u, UInt64.toInt64_ofNat', Int64.toInt_ofNat_of_lt h, UInt64.ofNat_toNat]

/-- A value that is decided on yields itself under the condition. -/
theorem Yields.ite [Decidable P] {a b : α} (h : P → b = a) : Yields (if P then some b else none) P a := by
  by_cases hP : P
  · exact .inl ⟨hP, by rw [if_pos hP, h hP]⟩
  · exact .inr ⟨hP, if_neg hP⟩

/-- Checked addition yields the wrapping sum where the sum fits. -/
theorem addI64_yields (a b : Int64) : Yields (addI64 a b) (FitsI64 (a.toInt + b.toInt)) (a + b) :=
  .ite fun _ => by rw [Int64.ofInt_add, Int64.ofInt_toInt, Int64.ofInt_toInt]

/-- Checked subtraction yields the wrapping difference where the difference fits. -/
theorem subI64_yields (a b : Int64) : Yields (subI64 a b) (FitsI64 (a.toInt - b.toInt)) (a - b) :=
  .ite fun _ => by rw [Int64.ofInt_sub, Int64.ofInt_toInt, Int64.ofInt_toInt]

/-- Checked multiplication yields the wrapping product where the product fits. -/
theorem mulI64_yields (a b : Int64) : Yields (mulI64 a b) (FitsI64 (a.toInt * b.toInt)) (a * b) :=
  .ite fun _ => by rw [Int64.ofInt_mul, Int64.ofInt_toInt, Int64.ofInt_toInt]

/-- Checked addition yields the wrapping sum where the sum fits. -/
theorem addU64_yields (a b : UInt64) : Yields (addU64 a b) (a.toNat + b.toNat < 2 ^ 64) (a + b) :=
  .ite fun _ => by rw [UInt64.ofNat_add, UInt64.ofNat_toNat, UInt64.ofNat_toNat]

/-- Checked multiplication yields the wrapping product where the product fits. -/
theorem mulU64_yields (a b : UInt64) : Yields (mulU64 a b) (a.toNat * b.toNat < 2 ^ 64) (a * b) :=
  .ite fun _ => by rw [UInt64.ofNat_mul, UInt64.ofNat_toNat, UInt64.ofNat_toNat]

/-- Checked addition yields the wrapping sum where the sum fits. -/
theorem addU32_yields (a b : UInt32) : Yields (addU32 a b) (a.toNat + b.toNat < 2 ^ 32) (a + b) :=
  .ite fun _ => by rw [UInt32.ofNat_add, UInt32.ofNat_toNat, UInt32.ofNat_toNat]

end Operations

end Checked
