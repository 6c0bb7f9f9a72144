import Mathlib.Data.Int.Order.Basic
import Mathlib.Data.Nat.Bitwise

/-!
# Signed numbers that order like unsigned ones

Flipping the sign bit of a word moves it by half the range: read as a signed number, the flipped word is the
unsigned number less a constant. So the flip is an order embedding of the unsigned numbers into the signed
ones.
-/

namespace SignFlip

variable {w : ℕ}

/-- A word with its sign bit flipped. -/
def flip (x : BitVec (w + 1)) : BitVec (w + 1) := x ^^^ BitVec.intMin (w + 1)

/-- Flipping twice changes nothing. -/
@[simp] theorem flip_flip (x : BitVec (w + 1)) : flip (flip x) = x := by
  rw [flip, flip, BitVec.xor_assoc, BitVec.xor_self, BitVec.xor_zero]

/-- A bit above a number is added to it. -/
theorem xor_two_pow_of_lt {n : ℕ} (h : n < 2 ^ w) : n ^^^ 2 ^ w = n + 2 ^ w := by
  have hor := Nat.two_pow_add_eq_or_of_lt h 1
  rw [Nat.mul_one] at hor
  rw [Nat.add_comm, hor]
  apply Nat.eq_of_testBit_eq
  intro i
  rw [Nat.testBit_xor, Nat.testBit_or, Nat.testBit_two_pow]
  by_cases hi : w = i
  · subst hi
    simp [Nat.testBit_lt_two_pow h]
  · simp [hi]

/-- The flipped word as an unsigned number: half the range more, or less. -/
theorem toNat_flip (x : BitVec (w + 1)) :
    (flip x).toNat = if x.toNat < 2 ^ w then x.toNat + 2 ^ w else x.toNat - 2 ^ w := by
  rw [flip, BitVec.toNat_xor, BitVec.toNat_intMin_of_pos (Nat.succ_pos w), Nat.succ_sub_one]
  split
  · exact xor_two_pow_of_lt ‹_›
  · have hlt := x.isLt
    rw [pow_succ] at hlt
    have hback := @xor_two_pow_of_lt w (x.toNat - 2 ^ w) (by omega)
    rw [Nat.sub_add_cancel (by omega)] at hback
    calc x.toNat ^^^ 2 ^ w
        = ((x.toNat - 2 ^ w) ^^^ 2 ^ w) ^^^ 2 ^ w := by rw [hback]
      _ = x.toNat - 2 ^ w := Nat.xor_xor_cancel_right _ _

/-- The flipped word, read as a signed number, is the unsigned number less half the range. -/
theorem toInt_flip (x : BitVec (w + 1)) : (flip x).toInt = x.toNat - 2 ^ w := by
  have hlt := x.isLt
  have hflip := toNat_flip x
  rw [pow_succ] at hlt
  have hcast : ((2 : ℤ) ^ w) = ((2 ^ w : ℕ) : ℤ) := by norm_cast
  rw [BitVec.toInt_eq_toNat_cond, hflip, hcast, pow_succ]
  split <;> split <;> push_cast <;> omega

end SignFlip
