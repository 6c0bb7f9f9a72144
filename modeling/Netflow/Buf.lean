import Mathlib.Algebra.Order.Group.Nat
import Mathlib.Data.List.Induction
import Mathlib.Data.UInt
import Mathlib.Tactic.Ring

/-!
# The bounds-checked byte cursor

A cursor is modelled by the bytes it has not consumed yet. Every read either yields its
value with the advanced cursor or fails without moving, which is what the `&mut` cursor
of `buf.rs` does; `Cursor.attempt` keeps the unmoved cursor for the call sites that carry
on after a failed read.
-/

namespace Netflow

/-- A captured byte string. -/
abbrev Bytes := List UInt8

/-- The unsigned big-endian value of a byte string. -/
def beNat (bytes : Bytes) : ℕ := bytes.foldl (fun value byte => value * 256 + byte.toNat) 0

/-- A big-endian number is below the power of 256 its width allows. -/
theorem beNat_lt (bytes : Bytes) : beNat bytes < 256 ^ bytes.length := by
  induction bytes using List.reverseRecOn with
  | nil => simp [beNat]
  | append_singleton bytes byte ih =>
    have hbyte := byte.toNat_lt
    rw [beNat, List.foldl_append, ← beNat, List.length_append, List.length_singleton, pow_succ]
    simp only [List.foldl_cons, List.foldl_nil]
    omega

/-- The leading byte of a big-endian number has the highest weight. -/
theorem beNat_cons (byte : UInt8) (bytes : Bytes) :
    beNat (byte :: bytes) = byte.toNat * 256 ^ bytes.length + beNat bytes := by
  induction bytes using List.reverseRecOn with
  | nil => simp [beNat]
  | append_singleton bytes last ih =>
    have hlast : ∀ head : Bytes, beNat (head ++ [last]) = beNat head * 256 + last.toNat := by
      intro head
      rw [beNat, List.foldl_append, ← beNat]
      rfl
    rw [← List.cons_append, hlast, hlast, ih, List.length_append, List.length_singleton]
    ring

/-- A number is its leading part, shifted, and the rest. -/
theorem beNat_append (head rest : Bytes) : beNat (head ++ rest) = beNat head * 256 ^ rest.length + beNat rest := by
  induction head with
  | nil => simp [beNat]
  | cons byte head ih =>
    rw [List.cons_append, beNat_cons, ih, beNat_cons, List.length_append, pow_add]
    ring

/-- Byte strings of one length are told apart by their numbers. -/
theorem beNat_inj {bytes bytes' : Bytes} (hlength : bytes.length = bytes'.length) (h : beNat bytes = beNat bytes') :
    bytes = bytes' := by
  induction bytes generalizing bytes' with
  | nil => exact (List.length_eq_zero_iff.mp hlength.symm).symm
  | cons byte bytes ih =>
    cases bytes' with
    | nil => contradiction
    | cons byte' bytes' =>
      have hrest : bytes.length = bytes'.length := Nat.succ.inj hlength
      have hlt := beNat_lt bytes
      have hlt' := beNat_lt bytes'
      rw [beNat_cons, beNat_cons, ← hrest] at h
      rw [← hrest] at hlt'
      have htail : beNat bytes = beNat bytes' := by
        have hmod := congrArg (· % 256 ^ bytes.length) h
        simpa only [Nat.mul_add_mod', Nat.mod_eq_of_lt hlt, Nat.mod_eq_of_lt hlt'] using hmod
      have hbyte : byte.toNat = byte'.toNat := by
        rw [htail, Nat.add_right_cancel_iff] at h
        exact Nat.eq_of_mul_eq_mul_right (Nat.pow_pos (by decide)) h
      rw [UInt8.toNat_inj.mp hbyte, ih hrest htail]

/-- A read cursor, given by the bytes not yet consumed. -/
@[ext] structure Cursor where
  rest : Bytes
  deriving DecidableEq, Repr

namespace Cursor

/-- A cursor at the start of the data. -/
def new (data : Bytes) : Cursor := ⟨data⟩

/-- The number of bytes not yet consumed. -/
def remaining (c : Cursor) : ℕ := c.rest.length

/-- Take the next `n` bytes and advance, or fail if fewer remain. -/
def take (c : Cursor) (n : ℕ) : Option (Bytes × Cursor) :=
  if n > c.remaining then none else some (c.rest.take n, ⟨c.rest.drop n⟩)

/-- Look at the next `n` bytes without advancing. -/
def peek (c : Cursor) (n : ℕ) : Option Bytes :=
  if n > c.remaining then none else some (c.rest.take n)

/-- Read `n` bytes as one big-endian number. -/
def readBe (c : Cursor) (n : ℕ) : Option (ℕ × Cursor) :=
  (c.take n).map fun (bytes, c) => (beNat bytes, c)

/-- Read one byte. -/
def u8 (c : Cursor) : Option (UInt8 × Cursor) := (c.readBe 1).map fun (v, c) => (.ofNat v, c)

/-- Read a big-endian 16-bit number. -/
def u16 (c : Cursor) : Option (UInt16 × Cursor) := (c.readBe 2).map fun (v, c) => (.ofNat v, c)

/-- Read a big-endian 32-bit number. -/
def u32 (c : Cursor) : Option (UInt32 × Cursor) := (c.readBe 4).map fun (v, c) => (.ofNat v, c)

/-- Skip `n` bytes, reporting whether that many remained. -/
def skip (c : Cursor) (n : ℕ) : Bool × Cursor :=
  match c.take n with
  | some (_, c') => (true, c')
  | none => (false, c)

/-- Run a read whose failure the caller ignores: the cursor then stays where it was. -/
def attempt {α : Type} (c : Cursor) (read : Cursor → Option (α × Cursor)) : Option α × Cursor :=
  match read c with
  | some (value, c') => (some value, c')
  | none => (none, c)

@[simp] theorem remaining_new (data : Bytes) : (new data).remaining = data.length := rfl

/-- A successful take leaves exactly the bytes it did not return. -/
theorem take_eq_some {c c' : Cursor} {n : ℕ} {bytes : Bytes} (h : c.take n = some (bytes, c')) :
    n ≤ c.remaining ∧ bytes = c.rest.take n ∧ c'.rest = c.rest.drop n := by
  unfold take at h
  split at h
  · contradiction
  · rename_i hn
    simp only [Option.some.injEq, Prod.mk.injEq] at h
    exact ⟨by omega, h.1.symm, by rw [← h.2]⟩

/-- A take succeeds where that many bytes remain. -/
theorem take_of_le {c : Cursor} {n : ℕ} (h : n ≤ c.remaining) :
    c.take n = some (c.rest.take n, ⟨c.rest.drop n⟩) := if_neg (Nat.not_lt.mpr h)

/-- A numeric read succeeds where its width remains. -/
theorem readBe_of_le {c : Cursor} {n : ℕ} (h : n ≤ c.remaining) :
    c.readBe n = some (beNat (c.rest.take n), ⟨c.rest.drop n⟩) := by rw [readBe, take_of_le h, Option.map_some]

/-- An 8-bit read succeeds where one byte remains. -/
theorem u8_of_le {c : Cursor} (h : 1 ≤ c.remaining) :
    c.u8 = some (.ofNat (beNat (c.rest.take 1)), ⟨c.rest.drop 1⟩) := by rw [u8, readBe_of_le h, Option.map_some]

/-- A 16-bit read succeeds where two bytes remain. -/
theorem u16_of_le {c : Cursor} (h : 2 ≤ c.remaining) :
    c.u16 = some (.ofNat (beNat (c.rest.take 2)), ⟨c.rest.drop 2⟩) := by
  rw [u16, readBe_of_le h, Option.map_some]

/-- A 32-bit read succeeds where four bytes remain. -/
theorem u32_of_le {c : Cursor} (h : 4 ≤ c.remaining) :
    c.u32 = some (.ofNat (beNat (c.rest.take 4)), ⟨c.rest.drop 4⟩) := by
  rw [u32, readBe_of_le h, Option.map_some]

/-- A take fails where fewer bytes remain. -/
theorem take_of_lt {c : Cursor} {n : ℕ} (h : c.remaining < n) : c.take n = none := if_pos h

/-- A numeric read fails where its width does not remain. -/
theorem readBe_of_lt {c : Cursor} {n : ℕ} (h : c.remaining < n) : c.readBe n = none := by
  rw [readBe, take_of_lt h, Option.map_none]

/-- An 8-bit read fails at the end. -/
theorem u8_of_lt {c : Cursor} (h : c.remaining < 1) : c.u8 = none := by rw [u8, readBe_of_lt h, Option.map_none]

/-- A 16-bit read fails where fewer than two bytes remain. -/
theorem u16_of_lt {c : Cursor} (h : c.remaining < 2) : c.u16 = none := by rw [u16, readBe_of_lt h, Option.map_none]

/-- A 32-bit read fails where fewer than four bytes remain. -/
theorem u32_of_lt {c : Cursor} (h : c.remaining < 4) : c.u32 = none := by rw [u32, readBe_of_lt h, Option.map_none]

/-- A successful take consumes exactly the bytes asked for. -/
theorem take_remaining {c c' : Cursor} {n : ℕ} {bytes : Bytes} (h : c.take n = some (bytes, c')) :
    c'.remaining + n = c.remaining := by
  obtain ⟨hn, -, hrest⟩ := take_eq_some h
  simp only [remaining, hrest, List.length_drop] at hn ⊢
  omega

/-- A successful numeric read consumes its width. -/
theorem readBe_remaining {c c' : Cursor} {n v : ℕ} (h : c.readBe n = some (v, c')) :
    c'.remaining + n = c.remaining := by
  obtain ⟨⟨bytes, c''⟩, htake, heq⟩ := Option.map_eq_some_iff.mp h
  simp only [Prod.mk.injEq] at heq
  exact heq.2 ▸ take_remaining htake

/-- A successful 8-bit read consumes one byte. -/
theorem u8_remaining {c c' : Cursor} {v : UInt8} (h : c.u8 = some (v, c')) :
    c'.remaining + 1 = c.remaining := by
  obtain ⟨⟨w, c''⟩, hread, heq⟩ := Option.map_eq_some_iff.mp h
  simp only [Prod.mk.injEq] at heq
  exact heq.2 ▸ readBe_remaining hread

/-- A successful 16-bit read consumes two bytes. -/
theorem u16_remaining {c c' : Cursor} {v : UInt16} (h : c.u16 = some (v, c')) :
    c'.remaining + 2 = c.remaining := by
  obtain ⟨⟨w, c''⟩, hread, heq⟩ := Option.map_eq_some_iff.mp h
  simp only [Prod.mk.injEq] at heq
  exact heq.2 ▸ readBe_remaining hread

/-- A successful 32-bit read consumes four bytes. -/
theorem u32_remaining {c c' : Cursor} {v : UInt32} (h : c.u32 = some (v, c')) :
    c'.remaining + 4 = c.remaining := by
  obtain ⟨⟨w, c''⟩, hread, heq⟩ := Option.map_eq_some_iff.mp h
  simp only [Prod.mk.injEq] at heq
  exact heq.2 ▸ readBe_remaining hread

end Cursor

end Netflow
