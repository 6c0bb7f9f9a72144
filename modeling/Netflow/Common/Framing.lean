import Mathlib.Data.List.Basic

/-!
# Self-delimiting records

A stream of records, each read off the front of what is left. A read is local when more
input behind what it was given does not change what it reads. Then the encoding of a record
that is cut anywhere is not read at all, and a stream that is cut anywhere is read as the
records that lie wholly before the cut.
-/

namespace Framing

variable {B A R : Type}

section Reads

/-- Whether more input leaves alone what is read and is left over. -/
def Local (read : List B → Option (A × List B)) : Prop :=
  ∀ input more value rest, read input = some (value, rest) → read (input ++ more) = some (value, rest ++ more)

/-- What a local read takes off whole is not read when it is cut. -/
theorem Local.eq_none_of_cut {read : List B → Option (A × List B)} (h : Local read) {value : A}
    {input more : List B} (hwhole : read (input ++ more) = some (value, [])) (hmore : more ≠ []) :
    read input = none := by
  cases hread : read input with
  | none => rfl
  | some found =>
    obtain ⟨other, rest⟩ := found
    have hextended := h input more other rest hread
    rw [hwhole, Option.some_inj, Prod.mk.injEq] at hextended
    exact absurd (List.append_eq_nil_iff.mp hextended.2.symm).2 hmore

end Reads

section Streams

/-- Read records while at least `short` elements are left, until one is not read or the rest says stop; for
at most the given number of rounds. -/
def scan (read : List B → Option (A × List B)) (stop : List B → Bool) (short : ℕ) : ℕ → List B → List A
  | 0, _ => []
  | rounds + 1, input =>
    if input.length < short then []
    else match read input with
      | none => []
      | some (value, rest) => if stop rest then [value] else value :: scan read stop short rounds rest

/-- The records that lie wholly in the first `n` elements of the stream. -/
def fitting (encode : R → List B) : ℕ → List R → List R
  | _, [] => []
  | n, r :: records =>
    if (encode r).length ≤ n then r :: fitting encode (n - (encode r).length) records else []

/-- A stream cut anywhere is the records wholly before the cut and a part of the next. -/
theorem exists_take_eq (encode : R → List B) (n : ℕ) (records : List R) :
    ∃ later part, records = fitting encode n records ++ later ∧
      (records.flatMap encode).take n = (fitting encode n records).flatMap encode ++ part ∧
        (part = [] ∨ ∃ r others more, later = r :: others ∧ encode r = part ++ more ∧ more ≠ []) := by
  induction records generalizing n with
  | nil => exact ⟨[], [], by simp [fitting], by simp [fitting], .inl rfl⟩
  | cons r records ih =>
    rw [List.flatMap_cons, fitting]
    split
    · rename_i hle
      obtain ⟨later, part, hlater, htake, hpart⟩ := ih (n - (encode r).length)
      refine ⟨later, part, by rw [List.cons_append, ← hlater], ?_, hpart⟩
      rw [List.take_append, List.take_of_length_le hle, htake, List.flatMap_cons, List.append_assoc]
    · rename_i hlt
      refine ⟨r :: records, (encode r).take n, rfl, ?_,
        .inr ⟨r, records, (encode r).drop n, rfl, (List.take_append_drop n _).symm, ?_⟩⟩
      · rw [List.take_append_of_le_length (by omega), List.flatMap_nil, List.nil_append]
      · rw [ne_eq, List.drop_eq_nil_iff]
        omega

variable {read : List B → Option (A × List B)} {stop : List B → Bool} {short : ℕ}

/-- How records are written for the scan: each is read back whatever follows it, is not too short to be read,
and does not start like an end of the stream. -/
structure Writes (read : List B → Option (A × List B)) (stop : List B → Bool) (short : ℕ)
    (encode : R → List B) (value : R → A) : Prop where
  isLocal : Local read
  read_encode : ∀ r rest, read (encode r ++ rest) = some (value r, rest)
  short_le : ∀ r, short ≤ (encode r).length
  short_pos : 0 < short
  not_stop : ∀ r rest, stop (encode r ++ rest) = false

variable {encode : R → List B} {value : R → A}

/-- Written records are read back up to an end of the stream: a rest too short for a record or one that is
not read. -/
theorem Writes.scan_append (h : Writes read stop short encode value) (records : List R) {rest : List B}
    (hrest : rest.length < short ∨ read rest = none) {rounds : ℕ}
    (hrounds : (records.flatMap encode ++ rest).length ≤ rounds) :
    scan read stop short rounds (records.flatMap encode ++ rest) = records.map value := by
  induction records generalizing rounds with
  | nil =>
    cases rounds with
    | zero => rfl
    | succ rounds =>
      rw [List.flatMap_nil, List.nil_append, scan]
      rcases hrest with hshort | hnone
      · rw [if_pos hshort, List.map_nil]
      · simp [hnone]
  | cons r records ih =>
    have hshort := h.short_le r
    have hpos := h.short_pos
    rw [List.flatMap_cons, List.append_assoc, List.length_append] at hrounds
    cases rounds with
    | zero => omega
    | succ rounds =>
      rw [List.flatMap_cons, List.append_assoc, scan, if_neg (by rw [List.length_append]; omega), h.read_encode]
      dsimp only
      cases records with
      | nil =>
        rw [ih (by omega)]
        split <;> rfl
      | cons next records =>
        rw [ih (by omega), List.flatMap_cons, List.append_assoc, if_neg (by rw [h.not_stop]; decide)]
        rfl

/-- A stream of written records cut anywhere is read as the records wholly before the cut. -/
theorem Writes.scan_take (h : Writes read stop short encode value) (records : List R) (n : ℕ) {rounds : ℕ}
    (hrounds : ((records.flatMap encode).take n).length ≤ rounds) :
    scan read stop short rounds ((records.flatMap encode).take n) = (fitting encode n records).map value := by
  obtain ⟨later, part, -, htake, hpart⟩ := exists_take_eq encode n records
  rw [htake] at hrounds ⊢
  refine h.scan_append _ ?_ hrounds
  rcases hpart with rfl | ⟨r, others, more, -, hencode, hmore⟩
  · exact .inl h.short_pos
  · have hwhole := h.read_encode r []
    rw [List.append_nil, hencode] at hwhole
    exact .inr (h.isLocal.eq_none_of_cut hwhole hmore)

end Streams

section Walks

/-- Read records while at least `short` elements are left, for at most the given number of rounds; fail where
one is not read. -/
def walk (read : List B → Option (A × List B)) (short : ℕ) : ℕ → List B → Option (List A)
  | 0, _ => some []
  | rounds + 1, input =>
    if input.length < short then some []
    else match read input with
      | none => none
      | some (value, rest) => (walk read short rounds rest).map (value :: ·)

/-- Whether an input is records that fit, one after the other, and a tail too short for a further one. -/
def Decomposes (encode : A → List B) (Fits : A → Prop) (short : ℕ) (input : List B) (records : List A) : Prop :=
  (∀ r ∈ records, Fits r) ∧ ∃ tail, tail.length < short ∧ input = records.flatMap encode ++ tail

/-- How a read and an encoding belong together: a record that fits is read back whatever follows it, and what
is read is a record that fits and stands at the front. -/
structure Inverse (read : List B → Option (A × List B)) (short : ℕ) (encode : A → List B) (Fits : A → Prop) :
    Prop where
  read_encode : ∀ r rest, Fits r → read (encode r ++ rest) = some (r, rest)
  of_read : ∀ input r rest, read input = some (r, rest) → Fits r ∧ input = encode r ++ rest
  short_le : ∀ r, short ≤ (encode r).length
  short_pos : 0 < short

variable {read : List B → Option (A × List B)} {short : ℕ} {encode : A → List B} {Fits : A → Prop}

/-- Records that fit are walked over, up to a tail too short for a further one. -/
theorem Inverse.walk_append (h : Inverse read short encode Fits) {records : List A} (hfits : ∀ r ∈ records, Fits r)
    {tail : List B} (htail : tail.length < short) {rounds : ℕ} (hrounds : records.length ≤ rounds) :
    walk read short rounds (records.flatMap encode ++ tail) = some records := by
  induction records generalizing rounds with
  | nil =>
    cases rounds with
    | zero => rfl
    | succ rounds => exact if_pos htail
  | cons r records ih =>
    obtain ⟨hfirst, hothers⟩ := List.forall_mem_cons.mp hfits
    have hshort := h.short_le r
    cases rounds with
    | zero => contradiction
    | succ rounds =>
      rw [List.flatMap_cons, List.append_assoc, walk, if_neg (by rw [List.length_append]; omega),
        h.read_encode r _ hfirst]
      dsimp only
      rw [ih hothers (Nat.le_of_succ_le_succ hrounds), Option.map_some]

/-- A walk that comes to its end has gone over the whole input, up to a tail. -/
theorem Inverse.decomposes_of_walk (h : Inverse read short encode Fits) {rounds : ℕ} {input : List B}
    {records : List A} (hrounds : input.length ≤ rounds) (hwalk : walk read short rounds input = some records) :
    Decomposes encode Fits short input records := by
  induction rounds generalizing input records with
  | zero =>
    cases hwalk
    exact ⟨by simp, input, Nat.lt_of_le_of_lt hrounds h.short_pos, rfl⟩
  | succ rounds ih =>
    rw [walk] at hwalk
    split at hwalk
    · cases hwalk
      exact ⟨by simp, input, ‹_›, rfl⟩
    · split at hwalk
      · contradiction
      · rename_i value rest hread
        obtain ⟨records', hrest, rfl⟩ := Option.map_eq_some_iff.mp hwalk
        obtain ⟨hvalue, rfl⟩ := h.of_read _ _ _ hread
        have hshort := h.short_le value
        have hpos := h.short_pos
        rw [List.length_append] at hrounds
        obtain ⟨hfits, tail, htail, rfl⟩ := ih (by omega) hrest
        exact ⟨List.forall_mem_cons.mpr ⟨hvalue, hfits⟩, tail, htail, by
          rw [List.flatMap_cons, List.append_assoc]⟩

/-- There are no more records than elements. -/
theorem Inverse.length_le (h : Inverse read short encode Fits) (records : List A) :
    records.length ≤ (records.flatMap encode).length := by
  have hpos := h.short_pos
  induction records with
  | nil => exact Nat.le_refl _
  | cons r records ih =>
    have hshort := h.short_le r
    rw [List.flatMap_cons, List.length_append, List.length_cons]
    omega

/-- The walk over an input finds the one way in which it decomposes. -/
theorem Inverse.walk_eq_some_iff (h : Inverse read short encode Fits) {rounds : ℕ} {input : List B}
    (hrounds : input.length ≤ rounds) (records : List A) :
    walk read short rounds input = some records ↔ Decomposes encode Fits short input records := by
  refine ⟨h.decomposes_of_walk hrounds, ?_⟩
  rintro ⟨hfits, tail, htail, rfl⟩
  rw [List.length_append] at hrounds
  have hcount := h.length_le records
  exact h.walk_append hfits htail (by omega)

end Walks

end Framing
