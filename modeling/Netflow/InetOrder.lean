import Netflow.Common.SignFlip
import Netflow.Decode.Sflow
import Netflow.Encode

/-!
# The order of `INET` values

An address cell holds a signed 128-bit number. For each family that number is the address as an unsigned
number less a constant, so that cells compare as their addresses do, and an address lies in a prefix exactly
if its cell lies between the cells of the first and the last address of the prefix. The bytes of the address
are recovered from its cell.
-/

namespace Netflow

open SignFlip (flip)

section Definitions

/-- The 128-bit word with the given little-endian bytes. -/
def fromLeBytes (bytes : Vector UInt8 16) : BitVec 128 := .ofNat 128 (beNat bytes.toList.reverse)

/-- The signed number in an address cell. -/
def InetVal.value (v : InetVal) : ℤ := (fromLeBytes v.addressLe).toInt

/-- The address bytes of a cell: the low 32 bits, or all bits with the sign flipped back. -/
def InetVal.octets (v : InetVal) : Bytes :=
  let value := fromLeBytes v.addressLe
  if v.ipType = ipTypeV4 then beBytes 4 (value.setWidth 32).toNat
  else beBytes 16 (value ^^^ (1#128 <<< 127)).toNat

/-- The address text of a cell. -/
def InetVal.toIpString (v : InetVal) : String :=
  if v.ipType = ipTypeV4 then (ipv4Text v.octets).getD "" else (ipv6Text v.octets).getD ""

/-- The two address families. -/
inductive Family
  | v4 | v6
  deriving DecidableEq, Repr

/-- The number of bytes of an address. -/
def Family.length : Family → ℕ
  | .v4 => 4
  | .v6 => 16

/-- The cell of an address on the wire. -/
def Family.inet : Family → Bytes → Option InetVal
  | .v4 => inet4
  | .v6 => inet6

/-- The text of an address on the wire. -/
def Family.text : Family → Bytes → Option String
  | .v4 => ipv4Text
  | .v6 => ipv6Text

/-- How far the number in a cell is below the address. -/
def Family.bias : Family → ℤ
  | .v4 => 0
  | .v6 => 2 ^ 127

/-- An address of a family as it stands on the wire. -/
structure Address (family : Family) where
  bytes : Bytes
  length_eq : bytes.length = family.length

namespace Address

variable {family : Family}

/-- The address as an unsigned big-endian number. -/
def number (a : Address family) : ℕ := beNat a.bytes

/-- The address of a number, as far as its width reaches. -/
def ofNumber (family : Family) (n : ℕ) : Address family := ⟨beBytes family.length n, beBytes_length _ _⟩

/-- The number of host bits behind a prefix of the given length. -/
def hostBits (family : Family) (prefixLength : ℕ) : ℕ := 8 * family.length - prefixLength

/-- The first address of the prefix that an address belongs to: its host bits are zero. -/
def first (a : Address family) (prefixLength : ℕ) : Address family :=
  ofNumber family (a.number / 2 ^ hostBits family prefixLength * 2 ^ hostBits family prefixLength)

/-- The last address of the prefix that an address belongs to: its host bits are one. -/
def last (a : Address family) (prefixLength : ℕ) : Address family :=
  ofNumber family (a.number / 2 ^ hostBits family prefixLength * 2 ^ hostBits family prefixLength +
    (2 ^ hostBits family prefixLength - 1))

/-- Whether two addresses agree in the bits of a prefix. -/
def SharesPrefix (a b : Address family) (prefixLength : ℕ) : Prop :=
  ∀ i < prefixLength, a.number.testBit (8 * family.length - 1 - i) = b.number.testBit (8 * family.length - 1 - i)

end Address

end Definitions

section Cells

/-- Bytes by their weights, the lowest first, are the big-endian ones backwards. -/
theorem ofFn_bytes (width n : ℕ) :
    List.ofFn (fun i : Fin width => UInt8.ofNat (n / 256 ^ i.val)) = (beBytes width n).reverse := by
  induction width with
  | zero => rfl
  | succ width ih =>
    rw [List.ofFn_succ_last, beBytes, List.reverse_cons, ← ih]
    rfl

/-- The little-endian bytes of a word are its big-endian ones backwards. -/
theorem toList_leBytes (value : BitVec 128) : (leBytes value).toList = (beBytes 16 value.toNat).reverse := by
  have hbyte : ∀ i : ℕ, (value >>> (8 * i)).toNat = value.toNat / 256 ^ i := by
    intro i
    rw [BitVec.toNat_ushiftRight, Nat.shiftRight_eq_div_pow, pow_mul]
    rfl
  rw [leBytes, Vector.toList_ofFn, ← ofFn_bytes]
  simp only [hbyte]

/-- A word is read back from its bytes. -/
@[simp] theorem fromLeBytes_leBytes (value : BitVec 128) : fromLeBytes (leBytes value) = value := by
  have hlt : value.toNat < 256 ^ 16 := value.isLt
  rw [fromLeBytes, toList_leBytes, List.reverse_reverse, beNat_beBytes_of_lt hlt, BitVec.ofNat_toNat,
    BitVec.setWidth_eq]

/-- The sign bit of a cell is flipped as in the encoding. -/
theorem flip_eq (value : BitVec 128) : value ^^^ (1#128 <<< 127) = flip value := rfl

/-- An IPv4 cell holds the address itself. -/
theorem encodeIp_v4 (addr : BitVec 32) :
    (encodeIp (.v4 addr)).value = addr.toNat ∧ (encodeIp (.v4 addr)).octets = beBytes 4 addr.toNat := by
  have hlt := addr.isLt
  have hwide : (addr.setWidth 128).toNat = addr.toNat := by
    rw [BitVec.toNat_setWidth]
    omega
  constructor
  · rw [encodeIp, encode, InetVal.value, fromLeBytes_leBytes, BitVec.toInt_eq_toNat_cond, hwide, if_pos (by omega)]
  · rw [encodeIp, encode, InetVal.octets, if_pos rfl, fromLeBytes_leBytes, BitVec.toNat_setWidth, hwide,
      Nat.mod_eq_of_lt hlt]

/-- An IPv6 cell holds the address less half the range. -/
theorem encodeIp_v6 (addr : BitVec 128) :
    (encodeIp (.v6 addr)).value = addr.toNat - 2 ^ 127 ∧ (encodeIp (.v6 addr)).octets = beBytes 16 addr.toNat := by
  have htype : ipTypeV6 ≠ ipTypeV4 := by decide
  constructor
  · rw [encodeIp, encode, InetVal.value, fromLeBytes_leBytes, flip_eq, SignFlip.toInt_flip]
  · rw [encodeIp, encode, InetVal.octets, if_neg htype, fromLeBytes_leBytes, flip_eq, flip_eq, SignFlip.flip_flip]

/-- The number in a cell is the address less the bias of its family, and the cell gives the address back. -/
theorem Address.exists_inet {family : Family} (a : Address family) :
    ∃ v, family.inet a.bytes = some v ∧ (v.ipType = ipTypeV4 ↔ family = .v4) ∧
      v.value = a.number - family.bias ∧ v.octets = a.bytes := by
  have hlt := beNat_lt a.bytes
  have hbytes := beBytes_beNat a.bytes
  have hlength := a.length_eq
  rw [hlength] at hlt hbytes
  cases family with
  | v4 =>
    have haddr : (BitVec.ofNat 32 (beNat a.bytes)).toNat = a.number := by
      rw [BitVec.toNat_ofNat]
      exact Nat.mod_eq_of_lt hlt
    obtain ⟨hvalue, hoctets⟩ := encodeIp_v4 (.ofNat 32 (beNat a.bytes))
    rw [haddr] at hvalue hoctets
    exact ⟨_, if_pos hlength, iff_of_true rfl rfl, hvalue.trans (Int.sub_zero _).symm, hoctets.trans hbytes⟩
  | v6 =>
    have haddr : (BitVec.ofNat 128 (beNat a.bytes)).toNat = a.number := by
      rw [BitVec.toNat_ofNat]
      exact Nat.mod_eq_of_lt hlt
    obtain ⟨hvalue, hoctets⟩ := encodeIp_v6 (.ofNat 128 (beNat a.bytes))
    rw [haddr] at hvalue hoctets
    exact ⟨_, if_pos hlength, iff_of_false (show ipTypeV6 ≠ ipTypeV4 by decide) (by decide), hvalue,
      hoctets.trans hbytes⟩

/-- The cell of an address. -/
def Address.inet {family : Family} (a : Address family) : InetVal :=
  (family.inet a.bytes).get (Option.isSome_iff_exists.mpr ⟨_, a.exists_inet.choose_spec.1⟩)

/-- The cell of an address is what its bytes on the wire become. -/
theorem Address.inet_bytes {family : Family} (a : Address family) : family.inet a.bytes = some a.inet :=
  (Option.some_get _).symm

/-- What the cell of an address holds. -/
theorem Address.inet_spec {family : Family} (a : Address family) :
    (a.inet.ipType = ipTypeV4 ↔ family = .v4) ∧ a.inet.value = a.number - family.bias ∧ a.inet.octets = a.bytes := by
  obtain ⟨v, hv, hspec⟩ := a.exists_inet
  rw [a.inet_bytes, Option.some_inj] at hv
  rwa [hv]

/-- Sixteen bytes have a text. -/
theorem exists_ipv6Text {bytes : Bytes} (h : bytes.length = 16) : ∃ text, ipv6Text bytes = some text := by
  rw [ipv6Text, if_neg (not_not.mpr h)]
  dsimp only
  split
  · have hfour : (bytes.drop 12).length = 4 := by rw [List.length_drop, h]
    rw [ipv4Text, if_pos hfour]
    exact ⟨_, rfl⟩
  · split
    · exact ⟨_, rfl⟩
    · exact ⟨_, rfl⟩

end Cells

namespace Address

variable {family : Family} (a b : Address family)

/-- An address is below the power of two of its width. -/
theorem number_lt : a.number < 2 ^ (8 * family.length) := by
  have hlt := beNat_lt a.bytes
  rw [a.length_eq] at hlt
  rwa [pow_mul]

/-- An address of a number that fits has that number. -/
theorem number_ofNumber {n : ℕ} (h : n < 2 ^ (8 * family.length)) : (ofNumber family n).number = n := by
  rw [pow_mul] at h
  exact beNat_beBytes_of_lt h

/-- Addresses share a prefix exactly if they agree without the host bits. -/
theorem sharesPrefix_iff {prefixLength : ℕ} (h : prefixLength ≤ 8 * family.length) :
    a.SharesPrefix b prefixLength ↔
      a.number / 2 ^ hostBits family prefixLength = b.number / 2 ^ hostBits family prefixLength := by
  constructor
  · intro hshares
    apply Nat.eq_of_testBit_eq
    intro i
    rw [Nat.testBit_div_two_pow, Nat.testBit_div_two_pow]
    by_cases hi : i < prefixLength
    · have hbit := hshares (prefixLength - 1 - i) (by omega)
      have hindex : 8 * family.length - 1 - (prefixLength - 1 - i) = i + hostBits family prefixLength := by
        rw [hostBits]
        omega
      rwa [hindex] at hbit
    · have hpow : 2 ^ (8 * family.length) ≤ 2 ^ (i + hostBits family prefixLength) := by
        refine Nat.pow_le_pow_right (by decide) ?_
        rw [hostBits]
        omega
      rw [Nat.testBit_lt_two_pow (a.number_lt.trans_le hpow), Nat.testBit_lt_two_pow (b.number_lt.trans_le hpow)]
  · intro hdiv i hi
    have hbit := congrArg (Nat.testBit · (prefixLength - 1 - i)) hdiv
    have hindex : prefixLength - 1 - i + hostBits family prefixLength = 8 * family.length - 1 - i := by
      rw [hostBits]
      omega
    simpa only [Nat.testBit_div_two_pow, hindex] using hbit

variable {prefixLength : ℕ}

/-- The numbers of the first and the last address of a prefix. -/
theorem number_first_last (h : prefixLength ≤ 8 * family.length) :
    (b.first prefixLength).number =
        b.number / 2 ^ hostBits family prefixLength * 2 ^ hostBits family prefixLength ∧
      (b.last prefixLength).number =
        b.number / 2 ^ hostBits family prefixLength * 2 ^ hostBits family prefixLength +
          (2 ^ hostBits family prefixLength - 1) := by
  have hpos := Nat.two_pow_pos (hostBits family prefixLength)
  have hwidth : 2 ^ (8 * family.length) = 2 ^ prefixLength * 2 ^ hostBits family prefixLength := by
    rw [← pow_add, hostBits]
    congr 1
    omega
  have hblock : (b.number / 2 ^ hostBits family prefixLength + 1) * 2 ^ hostBits family prefixLength ≤
      2 ^ (8 * family.length) := by
    rw [hwidth]
    refine Nat.mul_le_mul_right _ (Nat.div_lt_of_lt_mul ?_)
    rw [Nat.mul_comm, ← hwidth]
    exact b.number_lt
  rw [Nat.add_mul, Nat.one_mul] at hblock
  exact ⟨number_ofNumber (by omega), number_ofNumber (by omega)⟩

/-- The text of an address is that of its bytes. -/
theorem text_eq : family.text a.bytes = some a.inet.toIpString := by
  obtain ⟨htype, -, hoctets⟩ := a.inet_spec
  have hlength := a.length_eq
  rw [InetVal.toIpString, hoctets]
  simp only [htype]
  cases family with
  | v4 =>
    have htext : ipv4Text a.bytes = some _ := if_pos hlength
    rw [if_pos rfl, Family.text, htext, Option.getD_some]
  | v6 =>
    obtain ⟨text, htext⟩ := exists_ipv6Text hlength
    rw [if_neg (by decide), Family.text, htext, Option.getD_some]

end Address

/-- Cells compare as their addresses do; an address lies in a prefix exactly if its cell lies between the cells
of the first and the last address of the prefix; and the bytes of an address, and so its text, are recovered
from its cell. -/
theorem inet_embeds {family : Family} (a b : Address family) :
    compare a.inet.value b.inet.value = compare a.number b.number ∧
      (∀ prefixLength ≤ 8 * family.length, a.SharesPrefix b prefixLength ↔
        (b.first prefixLength).inet.value ≤ a.inet.value ∧ a.inet.value ≤ (b.last prefixLength).inet.value) ∧
      a.inet.octets = a.bytes ∧ family.text a.bytes = some a.inet.toIpString := by
  obtain ⟨-, hvalue, hoctets⟩ := a.inet_spec
  obtain ⟨-, hvalue', -⟩ := b.inet_spec
  refine ⟨?_, fun prefixLength hprefix => ?_, hoctets, a.text_eq⟩
  · rw [hvalue, hvalue', Int.compare_eq_ite_lt, Nat.compare_eq_ite_lt]
    simp only [Int.sub_lt_sub_right_iff, Int.ofNat_lt]
  · obtain ⟨hfirst, hlast⟩ := b.number_first_last hprefix
    obtain ⟨-, hfirst', -⟩ := (b.first prefixLength).inet_spec
    obtain ⟨-, hlast', -⟩ := (b.last prefixLength).inet_spec
    have hpos := Nat.two_pow_pos (Address.hostBits family prefixLength)
    rw [a.sharesPrefix_iff b hprefix, Nat.div_eq_iff hpos, hvalue, hfirst', hlast', hfirst, hlast]
    generalize b.number / 2 ^ Address.hostBits family prefixLength * 2 ^ Address.hostBits family prefixLength = least
    generalize 2 ^ Address.hostBits family prefixLength = size at hpos ⊢
    omega

/-- Two IPv6 addresses on either side of the sign bit. -/
def sampleGlobal : Address .v6 := ⟨[0x20, 1, 0x0d, 0xb8, 0, 0, 0, 0, 0, 0, 0, 0, 0, 0, 0, 1], rfl⟩

@[inherit_doc sampleGlobal]
def sampleLinkLocal : Address .v6 := ⟨[0xfe, 0x80, 0, 0, 0, 0, 0, 0, 0, 0, 0, 0, 0, 0, 0, 1], rfl⟩

/-- The cell of the global address is the lesser one, and is in no prefix of the link-local one. -/
theorem inet_embeds_sample :
    compare sampleGlobal.inet.value sampleLinkLocal.inet.value =
        compare sampleGlobal.number sampleLinkLocal.number ∧
      (sampleGlobal.SharesPrefix sampleLinkLocal 10 ↔
        (sampleLinkLocal.first 10).inet.value ≤ sampleGlobal.inet.value ∧
          sampleGlobal.inet.value ≤ (sampleLinkLocal.last 10).inet.value) := by
  obtain ⟨hcompare, hprefix, -⟩ := inet_embeds sampleGlobal sampleLinkLocal
  exact ⟨hcompare, hprefix 10 (by decide)⟩

end Netflow
