import Netflow.Buf

/-!
# The DuckDB `INET` triple

Host addresses become the physical `INET` struct: IPv4 keeps its 32 bits, IPv6 has its
sign bit flipped so that the signed 128-bit value orders like the address.
-/

namespace Netflow

/-- The three field values of one `INET` cell; `addressLe` holds little-endian `i128` bytes. -/
structure InetVal where
  ipType : UInt8
  addressLe : Vector UInt8 16
  mask : UInt16
  deriving DecidableEq, Repr

/-- The type tag of an IPv4 cell. -/
def ipTypeV4 : UInt8 := 1

/-- The type tag of an IPv6 cell. -/
def ipTypeV6 : UInt8 := 2

/-- An address by family, as its unsigned big-endian value. -/
inductive IpAddr
  | v4 (addr : BitVec 32)
  | v6 (addr : BitVec 128)
  deriving DecidableEq, Repr

/-- The little-endian bytes of a 128-bit integer. -/
def leBytes (value : BitVec 128) : Vector UInt8 16 :=
  Vector.ofFn fun i => UInt8.ofNat ((value >>> (8 * i.val)).toNat)

/-- Encode an address and its prefix length. -/
def encode (ip : IpAddr) (mask : UInt16) : InetVal :=
  match ip with
  | .v4 addr => ⟨ipTypeV4, leBytes (addr.setWidth 128), mask⟩
  | .v6 addr => ⟨ipTypeV6, leBytes (addr ^^^ (1#128 <<< 127)), mask⟩

/-- Encode a bare host address with its full-width mask. -/
def encodeIp (ip : IpAddr) : InetVal :=
  match ip with
  | .v4 _ => encode ip 32
  | .v6 _ => encode ip 128

/-- Encode four on-wire bytes as an IPv4 host address. -/
def inet4 (bytes : Bytes) : Option InetVal :=
  if bytes.length = 4 then some (encodeIp (.v4 (.ofNat 32 (beNat bytes)))) else none

/-- Encode sixteen on-wire bytes as an IPv6 host address. -/
def inet6 (bytes : Bytes) : Option InetVal :=
  if bytes.length = 16 then some (encodeIp (.v6 (.ofNat 128 (beNat bytes)))) else none

end Netflow
