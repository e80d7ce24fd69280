import RustReality.Lib.Utf8

/-!
# VLESS identities and destinations

Domain names are UTF-8 text; every comparison of the source is byte by byte.
-/

namespace RustReality.Vless

abbrev UserId := Vector UInt8 16

inductive IpAddr
  | v4 (bits : BitVec 32)
  | v6 (bits : BitVec 128)
  deriving DecidableEq, Repr

inductive Address
  | ipv4 (bits : BitVec 32)
  | ipv6 (bits : BitVec 128)
  | domain (name : Text)
  deriving DecidableEq, Repr

structure Destination where
  address : Address
  port : UInt16
  deriving DecidableEq, Repr

/-! ### Octets -/

def ipv4Octets (bits : BitVec 32) : Bytes := beBytes 4 bits.toNat

def ipv4OfOctets (octets : Bytes) : BitVec 32 := BitVec.ofNat 32 (ofBe octets)

def ipv6Octets (bits : BitVec 128) : Bytes := beBytes 16 bits.toNat

def ipv6OfOctets (octets : Bytes) : BitVec 128 := BitVec.ofNat 128 (ofBe octets)

def portBytes (port : UInt16) : Bytes := beBytes 2 port.toNat

def portOfBytes (bytes : Bytes) : UInt16 := UInt16.ofNat (ofBe bytes)

@[simp] theorem length_ipv4Octets (bits : BitVec 32) : (ipv4Octets bits).length = 4 := length_beBytes _ _

@[simp] theorem length_ipv6Octets (bits : BitVec 128) : (ipv6Octets bits).length = 16 := length_beBytes _ _

@[simp] theorem length_portBytes (port : UInt16) : (portBytes port).length = 2 := length_beBytes _ _

@[simp] theorem ipv4OfOctets_ipv4Octets (bits : BitVec 32) : ipv4OfOctets (ipv4Octets bits) = bits := by
  rw [ipv4OfOctets, ipv4Octets, ofBe_beBytes bits.isLt, BitVec.ofNat_toNat, BitVec.setWidth_eq]

@[simp] theorem ipv6OfOctets_ipv6Octets (bits : BitVec 128) : ipv6OfOctets (ipv6Octets bits) = bits := by
  rw [ipv6OfOctets, ipv6Octets, ofBe_beBytes bits.isLt, BitVec.ofNat_toNat, BitVec.setWidth_eq]

@[simp] theorem portOfBytes_portBytes (port : UInt16) : portOfBytes (portBytes port) = port := by
  rw [portOfBytes, portBytes, ofBe_beBytes port.toNat_lt, UInt16.ofNat_toNat]

theorem ipv4Octets_ipv4OfOctets {octets : Bytes} (h : octets.length = 4) : ipv4Octets (ipv4OfOctets octets) = octets := by
  have hlt : ofBe octets < 2 ^ 32 := by
    have := ofBe_lt octets
    rw [h] at this
    omega
  rw [ipv4Octets, ipv4OfOctets, BitVec.toNat_ofNat, Nat.mod_eq_of_lt hlt, beBytes_ofBe_of h]

theorem ipv6Octets_ipv6OfOctets {octets : Bytes} (h : octets.length = 16) : ipv6Octets (ipv6OfOctets octets) = octets := by
  have hlt : ofBe octets < 2 ^ 128 := by
    have := ofBe_lt octets
    rw [h] at this
    omega
  rw [ipv6Octets, ipv6OfOctets, BitVec.toNat_ofNat, Nat.mod_eq_of_lt hlt, beBytes_ofBe_of h]

theorem portBytes_portOfBytes {bytes : Bytes} (h : bytes.length = 2) : portBytes (portOfBytes bytes) = bytes := by
  have hlt : ofBe bytes < 2 ^ 16 := by
    have := ofBe_lt bytes
    rw [h] at this
    omega
  rw [portBytes, portOfBytes, UInt16.toNat_ofNat', Nat.mod_eq_of_lt hlt, beBytes_ofBe_of h]

end RustReality.Vless
