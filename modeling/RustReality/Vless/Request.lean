import RustReality.Lib.Cursor
import RustReality.Vless.Types

/-!
# VLESS requests on the server

The decoder of a request header. An input that ends inside a field is reported as such, with the field.
-/

namespace RustReality.Vless

def version : UInt8 := 0

inductive Command
  | tcp
  | udp
  | mux
  | reverse
  deriving DecidableEq, Repr

namespace Command

def asByte : Command → UInt8
  | .tcp => 0x01
  | .udp => 0x02
  | .mux => 0x03
  | .reverse => 0x04

def requiresDestination : Command → Bool
  | .tcp | .udp => true
  | .mux | .reverse => false

end Command

structure RequestHeader where
  version : UInt8
  userId : UserId
  addons : Bytes
  command : Command
  destination : Option Destination
  deriving DecidableEq

structure DecodeRequest where
  header : RequestHeader
  payload : Bytes
  deriving DecidableEq

inductive DecodeError
  | unexpectedEnd (field : String) (needed remaining : Nat)
  | unsupportedVersion (version : UInt8)
  | unknownCommand (command : UInt8)
  | unknownAddressType (addressType : UInt8)
  | emptyDomain
  | invalidDomainName
  deriving DecidableEq, Repr

def DecodeError.Truncated : DecodeError → Prop
  | .unexpectedEnd .. => True
  | _ => False

/-! ### Fields -/

variable (field : String)

def takeField (length : Nat) : Cursor DecodeError Bytes := fun input =>
  if input.length < length then .error (.unexpectedEnd field length input.length)
  else .ok (input.take length, input.drop length)

def readU8 : Cursor DecodeError UInt8 := do
  let bytes ← takeField field 1
  return bytes.headD 0

def readU16 : Cursor DecodeError UInt16 := do
  let bytes ← takeField field 2
  return portOfBytes bytes

def decodeCommand (value : UInt8) : Cursor DecodeError Command :=
  match value with
  | 0x01 => return .tcp
  | 0x02 => return .udp
  | 0x03 => return .mux
  | 0x04 => return .reverse
  | unknown => Cursor.fail (.unknownCommand unknown)

/-- ASCII letters and digits, `-`, `.` and `_`. -/
def isDomainByte (byte : UInt8) : Bool :=
  (48 ≤ byte && byte ≤ 57) || (65 ≤ byte && byte ≤ 90) || (97 ≤ byte && byte ≤ 122) || byte = 45 || byte = 46 || byte = 95

def decodeDomain : Cursor DecodeError Address := do
  let length ← readU8 "domain length"
  if length = 0 then Cursor.fail .emptyDomain
  else
    let bytes ← takeField "domain" length.toNat
    if !bytes.all isDomainByte then Cursor.fail .invalidDomainName
    else
      match Text.ofUtf8? bytes with
      | none => Cursor.fail .invalidDomainName
      | some domain => return .domain domain

def decodeAddress (addressType : UInt8) : Cursor DecodeError Address :=
  match addressType with
  | 0x01 => do
    let octets ← takeField "IPv4 address" 4
    return .ipv4 (ipv4OfOctets octets)
  | 0x02 => decodeDomain
  | 0x03 => do
    let octets ← takeField "IPv6 address" 16
    return .ipv6 (ipv6OfOctets octets)
  | unknown => Cursor.fail (.unknownAddressType unknown)

def decodeDestination : Cursor DecodeError Destination := do
  let port ← readU16 "destination port"
  let addressType ← readU8 "address type"
  let address ← decodeAddress addressType
  return ⟨address, port⟩

def decodeHeader : Cursor DecodeError RequestHeader := do
  let first ← readU8 "protocol version"
  if first ≠ version then Cursor.fail (.unsupportedVersion first)
  else
    let userId ← takeField "user ID" 16
    let addonsLength ← readU8 "addons length"
    let addons ← takeField "addons" addonsLength.toNat
    let value ← readU8 "command"
    let command ← decodeCommand value
    if command.requiresDestination then
      let destination ← decodeDestination
      return ⟨first, vectorAt 16 userId 0, addons, command, some destination⟩
    else return ⟨first, vectorAt 16 userId 0, addons, command, none⟩

def decodeRequest (input : Bytes) : Except DecodeError DecodeRequest :=
  (decodeHeader input).map fun (header, payload) => ⟨header, payload⟩

/-! ### What the fields are read from -/

open Cursor

theorem decodes_takeField (field : String) {bytes : Bytes} {length : Nat} (h : bytes.length = length) :
    Decodes DecodeError.Truncated (takeField field length) bytes bytes where
  reads rest := by
    subst h
    rw [takeField, if_neg (by simp), List.take_left, List.drop_left]
  short front hfront hne := by
    subst h
    have hlt : front.length < bytes.length :=
      Nat.lt_of_le_of_ne hfront.length_le fun heq => hne (hfront.eq_of_length heq)
    rw [takeField, if_pos hlt]
    exact ⟨_, rfl, trivial⟩

theorem decodes_readU8 (field : String) (byte : UInt8) : Decodes DecodeError.Truncated (readU8 field) [byte] byte :=
  (decodes_takeField field (show [byte].length = 1 from rfl)).map fun bytes => bytes.headD 0

theorem decodes_readU16 (field : String) (port : UInt16) :
    Decodes DecodeError.Truncated (readU16 field) (portBytes port) port := by
  have h := (decodes_takeField field (length_portBytes port)).map portOfBytes
  rwa [portOfBytes_portBytes] at h

theorem decodes_decodeCommand (command : Command) :
    Decodes DecodeError.Truncated (decodeCommand command.asByte) [] command := by
  cases command <;> exact Decodes.pure _ _

def addressField : Address → Bytes
  | .ipv4 address => 0x01 :: ipv4Octets address
  | .ipv6 address => 0x03 :: ipv6Octets address
  | .domain domain => 0x02 :: UInt8.ofNat domain.bytes.length :: domain.bytes

def validDomain (domain : Text) : Prop :=
  domain.bytes.length ≠ 0 ∧ domain.bytes.length ≤ 255 ∧ domain.bytes.all isDomainByte = true

theorem decodes_decodeDomain {domain : Text} (h : validDomain domain) :
    Decodes DecodeError.Truncated decodeDomain (UInt8.ofNat domain.bytes.length :: domain.bytes) (.domain domain) := by
  obtain ⟨hp, hle, hb⟩ := h
  have hl : (UInt8.ofNat domain.bytes.length).toNat = domain.bytes.length := by
    exact Nat.mod_eq_of_lt (by omega)
  have hne : UInt8.ofNat domain.bytes.length ≠ 0 := by
    intro hz
    rw [hz] at hl
    exact hp hl.symm
  refine (decodes_readU8 _ _).bind_cons ?_
  rw [if_neg hne, hl]
  refine (decodes_takeField "domain" rfl).bind_nil ?_
  rw [hb, Text.ofUtf8?_bytes, if_neg (by decide)]
  exact Decodes.pure _ _

def validAddress : Address → Prop
  | .domain domain => validDomain domain
  | _ => True

theorem decodes_decodeDestination {destination : Destination} (h : validAddress destination.address) :
    Decodes DecodeError.Truncated decodeDestination (portBytes destination.port ++ addressField destination.address)
      destination := by
  obtain ⟨address, port⟩ := destination
  refine (decodes_readU16 _ port).bind ?_
  cases address with
  | ipv4 bits =>
    have hr := (decodes_takeField "IPv4 address" (length_ipv4Octets bits)).map fun octets =>
      Address.ipv4 (ipv4OfOctets octets)
    rw [ipv4OfOctets_ipv4Octets] at hr
    exact (decodes_readU8 _ _).bind_cons (hr.map _)
  | ipv6 bits =>
    have hr := (decodes_takeField "IPv6 address" (length_ipv6Octets bits)).map fun octets =>
      Address.ipv6 (ipv6OfOctets octets)
    rw [ipv6OfOctets_ipv6Octets] at hr
    exact (decodes_readU8 _ _).bind_cons (hr.map _)
  | domain domain => exact (decodes_readU8 _ _).bind_cons ((decodes_decodeDomain h).map _)

end RustReality.Vless
