import RustReality.Handoff.Udp.Wire
import RustReality.Vless.Types

/-!
# The plaintext of a DATA packet

Address family, address, port and payload. A `SocketAddr` of the source also has the flow information
and the scope of an IPv6 address, for which the format has no room.
-/

namespace RustReality.Handoff.Udp
open List Vless

inductive SocketAddress
  | v4 (ip : BitVec 32) (port : UInt16)
  | v6 (ip : BitVec 128) (port : UInt16) (flowinfo scopeId : UInt32)
  deriving DecidableEq, Repr

namespace SocketAddress

def ip : SocketAddress → IpAddr
  | .v4 ip _ => .v4 ip
  | .v6 ip _ _ _ => .v6 ip

def port : SocketAddress → UInt16
  | .v4 _ port => port
  | .v6 _ port _ _ => port

/-- `SocketAddr::new`. -/
def new (ip : IpAddr) (port : UInt16) : SocketAddress :=
  match ip with
  | .v4 ip => .v4 ip port
  | .v6 ip => .v6 ip port 0 0

end SocketAddress

def isUnspecified : IpAddr → Bool
  | .v4 bits => bits == 0
  | .v6 bits => bits == 0

def addressIpv4 : UInt8 := 4

def addressIpv6 : UInt8 := 6

def encodeDataPlaintext (address : SocketAddress) (payload : Bytes) : Except UdpPacketError Bytes :=
  if payload.length > maxUdpPayloadLen then .error .length
  else if address.port = 0 ∨ isUnspecified address.ip then .error .address
  else
    let octets :=
      match address.ip with
      | .v4 ip => addressIpv4 :: ipv4Octets ip
      | .v6 ip => addressIpv6 :: ipv6Octets ip
    .ok (octets ++ portBytes address.port ++ payload)

/-- The part of `decode_data` behind the address. -/
def decodePort (ip : IpAddr) (rest : Bytes) : Except UdpPacketError (SocketAddress × Bytes) :=
  if rest.length < 2 then .error .length
  else
    let port := portOfBytes (rest.take 2)
    if port = 0 ∨ isUnspecified ip then .error .address
    else if (rest.drop 2).length > maxUdpPayloadLen then .error .length
    else .ok (.new ip port, rest.drop 2)

def decodeData : Bytes → Except UdpPacketError (SocketAddress × Bytes)
  | [] => .error .length
  | family :: rest =>
    if family = addressIpv4 then
      if rest.length < 4 then .error .length else decodePort (.v4 (ipv4OfOctets (rest.take 4))) (rest.drop 4)
    else if family = addressIpv6 then
      if rest.length < 16 then .error .length else decodePort (.v6 (ipv6OfOctets (rest.take 16))) (rest.drop 16)
    else .error .address

theorem decodePort_encoded {address : SocketAddress} {payload : Bytes} (hl : payload.length ≤ maxUdpPayloadLen)
    (ha : ¬(address.port = 0 ∨ isUnspecified address.ip = true)) :
    decodePort address.ip (portBytes address.port ++ payload) = .ok (.new address.ip address.port, payload) := by
  have ht : (portBytes address.port ++ payload).take 2 = portBytes address.port :=
    take_left' (length_portBytes _)
  have hd : (portBytes address.port ++ payload).drop 2 = payload := drop_left' (length_portBytes _)
  unfold decodePort
  rw [if_neg (by rw [length_append, length_portBytes]; omega), ht, hd, portOfBytes_portBytes]
  rw [if_neg ha, if_neg (Nat.not_lt.2 hl)]

/-- An encoded address comes back without flow information and scope, the payload as it was. -/
theorem decodeData_encoded {address : SocketAddress} {payload plain : Bytes}
    (h : encodeDataPlaintext address payload = .ok plain) :
    decodeData plain = .ok (.new address.ip address.port, payload) ∧ plain ≠ [] ∧
      plain.length ≤ maxDataPlaintextLen := by
  unfold encodeDataPlaintext at h
  split_ifs at h with hl ha
  have hl : payload.length ≤ maxUdpPayloadLen := Nat.not_lt.1 hl
  have hp := decodePort_encoded hl ha
  have hm : maxDataPlaintextLen = 19 + maxUdpPayloadLen := rfl
  cases hip : address.ip with
  | v4 ip =>
    rw [hip] at h hp
    cases h
    refine ⟨?_, by simp, by simp; omega⟩
    have ht : (ipv4Octets ip ++ (portBytes address.port ++ payload)).take 4 = ipv4Octets ip :=
      take_left' (length_ipv4Octets _)
    have hd : (ipv4Octets ip ++ (portBytes address.port ++ payload)).drop 4 = portBytes address.port ++ payload :=
      drop_left' (length_ipv4Octets _)
    simp only [cons_append, append_assoc, decodeData]
    rw [if_pos trivial, if_neg (by simp), ht, hd, ipv4OfOctets_ipv4Octets]
    exact hp
  | v6 ip =>
    rw [hip] at h hp
    cases h
    refine ⟨?_, by simp, by simp; omega⟩
    have ht : (ipv6Octets ip ++ (portBytes address.port ++ payload)).take 16 = ipv6Octets ip :=
      take_left' (length_ipv6Octets _)
    have hd : (ipv6Octets ip ++ (portBytes address.port ++ payload)).drop 16 = portBytes address.port ++ payload :=
      drop_left' (length_ipv6Octets _)
    simp only [cons_append, append_assoc, decodeData]
    rw [if_neg (by decide), if_pos trivial, if_neg (by simp), ht, hd, ipv6OfOctets_ipv6Octets]
    exact hp

end RustReality.Handoff.Udp
