import RustReality.Lib.Bytes

/-!
# The cleartext header of a native UDP packet

Version, packet type, session id and counter, 18 bytes, authenticated as associated data. Parsing
what `encodeHeader` wrote gives the three fields back, and a header that parses is the encoding of
what was parsed, so that two packets with the same fields have the same header bytes.
-/

namespace RustReality.Handoff.Udp

def udpProtocolVersion : UInt8 := 1

def sessionIdLen : Nat := 8

def headerLen : Nat := 2 + sessionIdLen + 8

def tagLen : Nat := 16

def maxUdpPayloadLen : Nat := 8 * 1024 - 666

def maxAddressLen : Nat := 1 + 16 + 2

def maxDataPlaintextLen : Nat := maxAddressLen + maxUdpPayloadLen

def fragHeaderLen : Nat := 6

inductive PacketType
  | open | openAck | data | frag | probe | probeAck | close
  deriving DecidableEq, Repr

namespace PacketType

def toWire : PacketType → UInt8
  | .open => 1
  | .openAck => 2
  | .data => 3
  | .frag => 4
  | .probe => 5
  | .probeAck => 6
  | .close => 7

def fromWire (value : UInt8) : Option PacketType :=
  if value = 1 then some .open
  else if value = 2 then some .openAck
  else if value = 3 then some .data
  else if value = 4 then some .frag
  else if value = 5 then some .probe
  else if value = 6 then some .probeAck
  else if value = 7 then some .close
  else none

@[simp] theorem fromWire_toWire (t : PacketType) : fromWire t.toWire = some t := by
  cases t <;> decide

end PacketType

inductive UdpPacketError
  | length | version | type | timeWindow | replay | authentication | address | session | counter
  | random | crypto
  deriving DecidableEq, Repr

abbrev SessionId := Vector UInt8 8

def encodeHeader (packetType : PacketType) (sessionId : SessionId) (counter : UInt64) : Bytes :=
  [udpProtocolVersion, packetType.toWire] ++ sessionId.toList ++ beBytes 8 counter.toNat

def sessionIdOf (packet : Bytes) : SessionId :=
  Vector.ofFn fun i => packet.getD (2 + i.val) 0

def parseHeader (packet : Bytes) : Except UdpPacketError (PacketType × SessionId × UInt64) :=
  if packet.length < headerLen + tagLen then .error .length
  else if packet.getD 0 0 ≠ udpProtocolVersion then .error .version
  else
    match PacketType.fromWire (packet.getD 1 0) with
    | none => .error .type
    | some packetType =>
      .ok (packetType, sessionIdOf packet,
        UInt64.ofNat (ofBe ((packet.drop (2 + sessionIdLen)).take 8)))

theorem length_of_parseHeader {packet : Bytes} {out : PacketType × SessionId × UInt64}
    (h : parseHeader packet = .ok out) : headerLen + tagLen ≤ packet.length := by
  unfold parseHeader at h
  split at h
  · cases h
  · omega

@[simp] theorem length_encodeHeader (t : PacketType) (sid : SessionId) (c : UInt64) :
    (encodeHeader t sid c).length = headerLen := by
  simp [encodeHeader, headerLen, sessionIdLen]

theorem sessionIdOf_append (sid : SessionId) (v t : UInt8) (rest : Bytes) :
    sessionIdOf ([v, t] ++ sid.toList ++ rest) = sid := by
  apply Vector.ext
  intro i hi
  simp only [sessionIdOf, Vector.getElem_ofFn, List.getD_eq_getElem?_getD, List.append_assoc]
  rw [List.getElem?_append_right (by simp), List.getElem?_append_left (by simpa using hi)]
  simp [hi]

theorem parseHeader_encodeHeader (t : PacketType) (sid : SessionId) (c : UInt64) (body : Bytes)
    (hb : tagLen ≤ body.length) :
    parseHeader (encodeHeader t sid c ++ body) = .ok (t, sid, c) := by
  have hl : ¬(encodeHeader t sid c ++ body).length < headerLen + tagLen := by
    simp
    omega
  have hs : sessionIdOf (encodeHeader t sid c ++ body) = sid := by
    rw [encodeHeader, List.append_assoc _ (beBytes _ _)]
    exact sessionIdOf_append sid _ _ _
  have hc : ((encodeHeader t sid c ++ body).drop (2 + sessionIdLen)).take 8 =
      beBytes 8 c.toNat := by
    have hp : ([udpProtocolVersion, t.toWire] ++ sid.toList).length = 2 + sessionIdLen := by
      simp [sessionIdLen, Nat.add_comm]
    rw [encodeHeader, List.append_assoc _ (beBytes _ _), ← hp, List.drop_left,
      List.take_left' (length_beBytes _ _)]
  unfold parseHeader
  rw [if_neg hl, hs, hc, ofBe_beBytes (by simpa using c.toNat_lt)]
  simp [encodeHeader]

end RustReality.Handoff.Udp
