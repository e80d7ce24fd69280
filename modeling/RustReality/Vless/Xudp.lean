import RustReality.Lib.FrameStream
import RustReality.Vless.Types

/-!
# XUDP frames

An XUDP frame is a two-byte metadata length, the metadata (session, status, option and, in some
frames, a network, a destination and a global id) and, when the option says so, a two-byte payload
length with the payload. Frames follow each other on the Vision plaintext stream.
-/

namespace RustReality.Vless

def xudpMaxMetaLen : Nat := 512

def xrayBufSize : Nat := 8 * 1024

def xudpMaxPayloadLen : Nat := xrayBufSize - 666

def addressTypeIpv4 : UInt8 := 0x01

def addressTypeDomain : UInt8 := 0x02

def addressTypeIpv6 : UInt8 := 0x03

inductive XudpSessionStatus
  | new
  | keep
  | «end»
  | keepAlive
  deriving DecidableEq, Repr

namespace XudpSessionStatus

def toByte : XudpSessionStatus → UInt8
  | .new => 0x01
  | .keep => 0x02
  | .end => 0x03
  | .keepAlive => 0x04

def fromByte (value : UInt8) : Option XudpSessionStatus :=
  if value = 0x01 then some .new
  else if value = 0x02 then some .keep
  else if value = 0x03 then some .end
  else if value = 0x04 then some .keepAlive
  else none

@[simp] theorem fromByte_toByte (status : XudpSessionStatus) : fromByte status.toByte = some status := by
  cases status <;> rfl

end XudpSessionStatus

structure XudpOption where
  value : UInt8
  deriving DecidableEq, Repr

namespace XudpOption

def data : XudpOption := ⟨0x01⟩

def hasData (self : XudpOption) : Bool := self.value &&& data.value ≠ 0

end XudpOption

inductive XudpNetwork
  | tcp
  | udp
  deriving DecidableEq, Repr

namespace XudpNetwork

def toByte : XudpNetwork → UInt8
  | .tcp => 0x01
  | .udp => 0x02

def fromByte (value : UInt8) : Option XudpNetwork :=
  if value = 0x01 then some .tcp else if value = 0x02 then some .udp else none

end XudpNetwork

abbrev XudpGlobalId := Vector UInt8 8

structure XudpPacket where
  sessionId : UInt16
  status : XudpSessionStatus
  option : XudpOption
  destination : Option Destination
  globalId : Option XudpGlobalId
  payload : Bytes
  deriving DecidableEq

inductive XudpCodecError
  | truncated (field : String)
  | metaTooLarge (length : Nat)
  | metaTooSmall (length : Nat)
  | unknownStatus (value : UInt8)
  | unknownNetwork (value : UInt8)
  | tcpNetworkRejected
  | unknownAddressType (value : UInt8)
  | domainTooLong (length : Nat)
  | emptyDomain
  | invalidDomainUtf8
  | payloadTooLarge (length : Nat)
  | trailingMetaBytes (remaining : Nat)
  | sessionIdMustBeZero (sessionId : UInt16)
  deriving DecidableEq, Repr

def writePortThenAddress (output : Bytes) (destination : Destination) : Except XudpCodecError Bytes :=
  let output := output ++ portBytes destination.port
  match destination.address with
  | .ipv4 address => .ok (output ++ addressTypeIpv4 :: ipv4Octets address)
  | .ipv6 address => .ok (output ++ addressTypeIpv6 :: ipv6Octets address)
  | .domain domain =>
    if domain.bytes.length = 0 then .error .emptyDomain
    else if domain.bytes.length > 255 then .error (.domainTooLong domain.bytes.length)
    else .ok (output ++ addressTypeDomain :: UInt8.ofNat domain.bytes.length :: domain.bytes)

def readPortThenAddress (input : Bytes) : Except XudpCodecError (Destination × Nat) :=
  match input with
  | port₀ :: port₁ :: addressType :: fields =>
    let port := portOfBytes [port₀, port₁]
    if addressType = addressTypeIpv4 then
      if fields.length < 4 then .error (.truncated "ipv4")
      else .ok (⟨.ipv4 (ipv4OfOctets (fields.take 4)), port⟩, 3 + 4)
    else if addressType = addressTypeIpv6 then
      if fields.length < 16 then .error (.truncated "ipv6")
      else .ok (⟨.ipv6 (ipv6OfOctets (fields.take 16)), port⟩, 3 + 16)
    else if addressType = addressTypeDomain then
      match fields with
      | [] => .error (.truncated "domain length")
      | len :: name =>
        if len.toNat = 0 then .error .emptyDomain
        else if name.length < len.toNat then .error (.truncated "domain")
        else
          match Text.ofUtf8? (name.take len.toNat) with
          | none => .error .invalidDomainUtf8
          | some domain => .ok (⟨.domain domain, port⟩, 3 + 1 + len.toNat)
    else .error (.unknownAddressType addressType)
  | _ => .error (.truncated "port/address")

def stageMetadata (destination : Destination) (newAssociation : Bool) (globalId : Option XudpGlobalId)
    (rewriteDestination : Bool) : Except XudpCodecError Bytes :=
  let staged : Bytes := [0, 0] ++ beBytes 2 0
  if newAssociation then do
    let staged := staged ++ [XudpSessionStatus.new.toByte, XudpOption.data.value, XudpNetwork.udp.toByte]
    let staged ← writePortThenAddress staged destination
    match globalId with
    | some id => .ok (staged ++ id.toList)
    | none => .ok staged
  else
    let staged := staged ++ [XudpSessionStatus.keep.toByte, XudpOption.data.value]
    if rewriteDestination then
      writePortThenAddress (staged ++ [XudpNetwork.udp.toByte]) destination
    else .ok staged

/-- `encode_xudp_packet`, with the output buffer after the call. -/
def encodeXudpPacket (destination : Destination) (payload : Bytes) (newAssociation : Bool)
    (globalId : Option XudpGlobalId) (rewriteDestination : Bool) (output : Bytes) :
    Bytes × Except XudpCodecError Unit :=
  if payload.length > xudpMaxPayloadLen then (output, .error (.payloadTooLarge payload.length))
  else if payload.length ≥ 2 ^ 16 then (output, .error (.payloadTooLarge payload.length))
  else
    match stageMetadata destination newAssociation globalId rewriteDestination with
    | .error error => (output, .error error)
    | .ok staged =>
      let metaLen := staged.length - 2
      if metaLen > xudpMaxMetaLen then (output, .error (.metaTooLarge metaLen))
      else
        let staged := overwrite staged 0 (beBytes 2 metaLen)
        (output ++ (staged ++ beBytes 2 payload.length ++ payload), .ok ())

def decodeMetadataFields (status : XudpSessionStatus) (option : XudpOption) (fields : Bytes) :
    Except XudpCodecError (Option Destination × Option XudpGlobalId) :=
  match status with
  | .new =>
    match fields with
    | [] => .error (.truncated "network")
    | network :: fields =>
      match XudpNetwork.fromByte network with
      | none => .error (.unknownNetwork network)
      | some .tcp => .error .tcpNetworkRejected
      | some .udp => do
        let (destination, consumed) ← readPortThenAddress fields
        let rest := fields.drop consumed
        -- a global id is read whenever eight bytes are left
        if h : option.hasData ∧ 8 ≤ rest.length then
          if rest.length - 8 ≠ 0 then .error (.trailingMetaBytes (rest.length - 8))
          else .ok (some destination, some ⟨(rest.take 8).toArray, by simp [h.2]⟩)
        else if rest.length ≠ 0 then .error (.trailingMetaBytes rest.length)
        else .ok (some destination, none)
  | .keep =>
    match fields with
    | [] => .ok (none, none)
    | network :: fields =>
      if network = XudpNetwork.udp.toByte then do
        let (destination, consumed) ← readPortThenAddress fields
        let rest := fields.drop consumed
        if rest.length ≠ 0 then .error (.trailingMetaBytes rest.length)
        else .ok (some destination, none)
      else if network = XudpNetwork.tcp.toByte then .error .tcpNetworkRejected
      else .error (.unknownNetwork network)
  | .end | .keepAlive =>
    if fields.length ≠ 0 then .error (.trailingMetaBytes fields.length) else .ok (none, none)

def decodePayload (option : XudpOption) (input : Bytes) : Except XudpCodecError (Bytes × Nat) :=
  if option.hasData then
    if input.length < 2 then .error (.truncated "payloadLen")
    else
      let payloadLen := ofBe (input.take 2)
      if payloadLen > xudpMaxPayloadLen then .error (.payloadTooLarge payloadLen)
      else if input.length < 2 + payloadLen then .error (.truncated "payload")
      else .ok (slice input 2 (2 + payloadLen), 2 + payloadLen)
  else .ok ([], 0)

def decodeXudpPacket (input : Bytes) : Except XudpCodecError (XudpPacket × Nat) :=
  if input.length < 2 then .error (.truncated "metaLen")
  else
    let metaLen := ofBe (input.take 2)
    if metaLen < 4 then .error (.metaTooSmall metaLen)
    else if metaLen > xudpMaxMetaLen then .error (.metaTooLarge metaLen)
    else if input.length < 2 + metaLen then .error (.truncated "metadata")
    else
      match slice input 2 (2 + metaLen) with
      | session₀ :: session₁ :: status :: option :: fields =>
        let sessionId := UInt16.ofNat (ofBe [session₀, session₁])
        if sessionId ≠ 0 then .error (.sessionIdMustBeZero sessionId)
        else
          match XudpSessionStatus.fromByte status with
          | none => .error (.unknownStatus status)
          | some status => do
            let option : XudpOption := ⟨option⟩
            let (destination, globalId) ← decodeMetadataFields status option fields
            let (payload, consumed) ← decodePayload option (input.drop (2 + metaLen))
            .ok ({ sessionId, status, option, destination, globalId, payload }, 2 + metaLen + consumed)
      -- the metadata has at least four bytes
      | _ => .error (.metaTooSmall metaLen)

/-- The front of a buffer as `drain_xudp_frames` sees it. -/
def scanXudp (buffer : Bytes) : FrameStream.Scan XudpPacket XudpCodecError :=
  if buffer.length = 0 then .incomplete
  else
    match decodeXudpPacket buffer with
    | .ok (packet, consumed) => .frame packet consumed
    | .error (.truncated _) => .incomplete
    | .error error => .failed error

/-- `drain_xudp_frames`: the buffer after the call, which an error leaves as it was. -/
def drainXudpFrames (buffer : Bytes) : Bytes × Except XudpCodecError (List XudpPacket) :=
  match FrameStream.drain scanXudp buffer.length buffer with
  | (rest, .ok packets) => (rest, .ok packets)
  | (_, .error error) => (buffer, .error error)

end RustReality.Vless
