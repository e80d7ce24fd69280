import RustReality.Vless.Xudp

/-!
# NXR UDP frames

The two ends of an NXR UDP association exchange length-prefixed datagram frames over one TCP
connection; a session MAC covers the direction and the body of each frame. HMAC-SHA256 is a
parameter: a function of the key and the message.
-/

namespace RustReality.Nxr

open Vless

abbrev Hmac := Bytes → Bytes → Vector UInt8 32

abbrev NxrUdpSessionKey := Vector UInt8 32

def addressIpv4 : UInt8 := 1

def addressDomain : UInt8 := 2

def addressIpv6 : UInt8 := 3

def maxDomainLen : Nat := 253

def dirLineToLanding : UInt8 := 0

def dirLandingToLine : UInt8 := 1

def frameTypeDatagram : UInt8 := 1

def frameTypeClose : UInt8 := 2

def frameFlagDestination : UInt8 := 1

def sessionTagLen : Nat := 32

def nxrUdpMaxPayload : Nat := xudpMaxPayloadLen

def frameLenSize : Nat := 4

def maxFrameDestLen : Nat := 1 + 2 + 2 + maxDomainLen

def maxFrameBodyLen : Nat := 1 + 1 + 4 + maxFrameDestLen + 2 + nxrUdpMaxPayload

inductive NxrUdpError
  | length
  | truncated
  | version
  | flags
  | wrongMode
  | address
  | port
  | timeWindow
  | authentication
  | allocation
  | payload
  | frameType
  | direction
  | sequence
  deriving DecidableEq, Repr

/-! ### Fields -/

def addressShape : Address → Except NxrUdpError (UInt8 × Nat)
  | .ipv4 _ => .ok (addressIpv4, 4)
  | .domain domain =>
    if domain.bytes.length = 0 ∨ domain.bytes.length > maxDomainLen then .error .address
    else .ok (addressDomain, domain.bytes.length)
  | .ipv6 _ => .ok (addressIpv6, 16)

def addressBytes : Address → Bytes
  | .ipv4 address => ipv4Octets address
  | .domain domain => domain.bytes
  | .ipv6 address => ipv6Octets address

def parseAddress (addressType : UInt8) (address : Bytes) : Except NxrUdpError Address :=
  if addressType = addressIpv4 then
    if address.length = 4 then .ok (.ipv4 (ipv4OfOctets address)) else .error .address
  else if addressType = addressDomain then
    match Text.ofUtf8? address with
    | some domain => .ok (.domain domain)
    | none => .error .address
  else if addressType = addressIpv6 then
    if address.length = 16 then .ok (.ipv6 (ipv6OfOctets address)) else .error .address
  else .error .address

def decodeDestination (input : Bytes) : Except NxrUdpError (Destination × Nat) :=
  match input with
  | addressType :: len₀ :: len₁ :: port₀ :: port₁ :: rest =>
    let addressLen := ofBe [len₀, len₁]
    let port := portOfBytes [port₀, port₁]
    if port = 0 then .error .port
    else if rest.length < addressLen then .error .truncated
    else
      match parseAddress addressType (rest.take addressLen) with
      | .ok address => .ok (⟨address, port⟩, 5 + addressLen)
      | .error error => .error error
  | _ => .error .truncated

def readU16At (input : Bytes) (offset : Nat) : Except NxrUdpError Nat :=
  if offset + 2 ≤ input.length then .ok (ofBe (slice input offset (offset + 2))) else .error .length

/-! ### The session MAC -/

def frameMacLabel : Bytes := "rust-reality/nxr-udp/v1/frame-mac\x00".toUTF8.data.toList

variable (hmac : Hmac) (session : NxrUdpSessionKey)

def frameTag (direction : UInt8) (body : Bytes) : Bytes :=
  (hmac session.toList (frameMacLabel ++ [direction] ++ body)).toList

def verifyFrame (direction : UInt8) (body tag : Bytes) : Except NxrUdpError Unit :=
  if frameTag hmac session direction body = tag then .ok () else .error .authentication

/-! ### Frames -/

structure NxrUdpFrame where
  frameType : UInt8
  seq : UInt32
  destination : Option Destination
  payload : Bytes
  deriving DecidableEq

/-- The checks of the destination of a frame, with its address type and length. -/
def destinationShape : Option Destination → Except NxrUdpError (Option (UInt8 × Nat))
  | none => .ok none
  | some destination =>
    match addressShape destination.address with
    | .error error => .error error
    | .ok (kind, len) =>
      if destination.port = 0 then .error .port
      else if len ≥ 2 ^ 16 then .error .address
      else .ok (some (kind, len))

def destinationFields : Option Destination → Option (UInt8 × Nat) → Bytes
  | some destination, some (kind, len) =>
    kind :: beBytes 2 len ++ portBytes destination.port ++ addressBytes destination.address
  | _, _ => []

/-- `encode_frame`, with the output buffer after the call; `reserved` is the allocator's answer. -/
def encodeFrame (direction frameType : UInt8) (seq : UInt32)
    (destination : Option Destination) (payload output : Bytes) (reserved : Bool) :
    Bytes × Except NxrUdpError Unit :=
  if payload.length > nxrUdpMaxPayload then (output, .error .payload)
  else if ¬ (frameType = frameTypeDatagram ∨ frameType = frameTypeClose) then (output, .error .frameType)
  else if direction ≠ dirLineToLanding ∧ direction ≠ dirLandingToLine then (output, .error .direction)
  else
    match destinationShape destination with
    | .error error => (output, .error error)
    | .ok shape =>
      let flags : UInt8 := if destination.isSome then frameFlagDestination else 0
      let destLen := shape.elim 0 fun shape => 5 + shape.2
      let bodyLen := 1 + 1 + 4 + destLen + 2 + payload.length
      if bodyLen > maxFrameBodyLen then (output, .error .length)
      else if payload.length ≥ 2 ^ 16 then (output, .error .payload)
      else if bodyLen ≥ 2 ^ 32 then (output, .error .length)
      else if !reserved then ([], .error .allocation)
      else
        let body := frameType :: flags :: beBytes 4 seq.toNat ++ destinationFields destination shape ++
          beBytes 2 payload.length ++ payload
        (beBytes 4 bodyLen ++ body ++ frameTag hmac session direction body, .ok ())

def frameWireLenFromPrefix (front : Bytes) : Except NxrUdpError Nat :=
  if front.length < frameLenSize then .error .truncated
  else
    let bodyLen := ofBe (front.take frameLenSize)
    if bodyLen = 0 ∨ bodyLen > maxFrameBodyLen then .error .length
    else .ok (frameLenSize + bodyLen + sessionTagLen)

def parseFrameBody (body : Bytes) : Except NxrUdpError NxrUdpFrame :=
  if body.length < 8 then .error .length
  else
    match body with
    | frameType :: flags :: fields =>
      if ¬ (frameType = frameTypeDatagram ∨ frameType = frameTypeClose) then .error .frameType
      else if flags &&& ~~~frameFlagDestination ≠ 0 then .error .flags
      else do
        let seq := UInt32.ofNat (ofBe (fields.take 4))
        let (destination, offset) ←
          if flags &&& frameFlagDestination ≠ 0 then
            match decodeDestination (body.drop 6) with
            | .ok (destination, consumed) => Except.ok (some destination, 6 + consumed)
            | .error error => .error error
          else .ok (none, 6)
        let payloadLen ← readU16At body offset
        if payloadLen > nxrUdpMaxPayload then .error .payload
        else if offset + 2 + payloadLen ≠ body.length then .error .length
        else .ok { frameType, seq, destination, payload := slice body (offset + 2) (offset + 2 + payloadLen) }
    -- the body has at least eight bytes
    | _ => .error .length

def decodeFrame (input : Bytes) (session : NxrUdpSessionKey) (direction : UInt8) :
    Except NxrUdpError (NxrUdpFrame × Nat) := do
  let wireLen ← frameWireLenFromPrefix input
  if input.length < wireLen then .error .truncated
  else if wireLen < frameLenSize + sessionTagLen then .error .length
  else
    let bodyLen := wireLen - (frameLenSize + sessionTagLen)
    let body := slice input frameLenSize (frameLenSize + bodyLen)
    let tag := slice input (frameLenSize + bodyLen) wireLen
    let () ← verifyFrame hmac session direction body tag
    let frame ← parseFrameBody body
    .ok (frame, wireLen)

/-- The front of a buffer as `drain_frames` sees it. -/
def scanFrame (direction : UInt8) (buffer : Bytes) : FrameStream.Scan NxrUdpFrame NxrUdpError :=
  if buffer.length < frameLenSize then .incomplete
  else
    match frameWireLenFromPrefix buffer with
    | .error .truncated => .incomplete
    | .error error => .failed error
    | .ok wireLen =>
      if buffer.length < wireLen then .incomplete
      else
        match decodeFrame hmac (buffer.take wireLen) session direction with
        | .ok (frame, consumed) => .frame frame consumed
        | .error error => .failed error

/-- `drain_frames`, with the buffer after the call. -/
def drainFrames (direction : UInt8) (buffer : Bytes) : Bytes × Except NxrUdpError (List NxrUdpFrame) :=
  FrameStream.drain (scanFrame hmac session direction) buffer.length buffer

end RustReality.Nxr
