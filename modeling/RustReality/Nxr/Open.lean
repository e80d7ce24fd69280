import RustReality.Lib.Clock
import RustReality.Lib.Result
import RustReality.Nxr.UdpFrame
import RustReality.Replay.NonceCache

/-!
# NXR opens

A connection to an NXR landing starts with an authenticated request of TCP or UDP mode. Both modes
have one layout; a UDP open has the user id between the address and the tag. `openRequest` is what the
landing does with a request up to the reservation of its nonce.
-/

namespace RustReality.Nxr

open Vless Replay Clock

abbrev NxrKey := Vector UInt8 32

def magic : Bytes := [78, 88, 82, 1]

def flagTcp : UInt8 := 0

def flagUdp : UInt8 := 1

def flagsOffset : Nat := 4

def addressTypeOffset : Nat := 5

def addressLengthOffset : Nat := 6

def portOffset : Nat := 8

def timestampOffset : Nat := 10

def nonceOffset : Nat := 18

def addressOffset : Nat := 34

def requestHeaderLen : Nat := 34

def tagLen : Nat := 32

def maxRequestLen : Nat := requestHeaderLen + maxDomainLen + tagLen

def userIdLen : Nat := 16

inductive NxrProtocolError
  | length
  | version
  | flags
  | address
  | port
  | timeWindow
  | authentication
  | allocation
  deriving DecidableEq, Repr

def NxrProtocolError.ofUdp : NxrUdpError → NxrProtocolError
  | .length | .truncated | .payload => .length
  | .version => .version
  | .flags | .wrongMode | .frameType | .direction | .sequence => .flags
  | .address => .address
  | .port => .port
  | .timeWindow => .timeWindow
  | .authentication => .authentication
  | .allocation => .allocation

/-! ### Fields -/

def addressLenValid (addressType : UInt8) (addressLen : Nat) : Bool :=
  if addressType = addressIpv4 then addressLen == 4
  else if addressType = addressDomain then decide (1 ≤ addressLen ∧ addressLen ≤ maxDomainLen)
  else if addressType = addressIpv6 then addressLen == 16
  else false

def timestampAt (request : Bytes) : Nat := ofBe (slice request timestampOffset (timestampOffset + 8))

def nonceAt (request : Bytes) : Nonce := vectorAt 16 request nonceOffset

/-! ### Both modes -/

/-- What a mode has of its own: its flag, the length of what follows the address, the bound on the whole
request that its length function checks, and its errors. -/
structure OpenMode (ε : Type) where
  flag : UInt8
  trailer : Nat
  bound : Option Nat
  length : ε
  version : ε
  wrongFlag : ε
  address : ε
  port : ε
  timeWindow : ε
  authentication : ε

structure OpenFields where
  timestamp : Nat
  nonce : Nonce
  destination : Destination
  trailer : Bytes

variable {ε : Type}

def openLenFromHeader (mode : OpenMode ε) (header : Bytes) : Except ε Nat :=
  if header.length ≠ requestHeaderLen then .error mode.length
  else if header.take magic.length ≠ magic then .error mode.version
  else if header.getD flagsOffset 0 ≠ mode.flag then .error mode.wrongFlag
  else
    let addressLen := ofBe (slice header addressLengthOffset (addressLengthOffset + 2))
    if !addressLenValid (header.getD addressTypeOffset 0) addressLen then .error mode.address
    else
      let len := requestHeaderLen + addressLen + mode.trailer + tagLen
      if mode.bound.any (· < len) then .error mode.length else .ok len

def decodeOpen (mode : OpenMode ε) (hmac : Hmac) (input : Bytes) (key : NxrKey) (now maximumTimeDifference : Nat) :
    Except ε OpenFields :=
  if input.length < requestHeaderLen then .error mode.length
  else do
    let header := input.take requestHeaderLen
    let expected ← openLenFromHeader mode header
    if input.length ≠ expected then .error mode.length
    else
      let authenticatedLen := expected - tagLen
      if (hmac key.toList (input.take authenticatedLen)).toList ≠ input.drop authenticatedLen then
        .error mode.authentication
      else if absDiff (timestampAt header) now > maximumTimeDifference then .error mode.timeWindow
      else
        let port := portOfBytes (slice header portOffset (portOffset + 2))
        if port = 0 then .error mode.port
        else
          let addressEnd := authenticatedLen - mode.trailer
          match parseAddress (header.getD addressTypeOffset 0) (slice input addressOffset addressEnd) with
          | .error _ => .error mode.address
          | .ok address =>
            .ok
              { timestamp := timestampAt header, nonce := nonceAt header, destination := ⟨address, port⟩,
                trailer := slice input addressEnd authenticatedLen }

/-! ### TCP mode -/

def tcpMode : OpenMode NxrProtocolError where
  flag := flagTcp
  trailer := 0
  bound := some maxRequestLen
  length := .length
  version := .version
  wrongFlag := .flags
  address := .address
  port := .port
  timeWindow := .timeWindow
  authentication := .authentication

structure AuthenticatedRequest where
  timestamp : Nat
  nonce : Nonce
  destination : Destination

variable (header : Bytes)

def requestLenFromHeader : Except NxrProtocolError Nat := openLenFromHeader tcpMode header

variable (hmac : Hmac)

def decodeAuthenticatedRequest (input : Bytes) (key : NxrKey) (now maximumTimeDifference : Nat) :
    Except NxrProtocolError AuthenticatedRequest :=
  (decodeOpen tcpMode hmac input key now maximumTimeDifference).map fun fields =>
    { timestamp := fields.timestamp, nonce := fields.nonce, destination := fields.destination }

/-! ### UDP mode -/

def udpMode : OpenMode NxrUdpError where
  flag := flagUdp
  trailer := userIdLen
  bound := none
  length := .length
  version := .version
  wrongFlag := .wrongMode
  address := .address
  port := .port
  timeWindow := .timeWindow
  authentication := .authentication

structure UdpAuthenticatedOpen where
  timestamp : Nat
  nonce : Nonce
  destination : Destination
  userId : Vector UInt8 16
  deriving DecidableEq

def udpOpenLenFromHeader : Except NxrUdpError Nat := openLenFromHeader udpMode header

def decodeUdpOpen (input : Bytes) (key : NxrKey) (now maximumTimeDifference : Nat) :
    Except NxrUdpError UdpAuthenticatedOpen :=
  (decodeOpen udpMode hmac input key now maximumTimeDifference).map fun fields =>
    { timestamp := fields.timestamp, nonce := fields.nonce, destination := fields.destination,
      userId := vectorAt 16 fields.trailer 0 }

def sessionMacLabel : Bytes := "rust-reality/nxr-udp/v1/session-mac\x00".toUTF8.data.toList

def deriveSessionKey (key : NxrKey) (openAuthenticatedPrefix : Bytes) : NxrUdpSessionKey :=
  hmac key.toList (sessionMacLabel ++ openAuthenticatedPrefix)

/-! ### The landing -/

def peekOpenFlags : Option UInt8 :=
  if header.length < requestHeaderLen ∨ header.take magic.length ≠ magic then none
  else some (header.getD flagsOffset 0)

structure NxrAuthenticator where
  key : NxrKey
  maximumTimeDifference : Nat

inductive Opened
  | tcp (destination : Destination)
  | udp (request : UdpAuthenticatedOpen) (session : NxrUdpSessionKey)
  deriving DecidableEq

/-- `handle` from the request to the reservation: the nonce to reserve, and what is served once it is. -/
def openRequest (authenticator : NxrAuthenticator) (request : Bytes) (now : Nat) :
    Except NxrProtocolError (Nonce × Opened) :=
  let { key, maximumTimeDifference } := authenticator
  if request.length < requestHeaderLen then .error .version
  else
    match peekOpenFlags (request.take requestHeaderLen) with
    | none => .error .version
    | some flags =>
      if flags = flagTcp then
        match decodeAuthenticatedRequest hmac request key now maximumTimeDifference with
        | .error error => .error error
        | .ok authenticated => .ok (authenticated.nonce, .tcp authenticated.destination)
      else if flags = flagUdp then
        match decodeUdpOpen hmac request key now maximumTimeDifference with
        | .error error => .error (.ofUdp error)
        -- a decoded request is longer than its tag
        | .ok authenticated =>
          .ok (authenticated.nonce, .udp authenticated (deriveSessionKey hmac key (request.take (request.length - tagLen))))
      else .error .flags

/-! ### What a decoded open says -/

theorem timestampAt_header (request : Bytes) : timestampAt (request.take requestHeaderLen) = timestampAt request := by
  unfold timestampAt
  rw [slice_take (by decide)]

theorem nonceAt_header (request : Bytes) : nonceAt (request.take requestHeaderLen) = nonceAt request :=
  vectorAt_take (by decide) request

theorem decodeOpen_ok {mode : OpenMode ε} {hmac : Hmac} {input : Bytes} {key : NxrKey} {now difference : Nat}
    {fields : OpenFields} (h : decodeOpen mode hmac input key now difference = .ok fields) :
    fields.nonce = nonceAt input ∧ absDiff (timestampAt input) now ≤ difference := by
  unfold decodeOpen at h
  simp only [Result.ite_error_ok_iff, Result.bind_ok_iff, timestampAt_header, nonceAt_header] at h
  obtain ⟨-, _, -, -, -, hwindow, -, h⟩ := h
  split at h
  · cases h
  · cases h
    exact ⟨rfl, Nat.le_of_not_lt hwindow⟩

/-- The nonce that is reserved and the timestamp that is checked are the ones in the request. -/
theorem openRequest_ok {hmac : Hmac} {authenticator : NxrAuthenticator} {request : Bytes} {now : Nat} {nonce : Nonce}
    {opened : Opened} (h : openRequest hmac authenticator request now = .ok (nonce, opened)) :
    nonce = nonceAt request ∧ absDiff (timestampAt request) now ≤ authenticator.maximumTimeDifference := by
  unfold openRequest at h
  obtain ⟨-, h⟩ := Result.ite_error_ok_iff.1 h
  split at h
  · cases h
  · split_ifs at h
    · split at h
      · cases h
      · next hdecoded =>
        cases h
        obtain ⟨fields, hopen, rfl⟩ := Result.map_ok_iff.1 hdecoded
        exact decodeOpen_ok hopen
    · split at h
      · cases h
      · next hdecoded =>
        cases h
        obtain ⟨fields, hopen, rfl⟩ := Result.map_ok_iff.1 hdecoded
        exact decodeOpen_ok hopen

end RustReality.Nxr
