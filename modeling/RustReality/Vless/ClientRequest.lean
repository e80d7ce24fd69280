import RustReality.Vless.Addons
import RustReality.Vless.Request

/-!
# VLESS requests of the client

The client writes a request into a buffer it owns, with the Vision flow as its Addons. The server reads
the request back in front of any payload, and every cut of it as truncated.
-/

namespace RustReality.Vless
open Vector List

inductive RequestEncodeError
  | zeroPort
  | invalidDomain
  | bufferTooSmall (needed : Nat)
  deriving DecidableEq, Repr

variable (user : UserId)

/-- Version, user, Addons with their length, and command: what both kinds of request start with. -/
def visionHead (command : Command) : Bytes :=
  version :: user.toList ++ UInt8.ofNat (2 + visionFlow.bytes.length) :: visionAddons ++ [command.asByte]

/-- The request goes to the start of the output; what stands behind it stays. -/
def writeRequest (needed : Nat) (request output : Bytes) : Bytes × Except RequestEncodeError Nat :=
  if output.length < needed then (output, .error (.bufferTooSmall needed))
  else (overwrite output 0 request, .ok needed)

def addressLen : Address → Except RequestEncodeError Nat
  | .ipv4 _ => .ok 5
  | .ipv6 _ => .ok 17
  | .domain domain =>
    if domain.bytes.length = 0 ∨ domain.bytes.length > 255 ∨ ¬domain.bytes.all isDomainByte then .error .invalidDomain
    else .ok (2 + domain.bytes.length)

def encodeVisionTcpRequest (destination : Destination) (output : Bytes) : Bytes × Except RequestEncodeError Nat :=
  if destination.port = 0 then (output, .error .zeroPort)
  else
    match addressLen destination.address with
    | .error error => (output, .error error)
    | .ok addressLen =>
      let prefixLen := 1 + 16 + 1 + 2 + visionFlow.bytes.length + 1 + 2
      writeRequest (prefixLen + addressLen)
        (visionHead user .tcp ++ (portBytes destination.port ++ addressField destination.address)) output

def encodeVisionXudpRequest (output : Bytes) : Bytes × Except RequestEncodeError Nat :=
  writeRequest (1 + 16 + 1 + 2 + visionFlow.bytes.length + 1) (visionHead user .mux) output

/-! ### The server reads the request back -/

theorem length_visionHead (user : UserId) (command : Command) : (visionHead user command).length = 37 := by
  have hf : visionFlow.bytes.length = 16 := by decide +kernel
  rw [visionHead, visionAddons, length_append, length_append, length_cons, length_cons,
    length_cons, length_cons, hf, length_toList]
  rfl

theorem addressLen_ok {address : Address} {len : Nat} (h : addressLen address = .ok len) :
    validAddress address ∧ (addressField address).length = len := by
  cases address with
  | ipv4 bits =>
    cases h
    exact ⟨trivial, by rw [addressField, length_cons, length_ipv4Octets]⟩
  | ipv6 bits =>
    cases h
    exact ⟨trivial, by rw [addressField, length_cons, length_ipv6Octets]⟩
  | domain domain =>
    unfold addressLen at h
    dsimp only at h
    split_ifs at h with hi
    cases h
    rw [not_or, not_or, not_not] at hi
    refine ⟨⟨hi.1, Nat.not_lt.1 hi.2.1, hi.2.2⟩, ?_⟩
    rw [addressField, length_cons, length_cons]
    omega

theorem decodes_decodeHeader (user : UserId) (command : Command) {header : RequestHeader} {tail : Bytes}
    (ht : Cursor.Decodes DecodeError.Truncated
      (if command.requiresDestination then do
        let destination ← decodeDestination
        return ⟨version, user, visionAddons, command, some destination⟩
      else return ⟨version, user, visionAddons, command, none⟩) tail header) :
    Cursor.Decodes DecodeError.Truncated decodeHeader (visionHead user command ++ tail) header := by
  have hu : vectorAt 16 user.toList 0 = user := by
    have hl : user.toList.length = 16 := length_toList
    have hs := slice_whole user.toList
    rw [hl] at hs
    apply toList_inj.1
    rw [toList_vectorAt (by omega)]
    exact hs
  have ha : visionAddons.length = (UInt8.ofNat (2 + visionFlow.bytes.length)).toNat := by decide +kernel
  have hh : visionHead user command ++ tail = version :: (user.toList ++
      UInt8.ofNat (2 + visionFlow.bytes.length) :: (visionAddons ++ command.asByte :: tail)) := by
    simp [visionHead]
  rw [hh]
  refine (decodes_readU8 _ _).bind_cons ?_
  rw [if_neg (not_not.2 rfl)]
  refine (decodes_takeField "user ID" length_toList).bind ?_
  refine (decodes_readU8 _ _).bind_cons ?_
  refine (decodes_takeField "addons" ha).bind ?_
  refine (decodes_readU8 _ _).bind_cons ?_
  refine (decodes_decodeCommand command).nil_bind ?_
  rw [hu]
  exact ht

structure RequestRoundTrip (user : UserId) (command : Command) (destination : Option Destination) (wire : Bytes) :
    Prop where
  decoded : ∀ trailing, ∃ addons, decodeRequest (wire ++ trailing) =
      .ok ⟨⟨version, user, addons, command, destination⟩, trailing⟩ ∧
    Addons.parse addons = .ok { flow := some visionFlow }
  truncated : ∀ front, front <+: wire → front ≠ wire →
    ∃ field needed remaining, decodeRequest front = .error (.unexpectedEnd field needed remaining)

theorem requestRoundTrip_of_decodes {user : UserId} {command : Command} {destination : Option Destination} {wire : Bytes}
    (h : Cursor.Decodes DecodeError.Truncated decodeHeader wire ⟨version, user, visionAddons, command, destination⟩) :
    RequestRoundTrip user command destination wire where
  decoded trailing := by
    refine ⟨visionAddons, ?_, parse_visionAddons⟩
    rw [decodeRequest, h.reads]
    rfl
  truncated front hfront hne := by
    obtain ⟨error, he, hk⟩ := h.short front hfront hne
    rw [decodeRequest, he]
    cases error with
    | unexpectedEnd field needed remaining => exact ⟨field, needed, remaining, rfl⟩
    | unsupportedVersion | unknownCommand | unknownAddressType | emptyDomain | invalidDomainName => exact hk.elim

theorem writeRequest_ok {needed written : Nat} {request output output' : Bytes} (hn : request.length = needed)
    (h : writeRequest needed request output = (output', .ok written)) :
    output'.take written = request ∧ output'.drop written = output.drop written := by
  unfold writeRequest at h
  split at h
  · cases h
  cases h
  subst hn
  have ho : overwrite output 0 request = request ++ output.drop request.length := by
    rw [overwrite, take_zero, nil_append, Nat.zero_add]
  rw [ho]
  exact ⟨take_left, drop_left⟩

theorem writeRequest_error {needed : Nat} {request output output' : Bytes} {error : RequestEncodeError}
    (h : writeRequest needed request output = (output', .error error)) : output' = output := by
  unfold writeRequest at h
  split at h
  · cases h
    rfl
  · cases h

/-- The VLESS request round trip: whatever the client writes, for a TCP destination or for XUDP, the server
reads back as the same user, command, destination and Vision flow with any trailing bytes left over; it
reports every proper part of the front of it as truncated; the encoder touches nothing behind the
request, and nothing at all when it fails. -/
theorem vless_request_round_trip :
    (∀ (user : UserId) (destination : Destination) (output output' : Bytes) (written : Nat),
      encodeVisionTcpRequest user destination output = (output', .ok written) →
        RequestRoundTrip user .tcp (some destination) (output'.take written) ∧
          output'.drop written = output.drop written) ∧
    (∀ (user : UserId) (output output' : Bytes) (written : Nat),
      encodeVisionXudpRequest user output = (output', .ok written) →
        RequestRoundTrip user .mux none (output'.take written) ∧ output'.drop written = output.drop written) ∧
    (∀ (user : UserId) (destination : Destination) (output output' : Bytes) (error : RequestEncodeError),
      encodeVisionTcpRequest user destination output = (output', .error error) → output' = output) ∧
    (∀ (user : UserId) (output output' : Bytes) (error : RequestEncodeError),
      encodeVisionXudpRequest user output = (output', .error error) → output' = output) := by
  have hf : visionFlow.bytes.length = 16 := by decide +kernel
  refine ⟨?_, ?_, ?_, ?_⟩
  · intro user destination output output' written h
    unfold encodeVisionTcpRequest at h
    split at h
    · cases h
    cases hl : addressLen destination.address with
    | error error =>
      rw [hl] at h
      cases h
    | ok len =>
      rw [hl] at h
      obtain ⟨hv, hfi⟩ := addressLen_ok hl
      obtain ⟨hrq, hr⟩ := writeRequest_ok (by
        rw [length_append, length_append, length_visionHead, length_portBytes, hfi, hf]
        omega) h
      rw [hrq]
      refine ⟨requestRoundTrip_of_decodes (decodes_decodeHeader user .tcp ?_), hr⟩
      exact (decodes_decodeDestination hv).map _
  · intro user output output' written h
    obtain ⟨hrq, hr⟩ := writeRequest_ok (by rw [length_visionHead, hf]) h
    rw [hrq]
    have hh := decodes_decodeHeader user .mux (Cursor.Decodes.pure _ _)
    rw [append_nil] at hh
    exact ⟨requestRoundTrip_of_decodes hh, hr⟩
  · intro user destination output output' error h
    unfold encodeVisionTcpRequest at h
    split at h
    · cases h
      rfl
    cases hl : addressLen destination.address with
    | error error' =>
      rw [hl] at h
      cases h
      rfl
    | ok len =>
      rw [hl] at h
      exact writeRequest_error h
  · intro user output output' error h
    exact writeRequest_error h

def sampleHost : Text := ⟨[97, 46, 98], by decide +kernel⟩

def sampleUser : UserId := Vector.replicate 16 9

/-- The request of `sampleUser` for `sampleHost`, in front of what the buffer held. -/
def sampleBuffer : Bytes := visionHead sampleUser .tcp ++ [1, 187, 2, 3, 97, 46, 98] ++ [0, 0]

theorem vless_request_round_trip_domain :
    encodeVisionTcpRequest sampleUser ⟨.domain sampleHost, 443⟩ (List.replicate 46 0) = (sampleBuffer, .ok 44) ∧
      RequestRoundTrip sampleUser .tcp (some ⟨.domain sampleHost, 443⟩) (sampleBuffer.take 44) :=
  have hencoded : encodeVisionTcpRequest sampleUser ⟨.domain sampleHost, 443⟩ (List.replicate 46 0) =
      (sampleBuffer, .ok 44) := by decide +kernel
  ⟨hencoded, (vless_request_round_trip.1 _ _ _ _ _ hencoded).1⟩

end RustReality.Vless
