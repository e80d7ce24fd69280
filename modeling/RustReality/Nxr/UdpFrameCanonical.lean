import RustReality.Lib.Result
import RustReality.Nxr.UdpFrameRoundTrip

/-!
# Accepted NXR UDP frames are canonical

The fields of an accepted body fill it without a gap, so each body has one reading and the encoder
writes that reading back. What the decoder lets through beyond the encoder is an unknown direction
and a domain name that is empty or longer than the encoder's limit.
-/

namespace RustReality.Nxr
open List Vless

variable {hmac : Hmac} {session : NxrUdpSessionKey} {direction : UInt8}

def addressKind : Address → UInt8
  | .ipv4 _ => addressIpv4
  | .domain _ => addressDomain
  | .ipv6 _ => addressIpv6

def shapeOf (destination : Destination) : UInt8 × Nat :=
  (addressKind destination.address, (addressBytes destination.address).length)

def nameAllowed : Address → Bool
  | .domain name => 0 < name.bytes.length && name.bytes.length ≤ maxDomainLen
  | .ipv4 _ | .ipv6 _ => true

/-- What the encoder asks for beyond what the decoder has checked. -/
def Encodable (direction : UInt8) (frame : NxrUdpFrame) : Prop :=
  (direction = dirLineToLanding ∨ direction = dirLandingToLine) ∧
    frame.destination.all fun destination => nameAllowed destination.address

theorem parseAddress_ok {kind : UInt8} {bytes : Bytes} {address : Address}
    (h : parseAddress kind bytes = .ok address) : addressKind address = kind ∧ addressBytes address = bytes := by
  unfold parseAddress at h
  split_ifs at h with hv4 hl hd hv6 hl
  · cases h
    exact ⟨hv4.symm, ipv4Octets_ipv4OfOctets hl⟩
  · cases ht : Text.ofUtf8? bytes with
    | none => simp [ht] at h
    | some name =>
      simp only [ht, Except.ok.injEq] at h
      subst h
      exact ⟨hd.symm, Text.bytes_of_ofUtf8? ht⟩
  · cases h
    exact ⟨hv6.symm, ipv6Octets_ipv6OfOctets hl⟩

theorem decodeDestination_ok {input : Bytes} {destination : Destination} {consumed : Nat}
    (h : decodeDestination input = .ok (destination, consumed)) :
    destination.port ≠ 0 ∧ (shapeOf destination).2 < 2 ^ 16 ∧ consumed ≤ input.length ∧
      input.take consumed = destinationFields (some destination) (some (shapeOf destination)) := by
  unfold decodeDestination at h
  split at h
  case h_2 => cases h
  case h_1 kind len₀ len₁ port₀ port₁ rest =>
    dsimp only at h
    split_ifs at h with hpr hs
    cases hp : parseAddress kind (rest.take (ofBe [len₀, len₁])) with
    | error error => simp [hp] at h
    | ok address =>
      simp only [hp, Except.ok.injEq, Prod.mk.injEq] at h
      obtain ⟨rfl, rfl⟩ := h
      obtain ⟨hk, hb⟩ := parseAddress_ok hp
      have hl : (rest.take (ofBe [len₀, len₁])).length = ofBe [len₀, len₁] :=
        length_take_of_le (Nat.le_of_not_lt hs)
      have hr : beBytes 2 (ofBe [len₀, len₁]) = [len₀, len₁] := beBytes_ofBe_of rfl
      have hsm := ofBe_lt [len₀, len₁]
      refine ⟨hpr, ?_, ?_, ?_⟩
      · simpa [shapeOf, hb, hl] using hsm
      · simp only [length_cons]
        omega
      · simp [shapeOf, destinationFields, hk, hb, Nat.le_of_not_lt hs, hr,
          portBytes_portOfBytes, Nat.add_comm 5]

variable {frame : NxrUdpFrame}

theorem readPayload_ok {body : Bytes} {offset : Nat} {f : Bytes → NxrUdpFrame}
    (h : (do
      let payloadLen ← readU16At body offset
      if payloadLen > nxrUdpMaxPayload then Except.error NxrUdpError.payload
      else if offset + 2 + payloadLen ≠ body.length then .error .length
      else .ok (f (slice body (offset + 2) (offset + 2 + payloadLen)))) = .ok frame) :
    ∃ payload, frame = f payload ∧ payload.length ≤ nxrUdpMaxPayload ∧
      body = body.take offset ++ (beBytes 2 payload.length ++ payload) := by
  obtain ⟨payloadLen, hr, h⟩ := Result.bind_ok_iff.1 h
  unfold readU16At at hr
  split_ifs at hr h with hrm hlr he
  cases h
  have he : offset + 2 + payloadLen = body.length := not_not.1 he
  have hl : (slice body (offset + 2) (offset + 2 + payloadLen)).length = payloadLen := by
    rw [length_slice (by omega)]
    omega
  refine ⟨_, rfl, by omega, ?_⟩
  have hc : beBytes 2 payloadLen = slice body offset (offset + 2) := by
    cases hr
    exact beBytes_ofBe_of (by rw [length_slice hrm]; omega)
  rw [hl, hc, slice_join (by omega) (by omega), slice, he, take_length, take_append_drop]

theorem flags_eq {flags : UInt8} (h : flags &&& ~~~frameFlagDestination = 0) :
    flags = 0 ∨ flags = frameFlagDestination := by
  have hb (bits : BitVec 8) : bits &&& ~~~1#8 = 0#8 → bits = 0#8 ∨ bits = 1#8 := by
    revert bits
    decide
  rcases hb flags.toBitVec (congrArg UInt8.toBitVec h) with hz | ho
  · exact .inl (UInt8.toBitVec_inj.1 hz)
  · exact .inr (UInt8.toBitVec_inj.1 ho)

theorem parseFrameBody_ok {body : Bytes} (h : parseFrameBody body = .ok frame) :
    (frame.frameType = frameTypeDatagram ∨ frame.frameType = frameTypeClose) ∧
    frame.payload.length ≤ nxrUdpMaxPayload ∧
    (∀ destination ∈ frame.destination, destination.port ≠ 0 ∧ (shapeOf destination).2 < 2 ^ 16) ∧
    body = frameBody frame (frame.destination.map shapeOf) := by
  unfold parseFrameBody at h
  split_ifs at h with hsh
  split at h
  case h_2 => cases h
  case h_1 frameType flags fields =>
    have hs : beBytes 4 (UInt32.ofNat (ofBe (fields.take 4))).toNat = fields.take 4 := by
      have hl : (fields.take 4).length = 4 := length_take_of_le (by simp at hsh; omega)
      have hlt : ofBe (fields.take 4) < 2 ^ 32 := by
        have := ofBe_lt (fields.take 4)
        rw [hl] at this
        exact this
      rw [UInt32.toNat_ofNat', Nat.mod_eq_of_lt hlt, beBytes_ofBe_of hl]
    generalize UInt32.ofNat (ofBe (fields.take 4)) = seq at h hs
    split_ifs at h with ht hfl hc
    · -- a destination stands behind the sequence number
      have hf : flags = frameFlagDestination :=
        (flags_eq (not_not.1 hfl)).resolve_left fun hz => hc (by rw [hz]; rfl)
      cases hd : decodeDestination ((frameType :: flags :: fields).drop 6) with
      | error error =>
        simp only [hd] at h
        cases h
      | ok decoded =>
        obtain ⟨destination, consumed⟩ := decoded
        obtain ⟨hpr, hsm, -, hfi⟩ := decodeDestination_ok hd
        simp only [hd] at h
        obtain ⟨payload, rfl, hp, hb⟩ :=
          readPayload_ok (f := fun payload => ⟨frameType, seq, some destination, payload⟩) h
        refine ⟨ht, hp, by rintro _ ⟨⟩; exact ⟨hpr, hsm⟩, ?_⟩
        rw [hb, take_add, hfi]
        simp [frameBody, hs, hf]
    · have hf : flags = 0 := (flags_eq (not_not.1 hfl)).resolve_right fun ho => by
        rw [ho] at hc
        exact hc (by decide)
      obtain ⟨payload, rfl, hp, hb⟩ :=
        readPayload_ok (f := fun payload => ⟨frameType, seq, none, payload⟩) h
      refine ⟨ht, hp, by simp, ?_⟩
      rw [hb]
      simp [frameBody, destinationFields, hs, hf]

theorem decodeFrame_ok {input : Bytes} {consumed : Nat}
    (h : decodeFrame hmac input session direction = .ok (frame, consumed)) :
    ∃ body, parseFrameBody body = .ok frame ∧ body.length ≤ maxFrameBodyLen ∧
      input.take consumed = beBytes 4 body.length ++ body ++ frameTag hmac session direction body := by
  obtain ⟨wireLen, hw, h⟩ := Result.bind_ok_iff.1 h
  unfold frameWireLenFromPrefix at hw
  dsimp only at hw h
  split_ifs at hw h with hs hba ht htn
  cases hw
  obtain ⟨⟨⟩, hv, h⟩ := Result.bind_ok_iff.1 h
  obtain ⟨frame', hp, h⟩ := Result.bind_ok_iff.1 h
  cases h
  generalize hl : ofBe (input.take frameLenSize) = bodyLen at hba ht hv hp ⊢
  have hbd : frameLenSize + bodyLen + sessionTagLen - (frameLenSize + sessionTagLen) = bodyLen := by omega
  rw [hbd] at hv hp
  unfold verifyFrame at hv
  split_ifs at hv with htg
  have hb : (slice input frameLenSize (frameLenSize + bodyLen)).length = bodyLen := by
    rw [length_slice (by omega), Nat.add_sub_cancel_left]
  refine ⟨_, hp, by omega, ?_⟩
  have hpr : beBytes 4 bodyLen = slice input 0 frameLenSize := by
    rw [← hl]
    exact beBytes_ofBe_of (length_take_of_le (Nat.le_of_not_lt hs))
  rw [hb, hpr, htg, slice_join (Nat.zero_le _) (by omega), slice_join (Nat.zero_le _) (by omega)]
  rfl

/-- The encoder's check of a destination the decoder has accepted looks at its domain name only. -/
theorem destinationShape_eq {destination : Option Destination}
    (h : ∀ target ∈ destination, target.port ≠ 0 ∧ (shapeOf target).2 < 2 ^ 16) :
    destinationShape destination = if destination.all fun target => nameAllowed target.address
      then .ok (destination.map shapeOf) else .error .address := by
  cases destination with
  | none => rfl
  | some target =>
    obtain ⟨address, port⟩ := target
    obtain ⟨hp, hs⟩ := h _ rfl
    cases address with
    | ipv4 bits => simp_all [destinationShape, addressShape, shapeOf, addressKind, addressBytes, nameAllowed]
    | ipv6 bits => simp_all [destinationShape, addressShape, shapeOf, addressKind, addressBytes, nameAllowed]
    | domain name =>
      have hn : nameAllowed (.domain name) = true ↔
          ¬ (name.bytes.length = 0 ∨ name.bytes.length > maxDomainLen) := by
        simp [nameAllowed, Nat.pos_iff_ne_zero]
      simp only [destinationShape, addressShape, Option.all_some, hn, ite_not]
      split_ifs
      · rfl
      · exact if_neg (Nat.not_le.2 hs)

/-- An accepted frame is written back as the bytes it was read from exactly when its direction is one
of the two and its domain name, if any, has a length the encoder allows. -/
theorem accepted_frame_canonical_iff {input : Bytes} {frame : NxrUdpFrame} {consumed : Nat}
    (h : decodeFrame hmac input session direction = .ok (frame, consumed)) (output : Bytes) :
    encodeFrame hmac session direction frame.frameType frame.seq frame.destination frame.payload output true =
        (input.take consumed, .ok ()) ↔ Encodable direction frame := by
  obtain ⟨body, hpr, hm, hw⟩ := decodeFrame_ok h
  obtain ⟨ht, hp, hds, rfl⟩ := parseFrameBody_ok hpr
  unfold encodeFrame Encodable
  rw [if_neg (Nat.not_lt.2 hp), if_neg (not_not.2 ht), destinationShape_eq hds, hw]
  by_cases hd : direction = dirLineToLanding ∨ direction = dirLandingToLine
  · rw [if_neg (by rwa [← not_or, not_not])]
    by_cases hn : frame.destination.all fun target => nameAllowed target.address
    · have hs := (destinationShape_eq hds).trans (if_pos hn)
      obtain ⟨hl, -, -⟩ := length_frameBody hs hp
      have hwd : maxFrameBodyLen < 2 ^ 32 := by decide
      have hsm : nxrUdpMaxPayload < 2 ^ 16 := by decide
      rw [if_pos hn]
      dsimp only
      rw [← hl, if_neg (Nat.not_lt.2 hm), if_neg (by omega), if_neg (by omega)]
      exact iff_of_true rfl ⟨hd, hn⟩
    · rw [if_neg hn]
      exact iff_of_false (by simp) fun hok => hn hok.2
  · rw [if_pos (not_or.1 hd)]
    exact iff_of_false (by simp) fun hok => hd hok.1

theorem accepted_frame_canonical_domain :
    encodeFrame zeroMac (Vector.replicate 32 0) dirLineToLanding frameTypeDatagram 0 (some letterTarget) [7] [] true =
      (zeroFrame 1 [addressDomain, 0, 1, 1, 187, 97, 0, 1, 7], .ok ()) :=
  have ha : decodeFrame zeroMac (zeroFrame 1 [addressDomain, 0, 1, 1, 187, 97, 0, 1, 7]) (Vector.replicate 32 0)
      dirLineToLanding = .ok (⟨frameTypeDatagram, 0, some letterTarget, [7]⟩, 51) := by decide
  (accepted_frame_canonical_iff ha []).2 ⟨.inl rfl, rfl⟩

/-- A frame to an empty domain name is accepted, and the encoder refuses to write it. -/
theorem empty_domain_not_canonical :
    decodeFrame zeroMac (zeroFrame 1 [addressDomain, 0, 0, 1, 187, 0, 1, 7]) (Vector.replicate 32 0) dirLineToLanding =
      .ok (⟨frameTypeDatagram, 0, some ⟨.domain ⟨[], by decide⟩, 443⟩, [7]⟩, 50) ∧
    encodeFrame zeroMac (Vector.replicate 32 0) dirLineToLanding frameTypeDatagram 0
      (some ⟨.domain ⟨[], by decide⟩, 443⟩) [7] [] true = ([], .error .address) :=
  ⟨by decide, by decide⟩

end RustReality.Nxr
