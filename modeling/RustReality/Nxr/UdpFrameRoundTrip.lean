import RustReality.Nxr.UdpFrame

/-!
# NXR UDP frames on a stream

The length a receiver reads from the first four bytes is the length the sender wrote, and the body
between prefix and tag parses back to the frame for every address form. So every cutting of a
sequence of frames into reads drains to exactly the frames.
-/

namespace RustReality.Nxr
open FrameStream List Vless

theorem parseAddress_shape {address : Address} {kind : UInt8} {len : Nat}
    (h : addressShape address = .ok (kind, len)) :
    parseAddress kind (addressBytes address) = .ok address ∧ (addressBytes address).length = len ∧ len ≤ 253 := by
  cases address with
  | ipv4 bits =>
    cases h
    exact ⟨by simp [parseAddress, addressBytes], by simp [addressBytes], by decide⟩
  | ipv6 bits =>
    cases h
    exact ⟨by simp [parseAddress, addressBytes, addressIpv4, addressIpv6, addressDomain],
      by simp [addressBytes], by decide⟩
  | domain domain =>
    unfold addressShape at h
    dsimp only at h
    split_ifs at h with hb
    cases h
    refine ⟨by simp [parseAddress, addressBytes, addressIpv4, addressDomain], rfl, ?_⟩
    rw [not_or] at hb
    exact Nat.not_lt.1 hb.2

variable {shape : Option (UInt8 × Nat)}

theorem decodeDestination_fields {destination : Destination}
    (h : destinationShape (some destination) = .ok shape) (rest : Bytes) :
    decodeDestination (destinationFields (some destination) shape ++ rest) =
        .ok (destination, (destinationFields (some destination) shape).length) ∧
      ∃ kind len, shape = some (kind, len) ∧ len ≤ 253 ∧
        (destinationFields (some destination) shape).length = 5 + len := by
  unfold destinationShape at h
  dsimp only at h
  cases hs : addressShape destination.address with
  | error error =>
    rw [hs] at h
    cases h
  | ok pair =>
    obtain ⟨kind, len⟩ := pair
    obtain ⟨hpr, hl, hle⟩ := parseAddress_shape hs
    rw [hs] at h
    dsimp only at h
    split_ifs at h with hp hw
    cases h
    obtain ⟨address, port⟩ := destination
    have hf : (destinationFields (some ⟨address, port⟩) (some (kind, len))).length = 5 + len := by
      simp [destinationFields, hl]
      omega
    refine ⟨?_, kind, len, rfl, hle, hf⟩
    rw [hf]
    obtain ⟨port₀, port₁, hb⟩ : ∃ port₀ port₁, portBytes port = [port₀, port₁] := ⟨_, _, rfl⟩
    obtain ⟨len₀, len₁, hln⟩ : ∃ len₀ len₁, beBytes 2 len = [len₀, len₁] := ⟨_, _, rfl⟩
    have hr : portOfBytes [port₀, port₁] = port := by rw [← hb, portOfBytes_portBytes]
    have hrl : ofBe [len₀, len₁] = len := by rw [← hln, ofBe_beBytes (by omega)]
    have ht : (addressBytes address ++ rest).take len = addressBytes address := take_left' hl
    simp only [destinationFields, hb, hln, cons_append, nil_append, decodeDestination,
      hr, hrl, ht, hpr]
    rw [if_neg hp, if_neg (by simp [hl])]

def frameBody (frame : NxrUdpFrame) (shape : Option (UInt8 × Nat)) : Bytes :=
  frame.frameType :: (if frame.destination.isSome then frameFlagDestination else 0) :: beBytes 4 frame.seq.toNat ++
    destinationFields frame.destination shape ++ beBytes 2 frame.payload.length ++ frame.payload

theorem parseFrameBody_frameBody {frame : NxrUdpFrame}
    (hty : frame.frameType = frameTypeDatagram ∨ frame.frameType = frameTypeClose)
    (hs : destinationShape frame.destination = .ok shape) (hp : frame.payload.length ≤ nxrUdpMaxPayload) :
    parseFrameBody (frameBody frame shape) = .ok frame := by
  obtain ⟨frameType, seq, destination, payload⟩ := frame
  have hsm : payload.length < 256 ^ 2 := Nat.lt_of_le_of_lt hp (by decide)
  -- the part behind the destination, read at the offset where the destination ends
  have htl : ∀ front : Bytes,
      readU16At (front ++ beBytes 2 payload.length ++ payload) front.length = .ok payload.length ∧
      slice (front ++ beBytes 2 payload.length ++ payload) (front.length + 2) (front.length + 2 + payload.length) =
        payload := by
    intro front
    constructor
    · have h := slice_middle front (beBytes 2 payload.length) payload
      rw [length_beBytes] at h
      rw [readU16At, if_pos (by simp), h, ofBe_beBytes hsm]
    · have h := slice_middle (front ++ beBytes 2 payload.length) payload []
      rw [append_nil, length_append, length_beBytes] at h
      exact h
  have hsq : UInt32.ofNat (ofBe (beBytes 4 seq.toNat)) = seq := by
    rw [ofBe_beBytes seq.toNat_lt, UInt32.ofNat_toNat]
  cases destination with
  | none =>
    cases hs
    have h := htl (frameType :: 0 :: beBytes 4 seq.toNat)
    have ht : (beBytes 4 seq.toNat ++ (beBytes 2 payload.length ++ payload)).take 4 = beBytes 4 seq.toNat :=
      take_left' (length_beBytes _ _)
    simp only [length_cons, length_beBytes, cons_append, append_assoc] at h
    simp only [frameBody, destinationFields, parseFrameBody, Option.isSome_none, Bool.false_eq_true, if_false,
      append_nil, cons_append, append_assoc, ht, hsq]
    rw [if_neg (by simp; omega), if_neg (not_not.2 hty), if_neg (by decide), if_neg (by decide)]
    simp only [Bind.bind, Except.bind]
    rw [h.1]
    dsimp only
    rw [if_neg (Nat.not_lt.2 hp), if_neg (by simp; omega), h.2]
  | some destination =>
    obtain ⟨hd, kind, len, rfl, hle, hf⟩ :=
      decodeDestination_fields hs (beBytes 2 payload.length ++ payload)
    generalize hds : destinationFields (some destination) (some (kind, len)) = fields at hd hf
    have h := htl (frameType :: frameFlagDestination :: beBytes 4 seq.toNat ++ fields)
    have ht : (beBytes 4 seq.toNat ++ (fields ++ (beBytes 2 payload.length ++ payload))).take 4 =
        beBytes 4 seq.toNat := take_left' (length_beBytes _ _)
    have hdr : (frameType :: frameFlagDestination :: (beBytes 4 seq.toNat ++
        (fields ++ (beBytes 2 payload.length ++ payload)))).drop 6 = fields ++ (beBytes 2 payload.length ++ payload) := by
      exact drop_left' (length_beBytes _ _)
    simp only [length_cons, length_append, length_beBytes, cons_append, append_assoc] at h
    have ho : 6 + fields.length = 4 + fields.length + 1 + 1 := by omega
    simp only [frameBody, hds, parseFrameBody, Option.isSome_some, if_true, cons_append,
      append_assoc, ht, hsq]
    rw [if_neg (by simp; omega), if_neg (not_not.2 hty), if_neg (by decide), if_pos (by decide), hdr, hd]
    simp only [Bind.bind, Except.bind, ho]
    rw [h.1]
    dsimp only
    rw [if_neg (Nat.not_lt.2 hp), if_neg (by simp; omega), h.2]

theorem length_frameBody {frame : NxrUdpFrame}
    (hs : destinationShape frame.destination = .ok shape) (hp : frame.payload.length ≤ nxrUdpMaxPayload) :
    (frameBody frame shape).length = 1 + 1 + 4 + shape.elim 0 (fun shape => 5 + shape.2) + 2 +
        frame.payload.length ∧ 0 < (frameBody frame shape).length ∧
      (frameBody frame shape).length ≤ maxFrameBodyLen := by
  obtain ⟨frameType, seq, destination, payload⟩ := frame
  dsimp only at hs hp
  have hm : maxFrameBodyLen = 266 + nxrUdpMaxPayload := rfl
  cases destination with
  | none =>
    cases hs
    have hl : (frameBody ⟨frameType, seq, none, payload⟩ none).length = 8 + payload.length := by
      simp [frameBody, destinationFields]
      omega
    refine ⟨?_, by omega, by omega⟩
    show _ = 1 + 1 + 4 + 0 + 2 + payload.length
    omega
  | some destination =>
    obtain ⟨-, kind, len, rfl, hle, hf⟩ := decodeDestination_fields hs []
    have hl : (frameBody ⟨frameType, seq, some destination, payload⟩ (some (kind, len))).length =
        13 + len + payload.length := by
      simp [frameBody, hf]
      omega
    refine ⟨?_, by omega, by omega⟩
    show _ = 1 + 1 + 4 + (5 + len) + 2 + payload.length
    omega

variable {hmac : Hmac} {session : NxrUdpSessionKey} {direction : UInt8}

@[simp] theorem length_frameTag (body : Bytes) : (frameTag hmac session direction body).length = sessionTagLen := by
  simp [frameTag, sessionTagLen]

structure FrameLayout (hmac : Hmac) (session : NxrUdpSessionKey) (direction : UInt8) (frame : NxrUdpFrame)
    (body wire : Bytes) : Prop where
  wire_eq : wire = beBytes 4 body.length ++ body ++ frameTag hmac session direction body
  pos : 0 < body.length
  le : body.length ≤ maxFrameBodyLen
  parse_eq : parseFrameBody body = .ok frame

/-- What a call of the encoder leaves in the output: what was there, nothing, or one whole frame. -/
inductive Encoded (hmac : Hmac) (session : NxrUdpSessionKey) (direction : UInt8) (frame : NxrUdpFrame)
    (output : Bytes) (reserved : Bool) : Bytes × Except NxrUdpError Unit → Prop
  | refused (error : NxrUdpError) : Encoded hmac session direction frame output reserved (output, .error error)
  | unallocated (h : reserved = false) :
      Encoded hmac session direction frame output reserved ([], .error .allocation)
  | done {body wire : Bytes} (h : FrameLayout hmac session direction frame body wire) (hreserved : reserved = true) :
      Encoded hmac session direction frame output reserved (wire, .ok ())

theorem encoded_encodeFrame (hmac : Hmac) (session : NxrUdpSessionKey) (direction : UInt8) (frame : NxrUdpFrame)
    (output : Bytes) (reserved : Bool) :
    Encoded hmac session direction frame output reserved
      (encodeFrame hmac session direction frame.frameType frame.seq frame.destination frame.payload output reserved) := by
  unfold encodeFrame
  by_cases hpa : frame.payload.length > nxrUdpMaxPayload
  · rw [if_pos hpa]
    exact .refused _
  by_cases ht : ¬ (frame.frameType = frameTypeDatagram ∨ frame.frameType = frameTypeClose)
  · rw [if_neg hpa, if_pos ht]
    exact .refused _
  by_cases hd : direction ≠ dirLineToLanding ∧ direction ≠ dirLandingToLine
  · rw [if_neg hpa, if_neg ht, if_pos hd]
    exact .refused _
  rw [if_neg hpa, if_neg ht, if_neg hd]
  have hle : frame.payload.length ≤ nxrUdpMaxPayload := Nat.not_lt.1 hpa
  cases hs : destinationShape frame.destination with
  | error error => exact .refused error
  | ok shape =>
    obtain ⟨hl, hp, hm⟩ := length_frameBody hs hle
    have hw : maxFrameBodyLen < 2 ^ 32 := by decide
    have hsm : nxrUdpMaxPayload < 2 ^ 16 := by decide
    dsimp only
    rw [← hl, if_neg (Nat.not_lt.2 hm), if_neg (by omega), if_neg (by omega)]
    cases reserved with
    | false => exact .unallocated rfl
    | true =>
      have hpr := parseFrameBody_frameBody (not_not.1 ht) hs hle
      exact .done ⟨rfl, hp, hm, hpr⟩ rfl

def FrameEncodes (hmac : Hmac) (session : NxrUdpSessionKey) (direction : UInt8) (frame : NxrUdpFrame)
    (wire : Bytes) : Prop :=
  encodeFrame hmac session direction frame.frameType frame.seq frame.destination frame.payload [] true = (wire, .ok ())

theorem FrameEncodes.layout {frame : NxrUdpFrame} {wire : Bytes} (h : FrameEncodes hmac session direction frame wire) :
    ∃ body, FrameLayout hmac session direction frame body wire := by
  have hc := encoded_encodeFrame hmac session direction frame [] true
  rw [h] at hc
  cases hc with
  | done hl _ => exact ⟨_, hl⟩

namespace FrameLayout

variable {frame : NxrUdpFrame} {body wire : Bytes}

theorem length_wire (h : FrameLayout hmac session direction frame body wire) :
    wire.length = frameLenSize + body.length + sessionTagLen := by
  rw [h.wire_eq, length_append, length_append, length_beBytes, length_frameTag]
  rfl

theorem wireLen (h : FrameLayout hmac session direction frame body wire) {front : Bytes}
    (hf : front.take 4 = beBytes 4 body.length) : frameWireLenFromPrefix front = .ok wire.length := by
  have hm : maxFrameBodyLen < 256 ^ 4 := by decide
  have hl : 4 ≤ front.length := by
    have hc := congrArg List.length hf
    rw [length_take, length_beBytes] at hc
    omega
  have hle := h.le
  have hp := h.pos
  have hr : ofBe (front.take frameLenSize) = body.length := by
    rw [show frameLenSize = 4 from rfl, hf, ofBe_beBytes (by omega)]
  rw [frameWireLenFromPrefix, if_neg (by unfold frameLenSize; omega), hr, h.length_wire]
  dsimp only
  rw [if_neg (by omega)]

theorem decode (h : FrameLayout hmac session direction frame body wire) :
    decodeFrame hmac wire session direction = .ok (frame, wire.length) := by
  have ht : wire.take 4 = beBytes 4 body.length := by
    rw [h.wire_eq, append_assoc]
    exact take_left' (length_beBytes _ _)
  have hl := h.length_wire
  have hbd : wire.length - (frameLenSize + sessionTagLen) = body.length := by omega
  have hb : slice wire frameLenSize (frameLenSize + body.length) = body := by
    rw [h.wire_eq]
    have hm := slice_middle (beBytes 4 body.length) body (frameTag hmac session direction body)
    rwa [length_beBytes] at hm
  have htg : slice wire (frameLenSize + body.length) wire.length = frameTag hmac session direction body := by
    have hm := slice_middle (beBytes 4 body.length ++ body) (frameTag hmac session direction body) []
    rw [append_nil, length_append, length_beBytes, length_frameTag, ← h.wire_eq] at hm
    rw [hl]
    exact hm
  unfold decodeFrame
  rw [h.wireLen ht]
  simp only [Bind.bind, Except.bind]
  rw [if_neg (by omega), if_neg (by omega), hbd, hb, htg, verifyFrame, if_pos rfl]
  dsimp only
  rw [h.parse_eq]

theorem scan_append (h : FrameLayout hmac session direction frame body wire) (rest : Bytes) :
    scanFrame hmac session direction (wire ++ rest) = .frame frame wire.length := by
  have hl := h.length_wire
  have ht : (wire ++ rest).take 4 = beBytes 4 body.length := by
    rw [h.wire_eq, append_assoc, append_assoc]
    exact take_left' (length_beBytes _ _)
  rw [scanFrame, if_neg (by rw [length_append]; omega), h.wireLen ht]
  dsimp only
  rw [if_neg (by rw [length_append]; omega), take_left, h.decode]

theorem scan_part (h : FrameLayout hmac session direction frame body wire) {front : Bytes} (hf : front <+: wire)
    (hne : front ≠ wire) : scanFrame hmac session direction front = .incomplete := by
  have hs : front.length < wire.length := by
    rcases Nat.lt_or_ge front.length wire.length with hlt | hge
    · exact hlt
    · exact absurd (hf.eq_of_length (Nat.le_antisymm hf.length_le hge)) hne
  unfold scanFrame
  by_cases hh : front.length < frameLenSize
  · rw [if_pos hh]
  have hh' : 4 ≤ front.length := Nat.not_lt.1 hh
  have ht : front.take 4 = beBytes 4 body.length := by
    have hp : front.take 4 <+: wire := (List.take_prefix _ _).trans hf
    rw [h.wire_eq, append_assoc] at hp
    have hp' := prefix_of_prefix_length_le hp (prefix_append _ _) (by rw [length_take, length_beBytes]; omega)
    exact hp'.eq_of_length (by rw [length_take, length_beBytes]; omega)
  rw [if_neg hh, h.wireLen ht]
  dsimp only
  rw [if_pos hs]

end FrameLayout

theorem framed_frame (hmac : Hmac) (session : NxrUdpSessionKey) (direction : UInt8) :
    FrameStream.Framed (scanFrame hmac session direction) (FrameEncodes hmac session direction) := by
  refine ⟨rfl, ?_, ?_, ?_⟩
  · intro frame wire h hn
    obtain ⟨body, hla⟩ := h.layout
    have hl := hla.length_wire
    rw [hn] at hl
    simp [frameLenSize] at hl
    omega
  · intro frame wire h rest
    obtain ⟨body, hla⟩ := h.layout
    exact hla.scan_append rest
  · intro frame wire h front hf hne
    obtain ⟨body, hla⟩ := h.layout
    exact hla.scan_part hf hne

theorem drained_frames (hmac : Hmac) (session : NxrUdpSessionKey) (direction : UInt8)
    (sent : List (NxrUdpFrame × Bytes)) (buffer : Bytes)
    (hs : ∀ frame ∈ sent, FrameEncodes hmac session direction frame.1 frame.2)
    (hb : buffer <+: wireOf sent) :
    FrameStream.Drained (drainFrames hmac session direction) sent buffer := by
  obtain ⟨front, back, rest, hsp, hw, hst, hd⟩ :=
    drained_of_framed (framed_frame hmac session direction) buffer.length hs hb (Nat.le_refl _)
  exact ⟨front, back, rest, hsp, hw, hst, hd⟩

/-- The NXR UDP codec on a stream, for every MAC function, session key and direction: an encoded
frame decodes to the frame it was made of, every cutting of the front of a sequence of frames into
reads yields the frames that are complete and no error, of the whole sequence all frames with nothing
left over, and a failed encode leaves the output as it was or empty. -/
theorem nxr_udp_stream (hmac : Hmac) (session : NxrUdpSessionKey) (direction : UInt8) :
    (∀ (frame : NxrUdpFrame) (output : Bytes) (reserved : Bool) (wire : Bytes),
      encodeFrame hmac session direction frame.frameType frame.seq frame.destination frame.payload output reserved =
        (wire, .ok ()) →
      decodeFrame hmac wire session direction = .ok (frame, wire.length)) ∧
    (∀ (sent : List (NxrUdpFrame × Bytes)) (chunks : List Bytes),
      (∀ frame ∈ sent, FrameEncodes hmac session direction frame.1 frame.2) →
      (chunks.flatten = wireOf sent →
        reads (drainFrames hmac session direction) [] chunks = ([], .ok (sent.map Prod.fst))) ∧
      (chunks.flatten <+: wireOf sent → ∃ front back rest, sent = front ++ back ∧
        chunks.flatten = wireOf front ++ rest ∧ FrameStream.Stuck rest back ∧
        reads (drainFrames hmac session direction) [] chunks = (rest, .ok (front.map Prod.fst)))) ∧
    (∀ (frame : NxrUdpFrame) (output : Bytes) (reserved : Bool) (left : Bytes) (error : NxrUdpError),
      encodeFrame hmac session direction frame.frameType frame.seq frame.destination frame.payload output reserved =
        (left, .error error) → left = output ∨ left = []) := by
  refine ⟨?_, ?_, ?_⟩
  · intro frame output reserved wire he
    have hc := encoded_encodeFrame hmac session direction frame output reserved
    rw [he] at hc
    cases hc with
    | done hl _ => exact hl.decode
  · intro sent chunks hs
    constructor
    · intro hch
      exact reads_all (drained_frames hmac session direction)
        (framed_frame hmac session direction).nonempty hs hch
    · intro hch
      have hf : [] ++ chunks.flatten <+: wireOf sent := hch
      exact reads_prefix (drained_frames hmac session direction) hs (.empty sent) hf
  · intro frame output reserved left error he
    have hc := encoded_encodeFrame hmac session direction frame output reserved
    rw [he] at hc
    cases hc with
    | refused => exact .inl rfl
    | unallocated => exact .inr rfl

def zeroMac : Hmac := fun _ _ => Vector.replicate 32 0

/-- A datagram frame with sequence number zero and these fields behind it. -/
def zeroFrame (flags : UInt8) (fields : Bytes) : Bytes :=
  beBytes 4 (6 + fields.length) ++ ([frameTypeDatagram, flags, 0, 0, 0, 0] ++ fields) ++ List.replicate 32 0

def letterTarget : Destination := ⟨.domain ⟨[97], by decide⟩, 443⟩

theorem nxr_udp_stream_domain :
    decodeFrame zeroMac (zeroFrame 1 [addressDomain, 0, 1, 1, 187, 97, 0, 1, 7]) (Vector.replicate 32 0) dirLineToLanding =
      .ok (⟨frameTypeDatagram, 0, some letterTarget, [7]⟩, 51) :=
  (nxr_udp_stream zeroMac (Vector.replicate 32 0) dirLineToLanding).1 ⟨frameTypeDatagram, 0, some letterTarget, [7]⟩ [] true
    _ (by decide)

end RustReality.Nxr
