import RustReality.Vless.Xudp

/-!
# XUDP frames on a stream

A frame that was encoded decodes, with anything behind it, to the packet it carries and to its own
length, and a proper part of it is truncated. So the packets of a stream come out of the drain loop
one by one however the stream is cut into reads.
-/

namespace RustReality.Vless
open XudpNetwork XudpPacket FrameStream List

def XudpPacket.sent (destination : Destination) (payload : Bytes) (newAssociation : Bool)
    (globalId : Option XudpGlobalId) (rewriteDestination : Bool) : XudpPacket :=
  { sessionId := 0
    status := if newAssociation then .new else .keep
    option := .data
    destination := if newAssociation || rewriteDestination then some destination else none
    globalId := if newAssociation then globalId else none
    payload }

def XudpEncodes (packet : XudpPacket) (wire : Bytes) : Prop :=
  ∃ destination payload newAssociation globalId rewriteDestination,
    packet = .sent destination payload newAssociation globalId rewriteDestination ∧
    encodeXudpPacket destination payload newAssociation globalId rewriteDestination [] = (wire, .ok ())

theorem readPortThenAddress_write {output out : Bytes} {destination : Destination}
    (h : writePortThenAddress output destination = .ok out) :
    ∃ fields, out = output ++ fields ∧ fields.length ≤ 259 ∧
      ∀ rest, readPortThenAddress (fields ++ rest) = .ok (destination, fields.length) := by
  obtain ⟨address, port⟩ := destination
  obtain ⟨port₀, port₁, hp⟩ : ∃ port₀ port₁, portBytes port = [port₀, port₁] := ⟨_, _, rfl⟩
  have hr : portOfBytes [port₀, port₁] = port := by rw [← hp, portOfBytes_portBytes]
  unfold writePortThenAddress at h
  cases address with
  | ipv4 bits =>
    cases h
    refine ⟨portBytes port ++ addressTypeIpv4 :: ipv4Octets bits, append_assoc _ _ _, by simp, ?_⟩
    intro rest
    have ht : (ipv4Octets bits ++ rest).take 4 = ipv4Octets bits := take_left' (length_ipv4Octets bits)
    simp [hp, readPortThenAddress, hr, ht]
  | ipv6 bits =>
    cases h
    refine ⟨portBytes port ++ addressTypeIpv6 :: ipv6Octets bits, append_assoc _ _ _, by simp, ?_⟩
    intro rest
    have ht : (ipv6Octets bits ++ rest).take 16 = ipv6Octets bits :=
      take_left' (length_ipv6Octets bits)
    simp [hp, readPortThenAddress, hr, ht, addressTypeIpv4, addressTypeIpv6]
  | domain domain =>
    dsimp only at h
    split_ifs at h with he hln
    cases h
    have hl : (UInt8.ofNat domain.bytes.length).toNat = domain.bytes.length := by
      simp only [UInt8.toNat_ofNat']
      omega
    refine ⟨portBytes port ++ addressTypeDomain :: UInt8.ofNat domain.bytes.length :: domain.bytes,
      append_assoc _ _ _, by simp; omega, ?_⟩
    intro rest
    have ht : (domain.bytes ++ rest).take domain.bytes.length = domain.bytes := take_left
    simp only [hp, readPortThenAddress, cons_append, nil_append, hl, ht, hr,
      Text.ofUtf8?_bytes, length_append, length_cons]
    rw [if_neg (by decide), if_neg (by decide), if_pos trivial, if_neg he, if_neg (by omega)]
    have hc : 3 + 1 + domain.bytes.length = domain.bytes.length + 1 + 1 + 1 + 1 := by omega
    rw [hc]

/-- The metadata of an encoded frame: four fixed bytes and fields that decode to what was encoded. -/
theorem stageMetadata_ok {destination : Destination} {newAssociation : Bool} {globalId : Option XudpGlobalId}
    {rewriteDestination : Bool} {staged : Bytes} (payload : Bytes)
    (h : stageMetadata destination newAssociation globalId rewriteDestination = .ok staged) :
    let packet := sent destination payload newAssociation globalId rewriteDestination
    ∃ fields, staged = [0, 0] ++ ([0, 0, packet.status.toByte, packet.option.value] ++ fields) ∧
      fields.length ≤ 268 ∧
      decodeMetadataFields packet.status packet.option fields = .ok (packet.destination, packet.globalId) := by
  unfold stageMetadata at h
  cases newAssociation with
  | true =>
    simp only [if_true] at h
    cases hw : writePortThenAddress ([0, 0] ++ beBytes 2 0 ++
        [XudpSessionStatus.new.toByte, XudpOption.data.value, udp.toByte]) destination with
    | error error =>
      rw [hw] at h
      cases h
    | ok out =>
      rw [hw] at h
      obtain ⟨address, rfl, hl, hr⟩ := readPortThenAddress_write hw
      cases globalId with
      | none =>
        cases h
        refine ⟨udp.toByte :: address, rfl, by simp; omega, ?_⟩
        have hr := hr []
        rw [append_nil] at hr
        simp [sent, decodeMetadataFields, fromByte, toByte, hr,
          Bind.bind, Except.bind]
      | some id =>
        cases h
        have ht : (id.toList.take 8).toArray = id.toArray := by
          rw [take_of_length_le (by simp)]
          rfl
        refine ⟨udp.toByte :: (address ++ id.toList), ?_, by simp; omega, ?_⟩
        · rfl
        · simp [sent, decodeMetadataFields, fromByte, toByte, hr,
            Bind.bind, Except.bind, XudpOption.hasData, XudpOption.data, ht]
  | false =>
    cases rewriteDestination with
    | true =>
      obtain ⟨address, rfl, hl, hr⟩ := readPortThenAddress_write h
      refine ⟨udp.toByte :: address, rfl, by simp; omega, ?_⟩
      have hr := hr []
      rw [append_nil] at hr
      simp [sent, decodeMetadataFields, hr, Bind.bind, Except.bind]
    | false =>
      cases h
      exact ⟨[], rfl, by simp, rfl⟩

theorem decodePayload_append {payload : Bytes} (hl : payload.length ≤ xudpMaxPayloadLen) (rest : Bytes) :
    decodePayload .data (beBytes 2 payload.length ++ payload ++ rest) = .ok (payload, 2 + payload.length) := by
  have hs : payload.length < 256 ^ 2 := Nat.lt_of_le_of_lt hl (by decide)
  have ht : (beBytes 2 payload.length ++ payload ++ rest).take 2 = beBytes 2 payload.length := by
    exact take_left' (length_beBytes _ _)
  have hsl : slice (beBytes 2 payload.length ++ payload ++ rest) 2 (2 + payload.length) = payload := by
    have h := slice_middle (beBytes 2 payload.length) payload rest
    rwa [length_beBytes] at h
  unfold decodePayload
  rw [if_pos (by decide), if_neg (by simp only [length_append, length_beBytes]; omega), ht, ofBe_beBytes hs]
  dsimp only
  rw [hsl, if_neg (by omega), if_neg (by simp)]

theorem decodePayload_part {payload front : Bytes} (hl : payload.length ≤ xudpMaxPayloadLen)
    (hf : front <+: beBytes 2 payload.length ++ payload)
    (hne : front ≠ beBytes 2 payload.length ++ payload) :
    ∃ field, decodePayload .data front = .error (.truncated field) := by
  have hsh : front.length < 2 + payload.length := by
    have hle := hf.length_le
    rw [length_append, length_beBytes] at hle
    rcases Nat.lt_or_ge front.length (2 + payload.length) with hlt | hge
    · exact hlt
    · exact absurd (hf.eq_of_length (by simp; omega)) hne
  have hs : payload.length < 256 ^ 2 := Nat.lt_of_le_of_lt hl (by decide)
  unfold decodePayload
  rw [if_pos (by decide)]
  by_cases hh : front.length < 2
  · rw [if_pos hh]
    exact ⟨"payloadLen", rfl⟩
  · have ht : front.take 2 = beBytes 2 payload.length := by
      have h : front.take 2 <+: beBytes 2 payload.length ++ payload := (List.take_prefix _ _).trans hf
      have h' : front.take 2 <+: beBytes 2 payload.length :=
        prefix_of_prefix_length_le h (prefix_append _ _) (by rw [length_take, length_beBytes]; omega)
      exact h'.eq_of_length (by rw [length_take, length_beBytes]; omega)
    rw [if_neg hh, ht, ofBe_beBytes hs]
    rw [if_neg (by omega), if_pos hsh]
    exact ⟨"payload", rfl⟩

structure XudpFrame (packet : XudpPacket) (fields wire : Bytes) : Prop where
  fields_le : fields.length ≤ 268
  wire_eq : wire = beBytes 2 (4 + fields.length) ++
    ([0, 0, packet.status.toByte, packet.option.value] ++ fields) ++ (beBytes 2 packet.payload.length ++ packet.payload)
  session_eq : packet.sessionId = 0
  option_eq : packet.option = .data
  payload_le : packet.payload.length ≤ xudpMaxPayloadLen
  decode_eq : decodeMetadataFields packet.status packet.option fields = .ok (packet.destination, packet.globalId)

/-- A successful call of the encoder appends one frame; a failed one leaves the output as it was. -/
theorem encodeXudpPacket_frame (destination : Destination) (payload : Bytes) (newAssociation : Bool)
    (globalId : Option XudpGlobalId) (rewriteDestination : Bool) (output : Bytes) :
    (∃ error, encodeXudpPacket destination payload newAssociation globalId rewriteDestination output =
      (output, .error error)) ∨
    ∃ wire, (∃ fields, XudpFrame (.sent destination payload newAssociation globalId rewriteDestination) fields wire) ∧
      encodeXudpPacket destination payload newAssociation globalId rewriteDestination output =
        (output ++ wire, .ok ()) := by
  unfold encodeXudpPacket
  by_cases hl : payload.length > xudpMaxPayloadLen
  · rw [if_pos hl]
    exact .inl ⟨_, rfl⟩
  by_cases hw : payload.length ≥ 2 ^ 16
  · rw [if_neg hl, if_pos hw]
    exact .inl ⟨_, rfl⟩
  rw [if_neg hl, if_neg hw]
  cases hs : stageMetadata destination newAssociation globalId rewriteDestination with
  | error error => exact .inl ⟨error, rfl⟩
  | ok staged =>
    obtain ⟨fields, rfl, hf, hd⟩ := stageMetadata_ok payload hs
    have hm : ([0, 0] ++ ([0, 0, (sent destination payload newAssociation globalId
        rewriteDestination).status.toByte, (sent destination payload newAssociation globalId
        rewriteDestination).option.value] ++ fields)).length - 2 = 4 + fields.length := by
      simp
      omega
    dsimp only
    rw [hm, if_neg (by unfold xudpMaxMetaLen; omega)]
    refine .inr ⟨_, ⟨fields, hf, ?_, rfl, rfl, Nat.not_lt.1 hl, hd⟩, rfl⟩
    have ho := overwrite_middle [] [0, 0] ([0, 0, (sent destination payload newAssociation globalId
        rewriteDestination).status.toByte, (sent destination payload newAssociation globalId
        rewriteDestination).option.value] ++ fields) (y := beBytes 2 (4 + fields.length)) (by simp)
    rw [nil_append, nil_append, length_nil] at ho
    rw [ho, append_assoc]
    rfl

variable {packet : XudpPacket}

theorem XudpEncodes.frame {wire : Bytes} (h : XudpEncodes packet wire) :
    ∃ fields, XudpFrame packet fields wire := by
  obtain ⟨destination, payload, newAssociation, globalId, rewriteDestination, rfl, hen⟩ := h
  rcases encodeXudpPacket_frame destination payload newAssociation globalId rewriteDestination [] with
    ⟨error, he⟩ | ⟨wire', hf, hok⟩
  · rw [hen] at he
    cases he
  · rw [hen] at hok
    cases hok
    exact hf

theorem decodeXudpPacket_fields {front fields : Bytes} {status : XudpSessionStatus} {option : XudpOption}
    {destination : Option Destination} {globalId : Option XudpGlobalId}
    (hdecode : decodeMetadataFields status option fields = .ok (destination, globalId)) (hfront : front.length = 2)
    (hlen : ofBe front = 4 + fields.length) (hle : fields.length ≤ 268) (tail : Bytes) :
    decodeXudpPacket (front ++ ([0, 0, status.toByte, option.value] ++ fields) ++ tail) =
      (decodePayload option tail).bind fun (payload, consumed) =>
        .ok (⟨0, status, option, destination, globalId, payload⟩, 2 + (4 + fields.length) + consumed) := by
  have hm : ([0, 0, status.toByte, option.value] ++ fields).length = 4 + fields.length := by
    simp
    omega
  generalize hmd : [0, 0, status.toByte, option.value] ++ fields = metadata at hm ⊢
  have ht : (front ++ metadata ++ tail).take 2 = front := by
    rw [append_assoc]
    exact take_left' hfront
  have hs : slice (front ++ metadata ++ tail) 2 (2 + (4 + fields.length)) = metadata := by
    have h := slice_middle front metadata tail
    rwa [hfront, hm] at h
  have hd : (front ++ metadata ++ tail).drop (2 + (4 + fields.length)) = tail :=
    drop_left' (by rw [length_append, hfront, hm])
  unfold decodeXudpPacket
  rw [if_neg (by simp only [length_append, hfront]; omega), ht, hlen]
  dsimp only
  rw [hs, hd, if_neg (by omega), if_neg (by unfold xudpMaxMetaLen; omega), if_neg (by simp [hm, hfront]), ← hmd]
  simp only [cons_append, nil_append, XudpSessionStatus.fromByte_toByte, hdecode]
  rfl

theorem decodeXudpPacket_metadata {fields wire : Bytes} (frame : XudpFrame packet fields wire) (tail : Bytes) :
    decodeXudpPacket (beBytes 2 (4 + fields.length) ++
        ([0, 0, packet.status.toByte, packet.option.value] ++ fields) ++ tail) =
      (decodePayload .data tail).bind fun (payload, consumed) =>
        .ok ({ packet with payload }, 2 + (4 + fields.length) + consumed) := by
  obtain ⟨hle, -, hs, ho, -, hd⟩ := frame
  have hsm : 4 + fields.length < 256 ^ 2 := Nat.lt_of_le_of_lt (Nat.add_le_add_left hle 4) (by decide)
  rw [decodeXudpPacket_fields hd (length_beBytes _ _) (ofBe_beBytes hsm) hle, ho]
  obtain ⟨sessionId, status, option, destination, globalId, payload⟩ := packet
  dsimp only at hs ho
  rw [hs, ho]

theorem XudpFrame.decode_append {fields wire : Bytes} (frame : XudpFrame packet fields wire)
    (rest : Bytes) : decodeXudpPacket (wire ++ rest) = .ok (packet, wire.length) := by
  have hm := decodeXudpPacket_metadata frame (beBytes 2 packet.payload.length ++ packet.payload ++ rest)
  rw [decodePayload_append frame.payload_le] at hm
  have hw := frame.wire_eq
  have hl : wire.length = 2 + (4 + fields.length) + (2 + packet.payload.length) := by
    rw [hw]
    simp
    omega
  rw [hl, hw, append_assoc, append_assoc _ _ rest]
  exact hm

theorem XudpFrame.decode_part {fields wire front : Bytes} (frame : XudpFrame packet fields wire)
    (hf : front <+: wire) (hne : front ≠ wire) :
    ∃ field, decodeXudpPacket front = .error (.truncated field) := by
  have hw := frame.wire_eq
  have hfl := frame.fields_le
  have hs : 4 + fields.length < 256 ^ 2 :=
    Nat.lt_of_le_of_lt (Nat.add_le_add_left frame.fields_le 4) (by decide)
  by_cases hh : front.length < 2
  · refine ⟨"metaLen", ?_⟩
    rw [decodeXudpPacket, if_pos hh]
  rcases Nat.lt_or_ge front.length (2 + (4 + fields.length)) with hsh | hl
  · -- the metadata is cut
    have ht : front.take 2 = beBytes 2 (4 + fields.length) := by
      have hp : front.take 2 <+: wire := (List.take_prefix _ _).trans hf
      rw [hw, append_assoc] at hp
      have hp' := prefix_of_prefix_length_le hp (prefix_append _ _) (by rw [length_take, length_beBytes]; omega)
      exact hp'.eq_of_length (by rw [length_take, length_beBytes]; omega)
    refine ⟨"metadata", ?_⟩
    rw [decodeXudpPacket, if_neg hh, ht, ofBe_beBytes hs]
    dsimp only
    rw [if_neg (by omega), if_neg (by unfold xudpMaxMetaLen; omega), if_pos hsh]
  · -- the metadata is complete, the payload part is cut
    rw [hw] at hf hne
    have hm := prefix_of_prefix_length_le (prefix_append _ _) hf (by simp; omega)
    obtain ⟨tail, rfl⟩ := hm
    have htl := (prefix_append_right_inj _).1 hf
    have hne' : tail ≠ beBytes 2 packet.payload.length ++ packet.payload := by
      rintro rfl
      exact hne rfl
    obtain ⟨field, hfi⟩ := decodePayload_part frame.payload_le htl hne'
    refine ⟨field, ?_⟩
    rw [decodeXudpPacket_metadata frame, hfi]
    rfl

theorem framed_xudp : FrameStream.Framed scanXudp XudpEncodes := by
  have hne : ∀ packet wire, XudpEncodes packet wire → wire ≠ [] := by
    intro packet wire h hn
    obtain ⟨fields, frame⟩ := h.frame
    have hl := congrArg List.length frame.wire_eq
    rw [hn] at hl
    simp at hl
  refine ⟨rfl, hne, ?_, ?_⟩
  · intro packet wire h rest
    have hp : (wire ++ rest).length ≠ 0 := by
      simp [hne packet wire h]
    obtain ⟨fields, frame⟩ := h.frame
    rw [scanXudp, if_neg hp, frame.decode_append]
  · intro packet wire h front hf hne
    unfold scanXudp
    split_ifs with he
    · rfl
    · obtain ⟨fields, frame⟩ := h.frame
      obtain ⟨field, hfi⟩ := frame.decode_part hf hne
      rw [hfi]

theorem drained_xudp (sent : List (XudpPacket × Bytes)) (buffer : Bytes)
    (hs : ∀ frame ∈ sent, XudpEncodes frame.1 frame.2) (hb : buffer <+: wireOf sent) :
    FrameStream.Drained drainXudpFrames sent buffer := by
  obtain ⟨front, back, rest, hsp, hw, hst, hd⟩ :=
    drained_of_framed framed_xudp buffer.length hs hb (Nat.le_refl _)
  refine ⟨front, back, rest, hsp, hw, hst, ?_⟩
  rw [drainXudpFrames, hd]

/-- The XUDP codec on a stream: an encoded frame decodes to its packet and consumes exactly its own
bytes whatever follows, every cutting of a sequence of encoded frames into reads drains to exactly
their packets and leaves nothing, and a failed encode leaves the output as it was. -/
theorem xudp_stream :
    (∀ destination payload newAssociation globalId rewriteDestination output,
      (encodeXudpPacket destination payload newAssociation globalId rewriteDestination output).2 = .ok () →
      ∃ wire, (encodeXudpPacket destination payload newAssociation globalId rewriteDestination output).1 =
          output ++ wire ∧
        ∀ rest, decodeXudpPacket (wire ++ rest) =
          .ok (.sent destination payload newAssociation globalId rewriteDestination, wire.length)) ∧
    (∀ (sent : List (XudpPacket × Bytes)) (chunks : List Bytes),
      (∀ frame ∈ sent, XudpEncodes frame.1 frame.2) → chunks.flatten = wireOf sent →
      reads drainXudpFrames [] chunks = ([], .ok (sent.map Prod.fst))) ∧
    (∀ destination payload newAssociation globalId rewriteDestination output error,
      (encodeXudpPacket destination payload newAssociation globalId rewriteDestination output).2 = .error error →
      (encodeXudpPacket destination payload newAssociation globalId rewriteDestination output).1 = output) := by
  refine ⟨?_, ?_, ?_⟩
  · intro destination payload newAssociation globalId rewriteDestination output hok
    rcases encodeXudpPacket_frame destination payload newAssociation globalId rewriteDestination output with
      ⟨error, her⟩ | ⟨wire, ⟨fields, frame⟩, he⟩
    · rw [her] at hok
      cases hok
    · exact ⟨wire, by rw [he], frame.decode_append⟩
  · intro sent chunks hs hc
    exact reads_all drained_xudp framed_xudp.nonempty hs hc
  · intro destination payload newAssociation globalId rewriteDestination output error her
    rcases encodeXudpPacket_frame destination payload newAssociation globalId rewriteDestination output with
      ⟨error', her'⟩ | ⟨wire, -, he⟩
    · rw [her']
    · rw [he] at her
      cases her

/-- Two frames of one association, the second with only a payload, in reads that cut both of them. -/
theorem xudp_stream_two :
    let first := encodeXudpPacket ⟨.ipv4 0x01010101#32, 53⟩ [7, 8] true (some (Vector.replicate 8 9)) false []
    let second := encodeXudpPacket ⟨.ipv4 0x01010101#32, 53⟩ [5] false none false []
    reads drainXudpFrames []
        [first.1.take 1, first.1.drop 1 ++ second.1.take 5, [], second.1.drop 5] =
      ([], .ok [.sent ⟨.ipv4 0x01010101#32, 53⟩ [7, 8] true (some (Vector.replicate 8 9)) false,
        .sent ⟨.ipv4 0x01010101#32, 53⟩ [5] false none false]) := by
  intro first second
  refine xudp_stream.2.1 [(_, first.1), (_, second.1)] _ ?_ (by decide)
  intro frame hf
  rcases mem_cons.1 hf with rfl | hf
  · exact ⟨⟨.ipv4 0x01010101#32, 53⟩, [7, 8], true, some (Vector.replicate 8 9), false, rfl, rfl⟩
  · cases mem_singleton.1 hf
    exact ⟨⟨.ipv4 0x01010101#32, 53⟩, [5], false, none, false, rfl, rfl⟩

end RustReality.Vless
