import RustReality.Lib.Result
import RustReality.Vless.XudpRoundTrip

/-!
# Truncated XUDP frames

The decoder reports a frame as truncated both where bytes are still to come and where a field does
not fit into metadata that are complete. The drain loop waits in both cases, so whether more bytes
help is a question about the layouts of the metadata.
-/

namespace RustReality.Vless
open XudpNetwork List

/-! ### Layouts -/

def DestinationLayout (bytes : Bytes) : Prop := ∃ destination, writePortThenAddress [] destination = .ok bytes

/-- What may stand behind the first four bytes of the metadata. -/
def MetadataLayout (status : XudpSessionStatus) (option : XudpOption) (fields : Bytes) : Prop :=
  match status with
  | .new => ∃ destination id, fields = udp.toByte :: (destination ++ id) ∧ DestinationLayout destination ∧
      (id = [] ∨ option.hasData = true ∧ id.length = 8)
  | .keep => fields = [] ∨ ∃ destination, fields = udp.toByte :: destination ∧ DestinationLayout destination
  | .end | .keepAlive => fields = []

/-- Whether a truncated frame can still be completed: a first byte leaves room for some layout, the
metadata seen so far begin a block in one of the layouts, and a lone first byte of the payload
length is not too large. -/
def Completable : Bytes → Prop
  | [] => True
  | [high] => high ≤ 1
  | high :: low :: rest =>
    (∃ missing status option fields, rest.take (ofBe [high, low]) ++ missing =
        0 :: 0 :: XudpSessionStatus.toByte status :: XudpOption.value option :: fields ∧
      ofBe [high, low] = 4 + fields.length ∧ MetadataLayout status option fields) ∧
    ∀ byte, rest.drop (ofBe [high, low]) = [byte] → byte ≤ 29

variable {status : XudpSessionStatus} {option : XudpOption} {high low : UInt8} {fields tail : Bytes}

theorem DestinationLayout.reads {bytes : Bytes} (h : DestinationLayout bytes) :
    bytes.length ≤ 259 ∧ ∃ destination, ∀ rest, readPortThenAddress (bytes ++ rest) = .ok (destination, bytes.length) := by
  obtain ⟨destination, hw⟩ := h
  obtain ⟨fields, rfl, hle, hr⟩ := readPortThenAddress_write hw
  exact ⟨hle, destination, hr⟩

theorem readPortThenAddress_layout {input : Bytes} {destination : Destination} {consumed : Nat}
    (h : readPortThenAddress input = .ok (destination, consumed)) : DestinationLayout (input.take consumed) := by
  refine ⟨destination, ?_⟩
  unfold readPortThenAddress at h
  split at h
  next port₀ port₁ addressType fields =>
    have hp : portBytes (portOfBytes [port₀, port₁]) = [port₀, port₁] := portBytes_portOfBytes rfl
    split_ifs at h with h4 hlt h6 hlt hd
    · cases h
      simp [writePortThenAddress, hp, h4, ipv4Octets_ipv4OfOctets (length_take_of_le (Nat.not_lt.mp hlt))]
    · cases h
      simp [writePortThenAddress, hp, h6, ipv6Octets_ipv6OfOctets (length_take_of_le (Nat.not_lt.mp hlt))]
    · rcases fields with _ | ⟨len, name⟩
      · simp at h
      · simp only at h
        split_ifs at h with hz hlt
        split at h
        · simp at h
        next domain ht =>
          cases h
          have hb : domain.bytes = name.take len.toNat := Text.bytes_of_ofUtf8? ht
          have hl : domain.bytes.length = len.toNat := by rw [hb, length_take_of_le (Nat.not_lt.mp hlt)]
          have hle := len.toNat_lt
          simp only [writePortThenAddress, hp, hl, if_neg hz, if_neg (show ¬len.toNat > 255 by omega)]
          simp [hd, hb, Nat.add_comm 4]
  next => simp at h

theorem metadata_layout_iff :
    (∃ found, decodeMetadataFields status option fields = .ok found) ↔ MetadataLayout status option fields := by
  rcases status with _ | _ | _ | _
  · constructor
    · rintro ⟨found, h⟩
      rcases fields with _ | ⟨network, fields⟩
      · simp [decodeMetadataFields] at h
      · simp only [decodeMetadataFields] at h
        split at h
        · simp at h
        · simp at h
        next hu =>
          obtain ⟨⟨destination, consumed⟩, hr, h⟩ := Result.bind_ok_iff.1 h
          have hn : network = udp.toByte := by
            unfold fromByte at hu
            split_ifs at hu with htc ht
            · simp at hu
            · exact ht
          refine ⟨fields.take consumed, fields.drop consumed, ?_, readPortThenAddress_layout hr, ?_⟩
          · rw [take_append_drop, hn]
          · simp only at h
            split_ifs at h with hd hln hs
            · exact .inr ⟨hd.1, by omega⟩
            · exact .inl (eq_nil_of_length_eq_zero (not_not.mp hs))
    · rintro ⟨bytes, id, rfl, hla, hid⟩
      obtain ⟨-, destination, hr⟩ := hla.reads
      simp only [decodeMetadataFields, show fromByte udp.toByte = some .udp from rfl, hr id]
      rcases hid with rfl | ⟨hd, hl⟩
      · exact ⟨(some destination, none), by simp [bind, Except.bind]⟩
      · exact ⟨(some destination, some ⟨(id.take 8).toArray, by simp [hl]⟩),
          by simp [bind, Except.bind, hd, hl]⟩
  · rcases fields with _ | ⟨network, fields⟩
    · simp [decodeMetadataFields, MetadataLayout]
    · constructor
      · rintro ⟨found, h⟩
        simp only [decodeMetadataFields] at h
        split_ifs at h with hn
        obtain ⟨⟨destination, consumed⟩, hr, h⟩ := Result.bind_ok_iff.1 h
        split_ifs at h with hrs
        have hla := readPortThenAddress_layout hr
        rw [take_of_length_le (by simpa [Nat.sub_eq_zero_iff_le] using hrs)] at hla
        exact .inr ⟨fields, by rw [hn], hla⟩
      · rintro (h | ⟨bytes, h, hla⟩)
        · simp at h
        · obtain ⟨rfl, rfl⟩ := List.cons.inj h
          obtain ⟨-, destination, hr⟩ := hla.reads
          have hr := hr []
          rw [append_nil] at hr
          exact ⟨(some destination, none), by simp [decodeMetadataFields, hr, bind, Except.bind]⟩
  all_goals rcases fields with _ | ⟨byte, fields⟩ <;> simp [decodeMetadataFields, MetadataLayout]

theorem MetadataLayout.length_le (h : MetadataLayout status option fields) : fields.length ≤ 268 := by
  rcases status with _ | _ | _ | _
  · obtain ⟨bytes, id, rfl, hl, hid⟩ := h
    have hle := hl.reads.1
    have hln : id.length ≤ 8 := by rcases hid with rfl | ⟨-, hid⟩ <;> simp [*]
    simp only [length_cons, length_append]
    omega
  · rcases h with rfl | ⟨bytes, rfl, hl⟩
    · simp
    · have hle := hl.reads.1
      simp only [length_cons]
      omega
  all_goals
    obtain rfl : fields = [] := h
    simp

/-! ### Frames -/

theorem ofBe_pair (high low : UInt8) : ofBe [high, low] = high.toNat * 256 + low.toNat := by simp [ofBe]

theorem ofBe_pair_eq_zero (h : UInt16.ofNat (ofBe [high, low]) = 0) : high = 0 ∧ low = 0 := by
  have hh := high.toNat_lt
  have hl := low.toNat_lt
  have hz : ofBe [high, low] % 2 ^ 16 = 0 := congrArg UInt16.toNat h
  rw [ofBe_pair] at hz
  exact ⟨UInt8.toNat_inj.mp (show high.toNat = 0 by omega), UInt8.toNat_inj.mp (show low.toNat = 0 by omega)⟩

theorem XudpSessionStatus.toByte_of_fromByte {value : UInt8} (h : fromByte value = some status) :
    status.toByte = value := by
  unfold fromByte at h
  split_ifs at h with h1 h2 h3 h4 <;> cases h <;> simp [toByte, *]

/-- A frame decodes exactly when its metadata have one of the layouts and its payload decodes. -/
theorem decodeXudpPacket_ok_iff {input : Bytes} :
    (∃ decoded, decodeXudpPacket input = .ok decoded) ↔
      ∃ high low status option fields tail,
        input = [high, low] ++ ([0, 0, XudpSessionStatus.toByte status, XudpOption.value option] ++ fields) ++ tail ∧
        ofBe [high, low] = 4 + fields.length ∧ MetadataLayout status option fields ∧
        ∃ found, decodePayload option tail = .ok found := by
  constructor
  · rintro ⟨decoded, h⟩
    rcases input with _ | ⟨high, _ | ⟨low, rest⟩⟩
    · simp [decodeXudpPacket] at h
    · simp [decodeXudpPacket] at h
    · unfold decodeXudpPacket at h
      rw [if_neg (by simp)] at h
      simp only [show List.take 2 (high :: low :: rest) = [high, low] from rfl] at h
      split_ifs at h with hsm hlr hsh
      have hsl : slice (high :: low :: rest) 2 (2 + ofBe [high, low]) = rest.take (ofBe [high, low]) := by
        simp [slice, Nat.add_comm 2]
      have ht : List.drop (2 + ofBe [high, low]) (high :: low :: rest) = rest.drop (ofBe [high, low]) := by
        simp [Nat.add_comm 2]
      rw [hsl, ht] at h
      generalize hm : rest.take (ofBe [high, low]) = metadata at h
      split at h
      next session₀ session₁ status option fields =>
        split_ifs at h with hss
        split at h
        · simp at h
        next status' hs =>
          obtain ⟨found, hf, h⟩ := Result.bind_ok_iff.1 h
          obtain ⟨payload, hp, -⟩ := Result.bind_ok_iff.1 h
          refine ⟨high, low, status', ⟨option⟩, fields, _, ?_, ?_, metadata_layout_iff.1 ⟨found, hf⟩, payload, hp⟩
          · obtain ⟨rfl, rfl⟩ := ofBe_pair_eq_zero (not_not.mp hss)
            rw [XudpSessionStatus.toByte_of_fromByte hs]
            simpa [hm] using (take_append_drop (ofBe [high, low]) rest).symm
          · have hl := congrArg List.length hm
            simp only [length_take, length_cons] at hl hsh
            omega
      next => simp at h
  · rintro ⟨high, low, status, option, fields, tail, rfl, hl, hly, ⟨payload, consumed⟩, hp⟩
    obtain ⟨⟨destination, globalId⟩, hf⟩ := metadata_layout_iff.2 hly
    rw [decodeXudpPacket_fields hf rfl hl hly.length_le, hp]
    exact ⟨_, rfl⟩

theorem decodePayload_pair (hd : option.hasData = true) (rest : Bytes) :
    decodePayload option (high :: low :: rest) =
      if xudpMaxPayloadLen < ofBe [high, low] then .error (.payloadTooLarge (ofBe [high, low]))
      else if rest.length < ofBe [high, low] then .error (.truncated "payload")
      else .ok (rest.take (ofBe [high, low]), 2 + ofBe [high, low]) := by
  unfold decodePayload
  rw [if_pos hd, if_neg (by simp)]
  simp [slice, Nat.add_comm 2]

theorem decodePayload_long {rest : Bytes} (hd : option.hasData = true) (hle : ofBe [high, low] ≤ xudpMaxPayloadLen)
    (hl : ofBe [high, low] ≤ rest.length) : ∃ found, decodePayload option (high :: low :: rest) = .ok found := by
  rw [decodePayload_pair hd, if_neg (Nat.not_lt.2 hle), if_neg (Nat.not_lt.2 hl)]
  exact ⟨_, rfl⟩

/-- Whatever was received of the payload can be completed unless its length is too large. -/
theorem decodePayload_completes (hb : ∀ byte, tail = [byte] → byte ≤ 29)
    (ht : tail = [] ∨ ∃ field, decodePayload option tail = .error (.truncated field)) :
    ∃ more found, decodePayload option (tail ++ more) = .ok found := by
  by_cases hd : option.hasData = true
  · rcases tail with _ | ⟨high, _ | ⟨low, rest⟩⟩
    · exact ⟨[0, 0], decodePayload_long hd (by decide) (by decide)⟩
    · have hle : high.toNat ≤ 29 := UInt8.le_iff_toNat_le.1 (hb high rfl)
      have hl : ofBe [high, 0] = high.toNat * 256 := by simp [ofBe_pair]
      refine ⟨0 :: List.replicate (high.toNat * 256) 0, decodePayload_long hd ?_ (by simp [hl])⟩
      rw [hl]
      exact show high.toNat * 256 ≤ 7526 by omega
    · obtain ⟨field, hf⟩ := ht.resolve_left (by simp)
      refine ⟨List.replicate (ofBe [high, low]) 0, decodePayload_long hd (Nat.not_lt.1 fun hlr => ?_) (by simp)⟩
      rw [decodePayload_pair hd, if_pos hlr] at hf
      simp at hf
  · exact ⟨[], ([], 0), by simp [decodePayload, hd]⟩

theorem byte_le_of_decodePayload {byte : UInt8} {rest : Bytes} {found : Bytes × Nat} (hd : option.hasData = true)
    (h : decodePayload option (byte :: rest) = .ok found) : byte ≤ 29 := by
  rcases rest with _ | ⟨low, rest⟩
  · simp [decodePayload, hd] at h
  · rw [decodePayload_pair hd] at h
    split_ifs at h with hl hs
    have hln : byte.toNat * 256 + low.toNat ≤ 7526 := ofBe_pair byte low ▸ Nat.not_lt.mp hl
    exact UInt8.le_iff_toNat_le.2 (show byte.toNat ≤ 29 by omega)

theorem byte_zero_or_one {byte : UInt8} (h : byte ≤ 1) : byte = 0 ∨ byte = 1 := by
  have hle : byte.toNat ≤ 1 := UInt8.le_iff_toNat_le.1 h
  rcases Nat.le_one_iff_eq_zero_or_eq_one.1 hle with h | h
  · exact .inl (UInt8.toNat_inj.1 h)
  · exact .inr (UInt8.toNat_inj.1 h)

/-- A name of 247 letters fills metadata of 256 bytes. -/
theorem exists_keep_layout : ∃ fields, fields.length = 252 ∧ MetadataLayout .keep .data fields := by
  obtain ⟨name, hn⟩ : ∃ name : Text, name.bytes.length = 247 :=
    ⟨⟨List.replicate 247 97, by decide +kernel⟩, length_replicate⟩
  refine ⟨_, ?_, .inr ⟨[0, 0, addressTypeDomain, 247] ++ name.bytes, rfl, ⟨.domain name, 0⟩, ?_⟩⟩
  · simp [hn]
  · simp only [writePortThenAddress, hn]
    rfl

theorem decodePayload_truncated {field : String} (hlen : ofBe [high, low] = 4 + fields.length)
    (hl : MetadataLayout status option fields)
    (h : decodeXudpPacket ([high, low] ++ ([0, 0, status.toByte, option.value] ++ fields) ++ tail) =
      .error (.truncated field)) : decodePayload option tail = .error (.truncated field) := by
  obtain ⟨⟨destination, globalId⟩, hf⟩ := metadata_layout_iff.2 hl
  rw [decodeXudpPacket_fields hf rfl hlen hl.length_le] at h
  generalize decodePayload option tail = payload at h ⊢
  rcases payload with error | found <;> cases h
  rfl

/-- A truncated frame can be completed exactly when the layouts and the payload bound leave room for it. -/
theorem truncated_frame_completes_iff (input : Bytes) (field : String)
    (h : decodeXudpPacket input = .error (.truncated field)) :
    (∃ more decoded, decodeXudpPacket (input ++ more) = .ok decoded) ↔ Completable input := by
  constructor
  · rintro ⟨more, hok⟩
    obtain ⟨high, low, status, option, fields, tail, heq, hl, hla, found, hp⟩ := decodeXudpPacket_ok_iff.1 hok
    have hle := hla.length_le
    rcases input with _ | ⟨a, _ | ⟨b, rest⟩⟩
    · trivial
    · obtain ⟨rfl, -⟩ : a = high ∧ _ := List.cons.inj heq
      rw [ofBe_pair] at hl
      exact UInt8.le_iff_toNat_le.2 (show a.toNat ≤ 1 by omega)
    · simp only [cons_append, nil_append, List.cons.injEq] at heq
      obtain ⟨rfl, rfl, heq⟩ := heq
      replace heq : rest ++ more = ([0, 0, status.toByte, option.value] ++ fields) ++ tail := heq
      have hbl : ([0, 0, status.toByte, option.value] ++ fields).length = ofBe [a, b] := by
        rw [hl, length_append]
        rfl
      refine ⟨⟨more.take (ofBe [a, b] - rest.length), status, option, fields, ?_, hl, hla⟩, fun byte hb => ?_⟩
      · rw [← take_append, heq, take_left' hbl]
        rfl
      · -- the metadata are complete, and the frame itself lacks part of its payload
        have hd := congrArg (List.drop (ofBe [a, b])) heq
        rw [drop_left' hbl, drop_append, hb] at hd
        have ht : rest.take (ofBe [a, b]) = [0, 0, status.toByte, option.value] ++ fields := by
          have hln := congrArg List.length hb
          rw [length_drop, length_singleton] at hln
          have hf : (rest ++ more).take (ofBe [a, b]) = rest.take (ofBe [a, b]) :=
            take_append_of_le_length (by omega)
          rw [← hf, heq, take_left' hbl]
        rw [← take_append_drop (ofBe [a, b]) rest, ht, hb] at h
        have htr := decodePayload_truncated hl hla h
        rw [← hd] at hp
        refine byte_le_of_decodePayload ?_ hp
        by_contra hno
        simp [decodePayload, hno] at htr
  · intro hc
    rcases input with _ | ⟨a, _ | ⟨b, rest⟩⟩
    · exact ⟨[0, 4, 0, 0, 3, 0], decodeXudpPacket_ok_iff.2 ⟨0, 4, .end, ⟨0⟩, [], [], rfl, rfl, rfl, ([], 0), rfl⟩⟩
    · rcases byte_zero_or_one hc with rfl | rfl
      · exact ⟨[4, 0, 0, 3, 0], decodeXudpPacket_ok_iff.2 ⟨0, 4, .end, ⟨0⟩, [], [], rfl, rfl, rfl, ([], 0), rfl⟩⟩
      · obtain ⟨fields, hl, hla⟩ := exists_keep_layout
        exact ⟨_, decodeXudpPacket_ok_iff.2 ⟨1, 0, .keep, .data, fields, [0, 0], rfl, by rw [hl]; rfl, hla,
          decodePayload_long rfl (by decide) (by decide)⟩⟩
    · obtain ⟨⟨missing, status, option, fields, hbl, hl, hla⟩, hb⟩ := hc
      replace hbl : rest.take (ofBe [a, b]) ++ missing = [0, 0, status.toByte, option.value] ++ fields := hbl
      by_cases hs : rest.length ≤ ofBe [a, b]
      · -- nothing of the payload was received
        obtain ⟨extra, he⟩ : ∃ extra found, decodePayload option ([] ++ extra) = .ok found :=
          decodePayload_completes (by simp) (.inl rfl)
        rw [take_of_length_le hs] at hbl
        refine ⟨missing ++ extra, decodeXudpPacket_ok_iff.2 ⟨a, b, status, option, fields, extra, ?_, hl, hla, he⟩⟩
        rw [← hbl]
        simp
      · obtain rfl : missing = [] := by
          have hlg := congrArg List.length hbl
          simp only [length_append, length_take, length_cons, length_nil] at hlg
          exact eq_nil_of_length_eq_zero (by omega)
        rw [append_nil] at hbl
        have hr := take_append_drop (ofBe [a, b]) rest
        rw [hbl] at hr
        rw [← hr] at h
        obtain ⟨extra, he⟩ := decodePayload_completes hb (.inr ⟨field, decodePayload_truncated hl hla h⟩)
        refine ⟨extra, decodeXudpPacket_ok_iff.2 ⟨a, b, status, option, fields, _, ?_, hl, hla, he⟩⟩
        conv_lhs => rw [← hr]
        simp

/-- An end frame that announces a payload waits for its length. -/
theorem truncated_frame_completes_end :
    decodeXudpPacket [0, 4, 0, 0, 3, 1] = .error (.truncated "payloadLen") ∧
      ∃ more decoded, decodeXudpPacket ([0, 4, 0, 0, 3, 1] ++ more) = .ok decoded := by
  have h : decodeXudpPacket [0, 4, 0, 0, 3, 1] = .error (.truncated "payloadLen") := by decide +kernel
  exact ⟨h, (truncated_frame_completes_iff _ _ h).2 ⟨⟨[], .end, ⟨1⟩, [], rfl, rfl, rfl⟩, fun _ h => by cases h⟩⟩

/-- Metadata of a new session that end before their network can never be completed: the drain loop
keeps them with everything behind them and waits. -/
theorem complete_metadata_wait_forever :
    decodeXudpPacket [0, 4, 0, 0, 1, 0] = .error (.truncated "network") ∧
      ∀ more, (∀ decoded, decodeXudpPacket ([0, 4, 0, 0, 1, 0] ++ more) ≠ .ok decoded) ∧
        drainXudpFrames ([0, 4, 0, 0, 1, 0] ++ more) = ([0, 4, 0, 0, 1, 0] ++ more, .ok []) := by
  have hd (more : Bytes) : decodeXudpPacket ([0, 4, 0, 0, 1, 0] ++ more) = .error (.truncated "network") := by
    unfold decodeXudpPacket
    rw [if_neg (by simp)]
    simp only [show ofBe (List.take 2 ([0, 4, 0, 0, 1, 0] ++ more)) = 4 from rfl]
    rw [if_neg (by decide), if_neg (by decide), if_neg (by simp)]
    rfl
  refine ⟨hd [], fun more => ⟨fun decoded h => (nomatch (hd more).symm.trans h), ?_⟩⟩
  have hs : scanXudp ([0, 4, 0, 0, 1, 0] ++ more) = .incomplete := by
    rw [scanXudp, hd more, if_neg (by simp)]
  simp only [drainXudpFrames, length_append, length_cons, length_nil, Nat.add_comm _ more.length]
  simp only [FrameStream.drain, hs]

end RustReality.Vless
