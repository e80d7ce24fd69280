import RustReality.Nxr.Open
import RustReality.Nxr.UdpFrameRoundTrip

/-!
# NXR opens are unambiguous

The encoders of the two modes, and the layout that both they and the decoders stand for: a string is
accepted exactly when the encoder makes it of the fields that are returned. The two modes differ in
the flag byte of the header, which both decoders check.
-/

namespace RustReality.Nxr

open Vless Replay Clock

variable {ε : Type}

/-! ### The encoders -/

def openHeader (flag kind : UInt8) (addressLen : Nat) (port : UInt16) (timestamp : Nat) (nonce : Nonce) : Bytes :=
  magic ++ [flag, kind] ++ beBytes 2 addressLen ++ portBytes port ++ beBytes 8 timestamp ++ nonce.toList

variable (mode : OpenMode ε)

def openAuthenticated (fields : OpenFields) (kind : UInt8) (addressLen : Nat) : Bytes :=
  openHeader mode.flag kind addressLen fields.destination.port fields.timestamp fields.nonce ++
    addressBytes fields.destination.address ++ fields.trailer

/-- The encoder of a mode, with the output buffer after the call; `maximum` is the mode's bound on the
whole request and `reserved` the allocator's answer. -/
def encodeOpen (maximum : Nat) (allocation : ε) (hmac : Hmac) (fields : OpenFields) (key : NxrKey)
    (output : Bytes) (reserved : Bool) : Bytes × Except ε Unit :=
  match addressShape fields.destination.address with
  | .error _ => (output, .error mode.address)
  | .ok (kind, addressLength) =>
    if addressLength ≥ 2 ^ 16 then (output, .error mode.address)
    else if fields.destination.port = 0 then (output, .error mode.port)
    else if requestHeaderLen + addressLength + mode.trailer + tagLen > maximum then (output, .error mode.length)
    else if !reserved then ([], .error allocation)
    else
      let authenticated := openAuthenticated mode fields kind addressLength
      (authenticated ++ (hmac key.toList authenticated).toList, .ok ())

def encodeRequest (hmac : Hmac) (destination : Destination) (timestamp : Nat) (nonce : Nonce) (key : NxrKey)
    (output : Bytes) (reserved : Bool) : Bytes × Except NxrProtocolError Unit :=
  encodeOpen tcpMode maxRequestLen .allocation hmac ⟨timestamp, nonce, destination, []⟩ key output reserved

def maxUdpOpenLen : Nat := requestHeaderLen + maxDomainLen + userIdLen + tagLen

def encodeUdpOpen (hmac : Hmac) (destination : Destination) (userId : Vector UInt8 16) (timestamp : Nat) (nonce : Nonce)
    (key : NxrKey) (output : Bytes) (reserved : Bool) : Bytes × Except NxrUdpError Unit :=
  encodeOpen udpMode maxUdpOpenLen .allocation hmac ⟨timestamp, nonce, destination, userId.toList⟩ key output reserved

/-! ### The header -/

section header

variable (flag kind : UInt8) (addressLen : Nat) (port : UInt16) (timestamp : Nat) (nonce : Nonce)

@[simp] theorem length_openHeader : (openHeader flag kind addressLen port timestamp nonce).length = requestHeaderLen := by
  simp [openHeader, magic, requestHeaderLen]

theorem openHeader_magic : (openHeader flag kind addressLen port timestamp nonce).take magic.length = magic := by
  exact List.take_left

theorem openHeader_flag : (openHeader flag kind addressLen port timestamp nonce).getD flagsOffset 0 = flag := rfl

theorem openHeader_kind : (openHeader flag kind addressLen port timestamp nonce).getD addressTypeOffset 0 = kind := rfl

theorem openHeader_addressLen :
    slice (openHeader flag kind addressLen port timestamp nonce) addressLengthOffset (addressLengthOffset + 2) =
      beBytes 2 addressLen := by
  rw [openHeader, List.append_assoc, List.append_assoc]
  exact slice_at rfl (by rw [length_beBytes])

theorem openHeader_port :
    slice (openHeader flag kind addressLen port timestamp nonce) portOffset (portOffset + 2) = portBytes port := by
  rw [openHeader, List.append_assoc]
  exact slice_at rfl (by rw [length_portBytes])

theorem openHeader_timestamp (h : timestamp < 2 ^ 64) :
    timestampAt (openHeader flag kind addressLen port timestamp nonce) = timestamp := by
  have hf : slice (openHeader flag kind addressLen port timestamp nonce) timestampOffset (timestampOffset + 8) =
      beBytes 8 timestamp := slice_at rfl (by rw [length_beBytes])
  rw [timestampAt, hf, ofBe_beBytes h]

theorem openHeader_nonce : nonceAt (openHeader flag kind addressLen port timestamp nonce) = nonce := by
  have hl := length_openHeader flag kind addressLen port timestamp nonce
  have hf : slice (openHeader flag kind addressLen port timestamp nonce) nonceOffset (nonceOffset + 16) =
      nonce.toList := by
    rw [← List.append_nil (openHeader flag kind addressLen port timestamp nonce)]
    exact slice_at rfl (by rw [Vector.length_toList])
  apply Vector.toList_inj.1
  rw [nonceAt, toList_vectorAt (by rw [hl]; decide), hf]

end header

theorem openHeader_of_fields {header : Bytes} (hl : header.length = requestHeaderLen)
    (hm : header.take magic.length = magic) :
    header = openHeader (header.getD flagsOffset 0) (header.getD addressTypeOffset 0)
      (ofBe (slice header addressLengthOffset (addressLengthOffset + 2)))
      (portOfBytes (slice header portOffset (portOffset + 2))) (timestampAt header) (nonceAt header) := by
  have hl' : header.length = 34 := hl
  have hfo : slice header 0 4 = magic := by
    exact hm
  have hfl : [header.getD flagsOffset 0, header.getD addressTypeOffset 0] = slice header 4 6 := by
    have hfr : 4 < header.length := by omega
    have hfv : 5 < header.length := by omega
    rw [slice, List.drop_take, List.drop_eq_getElem_cons hfr, List.drop_eq_getElem_cons hfv]
    simp only [flagsOffset, addressTypeOffset, List.getD_eq_getElem?_getD, List.getElem?_eq_getElem hfr,
      List.getElem?_eq_getElem hfv, Option.getD_some]
    rfl
  have hf : ∀ offset n, offset + n ≤ 34 → (slice header offset (offset + n)).length = n := by
    intro offset n h
    rw [length_slice (by omega), Nat.add_sub_cancel_left]
  rw [openHeader, hfl, timestampAt, nonceAt, toList_vectorAt (by rw [hl]; decide),
    beBytes_ofBe_of (hf _ 2 (by decide)), portBytes_portOfBytes (hf _ 2 (by decide)),
    beBytes_ofBe_of (hf _ 8 (by decide)), ← hfo]
  simp only [addressLengthOffset, portOffset, timestampOffset, nonceOffset]
  rw [slice_join (by decide) (by decide), slice_join (by decide) (by decide), slice_join (by decide) (by decide),
    slice_join (by decide) (by decide), slice_join (by decide) (by decide)]
  have hw := slice_whole header
  rw [hl'] at hw
  exact hw.symm

/-! ### Addresses -/

theorem addressLenValid_shape {address : Address} {kind : UInt8} {len : Nat}
    (h : addressShape address = .ok (kind, len)) : addressLenValid kind len = true := by
  cases address with
  | ipv4 bits =>
    cases h
    rfl
  | ipv6 bits =>
    cases h
    rfl
  | domain domain =>
    unfold addressShape at h
    dsimp only at h
    split_ifs at h with hb
    cases h
    have hl : 1 ≤ domain.bytes.length ∧ domain.bytes.length ≤ maxDomainLen := by omega
    simp [addressLenValid, addressDomain, addressIpv4, hl]

theorem addressShape_of_parseAddress {kind : UInt8} {bytes : Bytes} {address : Address}
    (hok : parseAddress kind bytes = .ok address) (hl : addressLenValid kind bytes.length = true) :
    addressShape address = .ok (kind, bytes.length) ∧ addressBytes address = bytes := by
  unfold parseAddress at hok
  unfold addressLenValid at hl
  by_cases hipv4 : kind = addressIpv4
  · split_ifs at hok with hf
    cases hok
    subst hipv4
    exact ⟨by rw [hf]; rfl, ipv4Octets_ipv4OfOctets hf⟩
  rw [if_neg hipv4] at hok hl
  by_cases hd : kind = addressDomain
  · rw [if_pos hd] at hok hl
    cases hdc : Text.ofUtf8? bytes with
    | none =>
      rw [hdc] at hok
      cases hok
    | some domain =>
      rw [hdc] at hok
      cases hok
      have hb := Text.bytes_of_ofUtf8? hdc
      have hr := of_decide_eq_true hl
      refine ⟨?_, hb⟩
      unfold addressShape
      dsimp only
      rw [hb, if_neg (by omega), hd]
  rw [if_neg hd] at hok hl
  by_cases hipv6 : kind = addressIpv6
  · split_ifs at hok with hs
    cases hok
    subst hipv6
    exact ⟨by rw [hs]; rfl, ipv6Octets_ipv6OfOctets hs⟩
  · rw [if_neg hipv6] at hok
    cases hok

/-! ### The layout of an open -/

structure OpenLayout (mode : OpenMode ε) (hmac : Hmac) (key : NxrKey) (fields : OpenFields) (kind : UInt8)
    (addressLen : Nat) (wire : Bytes) : Prop where
  shape : addressShape fields.destination.address = .ok (kind, addressLen)
  port : fields.destination.port ≠ 0
  trailer : fields.trailer.length = mode.trailer
  wire_eq : wire = openAuthenticated mode fields kind addressLen ++
    (hmac key.toList (openAuthenticated mode fields kind addressLen)).toList

def OpenMode.Roomy : Prop :=
  ∀ addressLen, addressLen ≤ maxDomainLen →
    mode.bound.any (· < requestHeaderLen + addressLen + mode.trailer + tagLen) = false

theorem roomy_tcpMode : tcpMode.Roomy := by
  intro addressLen h
  rw [tcpMode, Option.any_some, decide_eq_false_iff_not, maxRequestLen]
  dsimp only
  omega

theorem roomy_udpMode : udpMode.Roomy := fun _ _ => rfl

variable {reserved : Bool}

section layout

variable {mode : OpenMode ε} {hmac : Hmac} {key : NxrKey} {fields : OpenFields} {kind : UInt8} {addressLen : Nat}
  {wire : Bytes}

theorem encodeOpen_ok_iff {maximum : Nat} {allocation : ε} {output : Bytes}
    (ht : fields.trailer.length = mode.trailer)
    (hm : requestHeaderLen + maxDomainLen + mode.trailer + tagLen ≤ maximum) :
    encodeOpen mode maximum allocation hmac fields key output reserved = (wire, .ok ()) ↔
      reserved = true ∧ ∃ kind addressLen, OpenLayout mode hmac key fields kind addressLen wire := by
  unfold encodeOpen
  constructor
  · intro h
    cases hsh : addressShape fields.destination.address with
    | error error =>
      rw [hsh] at h
      cases h
    | ok shape =>
      obtain ⟨kind, addressLen⟩ := shape
      rw [hsh] at h
      dsimp only at h
      split at h
      · cases h
      split at h
      · cases h
      next hp =>
      split at h
      · cases h
      cases reserved with
      | false => cases h
      | true =>
        cases h
        exact ⟨rfl, kind, addressLen, hsh, hp, ht, rfl⟩
  · rintro ⟨rfl, kind, addressLen, hsh, hp, -, rfl⟩
    obtain ⟨-, -, hle⟩ := parseAddress_shape hsh
    have hd : maxDomainLen = 253 := rfl
    rw [hsh]
    dsimp only
    rw [if_neg (by omega), if_neg hp, if_neg (by omega), if_neg (by decide)]

namespace OpenLayout

theorem length_authenticated (h : OpenLayout mode hmac key fields kind addressLen wire) :
    (openAuthenticated mode fields kind addressLen).length = requestHeaderLen + addressLen + mode.trailer := by
  obtain ⟨-, ha, -⟩ := parseAddress_shape h.shape
  rw [openAuthenticated, List.length_append, List.length_append, length_openHeader, ha, h.trailer]

theorem length_wire (h : OpenLayout mode hmac key fields kind addressLen wire) :
    wire.length = requestHeaderLen + addressLen + mode.trailer + tagLen := by
  rw [h.wire_eq, List.length_append, h.length_authenticated, Vector.length_toList]
  rfl

theorem take_header (h : OpenLayout mode hmac key fields kind addressLen wire) :
    wire.take requestHeaderLen =
      openHeader mode.flag kind addressLen fields.destination.port fields.timestamp fields.nonce := by
  rw [h.wire_eq, openAuthenticated, List.append_assoc, List.append_assoc]
  exact List.take_left' (length_openHeader ..)

theorem openLen (h : OpenLayout mode hmac key fields kind addressLen wire) (hr : mode.Roomy) :
    openLenFromHeader mode (wire.take requestHeaderLen) = .ok wire.length := by
  obtain ⟨-, -, hle⟩ := parseAddress_shape h.shape
  have hs : addressLen < 256 ^ 2 := by omega
  rw [h.take_header, h.length_wire, openLenFromHeader, openHeader_magic, openHeader_flag, openHeader_kind,
    openHeader_addressLen, ofBe_beBytes hs]
  dsimp only
  rw [if_neg (by rw [length_openHeader]; exact not_not.2 rfl), if_neg (not_not.2 rfl), if_neg (not_not.2 rfl),
    addressLenValid_shape h.shape, if_neg (by decide), hr addressLen hle, if_neg (by decide)]

theorem decodeOpen_eq (h : OpenLayout mode hmac key fields kind addressLen wire) (hr : mode.Roomy)
    (htime : fields.timestamp < 2 ^ 64) {now difference : Nat}
    (hf : absDiff fields.timestamp now ≤ difference) :
    decodeOpen mode hmac wire key now difference = .ok fields := by
  obtain ⟨hp, had, -⟩ := parseAddress_shape h.shape
  have hl := h.length_wire
  have ha := h.length_authenticated
  have htk : wire.take (requestHeaderLen + addressLen + mode.trailer) =
      openAuthenticated mode fields kind addressLen := by
    rw [h.wire_eq]
    exact List.take_left' ha
  have hd : wire.drop (requestHeaderLen + addressLen + mode.trailer) =
      (hmac key.toList (openAuthenticated mode fields kind addressLen)).toList := by
    rw [h.wire_eq]
    exact List.drop_left' ha
  have has : slice wire addressOffset (requestHeaderLen + addressLen) = addressBytes fields.destination.address := by
    rw [h.wire_eq, openAuthenticated, List.append_assoc (_ ++ _)]
    exact slice_at (length_openHeader ..) (by rw [had]; rfl)
  have ht : slice wire (requestHeaderLen + addressLen) (requestHeaderLen + addressLen + mode.trailer) =
      fields.trailer := by
    rw [h.wire_eq, openAuthenticated]
    exact slice_at (by rw [List.length_append, length_openHeader, had]) (by rw [h.trailer])
  have he : wire.length - tagLen = requestHeaderLen + addressLen + mode.trailer := by omega
  have hae : requestHeaderLen + addressLen + mode.trailer - mode.trailer = requestHeaderLen + addressLen := by omega
  unfold decodeOpen
  rw [if_neg (by omega)]
  dsimp only
  rw [h.openLen hr]
  simp only [Bind.bind, Except.bind]
  rw [if_neg (not_not.2 rfl), he, htk, hd, if_neg (not_not.2 rfl), h.take_header, hae, has,
    ht, openHeader_timestamp _ _ _ _ _ _ htime, openHeader_nonce, openHeader_kind, openHeader_port,
    portOfBytes_portBytes, if_neg (Nat.not_lt.2 hf), if_neg h.port, hp]

end OpenLayout

theorem openLenFromHeader_ok {header : Bytes} {len : Nat} (h : openLenFromHeader mode header = .ok len) :
    header.take magic.length = magic ∧ header.getD flagsOffset 0 = mode.flag ∧
      ∃ addressLen, ofBe (slice header addressLengthOffset (addressLengthOffset + 2)) = addressLen ∧
        addressLenValid (header.getD addressTypeOffset 0) addressLen = true ∧
        len = requestHeaderLen + addressLen + mode.trailer + tagLen := by
  unfold openLenFromHeader at h
  dsimp only at h
  split_ifs at h with hl hm hf ha hb
  cases h
  refine ⟨not_not.1 hm, not_not.1 hf, _, rfl, ?_, rfl⟩
  simpa using ha

theorem openLayout_of_decodeOpen {input : Bytes} {now difference : Nat}
    (h : decodeOpen mode hmac input key now difference = .ok fields) :
    fields.timestamp < 2 ^ 64 ∧ absDiff fields.timestamp now ≤ difference ∧
      ∃ kind addressLen, OpenLayout mode hmac key fields kind addressLen input := by
  unfold decodeOpen at h
  simp only [Result.ite_error_ok_iff, Result.bind_ok_iff] at h
  obtain ⟨hshort, _, hexpected, hlength, htag, hwindow, hport, h⟩ := h
  have hh : (input.take requestHeaderLen).length = requestHeaderLen := by
    rw [List.length_take]
    omega
  generalize hhe : input.take requestHeaderLen = header at hexpected hwindow hport h hh
  obtain ⟨hm, hfl, addressLen, had, hv, rfl⟩ := openLenFromHeader_ok hexpected
  simp only [Nat.add_sub_cancel] at htag h
  split at h
  · cases h
  next address hp =>
  cases h
  have ht := not_not.1 htag
  have ha : (slice input addressOffset (requestHeaderLen + addressLen)).length = addressLen := by
    rw [length_slice (by omega)]
    exact Nat.add_sub_cancel_left _ _
  obtain ⟨hs, hb⟩ := addressShape_of_parseAddress hp (by rw [ha]; exact hv)
  rw [ha] at hs
  have htm := ofBe_lt (slice header timestampOffset (timestampOffset + 8))
  rw [length_slice (by rw [hh]; decide)] at htm
  refine ⟨htm, Nat.le_of_not_lt hwindow, _, addressLen, hs, hport, ?_, ?_⟩
  · dsimp only
    rw [length_slice (by omega)]
    omega
  · have hat : input.take (requestHeaderLen + addressLen + mode.trailer) =
        openAuthenticated mode
          ⟨timestampAt header, nonceAt header, ⟨address, portOfBytes (slice header portOffset (portOffset + 2))⟩,
            slice input (requestHeaderLen + addressLen) (requestHeaderLen + addressLen + mode.trailer)⟩
          (header.getD addressTypeOffset 0) addressLen := by
      have hf := openHeader_of_fields hh hm
      rw [hfl, had] at hf
      have hfr : header = slice input 0 requestHeaderLen := by rw [slice, List.drop_zero, hhe]
      rw [openAuthenticated, hb, ← hf, hfr, addressOffset, ← requestHeaderLen,
        slice_join (by omega) (by omega), slice_join (by omega) (by omega), slice, List.drop_zero]
    rw [← hat, ht, List.take_append_drop]

end layout

/-! ### The decoders accept what the encoders make -/

section accepted

variable {hmac : Hmac} {key : NxrKey} {input : Bytes} {now difference : Nat}

theorem encodeRequest_ok_iff {destination : Destination} {timestamp : Nat} {nonce : Nonce} {output wire : Bytes} :
    encodeRequest hmac destination timestamp nonce key output reserved = (wire, .ok ()) ↔
      reserved = true ∧ ∃ kind addressLen,
        OpenLayout tcpMode hmac key ⟨timestamp, nonce, destination, []⟩ kind addressLen wire :=
  encodeOpen_ok_iff rfl (Nat.le_refl _)

theorem encodeUdpOpen_ok_iff {destination : Destination} {userId : Vector UInt8 16} {timestamp : Nat} {nonce : Nonce}
    {output wire : Bytes} :
    encodeUdpOpen hmac destination userId timestamp nonce key output reserved = (wire, .ok ()) ↔
      reserved = true ∧ ∃ kind addressLen,
        OpenLayout udpMode hmac key ⟨timestamp, nonce, destination, userId.toList⟩ kind addressLen wire :=
  encodeOpen_ok_iff (show userId.toList.length = 16 from Vector.length_toList) (Nat.le_refl _)

theorem decodeAuthenticatedRequest_ok_iff {request : AuthenticatedRequest} :
    decodeAuthenticatedRequest hmac input key now difference = .ok request ↔
      request.timestamp < 2 ^ 64 ∧ absDiff request.timestamp now ≤ difference ∧
        ∃ kind addressLen, OpenLayout tcpMode hmac key
          ⟨request.timestamp, request.nonce, request.destination, []⟩ kind addressLen input := by
  rw [decodeAuthenticatedRequest, Result.map_ok_iff]
  constructor
  · rintro ⟨⟨timestamp, nonce, destination, trailer⟩, hdecoded, rfl⟩
    obtain ⟨ht, hf, kind, addressLen, hl⟩ := openLayout_of_decodeOpen hdecoded
    obtain rfl := List.eq_nil_of_length_eq_zero hl.trailer
    exact ⟨ht, hf, kind, addressLen, hl⟩
  · rintro ⟨ht, hf, kind, addressLen, hl⟩
    exact ⟨_, hl.decodeOpen_eq roomy_tcpMode ht hf, rfl⟩

theorem decodeUdpOpen_ok_iff {request : UdpAuthenticatedOpen} :
    decodeUdpOpen hmac input key now difference = .ok request ↔
      request.timestamp < 2 ^ 64 ∧ absDiff request.timestamp now ≤ difference ∧
        ∃ kind addressLen, OpenLayout udpMode hmac key
          ⟨request.timestamp, request.nonce, request.destination, request.userId.toList⟩ kind addressLen input := by
  rw [decodeUdpOpen, Result.map_ok_iff]
  constructor
  · rintro ⟨fields, hdecoded, rfl⟩
    obtain ⟨htm, hf, kind, addressLen, hl⟩ := openLayout_of_decodeOpen hdecoded
    have ht : (vectorAt 16 fields.trailer 0).toList = fields.trailer := by
      have hln : fields.trailer.length = 16 := hl.trailer
      rw [toList_vectorAt (by omega), ← hln, Nat.zero_add, slice_whole]
    refine ⟨htm, hf, kind, addressLen, ?_⟩
    dsimp only
    rw [ht]
    exact hl
  · rintro ⟨htm, hf, kind, addressLen, hl⟩
    have ht : vectorAt 16 request.userId.toList 0 = request.userId := by
      have hln : request.userId.toList.length = 16 := Vector.length_toList
      have hs := slice_whole request.userId.toList
      rw [hln] at hs
      apply Vector.toList_inj.1
      rw [toList_vectorAt (by omega)]
      exact hs
    exact ⟨_, hl.decodeOpen_eq roomy_udpMode htm hf, by rw [ht]⟩

end accepted

/-- NXR opens are unambiguous, for every key, clock and MAC function: a decoder accepts a string exactly
when it is the encoder's output for the fields that are returned and the timestamp is inside the
allowed difference; the fixed header of every encoder output tells its length; and no string is
accepted in both modes. -/
theorem nxr_opens_unambiguous (hmac : Hmac) (key : NxrKey) :
    (∀ (input output : Bytes) (now difference : Nat) (request : AuthenticatedRequest),
      decodeAuthenticatedRequest hmac input key now difference = .ok request ↔
        encodeRequest hmac request.destination request.timestamp request.nonce key output true = (input, .ok ()) ∧
          request.timestamp < 2 ^ 64 ∧ absDiff request.timestamp now ≤ difference) ∧
    (∀ (input output : Bytes) (now difference : Nat) (request : UdpAuthenticatedOpen),
      decodeUdpOpen hmac input key now difference = .ok request ↔
        encodeUdpOpen hmac request.destination request.userId request.timestamp request.nonce key output true =
            (input, .ok ()) ∧
          request.timestamp < 2 ^ 64 ∧ absDiff request.timestamp now ≤ difference) ∧
    (∀ (destination : Destination) (timestamp : Nat) (nonce : Nonce) (output wire : Bytes) (reserved : Bool),
      encodeRequest hmac destination timestamp nonce key output reserved = (wire, .ok ()) →
        requestLenFromHeader (wire.take requestHeaderLen) = .ok wire.length) ∧
    (∀ (destination : Destination) (userId : Vector UInt8 16) (timestamp : Nat) (nonce : Nonce) (output wire : Bytes)
      (reserved : Bool),
      encodeUdpOpen hmac destination userId timestamp nonce key output reserved = (wire, .ok ()) →
        udpOpenLenFromHeader (wire.take requestHeaderLen) = .ok wire.length) ∧
    (∀ (input : Bytes) (key' : NxrKey) (now now' difference difference' : Nat) (request : AuthenticatedRequest)
      (request' : UdpAuthenticatedOpen),
      decodeAuthenticatedRequest hmac input key now difference = .ok request →
        decodeUdpOpen hmac input key' now' difference' ≠ .ok request') := by
  refine ⟨?_, ?_, ?_, ?_, ?_⟩
  · intro input output now difference request
    rw [decodeAuthenticatedRequest_ok_iff, encodeRequest_ok_iff]
    tauto
  · intro input output now difference request
    rw [decodeUdpOpen_ok_iff, encodeUdpOpen_ok_iff]
    tauto
  · intro destination timestamp nonce output wire reserved h
    obtain ⟨-, kind, addressLen, hla⟩ := encodeRequest_ok_iff.1 h
    exact hla.openLen roomy_tcpMode
  · intro destination userId timestamp nonce output wire reserved h
    obtain ⟨-, kind, addressLen, hla⟩ := encodeUdpOpen_ok_iff.1 h
    exact hla.openLen roomy_udpMode
  · intro input key' now now' difference difference' request request' h h'
    obtain ⟨-, -, kind, addressLen, hla⟩ := decodeAuthenticatedRequest_ok_iff.1 h
    obtain ⟨-, -, kind', addressLen', hla'⟩ := decodeUdpOpen_ok_iff.1 h'
    have hh := hla.take_header.symm.trans hla'.take_header
    -- the flag bytes of the two modes differ
    have hf := congrArg (fun header : Bytes => header.getD flagsOffset 0) hh
    rw [openHeader_flag, openHeader_flag] at hf
    exact absurd hf (by decide)

end RustReality.Nxr
