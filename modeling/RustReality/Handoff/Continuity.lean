import RustReality.Handoff.Landing
import RustReality.Vision.Downlink
import RustReality.Vision.Request
import RustReality.Vision.UplinkTransparency
import RustReality.Vless.ClientRequest

/-!
# Handoff continuity

LINE hands a session over between two records: it exports both record layers, the ciphertext it has
read ahead, the payload it has prefetched and the KeyUpdate response it owes, and from then on only
relays bytes. LANDING goes on from there. Nothing of the state is lost on the way, so LANDING seals
what LINE would have sealed and opens what LINE would have opened (`handoff_continuity`).
-/

namespace RustReality.Handoff
open ContinuationState Vless Tls Net Transport Vision

variable {ρ K : Type} (crypto : RecordCrypto TrafficSecret K)

/-! ### LINE -/

structure EstablishedSession where
  reader : TlsApplicationReader TrafficSecret K
  writer : TlsApplicationWriter TrafficSecret K
  inboundTag : Text
  inv : reader.Inv
  reader_live : reader.records.Live crypto
  writer_live : writer.records.Live crypto
  suites : writer.records.suite = reader.records.suite

/-- An accepted TCP session at the point where LINE serves it or hands it over. -/
structure LineSession where
  reader : TlsApplicationReader TrafficSecret K
  writer : TlsApplicationWriter TrafficSecret K
  userId : UserId
  inboundTag : Text
  destination : Destination
  prefetched : Bytes
  boundary : AtBoundary crypto reader
  writer_live : writer.records.Live crypto
  suites : writer.records.suite = reader.records.suite

/-- The session of a completed handshake: its record layers are fresh, and nothing is read ahead. -/
def EstablishedSession.fresh (suite : CipherSuite) (clientSecret serverSecret : TrafficSecret)
    {clientRecords serverRecords : Tls13RecordLayer TrafficSecret K} (client : Source) (toClient : Sink) (env : HalvesEnv)
    (inboundTag : Text) (hclient : Tls13RecordLayer.fromTrafficSecret crypto suite clientSecret = .ok clientRecords)
    (hserver : Tls13RecordLayer.fromTrafficSecret crypto suite serverSecret = .ok serverRecords) :
    EstablishedSession crypto where
  reader := .new client clientRecords [] 0 env.readerHeap
  writer :=
    { io := toClient
      records := serverRecords
      owed := false
      requests := env.requests
      capacity := 0
      heap := env.writerHeap }
  inboundTag
  inv := ⟨Nat.le_refl _, Nat.le_refl _, Nat.le_refl _⟩
  reader_live := (Tls13RecordLayer.Live.of_fromTrafficSecret hclient).1
  writer_live := (Tls13RecordLayer.Live.of_fromTrafficSecret hserver).1
  suites := (Tls13RecordLayer.Live.of_fromTrafficSecret hserver).2.trans
    (Tls13RecordLayer.Live.of_fromTrafficSecret hclient).2.symm

/-- The halves share what is owed: a request for a KeyUpdate that the reader has seen is the writer's to answer. -/
def EstablishedSession.accept (authenticated : UserId) (turns : List RequestTurn) (self : EstablishedSession crypto) :
    Option (LineSession crypto) :=
  match h : readVisionRequest authenticated crypto turns self.reader with
  | (reader, .ok (.tcp userId destination prefetched)) =>
    have hspec := readVisionRequest_spec authenticated crypto self.inv self.reader_live h
    some
      { reader
        writer := { self.writer with owed := self.writer.owed || reader.responseObserved }
        userId
        inboundTag := self.inboundTag
        destination
        prefetched
        boundary := hspec.1
        writer_live := self.writer_live
        suites := self.suites.trans hspec.2.symm }
  | _ => none

namespace LineSession

variable {crypto}

/-- The state that `relay_via_handoff` seals. -/
def continuationState (self : LineSession crypto) : Except HandoffError ContinuationState :=
  let (pending, _, clientRecords) := self.reader.intoHandoffParts
  let (_, serverRecords, keyUpdateResponsePending) := self.writer.intoHandoffParts
  match clientRecords.intoExportedState with
  | .error _ => .error .state
  | .ok client =>
    match serverRecords.intoExportedState with
    | .error _ => .error .state
    | .ok server =>
      new client.suite client.trafficSecret (UInt64.ofNat client.sequence) server.trafficSecret
        (UInt64.ofNat server.sequence) keyUpdateResponsePending .tcp self.userId self.inboundTag self.destination pending
        self.prefetched (.tcpPlaceholder self.destination)

end LineSession

/-! ### Serving a session on either node -/

structure UplinkEnv where
  script : List WriteEvent
  heap : List (Option Nat)
  raw : RawEnv

/-- What a downlink meets outside the session: the client's socket, the storage for records and the
moments at which requests are seen among it. -/
structure DownlinkEnv (ρ : Type) where
  destination : Source
  client : Sink
  requests : List Bool
  capacity : Nat
  heap : List (Option Nat)
  seed : Option ρ
  readerHeap : List Bool
  detectorHeap : List Bool
  raw : DownRawEnv

def DownlinkEnv.input (env : DownlinkEnv ρ) (writer : TlsApplicationWriter TrafficSecret K) (userId : UserId) :
    DownlinkInput ρ TrafficSecret K :=
  { userId
    destination := env.destination
    writer :=
      { writer with
        io := env.client, requests := env.requests, capacity := env.capacity, heap := env.heap, generation := 0, log := [] }
    seed := env.seed
    readerHeap := env.readerHeap
    detectorHeap := env.detectorHeap
    env := env.raw }

namespace LineSession

variable {crypto}

def uplink (self : LineSession crypto) (env : UplinkEnv) : UplinkInput TrafficSecret K :=
  { userId := self.userId, prefetched := self.prefetched, client := self.reader, client_inv := self.boundary.inv,
    script := env.script, heap := env.heap, env := env.raw }

def downlink (self : LineSession crypto) (env : DownlinkEnv ρ) : DownlinkInput ρ TrafficSecret K :=
  env.input self.writer self.userId

end LineSession

namespace ResumedSession

def uplink (self : ResumedSession K) (env : UplinkEnv) : UplinkInput TrafficSecret K :=
  { userId := self.userId, prefetched := self.prefetched, client := self.reader, client_inv := self.reader_inv,
    script := env.script, heap := env.heap, env := env.raw }

def downlink (self : ResumedSession K) (env : DownlinkEnv ρ) : DownlinkInput ρ TrafficSecret K :=
  env.input self.writer self.userId

end ResumedSession

def EndsWell (input : UplinkInput TrafficSecret K) : Prop :=
  ∃ stats, (Vision.session crypto input).2 = .ok stats ∧ (stats.uplinkDirect = true → stats.uplinkBackend ≠ none)

/-! ### What LANDING resumes -/

variable {crypto}

structure Resumes (line : LineSession crypto) (inbound : Source) (resumed : ResumedSession K) : Prop where
  clientRecords : resumed.reader.records = line.reader.records
  serverRecords : resumed.writer.records = line.writer.records
  keyUpdate : resumed.reader.keyUpdate = line.reader.keyUpdate
  owed : resumed.writer.owed = line.writer.owed
  wire : resumed.reader.wire = line.reader.buffered ++ inbound.bytes
  userId : resumed.userId = line.userId
  destination : resumed.destination = line.destination
  prefetched : resumed.prefetched = line.prefetched

theorem ContinuationState.new_ok {suite : CipherSuite} {clientSecret serverSecret : TrafficSecret}
    {clientSequence serverSequence : UInt64} {owed : Bool} {kind : SessionKind} {userId : UserId} {tag : Text}
    {destination : Destination} {pending prefetched : Bytes} {policy : HandoffPolicySnapshot} {state : ContinuationState}
    (h : new suite clientSecret clientSequence serverSecret serverSequence owed kind userId tag
      destination pending prefetched policy = .ok state) :
    ∃ hc hs ht ha hpn hp, state =
      ⟨suite, clientSecret, serverSecret, clientSequence, serverSequence, owed, kind, userId, tag, destination, pending,
        prefetched, policy, hc, hs, ht, ha, hpn, hp⟩ := by
  unfold new at h
  split at h
  · next hh =>
    split at h
    · next hl =>
      split at h
      · next ha =>
        cases h
        exact ⟨hh.1, hh.2, hl.1, ha, hl.2.1, hl.2.2, rfl⟩
      · cases h
    · cases h
  · cases h

theorem LineSession.continuationState_ok {line : LineSession crypto} {state : ContinuationState}
    (h : line.continuationState = .ok state) :
    line.reader.records.intoExportedState =
        .ok ⟨state.suite, state.clientTrafficSecret, state.clientSequence.toNat⟩ ∧
      line.writer.records.intoExportedState =
        .ok ⟨state.suite, state.serverTrafficSecret, state.serverSequence.toNat⟩ ∧
      state.keyUpdateResponsePending = line.writer.owed ∧ state.userId = line.userId ∧
      state.destination = line.destination ∧ state.pendingCiphertext = line.reader.buffered ∧
      state.prefetchedPlaintext = line.prefetched ∧ state.policy = .tcpPlaceholder state.destination := by
  unfold LineSession.continuationState at h
  dsimp only [TlsApplicationReader.intoHandoffParts, TlsApplicationWriter.intoHandoffParts] at h
  cases hc : line.reader.records.intoExportedState with
  | error e =>
    rw [hc] at h
    cases h
  | ok client =>
    rw [hc] at h
    cases hs : line.writer.records.intoExportedState with
    | error e =>
      rw [hs] at h
      cases h
    | ok server =>
      rw [hs] at h
      obtain ⟨hcs, hclis⟩ := Tls13RecordLayer.intoExportedState_ok hc
      obtain ⟨hss, hse⟩ := Tls13RecordLayer.intoExportedState_ok hs
      have hcl := line.boundary.live.sequence_lt
      have hsr := line.writer_live.sequence_lt
      rw [← hclis] at hcl
      rw [← hse] at hsr
      have hsu : server.suite = client.suite := by rw [hss, line.suites, hcs]
      obtain ⟨_, _, _, _, _, _, rfl⟩ := new_ok h
      refine ⟨?_, ?_, rfl, rfl, rfl, rfl, rfl, rfl⟩
      · rw [UInt64.toNat_ofNat', Nat.mod_eq_of_lt hcl]
      · show Except.ok server = .ok ⟨client.suite, server.trafficSecret, (UInt64.ofNat server.sequence).toNat⟩
        rw [UInt64.toNat_ofNat', Nat.mod_eq_of_lt hsr, ← hsu]

theorem resumeSession_continuationState {line : LineSession crypto} {state : ContinuationState}
    (hstate : line.continuationState = .ok state) {env : LandingEnv} {inbound : Source} {client : Sink}
    {resumed : ResumedSession K} (h : resumeSession crypto env state inbound client = .ok resumed) :
    Resumes line inbound resumed := by
  obtain ⟨hcl, hsr, ho, hu, hd, hpn, hp, -⟩ := line.continuationState_ok hstate
  unfold resumeSession at h
  split at h
  · cases h
  next tls ht =>
  obtain ⟨hc, hs⟩ := EstablishedTls.fromExportedState_ok crypto ht
  have hr := Tls13RecordLayer.fromExportedState_intoExportedState line.boundary.live hcl hc
  have hw := Tls13RecordLayer.fromExportedState_intoExportedState line.writer_live hsr hs
  split at h
  · cases h
  split at h
  · cases h
  cases h
  refine ⟨hr, hw, line.boundary.whole.symm, ho, ?_, hu, hd, hp⟩
  show slice state.pendingCiphertext 0 state.pendingCiphertext.length ++ inbound.bytes = _
  rw [slice, List.take_length, List.drop_zero, hpn]

/-! ### The whole handover -/

/-- A session that LINE handed over and LANDING resumed: the message LINE sealed and wrote, the relay it
ran behind that, and what LANDING made of the bytes that arrived. -/
structure Handover (primitives : Primitives) (encrypt : Encrypt) (line : LineSession crypto) where
  state : ContinuationState
  exported : line.continuationState = .ok state
  reserve : Nat → Bool
  random : SealRandom
  psk : HandoffPsk
  landingPublic : Vector UInt8 32
  clientRandom : Vector UInt8 32
  timestamp : UInt64
  message : Bytes
  isSealed : sealTransfer primitives encrypt reserve random state psk landingPublic clientRandom timestamp = .ok message
  pools : Pools
  upFirst : Bool
  /-- LINE's connection to LANDING, the message written. -/
  outbound : Sink
  outbound_written : outbound.written = message
  fromLanding : Source
  toClient : Sink
  env : LandingEnv
  /-- LANDING's end of that connection. -/
  inbound : Source
  arrives : inbound.bytes =
    (relayOwned pools true upFirst (line.reader.io, outbound) (fromLanding, toClient)).1.sink.written
  client : Sink
  resumed : ResumedSession K
  resumes : handle crypto primitives env inbound client = .ok resumed

namespace Handover

variable {primitives : Primitives} {encrypt : Encrypt} {line : LineSession crypto}
  (self : Handover primitives encrypt line)

def relay : Pump × Pump × Except RelayError RelayOutcome :=
  relayOwned self.pools true self.upFirst (line.reader.io, self.outbound) (self.fromLanding, self.toClient)

def RelayCompletes : Prop := ∃ outcome, self.relay.2.2 = .ok outcome

/-- LANDING stands where LINE stood, in front of the client's bytes that LINE relays. It seals for the
client what LINE would have sealed in the same circumstances. Whichever node serves the session, the
destination gets a part of the same bytes from the front, and all of them when nothing fails. -/
structure Continuous (self : Handover primitives encrypt line) : Prop where
  resumes : ∃ behind : Source, behind.bytes <+: line.reader.io.bytes ∧
    (self.RelayCompletes → behind.bytes = line.reader.io.bytes) ∧ Resumes line behind self.resumed
  records : ∀ {ρ : Type} (rng : PaddingRng ρ) (env : DownlinkEnv ρ),
    relayDownlink rng crypto (self.resumed.downlink env) = relayDownlink rng crypto (line.downlink env)
  relayed : ∃ received, self.relay.2.1.sink.written = self.toClient.written ++ received ∧
    received <+: self.fromLanding.bytes ∧ (self.RelayCompletes → received = self.fromLanding.bytes)
  delivered : ∀ env env',
    (session crypto (line.uplink env)).1.written <+: (line.uplink env).expected crypto ∧
      (session crypto (self.resumed.uplink env')).1.written <+: (line.uplink env).expected crypto
  same : self.RelayCompletes → ∀ env env', EndsWell crypto (line.uplink env) →
    EndsWell crypto (self.resumed.uplink env') →
      (session crypto (self.resumed.uplink env')).1.written = (session crypto (line.uplink env)).1.written

end Handover

namespace Resumes

variable {line : LineSession crypto} {behind : Source} {resumed : ResumedSession K}

theorem downlink_eq (h : Resumes line behind resumed) (env : DownlinkEnv ρ) :
    resumed.downlink env = line.downlink env := by
  show env.input resumed.writer resumed.userId = env.input line.writer line.userId
  rw [DownlinkEnv.input, h.serverRecords, h.owed, h.userId]
  rfl

theorem agree (h : Resumes line behind resumed) : resumed.reader.state.Agree line.reader.state :=
  ⟨h.clientRecords.symm, h.keyUpdate.symm⟩

theorem expected_front (h : Resumes line behind resumed) (hb : behind.bytes <+: line.reader.io.bytes)
    (env env' : UplinkEnv) : (resumed.uplink env').expected crypto <+: (line.uplink env).expected crypto := by
  refine UplinkInput.expected_front crypto h.agree h.userId.symm h.prefetched.symm ?_
  show resumed.reader.wire <+: line.reader.wire
  rw [h.wire]
  exact (List.prefix_append_right_inj _).mpr hb

theorem expected_eq (h : Resumes line behind resumed) (hb : behind.bytes = line.reader.io.bytes)
    (env env' : UplinkEnv) : (resumed.uplink env').expected crypto = (line.uplink env).expected crypto := by
  have hw : line.reader.wire = resumed.reader.wire := by rw [h.wire, hb, TlsApplicationReader.wire]
  have hbc : (line.uplink env).expected crypto <+: (resumed.uplink env').expected crypto :=
    UplinkInput.expected_front crypto ⟨h.clientRecords, h.keyUpdate⟩ h.userId h.prefetched (hw ▸ List.prefix_rfl)
  exact (h.expected_front (hb ▸ List.prefix_rfl) env env').eq_of_length_le hbc.length_le

end Resumes

/-- A handover changes nothing: neither what the client is sent nor what the destination receives. -/
theorem handoff_continuity {primitives : Primitives} {encrypt : Encrypt} (hauthentic : Authentic primitives encrypt)
    {line : LineSession crypto} (handover : Handover primitives encrypt line) : handover.Continuous := by
  obtain ⟨header, ciphertext, tag, hm, hse⟩ := sealTransfer_ok handover.isSealed
  have hp := (line.continuationState_ok handover.exported).2.2.2.2.2.2.2
  rcases hrl : handover.relay with ⟨p, q, outcome⟩
  obtain ⟨sent, received, hto, hfrom⟩ := relayOwned_spec hrl
  have hi : handover.inbound.bytes = header ++ (ciphertext ++ tag) ++ sent := by
    rw [handover.arrives, ← hm, ← handover.outbound_written]
    exact (congrArg (fun run => run.1.sink.written) hrl).trans hto.written
  obtain ⟨behind, hb, hrm⟩ := handle_sealed crypto primitives hauthentic hp hse hi handover.resumes
  have hr := resumeSession_continuationState handover.exported hrm
  have hcm : handover.RelayCompletes → sent = line.reader.io.bytes ∧ received = handover.fromLanding.bytes := by
    rintro ⟨result, hrs⟩
    rw [hrl] at hrs
    dsimp only at hrs
    subst hrs
    exact ⟨(hto.ends.resolve_right (by simp)).1, (hfrom.ends.resolve_right (by simp)).1⟩
  refine ⟨⟨behind, hb ▸ hto.front, fun hc => hb.trans (hcm hc).1, hr⟩, ?_, ?_, ?_, ?_⟩
  · intro ρ rng env
    rw [hr.downlink_eq env]
  · refine ⟨received, ?_, hfrom.front, fun hc => (hcm hc).2⟩
    rw [hrl]
    exact hfrom.written
  · intro env env'
    have hl := UplinkInput.session_arrives crypto (line.uplink env)
    have hln := UplinkInput.session_arrives crypto (handover.resumed.uplink env')
    exact ⟨hl.front, hln.front.trans (hr.expected_front (hb ▸ hto.front) env env')⟩
  · rintro hc env env' ⟨stats, hok, hbc⟩ ⟨stats', hok', hbc'⟩
    have hl := (UplinkInput.session_arrives crypto (line.uplink env)).exact stats hok hbc
    have hln := (UplinkInput.session_arrives crypto (handover.resumed.uplink env')).exact stats' hok' hbc'
    rw [hl, hln]
    exact hr.expected_eq (hb.trans (hcm hc).1) env env'

/-! ### A client that breaks the protocol -/

namespace BrokenClient

def records : RecordCrypto TrafficSecret Unit where
  keys _ _ := some ((), Vector.replicate 12 0)
  updated := some
  sealBody := RecordCrypto.null.sealBody
  openBody := RecordCrypto.null.openBody
  seal_length := RecordCrypto.null.seal_length
  open_length := RecordCrypto.null.open_length
  open_seal := RecordCrypto.null.open_seal

def primitives : Primitives where
  publicKey := id
  agree _ _ := some (Vector.replicate 32 0)
  hkdf _ _ _ length := some (List.replicate length 0)
  hmac _ _ := []
  decrypt _ _ _ ciphertext _ := some ciphertext

def encrypt : Encrypt := fun _ _ _ plaintext => some (plaintext, List.replicate tagLen 0)

theorem authentic : Authentic primitives encrypt := by
  refine ⟨?_, ?_, ?_⟩
  · rintro key nonce aad plaintext _ _ ⟨⟩
    rfl
  · rintro key nonce aad plaintext _ _ ⟨⟩
    exact List.length_replicate
  · rintro key nonce aad plaintext _ _ key' nonce' plaintext' ⟨⟩ ⟨⟩
    rfl

def record (content : Bytes) : Bytes :=
  Tls13RecordLayer.recordHeader (content.length + 1 + Tls.tagLen) ++ content ++ [23] ++ List.replicate Tls.tagLen 0

/-- The start of the framing, which announces two bytes. LINE has read it ahead. -/
def opening : Bytes := record (List.replicate 16 0 ++ [0, 0, 2, 0, 0])

def payload : Bytes := record [42]

def garbage : Bytes := [20, 3, 3, 0, 1, 0]

def layer (secret : UInt8) (sequence : Nat) : Tls13RecordLayer TrafficSecret Unit :=
  { suite := .aes128GcmSha256
    key := ()
    iv := Vector.replicate 12 0
    traffic := some ⟨.sha256, List.replicate 32 secret, rfl⟩
    sequence
    writeFailed := false }

def line : LineSession records where
  reader :=
    { io := Source.unread (payload ++ garbage) []
      records := layer 1 1
      socketBuffer := opening
      capacity := opening.length
      bufferedStart := 0
      bufferedEnd := opening.length
      keyUpdate := []
      responseObserved := false
      heap := [] }
  writer := { io := .fresh [], records := layer 2 0, owed := false, requests := [], capacity := 0, heap := [] }
  userId := Vector.replicate 16 0
  inboundTag := (freshState 443).inboundTag
  destination := ⟨.ipv4 0x01020304, 443⟩
  prefetched := []
  boundary := ⟨⟨by decide, by decide, by decide⟩, ⟨fun _ _ => rfl, by decide⟩, rfl⟩
  writer_live := ⟨fun _ _ => rfl, by decide⟩
  suites := rfl

def state : ContinuationState := line.continuationState.toOption.get (by decide +kernel)

def message : Bytes :=
  (sealTransfer primitives encrypt (fun _ => true) ⟨some (Vector.replicate 32 3), some (Vector.replicate 16 4)⟩ state
    (Vector.replicate 32 5) (Vector.replicate 32 6) (Vector.replicate 32 7) 0).toOption.getD []

def inbound : Source := Source.unread message (Source.unread payload (Source.unread garbage []))

def landing : LandingEnv where
  keys := ⟨Vector.replicate 32 5, [], Vector.replicate 32 6, []⟩
  reserve _ := true
  now := 0
  maximumTimeDifference := 60
  admitted := .ok ()
  connects := true
  halves := ⟨socketBufferCapacity, [], [], []⟩

def resumed : ResumedSession Unit :=
  (handle records primitives landing inbound (.fresh [])).toOption.get (by decide +kernel)

theorem ok_of_get {ε α : Type} {result : Except ε α} {h : result.toOption.isSome} : result = .ok (result.toOption.get h) := by
  cases result with
  | error e => cases h
  | ok value => rfl

def handover : Handover primitives encrypt line where
  state := state
  exported := ok_of_get
  reserve _ := true
  random := ⟨some (Vector.replicate 32 3), some (Vector.replicate 16 4)⟩
  psk := Vector.replicate 32 5
  landingPublic := Vector.replicate 32 6
  clientRandom := Vector.replicate 32 7
  timestamp := 0
  message := message
  isSealed := by decide +kernel
  pools := resetAfterRawByte.env.pools
  upFirst := true
  outbound := ⟨message, [], false⟩
  outbound_written := by dsimp only
  fromLanding := []
  toClient := .fresh []
  env := landing
  inbound := inbound
  arrives := by decide +kernel
  client := .fresh []
  resumed := resumed
  resumes := ok_of_get

def surroundings : UplinkEnv where
  script := []
  heap := []
  raw := resetAfterRawByte.env

theorem handoff_continuity_broken_client : handover.Continuous := handoff_continuity authentic handover

/-- LINE drops the payload it has staged when the next record fails, LANDING has delivered it by then. -/
theorem handoff_cut_elsewhere : handover.RelayCompletes ∧ (session records (line.uplink surroundings)).1.written = [] ∧
    (session records (handover.resumed.uplink surroundings)).1.written = [42] :=
  ⟨⟨⟨.buffered, 29, 0⟩, by decide +kernel⟩, by decide +kernel, by decide +kernel⟩

end BrokenClient

/-! ### Accepting a session -/

/-- An accepted session has read up to the record that completes the request and no further, and has
prefetched what follows the request there, no more than the handoff format carries. -/
theorem accepted_at_completing_record (authenticated : UserId) (turns : List RequestTurn) (self : EstablishedSession crypto)
    (line : LineSession crypto) (h : self.accept crypto authenticated turns = some line) :
    line.prefetched.length ≤ maxPrefetchedPlaintextLen ∧ line.userId = authenticated ∧
    line.writer = { self.writer with owed := self.writer.owed || line.reader.responseObserved } ∧
    ∃ records, Received crypto self.reader records line.reader ∧
      (∀ front, front <+: records → front ≠ records → Incomplete front.flatten) ∧
      ∃ request, CarriesTcp authenticated records.flatten line.destination line.prefetched request := by
  unfold EstablishedSession.accept at h
  split at h
  · next hread =>
    cases h
    obtain ⟨records, hreceived, hcompletes⟩ := requestLoop_completes authenticated crypto (Nat.zero_le _) hread
    obtain ⟨huser, request, hcarries⟩ := accepts_tcp authenticated hcompletes.last
    refine ⟨?_, huser, rfl, records, hreceived, hcompletes.first, request, hcarries⟩
    have hlength := congrArg List.length hcarries.prefetched
    rw [List.length_drop] at hlength
    exact (hlength.trans_le (Nat.sub_le _ _)).trans hcompletes.fits
  · cases h

namespace SplitRequest
open BrokenClient

def request : Bytes := sampleBuffer.take 44

/-- The request comes in two records, the second of them with a byte of payload, and a third record follows. -/
def session : EstablishedSession records :=
  .fresh records .aes128GcmSha256 (freshState 443).clientTrafficSecret (freshState 443).serverTrafficSecret
    (Source.unread (record (request.take 20) ++ record (request.drop 20 ++ [7]) ++ record [8]) []) (.fresh [])
    ⟨0, [], [], []⟩ (freshState 443).inboundTag rfl rfl

def line : LineSession records := (session.accept records sampleUser []).get (by decide +kernel)

theorem accepted_split_request :
    line.prefetched = [7] ∧ line.reader.wire = record [8] ∧ line.prefetched.length ≤ maxPrefetchedPlaintextLen :=
  ⟨by decide +kernel, by decide +kernel,
    (accepted_at_completing_record sampleUser [] session line (Option.some_get _).symm).1⟩

end SplitRequest

end RustReality.Handoff
