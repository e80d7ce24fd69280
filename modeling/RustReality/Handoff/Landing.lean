import RustReality.Handoff.Seal
import RustReality.Tls.Export

/-!
# LANDING takes a session over

`handle` reads one transfer message off the connection from LINE, opens it and binds the rest of that
connection to the rebuilt TLS directions. It reads exactly the message: whatever LINE relays behind it
is what the resumed reader reads (`handle_sealed`).
-/

namespace RustReality.Handoff
open List Vless Tls Net

inductive HandoffLandingError
  /-- The connection failed, or ended. -/
  | read (failure : Option Failure)
  | allocation
  | protocol (error : HandoffError)
  /-- The destination is not reached, or blocked by the egress. -/
  | destination
  deriving DecidableEq, Repr

structure LandingEnv where
  keys : HandoffLandingKeys
  reserve : Nat → Bool
  now : Nat
  maximumTimeDifference : Nat
  /-- The replay cache's answer to the nonce. -/
  admitted : Except HandoffError Unit
  connects : Bool
  halves : HalvesEnv

structure ResumedSession (K : Type) where
  reader : TlsApplicationReader TrafficSecret K
  writer : TlsApplicationWriter TrafficSecret K
  userId : UserId
  destination : Destination
  prefetched : Bytes
  reader_inv : reader.Inv

/-- The first byte of a message is read on its own, then its header, then the rest. -/
def readTransfer (reserve : Nat → Bool) (inbound : Source) : Source × Except HandoffLandingError Bytes :=
  match inbound.readExact 1 with
  | (inbound, .error failure) => (inbound, .error (.read failure))
  | (inbound, .ok first) =>
    match inbound.readExact (headerLen - 1) with
    | (inbound, .error failure) => (inbound, .error (.read failure))
    | (inbound, .ok more) =>
      match messageLenFromHeader (first ++ more) with
      | .error error => (inbound, .error (.protocol error))
      | .ok total =>
        if !reserve total then (inbound, .error .allocation)
        else
          match inbound.readExact (total - headerLen) with
          | (inbound, .error failure) => (inbound, .error (.read failure))
          | (inbound, .ok body) => (inbound, .ok (first ++ more ++ body))

variable {K : Type} (crypto : RecordCrypto TrafficSecret K) (primitives : Primitives)

/-- `handle` from an opened transfer on. -/
def resumeSession (env : LandingEnv) (state : ContinuationState) (inbound : Source) (client : Sink) :
    Except HandoffLandingError (ResumedSession K) :=
  match EstablishedTls.fromExportedState crypto
    ⟨state.suite, state.clientTrafficSecret, state.clientSequence.toNat⟩
    ⟨state.suite, state.serverTrafficSecret, state.serverSequence.toNat⟩ with
  | .error _ => .error (.protocol .state)
  | .ok tls =>
    if state.sessionKind = .xudp then .error (.protocol .state)
    else if !env.connects then .error .destination
    else
      let halves := resumeApplicationHalves env.halves inbound state.pendingCiphertext client tls
        state.keyUpdateResponsePending
      .ok
        { reader := halves.1
          writer := halves.2
          userId := state.userId
          destination := state.destination
          prefetched := state.prefetchedPlaintext
          reader_inv := TlsApplicationReader.Inv.init _ _ (Nat.le_add_right _ _) _ }

/-- The read half of the connection from LINE and its write half; the session it resumes. -/
def handle (env : LandingEnv) (inbound : Source) (client : Sink) : Except HandoffLandingError (ResumedSession K) :=
  match readTransfer env.reserve inbound with
  | (_, .error error) => .error error
  | (inbound, .ok message) =>
    match openTransferHeader message env.now env.maximumTimeDifference with
    | .error error => .error (.protocol error)
    | .ok header =>
      match env.admitted with
      | .error error => .error (.protocol error)
      | .ok () =>
        match openTransferBody primitives env.reserve env.keys message header with
        | .error error => .error (.protocol error)
        | .ok opened => resumeSession crypto env opened.state inbound client

/-! ### Taking over a sealed session -/

theorem messageLenFromHeader_ok {header : Bytes} {total : Nat} (h : messageLenFromHeader header = .ok total) :
    total = headerLen + ofBe (slice header blobLenOffset headerLen) + tagLen := by
  obtain ⟨parsed, hp, h⟩ := Result.bind_ok_iff.1 h
  dsimp only at h
  split at h
  · cases h
    rw [parseHeader_eq hp]
  · cases h

theorem readTransfer_sealed {primitives : Primitives} {encrypt : Encrypt} (ha : Authentic primitives encrypt)
    {reserve reserve' : Nat → Bool} {state : ContinuationState} {header ciphertext tag forwarded message : Bytes}
    (hs : Sealed encrypt reserve state header ciphertext tag) {inbound inbound' : Source}
    (hi : inbound.bytes = header ++ (ciphertext ++ tag) ++ forwarded)
    (h : readTransfer reserve' inbound = (inbound', .ok message)) :
    message = header ++ (ciphertext ++ tag) ∧ inbound'.bytes = forwarded := by
  obtain ⟨blob, key, nonce, -, he, hbl⟩ := hs.encrypted
  unfold readTransfer at h
  split at h
  · cases h
  next first hfi =>
  obtain ⟨hf, hfr⟩ := Source.readExact_spec hfi
  split at h
  · cases h
  next more hmr =>
  obtain ⟨hm, hmo⟩ := Source.readExact_spec hmr
  have hhl : (first ++ more).length = header.length := by
    rw [length_append, hf, hm, hs.length]
    rfl
  rw [hfr, hmo, ← append_assoc, append_assoc header] at hi
  obtain ⟨hh, hr⟩ := append_inj hi hhl
  split at h
  · cases h
  next total ht =>
  split at h
  · cases h
  split at h
  · cases h
  next body hb =>
  obtain ⟨hbd, hbo⟩ := Source.readExact_spec hb
  cases h
  have hsz : body.length = (ciphertext ++ tag).length := by
    rw [hbd, messageLenFromHeader_ok ht, hh, hbl, length_append,
      ha.ciphertext_length he, ha.tag_length he]
    omega
  rw [hbo] at hr
  obtain ⟨hw, hfo⟩ := append_inj hr hsz
  rw [hh, hw]
  exact ⟨rfl, hfo⟩

/-- LANDING resumes a TCP session from the state LINE sealed, and reads on behind the message. -/
theorem handle_sealed {encrypt : Encrypt} (ha : Authentic primitives encrypt) {reserve : Nat → Bool}
    {state : ContinuationState} (hpolicy : state.policy = .tcpPlaceholder state.destination)
    {header ciphertext tag forwarded : Bytes} (hs : Sealed encrypt reserve state header ciphertext tag)
    {env : LandingEnv} {inbound : Source} (hi : inbound.bytes = header ++ (ciphertext ++ tag) ++ forwarded)
    {client : Sink} {resumed : ResumedSession K} (h : handle crypto primitives env inbound client = .ok resumed) :
    ∃ behind : Source, behind.bytes = forwarded ∧ resumeSession crypto env state behind client = .ok resumed := by
  unfold handle at h
  split at h
  · cases h
  next behind message hr =>
  obtain ⟨rfl, hb⟩ := readTransfer_sealed ha hs hi hr
  split at h
  · cases h
  next parsed hpr =>
  split at h
  · cases h
  split at h
  · cases h
  next opened ho =>
  have hf : (header ++ (ciphertext ++ tag)).take headerLen = header := by
    rw [← hs.length, take_left]
  have hp := (openTransferHeader_parsed hpr).1
  rw [hf] at hp
  rw [openTransferBody_sealed ha hpolicy hs hp ho] at h
  exact ⟨behind, hb, h⟩

end RustReality.Handoff
