import RustReality.Tls.ServerFlight
import RustReality.Tls.ServerHelloProfile

/-!
# The server flight follows the plan of the cover

Sealing a message for a planned length either finds the length impossible or makes a record of exactly
that length. A flight is cut into the planned records accordingly, and the protocol it claims is the first
one whose message fits.
-/

namespace RustReality.Tls
open Tls13RecordLayer TranscriptHasher HandshakeMessages Result

variable {K : Type} {crypto : RecordCrypto TrafficSecret K}

/-! ### Padded records -/

variable {type : ContentType}

namespace Tls13RecordLayer

variable {S : Type} {crypto : RecordCrypto S K}

theorem ensureKeyAvailable_ne_invalidLength (self : Tls13RecordLayer S K) :
    self.ensureKeyAvailable ≠ .error .invalidLength := by
  unfold ensureKeyAvailable ensureWriteReady
  refine bind_ne_error ?_ fun _ _ => ?_
  · split_ifs <;> simp
  · split_ifs <;> nofun

theorem advance_ne_invalidLength (self : Tls13RecordLayer S K) : self.advance ≠ .error .invalidLength := by
  unfold advance
  split_ifs <;> simp

variable {self self' : Tls13RecordLayer S K} {plaintext : Bytes} {paddingLen : Nat} {record : Bytes}

theorem sealInto_ok {reserved : Bool}
    (h : self.sealInto crypto type plaintext paddingLen reserved = .ok (self', record)) :
    self.ensureKeyAvailable = .ok () ∧ plaintext.length + 1 + paddingLen ≤ maxInnerPlaintextLen ∧
      self.advance = .ok self' ∧
      ∃ body, crypto.sealBody self.key self.nonce (recordHeader (plaintext.length + 1 + paddingLen + tagLen))
          (plaintext ++ type.wireValue :: List.replicate paddingLen 0) = some body ∧
        record = recordHeader (plaintext.length + 1 + paddingLen + tagLen) ++ body := by
  obtain ⟨_, hk, h⟩ := bind_ok_iff.1 h
  obtain ⟨-, h⟩ := ite_error_ok_iff.1 h
  obtain ⟨hi, h⟩ := ite_error_ok_iff.1 h
  obtain ⟨-, h⟩ := ite_error_ok_iff.1 h
  have hl : (plaintext ++ type.wireValue :: List.replicate paddingLen 0).length = plaintext.length + 1 + paddingLen := by
    rw [List.length_append, List.length_cons, List.length_replicate]
    omega
  dsimp only at h
  rw [hl] at h
  split at h
  · cases h
  · next body hb =>
    obtain ⟨next, ha, h⟩ := bind_ok_iff.1 h
    cases h
    exact ⟨hk, Nat.not_lt.1 hi, ha, body, hb, rfl⟩

theorem length_sealInto {reserved : Bool}
    (h : self.sealInto crypto type plaintext paddingLen reserved = .ok (self', record)) :
    record.length = plaintext.length + paddingLen + unpaddedRecordWireOverhead := by
  obtain ⟨-, -, -, body, hs, rfl⟩ := sealInto_ok h
  have hb := crypto.seal_length hs
  rw [List.length_append, List.length_cons, List.length_replicate] at hb
  rw [List.length_append, length_recordHeader, hb, unpaddedRecordWireOverhead]
  omega

theorem sealInto_ne_invalidLength {reserved : Bool} (h : plaintext.length + 1 + paddingLen ≤ maxInnerPlaintextLen) :
    self.sealInto crypto type plaintext paddingLen reserved ≠ .error .invalidLength := by
  refine bind_ne_error self.ensureKeyAvailable_ne_invalidLength fun _ _ => ite_ne_error (fun hlong => ?_) fun _ =>
    ite_ne_error (fun hlong => absurd hlong (Nat.not_lt.2 h)) fun _ => ite_ne_error (by simp) fun _ => ?_
  · unfold maxInnerPlaintextLen at h
    omega
  · dsimp only
    split
    · simp
    · exact bind_ne_error self.advance_ne_invalidLength fun _ _ => nofun

theorem openInPlace_sealInto {reserved : Bool}
    (h : self.sealInto crypto type plaintext paddingLen reserved = .ok (self', record)) :
    WholeRecord record ∧ record[0]? = some outerApplicationData ∧
      ∃ storage, self.openInPlace crypto record = (self', storage, .ok ⟨type, plaintext⟩) := by
  obtain ⟨hk, hl, ha, body, hs, rfl⟩ := sealInto_ok h
  obtain ⟨hw, ho⟩ := openInPlace_sealed type plaintext paddingLen hk hl ha hs
  exact ⟨hw, rfl, ho⟩

end Tls13RecordLayer

/-! ### Records of a planned length -/

def FitsRecord (messageLen wireLen : Nat) : Prop :=
  messageLen + unpaddedRecordWireOverhead ≤ wireLen ∧ wireLen ≤ maxTlsRecordWireLen

instance (messageLen wireLen : Nat) : Decidable (FitsRecord messageLen wireLen) :=
  inferInstanceAs (Decidable (_ ∧ _))

theorem shapedRecordPadding_of_le {plaintextLen targetWireLen : Nat}
    (h : plaintextLen + unpaddedRecordWireOverhead ≤ targetWireLen) :
    shapedRecordPadding plaintextLen targetWireLen =
      .ok (targetWireLen - (plaintextLen + unpaddedRecordWireOverhead)) := by
  rw [shapedRecordPadding, if_neg (Nat.not_lt.2 h)]

variable {reserved : Bool} {records : Tls13RecordLayer TrafficSecret K} {messages : List (Bytes × Nat)}
  {nstWireLen : Option Nat} {identity : CertificateIdentity} {authKey sharedSecret serverHelloMessage : Bytes}
  {schedule : Tls13KeySchedule} {hasher : TranscriptHasher} {selectedAlpn preferred : Option Bytes}
  {suite : CipherSuite} {parts : FlightParts K} {cause : Tls13RecordError} {memory : FlightMemory}
  {client : ClientHello} {plan : Option CoverHandshakePlan}
  {wireLen : Nat}

theorem sealShapedRecord_ok {records' : Tls13RecordLayer TrafficSecret K} {plaintext record : Bytes}
    (h : sealShapedRecord crypto records type plaintext wireLen reserved = .ok (records', record)) :
    record.length = wireLen ∧
      ∃ paddingLen, records.sealInto crypto type plaintext paddingLen reserved = .ok (records', record) := by
  obtain ⟨paddingLen, -, h⟩ := bind_ok_iff.1 h
  obtain ⟨⟨next, sealed⟩, hs, h⟩ := bind_ok_iff.1 h
  obtain ⟨hl, h⟩ := ite_error_ok_iff.1 h
  cases h
  exact ⟨not_not.1 hl, paddingLen, mapError_ok_iff.1 hs⟩

theorem sealShapedRecord_fits {plaintext : Bytes} (reserved : Bool) (hf : FitsRecord plaintext.length wireLen) :
    sealShapedRecord crypto records type plaintext wireLen reserved ≠ .error (.record .invalidLength) := by
  obtain ⟨hh, hm⟩ := hf
  have hi : plaintext.length + 1 + (wireLen - (plaintext.length + unpaddedRecordWireOverhead)) ≤
      maxInnerPlaintextLen := by
    unfold maxTlsRecordWireLen maxCiphertextLen at hm
    unfold unpaddedRecordWireOverhead at hh ⊢
    omega
  unfold sealShapedRecord
  rw [shapedRecordPadding_of_le hh]
  refine bind_ne_error nofun ?_
  rintro _ ⟨⟩
  refine bind_ne_error (mapError_ne_error fun cause hc => ?_) ?_
  · rintro ⟨⟩
    exact sealInto_ne_invalidLength hi hc
  · rintro ⟨next, sealed⟩ hs
    have hln := length_sealInto (mapError_ok_iff.1 hs)
    exact ite_ne_error (fun hl => absurd (show sealed.length = wireLen by omega) hl) fun _ => nofun

inductive SealsEach (crypto : RecordCrypto TrafficSecret K) (reserved : Bool) :
    Tls13RecordLayer TrafficSecret K → List (Bytes × Nat) → List Bytes → Prop
  | nil (records : Tls13RecordLayer TrafficSecret K) : SealsEach crypto reserved records [] []
  | cons {records next : Tls13RecordLayer TrafficSecret K} {message record : Bytes} {wireLen paddingLen : Nat}
      {rest : List (Bytes × Nat)} {wire : List Bytes} (hlen : record.length = wireLen)
      (hseal : records.sealInto crypto .handshake message paddingLen reserved = .ok (next, record))
      (hrest : SealsEach crypto reserved next rest wire) :
      SealsEach crypto reserved records ((message, wireLen) :: rest) (record :: wire)

variable {wire : List Bytes}

theorem sealShapedRecords_ok (h : sealShapedRecords crypto reserved records messages = .ok wire) :
    SealsEach crypto reserved records messages wire := by
  induction messages generalizing records wire with
  | nil =>
    cases h
    exact .nil _
  | cons pair rest ih =>
    obtain ⟨⟨next, record⟩, hs, h⟩ := bind_ok_iff.1 h
    obtain ⟨tail, ht, h⟩ := bind_ok_iff.1 h
    cases h
    obtain ⟨hl, paddingLen, hs⟩ := sealShapedRecord_ok hs
    exact .cons hl hs (ih ht)

theorem SealsEach.lengths (h : SealsEach crypto reserved records messages wire) :
    wire.map List.length = messages.map Prod.snd := by
  induction h with
  | nil records => rfl
  | cons hl hs hr ih => rw [List.map_cons, List.map_cons, hl, ih]

theorem SealsEach.whole (h : SealsEach crypto reserved records messages wire) :
    ∀ record ∈ wire, WholeRecord record ∧ record[0]? = some outerApplicationData := by
  induction h with
  | nil records =>
    intro record hm
    cases hm
  | cons hl hs hr ih =>
    intro record hm
    rcases List.mem_cons.1 hm with rfl | hm
    · obtain ⟨hw, hf, -⟩ := openInPlace_sealInto hs
      exact ⟨hw, hf⟩
    · exact ih record hm

theorem sealShapedRecords_fits (hf : ∀ pair ∈ messages, FitsRecord pair.1.length pair.2) :
    sealShapedRecords crypto reserved records messages ≠ .error (.record .invalidLength) := by
  induction messages generalizing records with
  | nil => nofun
  | cons pair rest ih =>
    refine bind_ne_error (sealShapedRecord_fits reserved (hf pair List.mem_cons_self)) ?_
    rintro ⟨next, record⟩ -
    exact bind_ne_error (ih fun pair hm => hf pair (List.mem_cons_of_mem _ hm)) fun _ _ => nofun

theorem sealTicket_ok {records' : Tls13RecordLayer TrafficSecret K}
    {ticket : List Bytes} (h : sealTicket crypto records nstWireLen reserved = .ok (records', ticket)) :
    (nstWireLen = none ∧ ticket = [] ∧ records' = records) ∨
      ∃ wireLen paddingLen record, nstWireLen = some wireLen ∧ ticket = [record] ∧ record.length = wireLen ∧
        records.sealInto crypto .applicationData [] paddingLen reserved = .ok (records', record) := by
  cases nstWireLen with
  | none =>
    cases h
    exact .inl ⟨rfl, rfl, rfl⟩
  | some wireLen =>
    obtain ⟨⟨next, record⟩, hs, h⟩ := bind_ok_iff.1 h
    cases h
    obtain ⟨hl, paddingLen, hs⟩ := sealShapedRecord_ok hs
    exact .inr ⟨wireLen, paddingLen, record, rfl, rfl, hl, hs⟩

theorem sealTicket_fits (hf : ∀ wireLen ∈ nstWireLen, FitsRecord 0 wireLen) :
    sealTicket crypto records nstWireLen reserved ≠ .error (.record .invalidLength) := by
  cases nstWireLen with
  | none => nofun
  | some wireLen =>
    refine bind_ne_error (sealShapedRecord_fits reserved (show FitsRecord ([] : Bytes).length wireLen from hf wireLen rfl)) ?_
    rintro ⟨next, record⟩ - ⟨⟩

theorem checkShape_fits (hf : ∀ pair ∈ messages, FitsRecord pair.1.length pair.2)
    (ht : ∀ wireLen ∈ nstWireLen, FitsRecord 0 wireLen) : checkShape messages nstWireLen = .ok () := by
  induction messages with
  | nil =>
    cases nstWireLen with
    | none => rfl
    | some wireLen =>
      rw [checkShape, shapedRecordPadding_of_le (ht wireLen rfl).1]
      rfl
  | cons pair rest ih =>
    obtain ⟨message, wireLen⟩ := pair
    rw [checkShape, shapedRecordPadding_of_le (hf (message, wireLen) List.mem_cons_self).1]
    exact ih fun pair hm => hf pair (List.mem_cons_of_mem _ hm)

/-! ### The messages -/

variable {hashing : Hashing}

def flightLens (suite : CipherSuite) (selectedAlpn : Option Bytes) : List Nat :=
  [encryptedExtensionsLen selectedAlpn, certificateMessageLen, certificateVerifyLen,
    handshakeHeaderLen + suite.hash.outputLen]

/-- What the messages of a flight are, each over the transcript before it. -/
structure MessagesOf (hashing : Hashing) (identity : CertificateIdentity) (authKey : Bytes) (schedule : Tls13KeySchedule)
    (hasher : TranscriptHasher) (selectedAlpn : Option Bytes) (reserved : Bool) (messages : HandshakeMessages)
    (verifyData : FinishedVerifyData) : Prop where
  encryptedExtensions_eq : encryptedExtensions reserved selectedAlpn = .ok messages.encryptedExtensions
  certificate_eq : certificateMessage reserved (identity.forgeCertificate hashing authKey) = .ok messages.certificate
  certificateVerify_eq : identity.certificateVerify reserved
    (((hasher.update messages.encryptedExtensions).update messages.certificate).snapshot hashing).bytes =
      .ok messages.certificateVerify
  verifyData_eq : schedule.finishedVerifyData hashing schedule.serverHandshake
    ((((hasher.update messages.encryptedExtensions).update messages.certificate).update
      messages.certificateVerify).snapshot hashing) = .ok verifyData
  finished_eq : finishedMessage reserved verifyData.bytes = .ok messages.finished

theorem handshakeMessages_ok {hasher' : TranscriptHasher} {messages : HandshakeMessages}
    (h : handshakeMessages hashing identity authKey schedule hasher selectedAlpn reserved = .ok (messages, hasher')) :
    (∃ verifyData, MessagesOf hashing identity authKey schedule hasher selectedAlpn reserved messages verifyData) ∧
      hasher' = (((hasher.update messages.encryptedExtensions).update messages.certificate).update
        messages.certificateVerify).update messages.finished := by
  obtain ⟨extensions, he, h⟩ := bind_ok_iff.1 h
  obtain ⟨certificate, hc, h⟩ := bind_ok_iff.1 h
  obtain ⟨verify, hv, h⟩ := bind_ok_iff.1 h
  obtain ⟨verifyData, hd, h⟩ := bind_ok_iff.1 h
  obtain ⟨finished, hf, h⟩ := bind_ok_iff.1 h
  cases h
  exact ⟨⟨verifyData, mapError_ok_iff.1 he, mapError_ok_iff.1 hc, mapError_ok_iff.1 hv,
    mapError_ok_iff.1 hd, mapError_ok_iff.1 hf⟩, rfl⟩

variable {secret : TrafficSecret}

theorem finishedVerifyData_algorithm {transcript : TranscriptHash}
    {data : FinishedVerifyData} (h : schedule.finishedVerifyData hashing secret transcript = .ok data) :
    data.algorithm = schedule.suite.hash := by
  obtain ⟨-, h⟩ := ite_error_ok_iff.1 h
  obtain ⟨key, -, h⟩ := bind_ok_iff.1 h
  cases h
  rfl

theorem MessagesOf.lengths {messages : HandshakeMessages} {verifyData : FinishedVerifyData}
    (h : MessagesOf hashing identity authKey schedule hasher selectedAlpn reserved messages verifyData) :
    messages.toList.map List.length = flightLens schedule.suite selectedAlpn := by
  have hc : messages.certificate.length = certificateMessageLen := by
    rw [length_certificateMessage h.certificate_eq, length_forgeCertificate]
    rfl
  have hf : messages.finished.length = handshakeHeaderLen + schedule.suite.hash.outputLen := by
    rw [length_finishedMessage h.finished_eq, verifyData.length_eq, finishedVerifyData_algorithm h.verifyData_eq]
  simp only [toList, List.map_cons, List.map_nil, length_encryptedExtensions h.encryptedExtensions_eq,
    hc, length_certificateVerify h.certificateVerify_eq, hf, flightLens]

theorem schedule_suite {transcript : TranscriptHash}
    (h : Tls13KeySchedule.new hashing suite sharedSecret transcript = .ok schedule) : schedule.suite = suite := by
  obtain ⟨-, h⟩ := ite_error_ok_iff.1 h
  obtain ⟨-, h⟩ := ite_error_ok_iff.1 h
  obtain ⟨derivedEarly, -, h⟩ := bind_ok_iff.1 h
  obtain ⟨clientHandshake, -, h⟩ := bind_ok_iff.1 h
  obtain ⟨serverHandshake, -, h⟩ := bind_ok_iff.1 h
  obtain ⟨derivedHandshake, -, h⟩ := bind_ok_iff.1 h
  cases h
  rfl

structure PartsOf (hashing : Hashing) (crypto : RecordCrypto TrafficSecret K) (identity : CertificateIdentity)
    (authKey : Bytes) (suite : CipherSuite) (sharedSecret hellos : Bytes) (selectedAlpn : Option Bytes) (reserved : Bool)
    (parts : FlightParts K) (schedule : Tls13KeySchedule) (verifyData : FinishedVerifyData)
    (serverSecret : TrafficSecret) : Prop where
  schedule_eq : Tls13KeySchedule.new hashing suite sharedSecret
    (((new suite.hash).update hellos).snapshot hashing) = .ok schedule
  server_layer : newHandshake crypto suite schedule.serverHandshake = .ok parts.serverHandshakeRecords
  client_layer : newHandshake crypto suite schedule.clientHandshake = .ok parts.clientHandshakeRecords
  messages_of : MessagesOf hashing identity authKey schedule ((new suite.hash).update hellos) selectedAlpn
    reserved parts.messages verifyData
  client_finished : schedule.finishedVerifyData hashing schedule.clientHandshake
    (((new suite.hash).update (hellos ++ parts.messages.plaintext)).snapshot hashing) =
      .ok parts.expectedClientFinished
  secrets_eq : schedule.applicationTrafficSecrets hashing
    (((new suite.hash).update (hellos ++ parts.messages.plaintext)).snapshot hashing) =
      .ok (parts.clientApplicationSecret, serverSecret)
  application_layer : fromTrafficSecret crypto suite serverSecret = .ok parts.serverApplicationRecords

theorem update_messages (hasher : TranscriptHasher) (hellos : Bytes) (messages : HandshakeMessages) :
    ((((hasher.update hellos).update messages.encryptedExtensions).update messages.certificate).update
      messages.certificateVerify).update messages.finished = hasher.update (hellos ++ messages.plaintext) := by
  simp only [update, plaintext, toList, List.flatten_cons,
    List.flatten_nil, List.append_nil, List.append_assoc]

variable {hellos : Bytes}

theorem deriveFlight_ok
    (h : deriveFlight hashing crypto identity authKey suite sharedSecret hellos selectedAlpn reserved = .ok parts) :
    ∃ schedule verifyData serverSecret, PartsOf hashing crypto identity authKey suite sharedSecret hellos selectedAlpn
      reserved parts schedule verifyData serverSecret := by
  obtain ⟨schedule, hsc, h⟩ := bind_ok_iff.1 h
  obtain ⟨serverLayer, hsr, h⟩ := bind_ok_iff.1 h
  obtain ⟨clientLayer, hc, h⟩ := bind_ok_iff.1 h
  obtain ⟨⟨messages, hasher⟩, hm, h⟩ := bind_ok_iff.1 h
  obtain ⟨expected, he, h⟩ := bind_ok_iff.1 h
  obtain ⟨⟨clientSecret, serverSecret⟩, hs, h⟩ := bind_ok_iff.1 h
  obtain ⟨application, ha, h⟩ := bind_ok_iff.1 h
  cases h
  obtain ⟨⟨verifyData, hof⟩, rfl⟩ := handshakeMessages_ok hm
  rw [update_messages] at he hs
  exact ⟨schedule, verifyData, serverSecret, mapError_ok_iff.1 hsc, mapError_ok_iff.1 hsr,
    mapError_ok_iff.1 hc, hof, mapError_ok_iff.1 he, mapError_ok_iff.1 hs,
    mapError_ok_iff.1 ha⟩

theorem PartsOf.lengths {verifyData : FinishedVerifyData} {serverSecret : TrafficSecret}
    (h : PartsOf hashing crypto identity authKey suite sharedSecret hellos selectedAlpn reserved parts schedule verifyData
      serverSecret) : parts.messages.toList.map List.length = flightLens suite selectedAlpn := by
  rw [← schedule_suite h.schedule_eq]
  exact h.messages_of.lengths

theorem handshakeMessages_ne_record :
    handshakeMessages hashing identity authKey schedule hasher selectedAlpn reserved ≠ .error (.record cause) := by
  refine bind_ne_error (mapError_ne_error nofun) fun extensions _ => ?_
  refine bind_ne_error (mapError_ne_error nofun) fun certificate _ => ?_
  refine bind_ne_error (mapError_ne_error nofun) fun certificateVerify _ => ?_
  refine bind_ne_error (mapError_ne_error nofun) fun verifyData _ => ?_
  refine bind_ne_error (mapError_ne_error nofun) fun finished _ => ?_
  exact nofun

theorem newHandshake_error
    (h : newHandshake crypto suite secret = .error cause) : cause = .invalidKey := by
  unfold newHandshake at h
  split at h <;> cases h
  rfl

theorem fromTrafficSecret_error
    (h : fromTrafficSecret crypto suite secret = .error cause) : cause = .invalidKey := by
  unfold fromTrafficSecret at h
  split at h <;> cases h
  rfl

theorem deriveFlight_ne_invalidLength :
    deriveFlight hashing crypto identity authKey suite sharedSecret hellos selectedAlpn reserved ≠
      .error (.record .invalidLength) := by
  have hl : ∀ secret cause, newHandshake crypto suite secret = .error cause →
      RealityHandshakeError.record cause ≠ .record .invalidLength := by
    intro secret cause h
    rw [newHandshake_error h]
    nofun
  refine bind_ne_error (mapError_ne_error nofun) fun schedule _ => ?_
  refine bind_ne_error (mapError_ne_error (hl _)) fun serverLayer _ => ?_
  refine bind_ne_error (mapError_ne_error (hl _)) fun clientLayer _ => ?_
  refine bind_ne_error handshakeMessages_ne_record fun messages _ => ?_
  refine bind_ne_error (mapError_ne_error nofun) fun expected _ => ?_
  refine bind_ne_error (mapError_ne_error nofun) fun secrets _ => ?_
  refine bind_ne_error (mapError_ne_error ?_) fun application _ => ?_
  · intro cause h
    rw [fromTrafficSecret_error h]
    nofun
  · intro h
    cases h

/-! ### The plan -/

def CoverHandshakeRecordShape.wireLens : CoverHandshakeRecordShape → List Nat
  | .coalesced wireLen => [wireLen]
  | .positionalRecords wireLens nstWireLen => wireLens.toList ++ nstWireLen.toList

/-- Every planned record can hold its message: a coalesced one the whole flight with the given protocol, the
first one of positional records the smallest EncryptedExtensions. -/
def CoverHandshakePlan.Holds (suite : CipherSuite) (coalescedAlpn : Option Bytes) (plan : CoverHandshakePlan) : Prop :=
  match plan.shape with
  | .coalesced wireLen => FitsRecord (flightLens suite coalescedAlpn).sum wireLen
  | .positionalRecords wireLens nstWireLen =>
    List.Forall₂ FitsRecord (flightLens suite none) wireLens.toList ∧ ∀ wireLen ∈ nstWireLen, FitsRecord 0 wireLen

def AlpnFits (slot : Nat) (protocol : Bytes) : Prop :=
  0 < protocol.length ∧ protocol.length < 2 ^ 8 ∧
    encryptedExtensionsLen (some protocol) + unpaddedRecordWireOverhead ≤ slot

theorem alpnExtensionFitsSlot_iff {protocol : Bytes} {slot : Nat} :
    alpnExtensionFitsSlot true protocol slot = true ↔ AlpnFits slot protocol := by
  unfold alpnExtensionFitsSlot AlpnFits
  cases hme : encryptedExtensions true (some protocol) with
  | error cause =>
    constructor
    · intro h
      cases h
    · rintro ⟨hp, hlt, -⟩
      refine absurd hme (ite_ne_error (fun hle => by omega) fun _ => ite_ne_error (by simp) fun _ =>
        ite_ne_error (fun hl => ?_) fun _ => ite_ne_error (by simp) fun _ => nofun)
      simp only [List.length_append, length_beBytes, maxHandshakeBodyLen] at hl
      omega
  | ok message =>
    have hln := length_encryptedExtensions hme
    unfold encryptedExtensions at hme
    obtain ⟨hle, -⟩ := ite_error_ok_iff.1 hme
    rw [decide_eq_true_iff, hln]
    constructor
    · intro h
      exact ⟨by omega, by omega, h⟩
    · rintro ⟨-, -, h⟩
      exact h

theorem alpnFits_of {protocol : Bytes} {slot : Nat} (h : alpnExtensionFitsSlot reserved protocol slot = true) :
    AlpnFits slot protocol := by
  cases reserved with
  | true => exact alpnExtensionFitsSlot_iff.1 h
  | false =>
    unfold alpnExtensionFitsSlot at h
    cases hme : encryptedExtensions false (some protocol) with
    | error cause =>
      rw [hme] at h
      cases h
    | ok message =>
      unfold encryptedExtensions at hme
      dsimp only at hme
      obtain ⟨-, hme⟩ := ite_error_ok_iff.1 hme
      obtain ⟨hr, -⟩ := ite_error_ok_iff.1 hme
      exact absurd rfl hr

/-- The protocol the flight may claim in a slot: the preferred one if it fits, else the first offered one
that fits, else none. -/
inductive Claims (offered : List Bytes) (slot : Nat) : Option Bytes → Option Bytes → Prop
  | preferred {protocol : Bytes} (hfits : AlpnFits slot protocol) : Claims offered slot (some protocol) (some protocol)
  | offered {preferred : Option Bytes} {protocol : Bytes} {front back : List Bytes}
      (hpreferred : ∀ other ∈ preferred, ¬ AlpnFits slot other) (hoffered : offered = front ++ protocol :: back)
      (hfront : ∀ other ∈ front, ¬ AlpnFits slot other) (hfits : AlpnFits slot protocol) :
      Claims offered slot preferred (some protocol)
  | none {preferred : Option Bytes} (hpreferred : ∀ other ∈ preferred, ¬ AlpnFits slot other)
      (hoffered : ∀ other ∈ offered, ¬ AlpnFits slot other) : Claims offered slot preferred none

theorem coverCompatibleAlpn_claims {emitCcs : Bool} {wireLens : Vector Nat 4}
    (hmemory : ∀ protocol, memory.alpn protocol = true) :
    Claims client.alpn wireLens[0] preferred
      (coverCompatibleAlpn memory client preferred ⟨emitCcs, .positionalRecords wireLens nstWireLen⟩) := by
  unfold coverCompatibleAlpn
  dsimp only [Vector.head]
  have hf : ∀ protocol, alpnExtensionFitsSlot (memory.alpn protocol) protocol wireLens[0] = true ↔
      AlpnFits wireLens[0] protocol := by
    intro protocol
    rw [hmemory protocol]
    exact alpnExtensionFitsSlot_iff
  have hr : (∀ other ∈ preferred, ¬ AlpnFits wireLens[0] other) → Claims client.alpn wireLens[0] preferred
      (client.alpn.find? fun protocol => alpnExtensionFitsSlot (memory.alpn protocol) protocol wireLens[0]) := by
    intro hp
    cases hfn : client.alpn.find? fun protocol => alpnExtensionFitsSlot (memory.alpn protocol) protocol wireLens[0] with
    | none =>
      refine .none hp fun other hm hot => ?_
      exact List.find?_eq_none.1 hfn other hm ((hf other).2 hot)
    | some protocol =>
      obtain ⟨hpr, front, back, ho, hfr⟩ := List.find?_eq_some_iff_append.1 hfn
      refine .offered hp ho (fun other hm hot => ?_) ((hf protocol).1 hpr)
      have hn := hfr other hm
      rw [(hf other).2 hot] at hn
      cases hn
  cases preferred with
  | none => exact hr (by simp)
  | some protocol =>
    by_cases hpr : AlpnFits wireLens[0] protocol
    · rw [Option.filter_some, if_pos ((hf protocol).2 hpr)]
      exact .preferred hpr
    · rw [Option.filter_some, if_neg (fun h => hpr ((hf protocol).1 h))]
      refine hr fun other hot => ?_
      cases hot
      exact hpr

theorem coverCompatibleAlpn_fits {emitCcs : Bool} {wireLens : Vector Nat 4}
    (hs : encryptedExtensionsLen none + unpaddedRecordWireOverhead ≤ wireLens[0]) :
    encryptedExtensionsLen (coverCompatibleAlpn memory client preferred ⟨emitCcs, .positionalRecords wireLens nstWireLen⟩) +
      unpaddedRecordWireOverhead ≤ wireLens[0] := by
  cases hc : coverCompatibleAlpn memory client preferred ⟨emitCcs, .positionalRecords wireLens nstWireLen⟩ with
  | none => exact hs
  | some protocol =>
    unfold coverCompatibleAlpn at hc
    dsimp only at hc
    rcases Option.or_eq_some_iff.1 hc with hp | ⟨-, hfn⟩
    · exact (alpnFits_of (Option.filter_eq_some_iff.1 hp).2).2.2
    · have hf := List.find?_some hfn
      exact (alpnFits_of hf).2.2

/-! ### The flight -/

structure Framed (crypto : RecordCrypto TrafficSecret K) (memory : FlightMemory) (suite : CipherSuite)
    (serverHelloMessage : Bytes) (parts : FlightParts K) (plan : Option CoverHandshakePlan) (flight : ServerFlight K)
    (hello : Bytes) (records ticket : List Bytes) : Prop where
  hello_eq : plaintextHandshakeRecord serverHelloMessage memory.hello = .ok hello
  sealed : SealsEach crypto memory.records parts.serverHandshakeRecords
    (shapedMessages parts.messages (plan.map (·.shape))) records
  ticket_eq : sealTicket crypto parts.serverApplicationRecords (ticketWireLen (plan.map (·.shape))) memory.records =
    .ok (flight.established.serverRecords, ticket)
  client_eq : fromTrafficSecret crypto suite parts.clientApplicationSecret =
    .ok flight.established.clientRecords
  wire_eq : flight.wire = hello ++ (if (plan.map (·.emitCcs)).getD true then changeCipherSpecRecord else []) ++
    (records ++ ticket).flatten
  hello_end : flight.serverHelloEnd = hello.length
  encrypted_start : flight.encryptedHandshakeStart =
    (hello ++ if (plan.map (·.emitCcs)).getD true then changeCipherSpecRecord else []).length
  handshake_layer : flight.clientHandshakeRecords = parts.clientHandshakeRecords
  expected_eq : flight.expectedClientFinished = parts.expectedClientFinished
  suite_eq : flight.established.suite = suite

variable {flight : ServerFlight K}

theorem frameFlight_ok (h : frameFlight crypto memory suite serverHelloMessage parts plan = .ok flight) :
    ∃ hello records ticket, Framed crypto memory suite serverHelloMessage parts plan flight hello records ticket := by
  unfold frameFlight at h
  obtain ⟨-, h⟩ := ite_error_ok_iff.1 h
  obtain ⟨_, -, h⟩ := bind_ok_iff.1 h
  obtain ⟨-, h⟩ := ite_error_ok_iff.1 h
  obtain ⟨hello, hh, h⟩ := bind_ok_iff.1 h
  obtain ⟨-, h⟩ := ite_error_ok_iff.1 h
  obtain ⟨records, hr, h⟩ := bind_ok_iff.1 h
  obtain ⟨⟨serverRecords, ticket⟩, ht, h⟩ := bind_ok_iff.1 h
  obtain ⟨clientRecords, hc, h⟩ := bind_ok_iff.1 h
  cases h
  exact ⟨hello, records, ticket, mapError_ok_iff.1 hh, sealShapedRecords_ok hr, ht,
    mapError_ok_iff.1 hc, rfl, rfl, rfl, rfl, rfl, rfl⟩

theorem frameFlight_fits
    (hf : ∀ pair ∈ shapedMessages parts.messages (plan.map (·.shape)), FitsRecord pair.1.length pair.2)
    (ht : ∀ wireLen ∈ ticketWireLen (plan.map (·.shape)), FitsRecord 0 wireLen) :
    frameFlight crypto memory suite serverHelloMessage parts plan ≠ .error (.record .invalidLength) := by
  unfold frameFlight
  refine ite_ne_error nofun fun _ => bind_ne_error (by rw [checkShape_fits hf ht]; nofun) fun _ _ => ?_
  refine ite_ne_error nofun fun _ => bind_ne_error (mapError_ne_error nofun) fun hello _ => ?_
  refine ite_ne_error nofun fun _ => bind_ne_error (sealShapedRecords_fits hf) fun records _ => ?_
  refine bind_ne_error (sealTicket_fits ht) ?_
  rintro ⟨serverRecords, ticket⟩ -
  refine bind_ne_error (mapError_ne_error fun cause hc => ?_) fun _ _ => nofun
  rw [fromTrafficSecret_error hc]
  nofun

def claimedAlpn (memory : FlightMemory) (client : ClientHello) (preferred : Option Bytes) :
    Option CoverHandshakePlan → Option Bytes
  | some plan => coverCompatibleAlpn memory client preferred plan
  | none => preferred

structure Built (hashing : Hashing) (crypto : RecordCrypto TrafficSecret K) (memory : FlightMemory) (keys : EphemeralKeys)
    (client : ClientHello) (authKey : Bytes) (target : ServerHelloTemplate) (identity : CertificateIdentity)
    (selectedAlpn : Option Bytes) (agreement : KeyAgreement) (serverHelloMessage : Bytes) (parts : FlightParts K) :
    Prop where
  offered : ∀ protocol ∈ selectedAlpn, protocol ∈ client.alpn
  agreed : agreeKeyShare keys client target.keyShareGroup = .ok agreement
  patched : target.intoPatchedMessage agreement.serverShare = .ok serverHelloMessage
  derived : deriveFlight hashing crypto identity authKey target.suite agreement.sharedSecret
    (client.rawMessage ++ serverHelloMessage) selectedAlpn memory.messages = .ok parts

variable {keys : EphemeralKeys}

theorem buildServerFlightInner_ok {target : ServerHelloTemplate}
    (h : buildServerFlightInner hashing crypto memory keys client authKey target identity preferred plan = .ok flight) :
    ∃ agreement serverHelloMessage parts,
      Built hashing crypto memory keys client authKey target identity (claimedAlpn memory client preferred plan) agreement
        serverHelloMessage parts ∧
      frameFlight crypto memory target.suite serverHelloMessage parts plan = .ok flight := by
  unfold buildServerFlightInner at h
  obtain ⟨ho, h⟩ := ite_error_ok_iff.1 h
  obtain ⟨agreement, ha, h⟩ := bind_ok_iff.1 h
  obtain ⟨serverHelloMessage, hpt, h⟩ := bind_ok_iff.1 h
  obtain ⟨-, h⟩ := ite_error_ok_iff.1 h
  obtain ⟨parts, hpr, h⟩ := bind_ok_iff.1 h
  refine ⟨agreement, serverHelloMessage, parts, ⟨?_, ha, mapError_ok_iff.1 hpt, hpr⟩, h⟩
  intro protocol hp
  have hc : claimedAlpn memory client preferred plan = some protocol := hp
  change ¬ (claimedAlpn memory client preferred plan).any (fun protocol => !client.alpn.contains protocol) = true at ho
  rw [hc] at ho
  simpa using ho

theorem agreeKeyShare_ne_record {group : Nat} :
    agreeKeyShare keys client group ≠ .error (.record cause) := by
  unfold agreeKeyShare
  intro h
  dsimp only at h
  repeat' split at h
  all_goals cases h

/-! ### Flights and plans -/

theorem zip_fits {messages : List Bytes} {lens wireLens : List Nat} (hl : messages.map List.length = lens)
    (h : List.Forall₂ FitsRecord lens wireLens) : ∀ pair ∈ messages.zip wireLens, FitsRecord pair.1.length pair.2 := by
  rw [← hl, List.forall₂_map_left_iff] at h
  intro pair hm
  exact (List.forall₂_iff_zip.1 h).2 hm

/-- What fits with the smallest EncryptedExtensions fits with the protocol that is claimed. -/
theorem CoverHandshakePlan.Holds.fits {plan : CoverHandshakePlan}
    (h : plan.Holds suite preferred) {messages : HandshakeMessages}
    (hl : messages.toList.map List.length = flightLens suite (coverCompatibleAlpn memory client preferred plan)) :
    (∀ pair ∈ shapedMessages messages (some plan.shape), FitsRecord pair.1.length pair.2) ∧
      ∀ wireLen ∈ ticketWireLen (some plan.shape), FitsRecord 0 wireLen := by
  obtain ⟨emitCcs, shape⟩ := plan
  cases shape with
  | coalesced wireLen =>
    refine ⟨?_, nofun⟩
    intro pair hmm
    obtain rfl := List.mem_singleton.1 hmm
    have hln : messages.plaintext.length = (flightLens suite preferred).sum := by
      rw [plaintext, List.length_flatten, hl]
      rfl
    dsimp only
    rw [hln]
    exact h
  | positionalRecords wireLens nstWireLen =>
    obtain ⟨hm, ht⟩ := h
    refine ⟨zip_fits hl ?_, ht⟩
    -- only the first message depends on the protocol
    obtain ⟨first, rest, hf, hr, hw⟩ := List.forall₂_cons_left_iff.1 hm
    have hs : wireLens[0] = first := by
      have hh : wireLens.toList[0]? = some first := by rw [hw]; rfl
      simpa using hh
    have hc : encryptedExtensionsLen (coverCompatibleAlpn memory client preferred
        ⟨emitCcs, .positionalRecords wireLens nstWireLen⟩) + unpaddedRecordWireOverhead ≤ wireLens[0] :=
      coverCompatibleAlpn_fits (by rw [hs]; exact hf.1)
    rw [hs] at hc
    rw [hw]
    exact .cons ⟨hc, hf.2⟩ hr

structure FollowsPlan (hashing : Hashing) (crypto : RecordCrypto TrafficSecret K) (memory : FlightMemory)
    (keys : EphemeralKeys) (client : ClientHello) (authKey : Bytes) (target : ServerHelloTemplate)
    (identity : CertificateIdentity) (preferred : Option Bytes) (plan : CoverHandshakePlan) (flight : ServerFlight K)
    (agreement : KeyAgreement) (serverHelloMessage : Bytes) (parts : FlightParts K) (records : List Bytes) : Prop where
  built : Built hashing crypto memory keys client authKey target identity
    (coverCompatibleAlpn memory client preferred plan) agreement serverHelloMessage parts
  wire_eq : flight.wire = [22, 3, 3] ++ beBytes 2 serverHelloMessage.length ++ serverHelloMessage ++
    (if plan.emitCcs then changeCipherSpecRecord else []) ++ records.flatten
  lengths : records.map List.length = plan.shape.wireLens
  whole : ∀ record ∈ records, WholeRecord record ∧ record[0]? = some outerApplicationData
  /-- The first record opens to the EncryptedExtensions, in a coalesced flight followed by the other messages. -/
  claims : ∃ next storage extensions more,
    encryptedExtensions memory.messages (coverCompatibleAlpn memory client preferred plan) = .ok extensions ∧
    parts.serverHandshakeRecords.openInPlace crypto (records.headD []) = (next, storage, .ok ⟨.handshake, extensions ++ more⟩)

theorem SealsEach.opens_first {message : Bytes} {rest : List (Bytes × Nat)}
    (h : SealsEach crypto reserved records ((message, wireLen) :: rest) wire) (more : List Bytes) :
    ∃ next storage, records.openInPlace crypto ((wire ++ more).headD []) = (next, storage, .ok ⟨.handshake, message⟩) := by
  cases h with
  | cons hl hs hr =>
    obtain ⟨-, -, storage, ho⟩ := openInPlace_sealInto hs
    exact ⟨_, storage, ho⟩

theorem Framed.follows {target : ServerHelloTemplate} {plan : CoverHandshakePlan}
    {agreement : KeyAgreement} {hello : Bytes} {records ticket : List Bytes}
    (hb : Built hashing crypto memory keys client authKey target identity
      (coverCompatibleAlpn memory client preferred plan) agreement serverHelloMessage parts)
    (h : Framed crypto memory target.suite serverHelloMessage parts (some plan) flight hello records ticket) :
    FollowsPlan hashing crypto memory keys client authKey target identity preferred plan flight agreement
      serverHelloMessage parts (records ++ ticket) := by
  obtain ⟨schedule, verifyData, serverSecret, hof⟩ := deriveFlight_ok hb.derived
  have he := hof.messages_of.encryptedExtensions_eq
  have hh : hello = [22, 3, 3] ++ beBytes 2 serverHelloMessage.length ++ serverHelloMessage := by
    have hre := h.hello_eq
    unfold plaintextHandshakeRecord at hre
    obtain ⟨-, hre⟩ := ite_error_ok_iff.1 hre
    obtain ⟨-, hre⟩ := ite_error_ok_iff.1 hre
    cases hre
    rfl
  have ht : ticket.map List.length = (ticketWireLen (some plan.shape)).toList ∧
      ∀ record ∈ ticket, WholeRecord record ∧ record[0]? = some outerApplicationData := by
    rcases sealTicket_ok h.ticket_eq with ⟨hn, rfl, -⟩ | ⟨wireLen, paddingLen, record, hsm, rfl, hl, hsl⟩
    · rw [show ticketWireLen (some plan.shape) = none from hn]
      exact ⟨rfl, fun record hm => (nomatch hm)⟩
    · obtain ⟨hwh, hf, -⟩ := openInPlace_sealInto hsl
      rw [show ticketWireLen (some plan.shape) = some wireLen from hsm]
      refine ⟨by rw [List.map_singleton, hl]; rfl, fun other hm => ?_⟩
      obtain rfl := List.mem_singleton.1 hm
      exact ⟨hwh, hf⟩
  refine ⟨hb, ?_, ?_, ?_, ?_⟩
  · rw [h.wire_eq, hh]
    rfl
  · rw [List.map_append, h.sealed.lengths, ht.1]
    obtain ⟨emitCcs, shape⟩ := plan
    cases shape with
    | coalesced wireLen => rfl
    | positionalRecords wireLens nstWireLen =>
      have hz : (parts.messages.toList.zip wireLens.toList).map Prod.snd = wireLens.toList :=
        List.map_snd_zip (by rw [Vector.length_toList]; rfl)
      exact congrArg (· ++ nstWireLen.toList) hz
  · intro record hm
    rcases List.mem_append.1 hm with hm | hm
    · exact h.sealed.whole record hm
    · exact ht.2 record hm
  · obtain ⟨emitCcs, shape⟩ := plan
    cases shape with
    | coalesced wireLen =>
      obtain ⟨next, storage, ho⟩ := SealsEach.opens_first h.sealed ticket
      exact ⟨next, storage, _, _, he, ho⟩
    | positionalRecords wireLens nstWireLen =>
      obtain ⟨first, rest, hw⟩ : ∃ first rest, wireLens.toList = first :: rest :=
        List.exists_cons_of_length_pos (by rw [Vector.length_toList]; decide)
      have hs := h.sealed
      change SealsEach crypto memory.records parts.serverHandshakeRecords
        (parts.messages.toList.zip wireLens.toList) records at hs
      rw [hw] at hs
      obtain ⟨next, storage, ho⟩ := SealsEach.opens_first hs ticket
      exact ⟨next, storage, _, [], he, by rw [List.append_nil]; exact ho⟩

/-- A flight under a plan. Where every planned record holds its message, the build does not fail on the
length of a record: positional records have to hold the smallest EncryptedExtensions, a coalesced one the
flight with the preferred protocol, which is kept. A flight that is built is the ServerHello record, the
compatibility record exactly when it is planned, and encrypted records of the planned lengths in order; in
positional records it claims the preferred protocol if its message fits the first of them, else the first
offered one that fits, else none. -/
theorem server_flight_follows_plan (hashing : Hashing) (crypto : RecordCrypto TrafficSecret K) (memory : FlightMemory)
    (keys : EphemeralKeys) (client : ClientHello) (authKey : Bytes) (target : ServerHelloTemplate)
    (identity : CertificateIdentity) (preferred : Option Bytes) (plan : CoverHandshakePlan) :
    (plan.Holds target.suite preferred →
      buildServerFlightWithShape hashing crypto memory keys client authKey target identity preferred plan ≠
        .error (.record .invalidLength)) ∧
    (∀ flight, buildServerFlightWithShape hashing crypto memory keys client authKey target identity preferred plan =
        .ok flight →
      ∃ agreement serverHelloMessage parts records, FollowsPlan hashing crypto memory keys client authKey target identity
        preferred plan flight agreement serverHelloMessage parts records) ∧
    ∀ wireLens nstWireLen, plan.shape = .positionalRecords wireLens nstWireLen →
      (∀ protocol, memory.alpn protocol = true) →
      Claims client.alpn wireLens[0] preferred (coverCompatibleAlpn memory client preferred plan) := by
  refine ⟨?_, ?_, ?_⟩
  · intro hh
    unfold buildServerFlightWithShape buildServerFlightInner
    refine ite_ne_error nofun fun _ => bind_ne_error agreeKeyShare_ne_record fun agreement _ => ?_
    refine bind_ne_error (mapError_ne_error nofun) fun serverHelloMessage _ => ite_ne_error nofun fun _ => ?_
    refine bind_ne_error deriveFlight_ne_invalidLength fun parts hd => ?_
    obtain ⟨schedule, verifyData, serverSecret, hof⟩ := deriveFlight_ok hd
    obtain ⟨hf, ht⟩ := hh.fits hof.lengths
    exact frameFlight_fits (show ∀ pair ∈ shapedMessages parts.messages (some plan.shape), _ from hf) ht
  · intro flight h
    obtain ⟨agreement, serverHelloMessage, parts, hb, hf⟩ := buildServerFlightInner_ok h
    obtain ⟨hello, records, ticket, hfr⟩ := frameFlight_ok hf
    exact ⟨agreement, serverHelloMessage, parts, records ++ ticket, hfr.follows hb⟩
  · intro wireLens nstWireLen hs hm
    obtain ⟨emitCcs, shape⟩ := plan
    dsimp only at hs
    subst hs
    exact coverCompatibleAlpn_claims hm

def RecordCrypto.nullTraffic : RecordCrypto TrafficSecret Unit :=
  { RecordCrypto.null with
    keys := fun _ _ => some ((), Vector.replicate 12 0)
    updated := some }

/-- A client that offers HTTP/2, and the keys of a server that agrees with it. -/
def sampleOffer : ClientHello := { sampleClient [5, 6] with alpn := [[104, 50]] }

def sampleTemplate : ServerHelloTemplate :=
  ⟨sampleHello (List.replicate 32 7) [5, 6] (List.replicate 32 9), .aes128GcmSha256, x25519Group, ⟨60, 92⟩⟩

def sampleKeys : EphemeralKeys :=
  ⟨none, some (Vector.replicate 32 1, fun _ => some (Vector.replicate 32 2)), fun _ => none, true⟩

def sampleIdentity : CertificateIdentity := ⟨Vector.replicate 32 3, fun _ => Vector.replicate 64 4⟩

/-- A coalesced record that holds the flight without a protocol is too short for the one that is kept. -/
theorem coalesced_flight_keeps_protocol :
    CoverHandshakePlan.Holds .aes128GcmSha256 none ⟨true, .coalesced 327⟩ ∧
      buildServerFlightWithShape .null .nullTraffic .granted sampleKeys sampleOffer [] sampleTemplate sampleIdentity
        (some [104, 50]) ⟨true, .coalesced 327⟩ = .error (.record .invalidLength) := by
  have hh : FitsRecord (flightLens .aes128GcmSha256 none).sum 327 := by decide
  refine ⟨hh, ?_⟩
  have hf : (match buildServerFlightWithShape .null .nullTraffic .granted sampleKeys sampleOffer [] sampleTemplate
      sampleIdentity (some [104, 50]) ⟨true, .coalesced 327⟩ with
      | .ok _ => none
      | .error cause => some cause) = some (.record .invalidLength) := by
    decide +kernel
  cases hb : buildServerFlightWithShape .null .nullTraffic .granted sampleKeys sampleOffer [] sampleTemplate
      sampleIdentity (some [104, 50]) ⟨true, .coalesced 327⟩ with
  | ok flight =>
    rw [hb] at hf
    cases hf
  | error cause =>
    rw [hb] at hf
    exact congrArg Except.error (Option.some.inj hf)

end RustReality.Tls
