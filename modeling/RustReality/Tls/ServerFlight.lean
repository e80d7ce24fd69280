import RustReality.Tls.Export
import RustReality.Tls.Messages
import RustReality.Tls.ServerHello
import RustReality.Tls.TargetRead

/-!
# The server flight

The flight is the ServerHello of the target with a key share of ours, the compatibility record if the cover
sent one, and the encrypted messages in records of the lengths the cover's records had. Key agreement, hash
functions, AEAD and signature are parameters, and so are the allocator's answers.
-/

namespace RustReality.Tls
open Tls13RecordLayer

def maxFlightPlaintext : Nat := 16 * 1024
def mlkem768EncapsulationKeyLen : Nat := 1184

def unpaddedRecordWireOverhead : Nat := headerLen + 1 + tagLen

/-- The source drops the cause of an error it converts; it is kept here to tell them apart. -/
inductive RealityHandshakeError
  | random
  | missingClientKeyShare
  | nonContributoryKey
  | mlKem
  | alpnNotOffered
  | serverHello (cause : ServerHelloError)
  | keySchedule (cause : Tls13KeyScheduleError)
  | message (cause : HandshakeMessageError)
  | record (cause : Tls13RecordError)
  | bufferAllocation
  | clientFinished
  deriving DecidableEq, Repr

/-! ### Key agreement -/

structure KeyAgreement where
  serverShare : Bytes
  sharedSecret : Bytes
  deriving DecidableEq

/-- The ephemeral keys of one handshake, each with its public key; a key is missing without randomness, and
an agreement that does not contribute fails. -/
structure EphemeralKeys where
  p256 : Option (Vector UInt8 65 × (Bytes → Option (Vector UInt8 32)))
  x25519 : Option (Vector UInt8 32 × (Bytes → Option (Vector UInt8 32)))
  /-- Encapsulation under a key: `none` for an invalid key, `some none` without randomness. -/
  mlKem : Bytes → Option (Option (Vector UInt8 1088 × Vector UInt8 32))
  reserved : Bool

def agreeKeyShare (keys : EphemeralKeys) (client : ClientHello) (group : Nat) : Except RealityHandshakeError KeyAgreement :=
  match client.keyShares.find? (·.group == group) with
  | none => .error .missingClientKeyShare
  | some share =>
    if group = p256Group then
      match keys.p256 with
      | none => .error .random
      | some (serverPublic, agree) =>
        match agree share.data with
        | none => .error .nonContributoryKey
        | some secret => .ok ⟨serverPublic.toList, secret.toList⟩
    else
      match keys.x25519 with
      | none => .error .random
      | some (serverPublic, agree) =>
        if group = x25519Group then
          if share.data.length ≠ 32 then .error .missingClientKeyShare
          else
            match agree share.data with
            | none => .error .nonContributoryKey
            | some secret => .ok ⟨serverPublic.toList, secret.toList⟩
        else if group = x25519Mlkem768Group then
          let clientPublic := share.data.drop mlkem768EncapsulationKeyLen
          if share.data.length < mlkem768EncapsulationKeyLen ∨ clientPublic.length ≠ 32 then .error .missingClientKeyShare
          else
            match keys.mlKem (share.data.take mlkem768EncapsulationKeyLen) with
            | none => .error .mlKem
            | some none => .error .random
            | some (some (ciphertext, mlkemShared)) =>
              match agree clientPublic with
              | none => .error .nonContributoryKey
              | some x25519Shared =>
                if !keys.reserved then .error .bufferAllocation
                else .ok ⟨ciphertext.toList ++ serverPublic.toList, mlkemShared.toList ++ x25519Shared.toList⟩
        else .error .missingClientKeyShare

/-! ### The protocol that is claimed -/

structure FlightMemory where
  /-- The trial encoding of a protocol. -/
  alpn : Bytes → Bool
  transcript : Bool
  messages : Bool
  scratch : Bool
  hello : Bool
  wire : Bool
  records : Bool

def FlightMemory.granted : FlightMemory := ⟨fun _ => true, true, true, true, true, true, true⟩

/-- Whether EncryptedExtensions with the protocol fit the record of the cover. -/
def alpnExtensionFitsSlot (reserved : Bool) (protocol : Bytes) (eeSlotWireLen : Nat) : Bool :=
  match encryptedExtensions reserved (some protocol) with
  | .error _ => false
  | .ok message => message.length + unpaddedRecordWireOverhead ≤ eeSlotWireLen

def coverCompatibleAlpn (memory : FlightMemory) (client : ClientHello) (preferred : Option Bytes)
    (plan : CoverHandshakePlan) : Option Bytes :=
  match plan.shape with
  | .positionalRecords wireLens _ =>
    let fits := fun protocol => alpnExtensionFitsSlot (memory.alpn protocol) protocol wireLens.head
    (preferred.filter fits).or (client.alpn.find? fits)
  | .coalesced _ => preferred

/-! ### Keys and messages -/

variable {K : Type} (hashing : Hashing) (crypto : RecordCrypto TrafficSecret K)

namespace Tls13RecordLayer

variable {S : Type}

def newHandshake (crypto : RecordCrypto S K) (suite : CipherSuite) (secret : S) :
    Except Tls13RecordError (Tls13RecordLayer S K) :=
  match crypto.keys suite secret with
  | none => .error .invalidKey
  | some (key, iv) => .ok { suite, key, iv, traffic := none, sequence := 0, writeFailed := false }

/-- `seal_into` with padding behind the content type. -/
def sealInto (crypto : RecordCrypto S K) (self : Tls13RecordLayer S K) (contentType : ContentType) (plaintext : Bytes)
    (paddingLen : Nat) (reserved : Bool) : Except Tls13RecordError (Tls13RecordLayer S K × Bytes) := do
  self.ensureKeyAvailable
  if plaintext.length > maxPlaintextLen then .error .invalidLength
  else if plaintext.length + 1 + paddingLen > maxInnerPlaintextLen then .error .invalidLength
  else if !reserved then .error .bufferAllocation
  else
    let inner := plaintext ++ contentType.wireValue :: List.replicate paddingLen 0
    let header := recordHeader (inner.length + tagLen)
    match crypto.sealBody self.key self.nonce header inner with
    | none => .error .authenticationFailed
    | some body => do
      let self ← self.advance
      return (self, header ++ body)

end Tls13RecordLayer

structure HandshakeMessages where
  encryptedExtensions : Bytes
  certificate : Bytes
  certificateVerify : Bytes
  finished : Bytes
  deriving DecidableEq

def HandshakeMessages.toList (self : HandshakeMessages) : List Bytes :=
  [self.encryptedExtensions, self.certificate, self.certificateVerify, self.finished]

def HandshakeMessages.plaintext (self : HandshakeMessages) : Bytes := self.toList.flatten

variable (identity : CertificateIdentity)

def handshakeMessages (authKey : Bytes) (schedule : Tls13KeySchedule)
    (hasher : TranscriptHasher) (selectedAlpn : Option Bytes) (reserved : Bool) :
    Except RealityHandshakeError (HandshakeMessages × TranscriptHasher) := do
  let encryptedExtensions ← (encryptedExtensions reserved selectedAlpn).mapError .message
  let hasher := hasher.update encryptedExtensions
  let certificate ← (certificateMessage reserved (identity.forgeCertificate hashing authKey)).mapError .message
  let hasher := hasher.update certificate
  let certificateVerify ← (identity.certificateVerify reserved (hasher.snapshot hashing).bytes).mapError .message
  let hasher := hasher.update certificateVerify
  let serverFinishedData ← (schedule.finishedVerifyData hashing schedule.serverHandshake
    (hasher.snapshot hashing)).mapError .keySchedule
  let finished ← (finishedMessage reserved serverFinishedData.bytes).mapError .message
  return (⟨encryptedExtensions, certificate, certificateVerify, finished⟩, hasher.update finished)

structure FlightParts (K : Type) where
  serverHandshakeRecords : Tls13RecordLayer TrafficSecret K
  clientHandshakeRecords : Tls13RecordLayer TrafficSecret K
  messages : HandshakeMessages
  expectedClientFinished : FinishedVerifyData
  clientApplicationSecret : TrafficSecret
  serverApplicationRecords : Tls13RecordLayer TrafficSecret K

def deriveFlight (authKey : Bytes) (suite : CipherSuite) (sharedSecret hellos : Bytes)
    (selectedAlpn : Option Bytes) (reserved : Bool) : Except RealityHandshakeError (FlightParts K) := do
  let hasher := (TranscriptHasher.new suite.hash).update hellos
  let schedule ← (Tls13KeySchedule.new hashing suite sharedSecret (hasher.snapshot hashing)).mapError .keySchedule
  let serverHandshakeRecords ← (newHandshake crypto suite schedule.serverHandshake).mapError .record
  let clientHandshakeRecords ← (newHandshake crypto suite schedule.clientHandshake).mapError .record
  let (messages, hasher) ← handshakeMessages hashing identity authKey schedule hasher selectedAlpn reserved
  let throughServerFinished := hasher.snapshot hashing
  let expectedClientFinished ← (schedule.finishedVerifyData hashing schedule.clientHandshake
    throughServerFinished).mapError .keySchedule
  let (clientApplicationSecret, serverApplicationSecret) ←
    (schedule.applicationTrafficSecrets hashing throughServerFinished).mapError .keySchedule
  let serverApplicationRecords ←
    (fromTrafficSecret crypto suite serverApplicationSecret).mapError .record
  return { serverHandshakeRecords, clientHandshakeRecords, messages, expectedClientFinished, clientApplicationSecret,
           serverApplicationRecords }

/-! ### Records of the lengths of the cover -/

def shapedRecordPadding (plaintextLen targetWireLen : Nat) : Except RealityHandshakeError Nat :=
  if targetWireLen < plaintextLen + unpaddedRecordWireOverhead then .error (.record .invalidLength)
  else .ok (targetWireLen - (plaintextLen + unpaddedRecordWireOverhead))

variable (records : Tls13RecordLayer TrafficSecret K)

def sealShapedRecord (contentType : ContentType) (plaintext : Bytes)
    (targetWireLen : Nat) (reserved : Bool) : Except RealityHandshakeError (Tls13RecordLayer TrafficSecret K × Bytes) := do
  let paddingLen ← shapedRecordPadding plaintext.length targetWireLen
  let (records, record) ← (records.sealInto crypto contentType plaintext paddingLen reserved).mapError .record
  if record.length ≠ targetWireLen then .error (.record .invalidLength) else return (records, record)

def sealShapedRecords (reserved : Bool) : Tls13RecordLayer TrafficSecret K → List (Bytes × Nat) →
    Except RealityHandshakeError (List Bytes)
  | _, [] => .ok []
  | records, (message, wireLen) :: rest => do
    let (records, record) ← sealShapedRecord crypto records .handshake message wireLen reserved
    let wire ← sealShapedRecords reserved records rest
    return record :: wire

/-- The messages with the lengths of their records; without a plan the flight is one record without padding. -/
def shapedMessages (messages : HandshakeMessages) : Option CoverHandshakeRecordShape → List (Bytes × Nat)
  | none => [(messages.plaintext, messages.plaintext.length + unpaddedRecordWireOverhead)]
  | some (.coalesced wireLen) => [(messages.plaintext, wireLen)]
  | some (.positionalRecords wireLens _) => messages.toList.zip wireLens.toList

def ticketWireLen : Option CoverHandshakeRecordShape → Option Nat
  | some (.positionalRecords _ nstWireLen) => nstWireLen
  | _ => none

def checkShape : List (Bytes × Nat) → Option Nat → Except RealityHandshakeError Unit
  | [], none => .ok ()
  | [], some nstWireLen => do
    let _ ← shapedRecordPadding 0 nstWireLen
    return ()
  | (message, wireLen) :: rest, nstWireLen => do
    let _ ← shapedRecordPadding message.length wireLen
    checkShape rest nstWireLen

/-- The ticket is sealed under the application keys and is their first record. -/
def sealTicket (nstWireLen : Option Nat) (reserved : Bool) :
    Except RealityHandshakeError (Tls13RecordLayer TrafficSecret K × List Bytes) :=
  match nstWireLen with
  | none => .ok (records, [])
  | some nstWireLen => do
    let (records, record) ← sealShapedRecord crypto records .applicationData [] nstWireLen reserved
    return (records, [record])

structure ServerFlight (K : Type) where
  wire : Bytes
  serverHelloEnd : Nat
  encryptedHandshakeStart : Nat
  clientHandshakeRecords : Tls13RecordLayer TrafficSecret K
  expectedClientFinished : FinishedVerifyData
  established : EstablishedTls TrafficSecret K

def frameFlight (memory : FlightMemory) (suite : CipherSuite) (serverHelloMessage : Bytes) (parts : FlightParts K)
    (plan : Option CoverHandshakePlan) : Except RealityHandshakeError (ServerFlight K) :=
  if parts.messages.plaintext.length > maxFlightPlaintext then .error .bufferAllocation
  else do
    let emitCcs := (plan.map (·.emitCcs)).getD true
    let shape := plan.map (·.shape)
    checkShape (shapedMessages parts.messages shape) (ticketWireLen shape)
    if !memory.scratch then .error .bufferAllocation
    else do
      let hello ← (plaintextHandshakeRecord serverHelloMessage memory.hello).mapError .serverHello
      if !memory.wire then .error .bufferAllocation
      else do
        let plain := hello ++ if emitCcs then changeCipherSpecRecord else []
        let records ← sealShapedRecords crypto memory.records parts.serverHandshakeRecords
          (shapedMessages parts.messages shape)
        let (serverRecords, ticket) ← sealTicket crypto parts.serverApplicationRecords (ticketWireLen shape) memory.records
        let clientRecords ←
          (fromTrafficSecret crypto suite parts.clientApplicationSecret).mapError .record
        return {
          wire := plain ++ (records ++ ticket).flatten
          serverHelloEnd := hello.length
          encryptedHandshakeStart := plain.length
          clientHandshakeRecords := parts.clientHandshakeRecords
          expectedClientFinished := parts.expectedClientFinished
          established := { suite, clientRecords, serverRecords } }

def buildServerFlightInner (memory : FlightMemory) (keys : EphemeralKeys) (client : ClientHello) (authKey : Bytes)
    (target : ServerHelloTemplate) (identity : CertificateIdentity) (selectedAlpn : Option Bytes)
    (plan : Option CoverHandshakePlan) : Except RealityHandshakeError (ServerFlight K) :=
  let selectedAlpn :=
    match plan with
    | some plan => coverCompatibleAlpn memory client selectedAlpn plan
    | none => selectedAlpn
  if selectedAlpn.any fun protocol => !client.alpn.contains protocol then .error .alpnNotOffered
  else do
    let agreement ← agreeKeyShare keys client target.keyShareGroup
    let serverHelloMessage ← (target.intoPatchedMessage agreement.serverShare).mapError .serverHello
    if !memory.transcript then .error .bufferAllocation
    else do
      let parts ← deriveFlight hashing crypto identity authKey target.suite agreement.sharedSecret
        (client.rawMessage ++ serverHelloMessage) selectedAlpn memory.messages
      frameFlight crypto memory target.suite serverHelloMessage parts plan

def buildServerFlightWithShape (memory : FlightMemory) (keys : EphemeralKeys) (client : ClientHello) (authKey : Bytes)
    (target : ServerHelloTemplate) (identity : CertificateIdentity) (selectedAlpn : Option Bytes)
    (plan : CoverHandshakePlan) : Except RealityHandshakeError (ServerFlight K) :=
  buildServerFlightInner hashing crypto memory keys client authKey target identity selectedAlpn (some plan)

end RustReality.Tls
