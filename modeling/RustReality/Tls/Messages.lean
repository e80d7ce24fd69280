import RustReality.Tls.KeySchedule

/-!
# Handshake messages of the server

EncryptedExtensions, Certificate, CertificateVerify and Finished. The certificate is a fixed template with
two patches: the key of the process, and an HMAC of it under the REALITY key where the signature belongs.
Where a builder reserves memory, `reserved` is the allocator's answer.
-/

namespace RustReality.Tls

def handshakeHeaderLen : Nat := 4
def maxHandshakeBodyLen : Nat := 0x00ffffff
def handshakeEncryptedExtensions : UInt8 := 8
def handshakeCertificate : UInt8 := 11
def handshakeCertificateVerify : UInt8 := 15
def handshakeFinished : UInt8 := 20
def extensionAlpn : Nat := 0x0010
def ed25519SignatureScheme : Nat := 0x0807
def certificateVerifyContext : Bytes := "TLS 1.3, server CertificateVerify".toUTF8.data.toList
def certificatePublicKeyOffset : Nat := 72
def certificateSignatureOffset : Nat := 114

def certificateTemplate : Bytes := [
  0x30, 0x81, 0xaf, 0x30, 0x63, 0xa0, 0x03, 0x02, 0x01, 0x02, 0x02, 0x01, 0x00, 0x30, 0x05, 0x06,
  0x03, 0x2b, 0x65, 0x70, 0x30, 0x00, 0x30, 0x22, 0x18, 0x0f, 0x30, 0x30, 0x30, 0x31, 0x30, 0x31,
  0x30, 0x31, 0x30, 0x30, 0x30, 0x30, 0x30, 0x30, 0x5a, 0x18, 0x0f, 0x30, 0x30, 0x30, 0x31, 0x30,
  0x31, 0x30, 0x31, 0x30, 0x30, 0x30, 0x30, 0x30, 0x30, 0x5a, 0x30, 0x00, 0x30, 0x2a, 0x30, 0x05,
  0x06, 0x03, 0x2b, 0x65, 0x70, 0x03, 0x21, 0x00, 0x21, 0x52, 0xf8, 0xd1, 0x9b, 0x79, 0x1d, 0x24,
  0x45, 0x32, 0x42, 0xe1, 0x5f, 0x2e, 0xab, 0x6c, 0xb7, 0xcf, 0xfa, 0x7b, 0x6a, 0x5e, 0xd3, 0x00,
  0x97, 0x96, 0x0e, 0x06, 0x98, 0x81, 0xdb, 0x12, 0x30, 0x05, 0x06, 0x03, 0x2b, 0x65, 0x70, 0x03,
  0x41, 0x00, 0x52, 0xc8, 0x4d, 0x3d, 0xc8, 0xf1, 0x23, 0xbb, 0x88, 0x9b, 0x05, 0x98, 0xfe, 0x11,
  0x4d, 0x36, 0xd0, 0x59, 0x9f, 0x20, 0xf3, 0xd0, 0x91, 0xb1, 0x28, 0x4a, 0x84, 0x5a, 0x5d, 0x81,
  0x8c, 0x9f, 0x85, 0x1f, 0x44, 0x10, 0x08, 0xd2, 0xf8, 0x4a, 0x5f, 0x9e, 0xbc, 0xcc, 0x8e, 0x82,
  0x43, 0xd9, 0x33, 0x2b, 0x16, 0x0c, 0x03, 0x8e, 0x52, 0xba, 0x8a, 0x2c, 0xe6, 0xf7, 0x00, 0x60,
  0x36, 0x04]

inductive HandshakeMessageError
  | invalidLength
  | random
  | crypto
  | bufferAllocation
  deriving DecidableEq, Repr

variable (reserved : Bool)

def encodeHandshake (messageType : UInt8) (body : Bytes) : Except HandshakeMessageError Bytes :=
  if body.length > maxHandshakeBodyLen then .error .invalidLength
  else if !reserved then .error .bufferAllocation
  else .ok (messageType :: (beBytes 3 body.length ++ body))

def encryptedExtensions (selectedAlpn : Option Bytes) : Except HandshakeMessageError Bytes :=
  match selectedAlpn with
  | none => encodeHandshake reserved handshakeEncryptedExtensions [0, 0]
  | some protocol =>
    if protocol.length ≥ 2 ^ 8 ∨ protocol.length = 0 then .error .invalidLength
    else
      let protocolListLen := protocol.length + 1
      let alpnBodyLen := protocolListLen + 2
      let extensionLen := alpnBodyLen + 4
      if !reserved then .error .bufferAllocation
      else encodeHandshake reserved handshakeEncryptedExtensions
        (beBytes 2 extensionLen ++ (beBytes 2 extensionAlpn ++ (beBytes 2 alpnBodyLen ++ (beBytes 2 protocolListLen ++
          (beBytes 1 protocol.length ++ protocol)))))

def certificateMessage (certificateDer : Bytes) : Except HandshakeMessageError Bytes :=
  if certificateDer.length = 0 ∨ certificateDer.length > maxHandshakeBodyLen then .error .invalidLength
  else
    let entryLen := certificateDer.length + (3 + 2)
    let bodyLen := entryLen + (1 + 3)
    if bodyLen > maxHandshakeBodyLen ∨ entryLen > maxHandshakeBodyLen then .error .invalidLength
    else if !reserved then .error .bufferAllocation
    else encodeHandshake reserved handshakeCertificate
      (0 :: (beBytes 3 entryLen ++ (beBytes 3 certificateDer.length ++ (certificateDer ++ [0, 0]))))

def finishedMessage (verifyData : Bytes) : Except HandshakeMessageError Bytes :=
  if verifyData.length ≠ 32 ∧ verifyData.length ≠ 48 then .error .invalidLength
  else encodeHandshake reserved handshakeFinished verifyData

structure CertificateIdentity where
  publicKey : Vector UInt8 32
  sign : Bytes → Vector UInt8 64

namespace CertificateIdentity

/-- The offsets lie in the template and HMAC takes keys of any length, so forging does not fail. -/
def forgeCertificate (hashing : Hashing) (self : CertificateIdentity) (authKey : Bytes) : Bytes :=
  let certificate := overwrite certificateTemplate certificatePublicKeyOffset self.publicKey.toList
  overwrite certificate certificateSignatureOffset (hashing.hmacSha512 authKey self.publicKey.toList).toList

def signedContent (transcriptHash : Bytes) : Bytes :=
  List.replicate 64 0x20 ++ certificateVerifyContext ++ [0] ++ transcriptHash

def certificateVerify (reserved : Bool) (self : CertificateIdentity) (transcriptHash : Bytes) :
    Except HandshakeMessageError Bytes :=
  if transcriptHash.length ≠ 32 ∧ transcriptHash.length ≠ 48 then .error .invalidLength
  else if !reserved then .error .bufferAllocation
  else
    let signature := (self.sign (signedContent transcriptHash)).toList
    encodeHandshake reserved handshakeCertificateVerify
      (beBytes 2 ed25519SignatureScheme ++ (beBytes 2 signature.length ++ signature))

end CertificateIdentity

/-! ### Lengths -/

variable {reserved : Bool}

theorem encodeHandshake_ok {messageType : UInt8} {body message : Bytes}
    (h : encodeHandshake reserved messageType body = .ok message) :
    body.length ≤ maxHandshakeBodyLen ∧ message = messageType :: (beBytes 3 body.length ++ body) := by
  unfold encodeHandshake at h
  split_ifs at h with hl hr
  cases h
  exact ⟨Nat.not_lt.1 hl, rfl⟩

theorem length_encodeHandshake {messageType : UInt8} {body message : Bytes}
    (h : encodeHandshake reserved messageType body = .ok message) : message.length = handshakeHeaderLen + body.length := by
  obtain ⟨-, rfl⟩ := encodeHandshake_ok h
  simp only [List.length_cons, List.length_append, length_beBytes, handshakeHeaderLen]
  omega

def encryptedExtensionsLen : Option Bytes → Nat
  | none => 6
  | some protocol => 13 + protocol.length

def certificateMessageLen : Nat := 191
def certificateVerifyLen : Nat := 72

theorem length_encryptedExtensions {selectedAlpn : Option Bytes} {message : Bytes}
    (h : encryptedExtensions reserved selectedAlpn = .ok message) :
    message.length = encryptedExtensionsLen selectedAlpn := by
  unfold encryptedExtensions at h
  cases selectedAlpn with
  | none => exact length_encodeHandshake h
  | some protocol =>
    dsimp only at h
    split_ifs at h with hl hr
    rw [length_encodeHandshake h]
    simp only [List.length_append, length_beBytes, handshakeHeaderLen, encryptedExtensionsLen]
    omega

theorem length_forgeCertificate (ha : Hashing) (identity : CertificateIdentity) (authKey : Bytes) :
    (identity.forgeCertificate ha authKey).length = 178 := by
  have ht : certificateTemplate.length = 178 := by decide +kernel
  have hk : (overwrite certificateTemplate certificatePublicKeyOffset identity.publicKey.toList).length = 178 := by
    rw [length_overwrite (by rw [Vector.length_toList, ht]; decide), ht]
  rw [CertificateIdentity.forgeCertificate, length_overwrite (by rw [Vector.length_toList, hk]; decide), hk]

theorem length_certificateMessage {certificateDer message : Bytes}
    (h : certificateMessage reserved certificateDer = .ok message) : message.length = certificateDer.length + 13 := by
  unfold certificateMessage at h
  dsimp only at h
  split_ifs at h with hl hb hr
  rw [length_encodeHandshake h]
  simp only [List.length_cons, List.length_append, length_beBytes, handshakeHeaderLen, List.length_nil]
  omega

theorem length_certificateVerify {identity : CertificateIdentity} {transcriptHash message : Bytes}
    (h : identity.certificateVerify reserved transcriptHash = .ok message) : message.length = certificateVerifyLen := by
  unfold CertificateIdentity.certificateVerify at h
  split_ifs at h with hl hr
  rw [length_encodeHandshake h]
  simp only [List.length_append, length_beBytes, Vector.length_toList, handshakeHeaderLen, certificateVerifyLen]

theorem length_finishedMessage {verifyData message : Bytes} (h : finishedMessage reserved verifyData = .ok message) :
    message.length = handshakeHeaderLen + verifyData.length := by
  unfold finishedMessage at h
  split_ifs at h with hl
  exact length_encodeHandshake h

end RustReality.Tls
