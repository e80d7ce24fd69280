import RustReality.Lib.Bytes

/-!
# The TLS 1.3 record layer

One direction of protected records: a traffic key and IV, the secret they came from, and the sequence
number the next record is sealed or opened under. The AEAD and the key schedule are parameters
(`RecordCrypto`): arbitrary functions that may fail, of fixed expansion, with opening inverse to
sealing.
-/

namespace RustReality.Tls

def headerLen : Nat := 5
def tagLen : Nat := 16
def maxPlaintextLen : Nat := 2 ^ 14
def maxInnerPlaintextLen : Nat := maxPlaintextLen + 1
def maxCiphertextLen : Nat := maxInnerPlaintextLen + tagLen
def aesGcmRecordLimit : Nat := 2 ^ 24
def chacha20Poly1305RecordLimit : Nat := 2 ^ 62

def maxTlsRecordWireLen : Nat := headerLen + maxCiphertextLen

def outerApplicationData : UInt8 := 23
def legacyRecordVersion : Bytes := [3, 3]

inductive ContentType
  | changeCipherSpec | alert | handshake | applicationData
  deriving DecidableEq, Repr

namespace ContentType

def wireValue : ContentType → UInt8
  | .changeCipherSpec => 20
  | .alert => 21
  | .handshake => 22
  | .applicationData => 23

def fromWire (value : UInt8) : Option ContentType :=
  if value = 20 then some .changeCipherSpec
  else if value = 21 then some .alert
  else if value = 22 then some .handshake
  else if value = 23 then some .applicationData
  else none

@[simp] theorem fromWire_wireValue (type : ContentType) : fromWire type.wireValue = some type := by
  cases type <;> rfl

theorem wireValue_ne_zero (type : ContentType) : type.wireValue ≠ 0 := by
  cases type <;> decide

end ContentType

inductive Tls13RecordError
  | invalidKey
  | keyUpdateUnavailable
  | invalidLength
  | invalidHeader
  | authenticationFailed
  | invalidContentType
  | keyUsageExhausted
  | writeFailed
  | bufferAllocation
  deriving DecidableEq, Repr

inductive CipherSuite
  | aes128GcmSha256 | aes256GcmSha384 | chacha20Poly1305Sha256
  deriving DecidableEq, Repr

/-- The AEAD and the key schedule, over secrets `S` and record keys `K`. -/
structure RecordCrypto (S K : Type) where
  /-- Key and IV of a generation. -/
  keys : CipherSuite → S → Option (K × Vector UInt8 12)
  /-- The secret of the next generation. -/
  updated : S → Option S
  sealBody : K → Bytes → Bytes → Bytes → Option Bytes
  openBody : K → Bytes → Bytes → Bytes → Option Bytes
  seal_length : ∀ {k n a p c}, sealBody k n a p = some c → c.length = p.length + tagLen
  open_length : ∀ {k n a p c}, openBody k n a c = some p → p.length + tagLen = c.length
  open_seal : ∀ {k n a p c}, sealBody k n a p = some c → openBody k n a c = some p

/-- A cipher with an empty key that only appends a tag of zeros; runs on concrete input use it. -/
def RecordCrypto.null : RecordCrypto Unit Unit where
  keys _ _ := some ((), Vector.replicate 12 0)
  updated _ := some ()
  sealBody _ _ _ plaintext := some (plaintext ++ List.replicate tagLen 0)
  openBody _ _ _ body := if tagLen ≤ body.length then some (body.take (body.length - tagLen)) else none
  seal_length := by
    rintro _ _ _ p _ ⟨rfl⟩
    simp
  open_length := by
    intro _ _ _ p c h
    split_ifs at h with hlong
    cases h
    rw [List.length_take]
    omega
  open_seal := by
    rintro _ _ _ p _ ⟨rfl⟩
    simp

structure Tls13RecordLayer (S K : Type) where
  suite : CipherSuite
  key : K
  iv : Vector UInt8 12
  /-- The generation secret; a handshake layer has none. -/
  traffic : Option S
  sequence : Nat
  writeFailed : Bool
  deriving DecidableEq, Repr

def bodyLen (record : Bytes) : Nat := ofBe (slice record 3 5)

namespace Tls13RecordLayer

variable {S K : Type} (crypto : RecordCrypto S K) (self : Tls13RecordLayer S K)

def keyUsageLimit : Nat :=
  match self.suite with
  | .aes128GcmSha256 => aesGcmRecordLimit
  | .aes256GcmSha384 => aesGcmRecordLimit
  | .chacha20Poly1305Sha256 => chacha20Poly1305RecordLimit

/-- Exactly one record of this generation is left. -/
def needsKeyUpdate : Bool := self.sequence ≥ self.keyUsageLimit - 1

def ensureWriteReady : Except Tls13RecordError Unit :=
  if self.writeFailed then .error .writeFailed else .ok ()

def ensureKeyAvailable : Except Tls13RecordError Unit := do
  self.ensureWriteReady
  if self.sequence < self.keyUsageLimit then return () else throw .keyUsageExhausted

def failWrite : Tls13RecordLayer S K := { self with writeFailed := true }

def nonce : Bytes :=
  self.iv.toList.take 4 ++ List.zipWith (· ^^^ ·) (self.iv.toList.drop 4) (beBytes 8 self.sequence)

def advance : Except Tls13RecordError (Tls13RecordLayer S K) :=
  if self.sequence + 1 < 2 ^ 64 then .ok { self with sequence := self.sequence + 1 }
  else .error .keyUsageExhausted

def updateTrafficSecret : Except Tls13RecordError (Tls13RecordLayer S K) := do
  self.ensureWriteReady
  let current ← match self.traffic with
    | some secret => pure secret
    | none => throw .keyUpdateUnavailable
  let secret ← match crypto.updated current with
    | some secret => pure secret
    | none => throw .invalidKey
  let (key, iv) ← match crypto.keys self.suite secret with
    | some keys => pure keys
    | none => throw .invalidKey
  return { self with key, iv, traffic := some secret, sequence := 0 }

/-! ### Opening -/

/-- The content type and the content of an inner plaintext: the last byte that is not zero is the
type, what precedes it the content. -/
def splitInner (inner : Bytes) : Option (UInt8 × Bytes) :=
  match inner.reverse.dropWhile (· == 0) with
  | [] => none
  | type :: content => some (type, content.reverse)

structure OpenedRecord where
  contentType : ContentType
  plaintext : Bytes
  deriving DecidableEq, Repr

/-- The checks of `open_in_place` on the framing of a record. -/
def checkFraming (record : Bytes) : Except Tls13RecordError Unit :=
  if record.length < headerLen then .error .invalidLength
  else if record[0]? ≠ some outerApplicationData ∨ slice record 1 3 ≠ legacyRecordVersion then
    .error .invalidHeader
  else if record.length ≠ headerLen + bodyLen record ∨ bodyLen record < tagLen + 1 ∨
      bodyLen record > maxCiphertextLen then
    .error .invalidLength
  else .ok ()

def readInner (inner : Bytes) : Except Tls13RecordError OpenedRecord :=
  match splitInner inner with
  | none => .error .invalidContentType
  | some (type, plaintext) =>
    match ContentType.fromWire type with
    | none => .error .invalidContentType
    | some contentType => .ok ⟨contentType, plaintext⟩

/-- `open_in_place` on the storage of one record, which afterwards holds the inner plaintext behind
the header. What a failed authentication leaves there is unspecified, and no caller reads it. -/
def openInPlace (record : Bytes) : Tls13RecordLayer S K × Bytes × Except Tls13RecordError OpenedRecord :=
  match self.ensureKeyAvailable >>= fun _ => checkFraming record with
  | .error e => (self, record, .error e)
  | .ok () =>
    match crypto.openBody self.key self.nonce (record.take headerLen) (record.drop headerLen) with
    | none => (self, record, .error .authenticationFailed)
    | some inner =>
      match self.advance with
      | .error e => (self, overwrite record headerLen inner, .error e)
      | .ok next => (next, overwrite record headerLen inner, readInner inner)

theorem splitInner_some {inner content : Bytes} {type : UInt8} (h : splitInner inner = some (type, content)) :
    ∃ padding, inner = content ++ type :: List.replicate padding 0 := by
  unfold splitInner at h
  split at h
  · cases h
  · rename_i type' rest hd
    cases h
    obtain ⟨padding, hz⟩ : ∃ n, inner.reverse.takeWhile (· == 0) = List.replicate n 0 :=
      ⟨_, List.eq_replicate_of_mem fun b hb => by simpa using List.mem_takeWhile_imp hb⟩
    have hs : inner.reverse.takeWhile (· == 0) ++ inner.reverse.dropWhile (· == 0) = inner.reverse :=
      List.takeWhile_append_dropWhile
    rw [hd, hz] at hs
    refine ⟨padding, ?_⟩
    rw [← List.reverse_reverse inner, ← hs]
    simp

theorem readInner_ok {inner : Bytes} {opened : OpenedRecord} (h : readInner inner = .ok opened) :
    ∃ type padding, inner = opened.plaintext ++ type :: List.replicate padding 0 := by
  unfold readInner at h
  split at h
  · cases h
  rename_i type plaintext hs
  split at h
  · cases h
  · cases h
    obtain ⟨padding, hi⟩ := splitInner_some hs
    exact ⟨type, padding, hi⟩

theorem length_of_checkFraming {self : Tls13RecordLayer S K} {record : Bytes}
    (h : (self.ensureKeyAvailable >>= fun _ => checkFraming record) = .ok ()) :
    headerLen + tagLen < record.length := by
  cases hk : self.ensureKeyAvailable with
  | error e => simp [hk, bind, Except.bind] at h
  | ok u =>
    simp only [hk, bind, Except.bind, checkFraming] at h
    split_ifs at h with hs hh hl
    omega

theorem openInPlace_spec {self self' : Tls13RecordLayer S K} {record record' : Bytes}
    {result : Except Tls13RecordError OpenedRecord} (h : self.openInPlace crypto record = (self', record', result)) :
    record'.length = record.length ∧
      ∀ opened, result = .ok opened → headerLen + opened.plaintext.length ≤ record.length ∧
        slice record' headerLen (headerLen + opened.plaintext.length) = opened.plaintext := by
  unfold openInPlace at h
  split at h
  · cases h
    exact ⟨rfl, by simp⟩
  rename_i hc
  split at h
  · cases h
    exact ⟨rfl, by simp⟩
  rename_i inner ho
  have hi := crypto.open_length ho
  have hl := length_of_checkFraming hc
  rw [List.length_drop] at hi
  have hr : headerLen + inner.length ≤ record.length := by omega
  have hs : (overwrite record headerLen inner).length = record.length := length_overwrite hr
  split at h
  · cases h
    exact ⟨hs, by simp⟩
  · cases h
    refine ⟨hs, fun opened hop => ?_⟩
    obtain ⟨type, padding, rfl⟩ := readInner_ok hop
    have hf : headerLen + opened.plaintext.length ≤ record.length := by
      rw [List.length_append] at hr
      omega
    have hfr : overwrite record headerLen (opened.plaintext ++ type :: List.replicate padding 0) =
        record.take headerLen ++ opened.plaintext ++ (type :: List.replicate padding 0 ++
          record.drop (headerLen + (opened.plaintext ++ type :: List.replicate padding 0).length)) := by
      rw [overwrite]
      simp
    have hh : (record.take headerLen).length = headerLen := by
      rw [List.length_take]
      omega
    have := slice_middle (record.take headerLen) opened.plaintext (type :: List.replicate padding 0 ++
      record.drop (headerLen + (opened.plaintext ++ type :: List.replicate padding 0).length))
    rw [hh, ← hfr] at this
    exact ⟨hf, this⟩

/-! ### Sealing -/

/-- The header of a record with a body of `ciphertextLen` bytes. -/
def recordHeader (ciphertextLen : Nat) : Bytes :=
  outerApplicationData :: legacyRecordVersion ++ beBytes 2 ciphertextLen

/-- One sealed record for content of a type without padding. `seal_into`, `seal_assembled` and
`seal_filled` differ in where the content comes from and where the record goes. -/
def sealRecord (contentType : ContentType) (plaintext : Bytes) :
    Except Tls13RecordError (Tls13RecordLayer S K × Bytes) := do
  self.ensureKeyAvailable
  if plaintext.length > maxPlaintextLen then throw .invalidLength
  let inner := plaintext ++ [contentType.wireValue]
  let header := recordHeader (inner.length + tagLen)
  match crypto.sealBody self.key self.nonce header inner with
  | none => throw .authenticationFailed
  | some body =>
    let self ← self.advance
    return (self, header ++ body)

end Tls13RecordLayer

end RustReality.Tls
