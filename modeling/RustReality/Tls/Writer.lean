import RustReality.Lib.Vec
import RustReality.Tls.Reader

/-!
# The TLS application writer

Content is sealed into records and written out. Before a record the writer sends a KeyUpdate when the
peer asked for one or the key has one record left, and moves to the next traffic secret. A record that
was sealed but not completely written poisons the direction: `failWrite` is what dropping the armed
write guard does. Timeouts are such that `idle.reset` can represent the deadline, its one way to fail.
-/

namespace RustReality.Tls
open Net

def recordSlotWireCapacity : Nat := headerLen + maxInnerPlaintextLen + tagLen
def batchedSlotCount : Nat := 4
def batchedWireCapacity : Nat := batchedSlotCount * recordSlotWireCapacity

/-- `idle_failure`. -/
def TlsApplicationIoError.ofFailure : Failure → TlsApplicationIoError
  | .timeout => .timeout
  | .unarmed => .timeout
  | .io kind => .io kind
  | .dropped => .dropped

/-- One use of a key: the generation of the secret, the sequence number, and what was sealed. -/
structure SealUse where
  generation : Nat
  sequence : Nat
  contentType : ContentType
  plaintext : Bytes
  record : Bytes
  deriving DecidableEq, Repr

structure TlsApplicationWriter (S K : Type) where
  io : Sink
  records : Tls13RecordLayer S K
  /-- A KeyUpdate response is pending or observed. -/
  owed : Bool
  /-- Whether the reader of the connection observes a request before each look at the coordination. -/
  requests : List Bool
  /-- Capacity of the record storage. -/
  capacity : Nat
  /-- The allocator's answers: refused, or granted with some spare capacity. -/
  heap : List (Option Nat)
  /-- How often the secret was changed, and the uses of its keys. The code keeps neither; nothing it does
  depends on them. -/
  generation : Nat := 0
  log : List SealUse := []

structure VectoredRead (ρ : Type) where
  read : ρ → Nat → ρ × Except Failure Bytes
  readVectored : ρ → List Nat → ρ × Except Failure Bytes

namespace TlsApplicationWriter

variable {S K : Type} (crypto : RecordCrypto S K) (self : TlsApplicationWriter S K)

def observe : TlsApplicationWriter S K :=
  match self.requests with
  | [] => self
  | request :: requests => { self with owed := self.owed || request, requests }

/-- Make sure the record storage has room for `size` bytes. -/
def reserve (size : Nat) : TlsApplicationWriter S K × Bool :=
  if size ≤ self.capacity then (self, true)
  else
    match self.heap with
    | [] => ({ self with capacity := size }, true)
    | none :: heap => ({ self with heap }, false)
    | some spare :: heap => ({ self with capacity := size + spare, heap }, true)

def fail : TlsApplicationWriter S K :=
  { self with records := self.records.failWrite }

/-- The state behind a seal, with the use of the key noted. -/
def noteSeal (contentType : ContentType) (plaintext record : Bytes) (records : Tls13RecordLayer S K) :
    TlsApplicationWriter S K :=
  { self with
    records
    log := self.log ++ [⟨self.generation, self.records.sequence, contentType, plaintext, record⟩] }

def transmit (wire : Bytes) : TlsApplicationWriter S K × Except TlsApplicationIoError Unit :=
  match self.io.writeAll wire with
  | (io, .error failure) => (fail { self with io }, .error (.ofFailure failure))
  | (io, .ok ()) => ({ self with io }, .ok ())

def sealAndTransmit (contentType : ContentType) (plaintext : Bytes) :
    TlsApplicationWriter S K × Except TlsApplicationIoError Unit :=
  match self.records.sealRecord crypto contentType plaintext with
  | .error e => (self, .error (.record e))
  | .ok (records, record) => (self.noteSeal contentType plaintext record records).transmit record

/-- The end of `write_key_update_if_needed`: the message is out, its secret is given up. -/
def rekey : TlsApplicationWriter S K × Except TlsApplicationIoError Bool :=
  match self.records.updateTrafficSecret crypto with
  | .error e => (self.fail, .error (.record e))
  | .ok records => ({ self with records, generation := self.generation + 1 }, .ok true)

def writeKeyUpdateIfNeeded : TlsApplicationWriter S K × Except TlsApplicationIoError Bool :=
  match self.records.ensureWriteReady with
  | .error e => (self, .error (.record e))
  | .ok () =>
    let self := self.observe
    if !self.owed && !self.records.needsKeyUpdate then (self, .ok false)
    else
      match self.records.sealRecord crypto .handshake keyUpdateResponse with
      | .error e => (self, .error (.record e))
      | .ok (records, record) =>
        match transmit { self.noteSeal .handshake keyUpdateResponse record records with owed := false } record with
        | (self, .error e) => (self, .error e)
        | (self, .ok ()) => self.rekey crypto

def checkSeal (plaintextLen : Nat) : Except Tls13RecordError Unit := do
  self.records.ensureKeyAvailable
  if plaintextLen > maxPlaintextLen then throw .invalidLength

/-- `write_content`: one record of content in reserved storage. -/
def writeContent (contentType : ContentType) (plaintext : Bytes) :
    TlsApplicationWriter S K × Except TlsApplicationIoError Unit :=
  match self.checkSeal plaintext.length with
  | .error e => (self, .error (.record e))
  | .ok () =>
    match self.reserve (headerLen + (plaintext.length + 1 + tagLen)) with
    | (self, false) => (self, .error (.record .bufferAllocation))
    | (self, true) => self.sealAndTransmit crypto contentType plaintext

structure ApplicationWriteStats where
  plaintextBytes : Nat
  records : Nat
  deriving DecidableEq, Repr

/-- The records of `write_application_data`, one for each chunk. -/
def writeChunks : List Bytes → TlsApplicationWriter S K → TlsApplicationWriter S K × Except TlsApplicationIoError Unit
  | [], self => (self, .ok ())
  | chunk :: chunks, self =>
    match self.writeKeyUpdateIfNeeded crypto with
    | (self, .error e) => (self, .error e)
    | (self, .ok _) =>
      match self.writeContent crypto .applicationData chunk with
      | (self, .error e) => (self, .error e)
      | (self, .ok ()) => writeChunks chunks self

def writeApplication (plaintext : Bytes) :
    TlsApplicationWriter S K × Except TlsApplicationIoError ApplicationWriteStats :=
  match self.records.ensureWriteReady with
  | .error e => (self, .error (.record e))
  | .ok () =>
    let chunks := Vec.chunks maxPlaintextLen plaintext
    match writeChunks crypto chunks self with
    | (self, .error e) => (self, .error e)
    | (self, .ok ()) => (self, .ok { plaintextBytes := plaintext.length, records := chunks.length })

def writeAssembled (plaintext : Bytes) : TlsApplicationWriter S K × Except TlsApplicationIoError Unit :=
  match self.writeKeyUpdateIfNeeded crypto with
  | (self, .error e) => (self, .error e)
  | (self, .ok _) => self.writeContent crypto .applicationData plaintext

def writeFilled (filled : Bytes) : TlsApplicationWriter S K × Except TlsApplicationIoError Unit :=
  match self.writeKeyUpdateIfNeeded crypto with
  | (self, .error e) => (self, .error e)
  | (self, .ok _) => self.sealAndTransmit crypto .applicationData filled

def shutdown (self : TlsApplicationWriter S K) : TlsApplicationWriter S K × Except TlsApplicationIoError Unit :=
  match self.writeKeyUpdateIfNeeded crypto with
  | (self, .error e) => (self, .error e)
  | (self, .ok _) =>
    match self.writeContent crypto .alert [1, 0] with
    | (self, .error e) => (self, .error e)
    | (self, .ok ()) =>
      match self.io.shutdown with
      | (io, .error failure) => (fail { self with io }, .error (.ofFailure failure))
      | (io, .ok ()) => ({ self with io }, .ok ())

/-! ### Relaying a reader -/

section Relay

variable {ρ : Type} (io : VectoredRead ρ) (self : TlsApplicationWriter S K)

/-- Seal and write what one read delivers; no bytes is the end of the stream. -/
def writeApplicationReadFrom (reader : ρ) : TlsApplicationWriter S K × ρ × Except TlsApplicationIoError Nat :=
  match self.records.ensureWriteReady with
  | .error e => (self, reader, .error (.record e))
  | .ok () =>
    match self.reserve recordSlotWireCapacity with
    | (self, false) => (self, reader, .error (.record .bufferAllocation))
    | (self, true) =>
      match io.read reader maxPlaintextLen with
      | (reader, .error failure) => (self, reader, .error (.ofFailure failure))
      | (reader, .ok filled) =>
        if filled = [] then (self, reader, .ok 0)
        else
          match self.writeFilled crypto filled with
          | (self, .error e) => (self, reader, .error e)
          | (self, .ok ()) => (self, reader, .ok filled.length)

/-- Before a slot is sealed: a KeyUpdate that is due goes out behind the records sealed so far. The
result is what remains unsent. -/
def rekeyBatch (unsent : Bytes) : TlsApplicationWriter S K × Except TlsApplicationIoError Bytes :=
  let self := self.observe
  if self.owed || self.records.needsKeyUpdate then
    match self.transmit unsent with
    | (self, .error e) => (self, .error e)
    | (self, .ok ()) =>
      match self.writeKeyUpdateIfNeeded crypto with
      | (self, .error e) => (self, .error e)
      | (self, .ok _) => (self, .ok [])
  else (self, .ok unsent)

/-- Seal the filled slots one by one and write the contiguous records. A failure while records are
sealed poisons the direction. -/
def batchLoop : Nat → TlsApplicationWriter S K → Bool → Bytes → Bytes →
    TlsApplicationWriter S K × Except TlsApplicationIoError Unit
  | 0, self, _, unsent, _ => self.transmit unsent
  | slots + 1, self, armed, unsent, filled =>
    if filled = [] then self.transmit unsent
    else
      match self.rekeyBatch crypto unsent with
      | (self, .error e) => (if armed then self.fail else self, .error e)
      | (self, .ok unsent) =>
        let plaintext := filled.take maxPlaintextLen
        match self.records.sealRecord crypto .applicationData plaintext with
        | .error e => (if armed then self.fail else self, .error (.record e))
        | .ok (records, record) =>
          batchLoop slots (self.noteSeal .applicationData plaintext record records) true (unsent ++ record)
            (filled.drop maxPlaintextLen)

def writeFilledBatch (filled : Bytes) : TlsApplicationWriter S K × Except TlsApplicationIoError Unit :=
  match self.records.ensureWriteReady with
  | .error e => (self, .error (.record e))
  | .ok () => batchLoop crypto batchedSlotCount self false [] filled

def takeWriteStorage : TlsApplicationWriter S K := { self with capacity := 0 }

/-- Seal one or two slots that the caller filled in storage of its own, of `storageLen` bytes. -/
def writeFilledStorage (storageLen : Nat) (plaintext : Bytes) :
    TlsApplicationWriter S K × Except TlsApplicationIoError Unit :=
  let slots := (plaintext.length + (maxPlaintextLen - 1)) / maxPlaintextLen
  if slots = 0 ∨ slots > 2 ∨ storageLen < slots * recordSlotWireCapacity then (self, .error (.record .invalidLength))
  else
    match self.records.ensureWriteReady with
    | .error e => (self, .error (.record e))
    | .ok () => self.writeFilledBatch crypto plaintext

def growBatched (reader : ρ) (read : Nat) : TlsApplicationWriter S K × ρ × Except TlsApplicationIoError Nat :=
  if read = maxPlaintextLen then
    match self.reserve batchedWireCapacity with
    | (self, false) => (self, reader, .error (.record .bufferAllocation))
    | (self, true) => (self, reader, .ok read)
  else (self, reader, .ok read)

/-- Relay one read: a single record, or up to four once the storage has grown. -/
def writeApplicationReadFromBatched (reader : ρ) : TlsApplicationWriter S K × ρ × Except TlsApplicationIoError Nat :=
  match self.records.ensureWriteReady with
  | .error e => (self, reader, .error (.record e))
  | .ok () =>
    if self.capacity < batchedWireCapacity then
      match self.writeApplicationReadFrom crypto io reader with
      | (self, reader, .error e) => (self, reader, .error e)
      | (self, reader, .ok read) => self.growBatched reader read
    else
      match io.readVectored reader (List.replicate batchedSlotCount maxPlaintextLen) with
      | (reader, .error failure) => (self, reader, .error (.ofFailure failure))
      | (reader, .ok filled) =>
        if filled = [] then (self, reader, .ok 0)
        else
          match self.writeFilledBatch crypto filled with
          | (self, .error e) => (self, reader, .error e)
          | (self, .ok ()) => (self, reader, .ok filled.length)

end Relay

end TlsApplicationWriter

end RustReality.Tls
