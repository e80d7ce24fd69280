import RustReality.Tls.Record
import RustReality.Lib.Net

/-!
# The buffered TLS application reader

Complete records are parsed out of one socket buffer between two cursors and opened in place; a
refill moves available socket bytes behind the end cursor. Authenticated KeyUpdate messages are
reassembled here and change the read keys at a record boundary.
-/

namespace RustReality.Tls
open Net

def socketBufferCapacity : Nat := 4 * maxTlsRecordWireLen

inductive RecordReadErrorKind
  | timeout
  | unexpectedEof
  | io (kind : ErrorKind)
  | recordTooLarge
  deriving DecidableEq, Repr

inductive TlsApplicationIoError
  | timeout
  | read (kind : RecordReadErrorKind) (consumed : Bytes)
  | record (error : Tls13RecordError)
  | unexpectedContentType (contentType : ContentType)
  | invalidKeyUpdate
  | invalidAlert
  | peerAlert (level description : UInt8)
  | io (kind : ErrorKind)
  /-- The future was dropped while it waited for the socket. -/
  | dropped
  deriving DecidableEq, Repr

/-! ### KeyUpdate -/

inductive KeyUpdateRequest
  | notRequested | requested
  deriving DecidableEq, Repr

def keyUpdateMessageLen : Nat := 5
def keyUpdateHeader : Bytes := [24, 0, 0, 1]
def keyUpdateResponse : Bytes := keyUpdateHeader ++ [0]

def pushKeyUpdate (message fragment : Bytes) : Bytes × Except TlsApplicationIoError (Option KeyUpdateRequest) :=
  if fragment = [] then (message, .error .invalidKeyUpdate)
  else if message.length + fragment.length > keyUpdateMessageLen then (message, .error .invalidKeyUpdate)
  else
    let message := message ++ fragment
    if message.take keyUpdateHeader.length ≠ keyUpdateHeader.take message.length then
      (message, .error .invalidKeyUpdate)
    else if message.length < keyUpdateMessageLen then (message, .ok none)
    else
      if message.getD 4 0 = 0 then ([], .ok (some .notRequested))
      else if message.getD 4 0 = 1 then ([], .ok (some .requested))
      else ([], .error .invalidKeyUpdate)

inductive OpenedRecordOutcome
  | applicationData (plaintextLen : Nat)
  | control (keyUpdateRequested : Bool)
  deriving DecidableEq, Repr

variable {S K : Type} (crypto : RecordCrypto S K)

/-- What an authenticated record means; a completed KeyUpdate changes the keys. -/
def processOpenedRecord (records : Tls13RecordLayer S K) (keyUpdate : Bytes)
    (opened : Tls13RecordLayer.OpenedRecord) :
    Tls13RecordLayer S K × Bytes × Except TlsApplicationIoError OpenedRecordOutcome :=
  match opened.contentType with
  | .applicationData =>
    if keyUpdate ≠ [] then (records, keyUpdate, .error .invalidKeyUpdate)
    else (records, keyUpdate, .ok (.applicationData opened.plaintext.length))
  | .alert =>
    if keyUpdate ≠ [] then (records, keyUpdate, .error .invalidKeyUpdate)
    else
      match opened.plaintext with
      | [level, description] => (records, keyUpdate, .error (.peerAlert level description))
      | _ => (records, keyUpdate, .error .invalidAlert)
  | .handshake =>
    match pushKeyUpdate keyUpdate opened.plaintext with
    | (keyUpdate, .error e) => (records, keyUpdate, .error e)
    | (keyUpdate, .ok none) => (records, keyUpdate, .ok (.control false))
    | (keyUpdate, .ok (some request)) =>
      match records.updateTrafficSecret crypto with
      | .error e => (records, keyUpdate, .error (.record e))
      | .ok records => (records, keyUpdate, .ok (.control (request == .requested)))
  | .changeCipherSpec =>
    if keyUpdate = [] then (records, keyUpdate, .error (.unexpectedContentType .changeCipherSpec))
    else (records, keyUpdate, .error .invalidKeyUpdate)

/-! ### The reader -/

structure TlsApplicationReader (S K : Type) where
  io : Source
  records : Tls13RecordLayer S K
  socketBuffer : Bytes
  capacity : Nat
  bufferedStart : Nat
  bufferedEnd : Nat
  keyUpdate : Bytes
  /-- A requested KeyUpdate was authenticated; the writer answers it. -/
  responseObserved : Bool
  /-- The allocator's answers to growth requests, granted once they run out. -/
  heap : List Bool

namespace TlsApplicationReader

def new (io : Source) (records : Tls13RecordLayer S K) (pending : Bytes) (capacity : Nat)
    (heap : List Bool) : TlsApplicationReader S K :=
  { io, records, socketBuffer := pending, capacity, bufferedStart := 0, bufferedEnd := pending.length
    keyUpdate := [], responseObserved := false, heap }

structure Inv (r : TlsApplicationReader S K) : Prop where
  start_le : r.bufferedStart ≤ r.bufferedEnd
  end_le : r.bufferedEnd ≤ r.socketBuffer.length
  cap : r.socketBuffer.length ≤ r.capacity

variable (self : TlsApplicationReader S K)

def buffered : Bytes :=
  slice self.socketBuffer self.bufferedStart self.bufferedEnd

def grant : TlsApplicationReader S K × Bool :=
  match self.heap with
  | [] => (self, true)
  | granted :: heap => ({ self with heap }, granted)

def ensureSocketBuffer : TlsApplicationReader S K × Except TlsApplicationIoError Unit :=
  if self.capacity = 0 then
    match self.grant with
    | (self, false) => (self, .error (.record .bufferAllocation))
    | (self, true) =>
      ({ self with
        socketBuffer := List.replicate socketBufferCapacity 0
        capacity := socketBufferCapacity }, .ok ())
  else if self.socketBuffer = [] then
    ({ self with socketBuffer := List.replicate self.capacity 0 }, .ok ())
  else (self, .ok ())

/-- Move the buffered bytes to the front when the free tail cannot hold a record. -/
def compact : TlsApplicationReader S K :=
  if self.bufferedStart = self.bufferedEnd then { self with bufferedStart := 0, bufferedEnd := 0 }
  else if self.socketBuffer.length - self.bufferedEnd < maxTlsRecordWireLen then
    { self with
      socketBuffer := overwrite self.socketBuffer 0 self.buffered
      bufferedStart := 0
      bufferedEnd := self.bufferedEnd - self.bufferedStart }
  else self

def grow : TlsApplicationReader S K × Except TlsApplicationIoError Unit :=
  if self.bufferedEnd = self.socketBuffer.length then
    if socketBufferCapacity - self.socketBuffer.length = 0 then (self, .error (.record .invalidLength))
    else
      match self.grant with
      | (self, false) => (self, .error (.record .bufferAllocation))
      | (self, true) =>
        ({ self with
          socketBuffer := self.socketBuffer ++
            List.replicate (socketBufferCapacity - self.socketBuffer.length) 0
          capacity := max self.capacity socketBufferCapacity }, .ok ())
  else (self, .ok ())

/-- The error of a refill whose read failed, with the bytes of the record read so far. -/
def refillFailure (buffered : Bytes) : Failure → TlsApplicationIoError
  | .timeout => .read .timeout buffered
  | .unarmed => .timeout
  | .io kind => .read (.io kind) buffered
  | .dropped => .dropped

def fetch : TlsApplicationReader S K × Except TlsApplicationIoError Unit :=
  match self.io.read (self.socketBuffer.length - self.bufferedEnd) with
  | (io, .error failure) => ({ self with io }, .error (refillFailure self.buffered failure))
  | (io, .ok chunk) =>
    if chunk = [] then ({ self with io }, .error (.read .unexpectedEof self.buffered))
    else
      ({ self with
        io
        socketBuffer := overwrite self.socketBuffer self.bufferedEnd chunk
        bufferedEnd := self.bufferedEnd + chunk.length }, .ok ())

def refill : TlsApplicationReader S K × Except TlsApplicationIoError Unit :=
  match self.ensureSocketBuffer with
  | (self, .error e) => (self, .error e)
  | (self, .ok ()) =>
    match self.compact.grow with
    | (self, .error e) => (self, .error e)
    | (self, .ok ()) => self.fetch

/-- Refill until `need` bytes are buffered. -/
def fill (need : Nat) : Nat → TlsApplicationReader S K →
    TlsApplicationReader S K × Except TlsApplicationIoError Unit
  | 0, self => (self, .ok ())
  | fuel + 1, self =>
    if self.bufferedEnd - self.bufferedStart < need then
      match self.refill with
      | (self, .error e) => (self, .error e)
      | (self, .ok ()) => fill need fuel self
    else (self, .ok ())

/-- Open the record at the start cursor, of `recordLen` buffered bytes. -/
def openBuffered (recordLen : Nat) : TlsApplicationReader S K × Except TlsApplicationIoError Bytes :=
  let start := self.bufferedStart
  let record := slice self.socketBuffer start (start + recordLen)
  let (records, opened, result) := self.records.openInPlace crypto record
  let self := { self with
    records
    bufferedStart := start + recordLen
    socketBuffer := overwrite self.socketBuffer start opened }
  match result with
  | .error e => (self, .error (.record e))
  | .ok opened =>
    let (records, keyUpdate, outcome) := processOpenedRecord crypto self.records self.keyUpdate opened
    let self := { self with records, keyUpdate }
    match outcome with
    | .error e => (self, .error e)
    | .ok (.applicationData plaintextLen) =>
      (self, .ok (slice self.socketBuffer (start + headerLen) (start + headerLen + plaintextLen)))
    | .ok (.control requested) =>
      ({ self with responseObserved := self.responseObserved || requested }, .ok [])

def readApplication : TlsApplicationReader S K × Except TlsApplicationIoError Bytes :=
  match fill headerLen headerLen self with
  | (self, .error e) => (self, .error e)
  | (self, .ok ()) =>
    let header := slice self.socketBuffer self.bufferedStart (self.bufferedStart + headerLen)
    if bodyLen header = 0 ∨ bodyLen header > maxCiphertextLen then
      (self, .error (.read .recordTooLarge header))
    else
      match fill (headerLen + bodyLen header) (headerLen + bodyLen header) self with
      | (self, .error e) => (self, .error e)
      | (self, .ok ()) => self.openBuffered crypto (headerLen + bodyLen header)

/-- Whether a complete record is buffered; only its declared length is looked at. -/
def hasBufferedRecord : Bool :=
  let buffered := self.bufferedEnd - self.bufferedStart
  let header := slice self.socketBuffer self.bufferedStart (self.bufferedStart + headerLen)
  if buffered < headerLen then false else decide (buffered ≥ headerLen + bodyLen header)

def intoInnerWithPending : Bytes × Source := (self.buffered, self.io)

end TlsApplicationReader

end RustReality.Tls
