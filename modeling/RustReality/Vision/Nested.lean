import RustReality.Lib.ReadBuffer
import RustReality.Tls.WriterSpec
import RustReality.Vision.Error

/-!
# Records inside the tunnel

The destination's bytes are cut into TLS records as long as they look like TLS (`next`), and a detector
watches the records for a complete TLS 1.3 ServerHello, which decides where the padding ends.
-/

namespace RustReality.Vision
open Net Tls

def nestedTlsHeaderSize : Nat := 5
def maxNestedTlsRecordSize : Nat := 2 ^ 14 + 2048
def nestedSocketBufferCapacity : Nat := 4 * (nestedTlsHeaderSize + maxNestedTlsRecordSize)

def headerByteAllowed (allowed : UInt8 → Bool) (byte : Option UInt8) : Bool := byte.all allowed

def couldBeTlsRecordHeader (bytes : Bytes) : Bool :=
  headerByteAllowed (fun b => 20 ≤ b && b ≤ 23) bytes[0]? && headerByteAllowed (· == 3) bytes[1]? &&
    headerByteAllowed (· ≤ 4) bytes[2]?

inductive NestedRead
  | eof
  | record (bytes : Bytes)
  | unframed (bytes : Bytes)
  deriving DecidableEq, Repr

structure NestedRecordReader where
  io : Source
  buffer : ReadBuffer
  /-- The allocator's answers to growth requests, granted once they run out. -/
  heap : List Bool

namespace NestedRecordReader

def new (io : Source) (heap : List Bool) : NestedRecordReader := ⟨io, .fresh 0, heap⟩

variable (self : NestedRecordReader)

def grant : NestedRecordReader × Bool :=
  match self.heap with
  | [] => (self, true)
  | granted :: heap => ({ self with heap }, granted)

def allocate : NestedRecordReader × Except VisionSessionError Unit :=
  if self.buffer.storage = [] then
    match self.grant with
    | (self, false) => (self, .error .allocationFailed)
    | (self, true) => ({ self with buffer := .fresh nestedSocketBufferCapacity }, .ok ())
  else (self, .ok ())

def compact (self : NestedRecordReader) : NestedRecordReader :=
  if self.buffer.start = self.buffer.stop then { self with buffer := self.buffer.rewind }
  else if self.buffer.room < nestedTlsHeaderSize + maxNestedTlsRecordSize then
    { self with buffer := self.buffer.compact }
  else self

def grow (self : NestedRecordReader) : NestedRecordReader × Except VisionSessionError Unit :=
  if self.buffer.stop = self.buffer.storage.length then
    match self.grant with
    | (self, false) => (self, .error .allocationFailed)
    | (self, true) => ({ self with buffer := self.buffer.grow nestedSocketBufferCapacity }, .ok ())
  else (self, .ok ())

/-- Read once behind the held bytes; the result is false at the end of the stream. -/
def fetch : NestedRecordReader × Except VisionSessionError Bool :=
  match self.io.read self.buffer.room with
  | (io, .error failure) => ({ self with io }, .error (idleFailure failure))
  | (io, .ok chunk) =>
    if chunk = [] then ({ self with io }, .ok false)
    else ({ self with io, buffer := self.buffer.push chunk }, .ok true)

def refill : NestedRecordReader × Except VisionSessionError Bool :=
  match self.allocate with
  | (self, .error e) => (self, .error e)
  | (self, .ok ()) =>
    match self.compact.grow with
    | (self, .error e) => (self, .error e)
    | (self, .ok ()) => self.fetch

def release : NestedRecordReader × NestedRead :=
  ({ self with buffer := self.buffer.consume self.buffer.held.length }, .unframed self.buffer.held)

/-- Read until a header is held. Bytes that cannot be TLS are given out at once, and so is what is
held when the stream ends. -/
def seekHeader : Nat → NestedRecordReader → NestedRecordReader × Except VisionSessionError (Option NestedRead)
  | 0, self => (self, .ok none)
  | fuel + 1, self =>
    if self.buffer.held.length < nestedTlsHeaderSize then
      if couldBeTlsRecordHeader self.buffer.held then
        match self.refill with
        | (self, .error e) => (self, .error e)
        | (self, .ok true) => seekHeader fuel self
        | (self, .ok false) =>
          if self.buffer.held = [] then (self, .ok (some .eof))
          else
            let (self, read) := self.release
            (self, .ok (some read))
      else
        let (self, read) := self.release
        (self, .ok (some read))
    else (self, .ok none)

/-- Read until a record of `size` bytes is held. -/
def fillRecord (size : Nat) : Nat → NestedRecordReader → NestedRecordReader × Except VisionSessionError Unit
  | 0, self => (self, .ok ())
  | fuel + 1, self =>
    if self.buffer.held.length < size then
      match self.refill with
      | (self, .error e) => (self, .error e)
      | (self, .ok true) => fillRecord size fuel self
      | (self, .ok false) => (self, .error .destinationTruncatedTlsRecord)
    else (self, .ok ())

def nextRecord : NestedRecordReader × Except VisionSessionError NestedRead :=
  let header := self.buffer.held.take nestedTlsHeaderSize
  if !couldBeTlsRecordHeader header || bodyLen header > maxNestedTlsRecordSize then
    ({ self with buffer := self.buffer.consume nestedTlsHeaderSize }, .ok (.unframed header))
  else
    let size := nestedTlsHeaderSize + bodyLen header
    match fillRecord size size self with
    | (self, .error e) => (self, .error e)
    | (self, .ok ()) =>
      ({ self with buffer := self.buffer.consume size }, .ok (.record (self.buffer.held.take size)))

def next : NestedRecordReader × Except VisionSessionError NestedRead :=
  match seekHeader nestedTlsHeaderSize self with
  | (self, .error e) => (self, .error e)
  | (self, .ok (some read)) => (self, .ok read)
  | (self, .ok none) => self.nextRecord

def intoInnerWithPending : Bytes × Source := (self.buffer.held, self.io)

def read (self : NestedRecordReader) (size : Nat) : NestedRecordReader × Except Failure Bytes :=
  if self.buffer.held = [] then
    let (io, outcome) := self.io.read size
    ({ self with io }, outcome)
  else ({ self with buffer := self.buffer.consume size }, .ok (self.buffer.held.take size))

/-- Held bytes fill the first buffer with room only; the socket fills the buffers in order. -/
def readVectored (sizes : List Nat) : NestedRecordReader × Except Failure Bytes :=
  if self.buffer.held = [] then
    let (io, outcome) := self.io.read sizes.sum
    ({ self with io }, outcome)
  else
    match sizes.find? (· ≠ 0) with
    | none => (self, .ok [])
    | some first => ({ self with buffer := self.buffer.consume first }, .ok (self.buffer.held.take first))

def vectored : VectoredRead NestedRecordReader := ⟨read, readVectored⟩

end NestedRecordReader

/-! ### The detector -/

def maxNestedServerHelloSize : Nat := 8 * 1024
def maxClassificationRecords : Nat := 8
def tlsHandshake : UInt8 := 22
def tlsApplicationData : UInt8 := 23
def tlsServerHello : UInt8 := 2
def tls13Version : Bytes := [3, 4]
def tlsAes128Ccm8Sha256 : Nat := 0x1305

/-- The bytes of `body` from `start` on, if all of them are there. -/
def field (body : Bytes) (start size : Nat) : Option Bytes :=
  if start + size ≤ body.length then some ((body.drop start).take size) else none

/-- Walk the extensions for the supported version; each turn takes at least four bytes. -/
def supportsTls13 : Nat → Bytes → Bool
  | 0, _ => false
  | fuel + 1, extensions =>
    if extensions.length < 4 then false
    else
      let extensionType := ofBe (extensions.take 2)
      let extensionLength := ofBe ((extensions.drop 2).take 2)
      match field (extensions.drop 4) 0 extensionLength with
      | none => false
      | some value =>
        if extensionType = 43 then value == tls13Version
        else supportsTls13 fuel (extensions.drop (4 + extensionLength))

def isTls13ServerHello (message : Bytes) : Bool :=
  if message.length < 4 then false
  else
    let body := message.drop 4
    (do
      let sessionIdLength ← body[34]?
      let cipherOffset := 35 + sessionIdLength.toNat
      let cipherSuite ← field body cipherOffset 2
      if ofBe cipherSuite = tlsAes128Ccm8Sha256 then none
      let lengthBytes ← field body (cipherOffset + 3) 2
      let extensions ← field body (cipherOffset + 5) (ofBe lengthBytes)
      if supportsTls13 extensions.length extensions then some () else none).isSome

inductive PaddingDecision
  | continue | end | direct
  deriving DecidableEq, Repr

structure NestedTlsDetector where
  recordsSeen : Nat
  serverHello : Bytes
  serverHelloLength : Option Nat
  tls13 : Option Bool
  heap : List Bool
  deriving DecidableEq, Repr

namespace NestedTlsDetector

def new (heap : List Bool) : NestedTlsDetector := ⟨0, [], none, none, heap⟩

variable (self : NestedTlsDetector)

def grant : NestedTlsDetector × Bool :=
  match self.heap with
  | [] => (self, true)
  | granted :: heap => ({ self with heap }, granted)

/-- Append bytes to the message; without storage the stream is not taken for TLS 1.3. -/
def collect (bytes : Bytes) : NestedTlsDetector :=
  match self.grant with
  | (self, false) => { self with tls13 := some false }
  | (self, true) => { self with serverHello := self.serverHello ++ bytes }

def extendServerHello (body : Bytes) (expected : Nat) : NestedTlsDetector :=
  self.collect (body.take (expected - self.serverHello.length))

def judge : NestedTlsDetector :=
  match self.serverHelloLength with
  | none => self
  | some expected =>
    if self.serverHello.length = expected then { self with tls13 := some (isTls13ServerHello self.serverHello) }
    else self

/-- The header of the message is complete: its length decides whether the rest is collected. -/
def declareLength (rest : Bytes) : NestedTlsDetector :=
  let total := ofBe (slice self.serverHello 1 4) + 4
  if total > maxNestedServerHelloSize then { self with tls13 := some false }
  else (extendServerHello { self with serverHelloLength := some total } rest total).judge

def observeServerHello (body : Bytes) : NestedTlsDetector :=
  match self.serverHelloLength with
  | some expected => (self.extendServerHello body expected).judge
  | none =>
    if self.serverHello = [] ∧ body[0]? ≠ some tlsServerHello then self
    else
      let headerBytes := min (4 - self.serverHello.length) body.length
      match self.grant with
      | (self, false) => { self with tls13 := some false }
      | (self, true) =>
        let self := { self with serverHello := self.serverHello ++ body.take headerBytes }
        if self.serverHello.length < 4 then self else self.declareLength (body.drop headerBytes)

def decision (contentType : Option UInt8) : PaddingDecision :=
  match self.tls13 with
  | some true => if contentType = some tlsApplicationData then .direct else .continue
  | some false => .end
  | none => if self.recordsSeen ≥ maxClassificationRecords then .end else .continue

def observe (record : Bytes) : NestedTlsDetector × PaddingDecision :=
  let self := { self with recordsSeen := min (self.recordsSeen + 1) 255 }
  let contentType := record[0]?
  let self :=
    if self.tls13 = none ∧ contentType = some tlsHandshake then
      self.observeServerHello (record.drop nestedTlsHeaderSize)
    else self
  (self, self.decision contentType)

end NestedTlsDetector

end RustReality.Vision
