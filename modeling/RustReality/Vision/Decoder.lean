import RustReality.Lib.Mealy
import RustReality.Vless.Types

/-!
# The Vision padding decoder

The decoder strips padding blocks off a byte stream that arrives in arbitrary pieces. Its fields
hold a partial user id, a partial header and the content and padding still to come. `decodeLoop` is
the loop of `decode_inner` over the unread input; each turn (`decodeTurn`) consumes at least one byte
or finishes a frame, and `none` stands for a loop that has not ended within its fuel.
-/

namespace RustReality.Vision
open Vless (UserId)

def visionFrameSize : Nat := 8 * 1024

def uuidSize : Nat := 16

def headerSize : Nat := 5

inductive VisionCommand
  | continue | end | direct
  deriving DecidableEq, Repr

inductive VisionMode
  | framed | raw | direct
  deriving DecidableEq, Repr

inductive VisionDecodeError
  | userIdMismatch
  | unknownCommand (value : UInt8)
  | frameTooLarge (contentLength paddingLength : Nat)
  | allocationFailed
  | decoderFailed
  deriving DecidableEq, Repr

namespace VisionCommand

def toByte : VisionCommand → UInt8
  | .continue => 0
  | .end => 1
  | .direct => 2

def tryFrom (value : UInt8) : Except VisionDecodeError VisionCommand :=
  if value = 0 then .ok .continue
  else if value = 1 then .ok .end
  else if value = 2 then .ok .direct
  else .error (.unknownCommand value)

@[simp] theorem tryFrom_toByte (command : VisionCommand) : tryFrom command.toByte = .ok command := by
  cases command <;> rfl

def mode : VisionCommand → VisionMode
  | .continue => .framed
  | .end => .raw
  | .direct => .direct

end VisionCommand

/-- What the decoder hands out: the whole input fragment, or bytes staged in the output storage. -/
inductive VisionPayload
  | borrowed (input : Bytes)
  | staged
  deriving DecidableEq, Repr

structure VisionDecoder where
  userId : UserId
  firstFrame : Bool
  uuidRead : Nat
  header : Bytes
  headerRead : Nat
  contentRemaining : Nat
  paddingRemaining : Nat
  command : Option VisionCommand
  mode : VisionMode
  failed : Bool
  deriving DecidableEq, Repr

/-- The checks of `start_frame` on a complete header: command, content and padding length. -/
def readHeader (firstFrame : Bool) (header : Bytes) :
    Except VisionDecodeError (VisionCommand × Nat × Nat) := do
  let command ← VisionCommand.tryFrom (header.getD 0 0)
  let contentLength := ofBe [header.getD 1 0, header.getD 2 0]
  let paddingLength := ofBe [header.getD 3 0, header.getD 4 0]
  let prefixLength := headerSize + if firstFrame then uuidSize else 0
  if prefixLength + contentLength + paddingLength > visionFrameSize then
    throw (.frameTooLarge contentLength paddingLength)
  return (command, contentLength, paddingLength)

namespace VisionDecoder

def new (userId : UserId) : VisionDecoder :=
  { userId
    firstFrame := true
    uuidRead := 0
    header := List.replicate headerSize 0
    headerRead := 0
    contentRemaining := 0
    paddingRemaining := 0
    command := none
    mode := .framed
    failed := false }

variable (self : VisionDecoder)

def startFrame : Except VisionDecodeError VisionDecoder := do
  let (command, contentLength, paddingLength) ← readHeader self.firstFrame self.header
  return { self with
    command := some command
    contentRemaining := contentLength
    paddingRemaining := paddingLength }

def frameComplete : Bool :=
  self.headerRead == headerSize && self.contentRemaining == 0 && self.paddingRemaining == 0 &&
    self.command.isSome

def finishFrame : VisionDecoder :=
  match self.command with
  | none => self
  | some command =>
    { self with
      command := none
      mode := command.mode
      firstFrame := false
      headerRead := 0
      header := List.replicate headerSize 0 }

/-- What one turn of the decode loop does: go on after some bytes of the input, or leave the loop. -/
inductive Turn
  | next (self : VisionDecoder) (consumed : Nat) (emitted : Bytes)
  | leave (self : VisionDecoder) (emitted : Bytes) (result : Except VisionDecodeError Unit)

/-- The turns of the loop of `decode_inner` after a complete header: content, padding, end of frame. -/
def bodyTurn (input : Bytes) : Turn :=
  if self.contentRemaining > 0 then
    let count := min input.length self.contentRemaining
    .next { self with contentRemaining := self.contentRemaining - count } count (input.take count)
  else if self.paddingRemaining > 0 then
    let count := min input.length self.paddingRemaining
    .next { self with paddingRemaining := self.paddingRemaining - count } count []
  else if self.finishFrame.mode ≠ .framed then .leave self.finishFrame input (.ok ())
  else .next self.finishFrame 0 []

/-- One turn of the loop of `decode_inner`, on the unread input. -/
def decodeTurn (input : Bytes) : Turn :=
  if self.firstFrame && self.uuidRead < uuidSize then
    let count := min input.length (uuidSize - self.uuidRead)
    let expected := (self.userId.toList.drop self.uuidRead).take count
    if input.take count ≠ expected then .leave self [] (.error .userIdMismatch)
    else .next { self with uuidRead := self.uuidRead + count } count []
  else if self.headerRead < headerSize then
    let count := min input.length (headerSize - self.headerRead)
    let self := { self with
      header := overwrite self.header self.headerRead (input.take count)
      headerRead := self.headerRead + count }
    if self.headerRead = headerSize then
      match self.startFrame with
      | .error e => .leave self [] (.error e)
      | .ok self => .next self count []
    else .next self count []
  else self.bodyTurn input

/-- `while cursor < input.len()`. -/
def decodeLoop : Nat → VisionDecoder → Bytes → Bytes →
    Option (VisionDecoder × Bytes × Except VisionDecodeError Unit)
  | 0, _, _, _ => none
  | fuel + 1, self, input, output =>
    if input.isEmpty then some (self, output, .ok ())
    else
      match self.decodeTurn input with
      | .next self consumed emitted => decodeLoop fuel self (input.drop consumed) (output ++ emitted)
      | .leave self emitted result => some (self, output ++ emitted, result)

/-- `decode_inner`. The fuel is two turns a byte; `decodeLoop_spec` shows that the loop ends. -/
def decodeInner (input output : Bytes) : VisionDecoder × Bytes × Except VisionDecodeError VisionMode :=
  if self.mode ≠ .framed then (self, output ++ input, .ok self.mode)
  else
    match decodeLoop (2 * input.length + 1) self input output with
    | none => (self, output, .ok self.mode)
    | some (self, output, .error e) => (self, output, .error e)
    | some (self, output, .ok ()) =>
      let self := if self.frameComplete then self.finishFrame else self
      (self, output, .ok self.mode)

/-- `decode_append`; `reserved` is the allocator's answer to `try_reserve`. -/
def decodeAppend (reserved : Bool) (input output : Bytes) :
    VisionDecoder × Bytes × Except VisionDecodeError VisionMode :=
  if self.failed then (self, output, .error .decoderFailed)
  else if !reserved then ({ self with failed := true }, output, .error .allocationFailed)
  else
    match self.decodeInner input output with
    | (self, output, .error e) => ({ self with failed := true }, output, .error e)
    | (self, output, .ok mode) => (self, output, .ok mode)

/-- `decode`: the output is cleared first. -/
def decode (reserved : Bool) (input _output : Bytes) : VisionDecoder × Bytes × Except VisionDecodeError VisionMode :=
  self.decodeAppend reserved input []

def borrowing (stage : VisionDecoder → Bool → Bytes → Bytes →
      VisionDecoder × Bytes × Except VisionDecodeError VisionMode)
    (self : VisionDecoder) (reserved : Bool) (input output : Bytes) :
    VisionDecoder × Bytes × Except VisionDecodeError (VisionMode × VisionPayload) :=
  if !self.failed && self.mode ≠ .framed then (self, output, .ok (self.mode, .borrowed input))
  else
    let (self, output, result) := stage self reserved input output
    (self, output, result.map fun mode => (mode, .staged))

def decodeBorrowed := borrowing decode

def decodeBorrowedAppend := borrowing decodeAppend

end VisionDecoder

end RustReality.Vision
