import RustReality.Lib.Prog
import RustReality.Tls.HelloRead
import RustReality.Tls.Record

/-!
# Reading the server flight of a cover target

The flight is one program over two kinds of state. Over a `BufferedFlightReader` it is the reader of the
source, which refills a buffer from a socket and reads up to a record header too far. Over the bytes of
the whole stream (`streamOps`) it says what the flight is. The first simulates the second, so the cut of
the stream into reads cannot be seen, except by the probe for a session ticket at the end.
-/

namespace RustReality.Tls
open Prog Net

def tlsContentTypeChangeCipherSpec : UInt8 := 20
def coalescedCoverRecordThreshold : Nat := 512
def nstProbeScratchBytes : Nat := 512
def maxRetainedCoverPrefixLen : Nat := 66642

inductive CoverHandshakeRecordShape
  | coalesced (wireLen : Nat)
  | positionalRecords (wireLens : Vector Nat 4) (nstWireLen : Option Nat)
  deriving DecidableEq

structure CoverHandshakePlan where
  emitCcs : Bool
  shape : CoverHandshakeRecordShape
  deriving DecidableEq

/-- `E` is what the ServerHello parser reports. -/
inductive TargetServerHelloReadErrorKind (E : Type)
  | timeout
  | unexpectedEof
  | io (kind : ErrorKind)
  | recordTooLarge
  | unexpectedRecord
  | invalid (error : E)
  /-- The future was dropped while it waited for the socket. -/
  | dropped
  deriving DecidableEq

def TargetServerHelloReadErrorKind.ofStop {E : Type} : Option Failure → TargetServerHelloReadErrorKind E
  | none => .unexpectedEof
  | some .timeout | some .unarmed => .timeout
  | some (.io kind) => .io kind
  | some .dropped => .dropped

structure TargetServerHelloReadError (E : Type) where
  kind : TargetServerHelloReadErrorKind E
  wirePrefix : Bytes
  deriving DecidableEq

structure TargetServerFlightRead (T : Type) where
  template : T
  plan : CoverHandshakePlan
  wirePrefix : Bytes
  deriving DecidableEq

/-! ### The flight -/

variable {T E σ : Type}

/-- What the flight needs of the bytes it is read from. `readExactTo` is used for the ServerHello record,
where nothing is consumed yet, and `fill` behind it. -/
structure FlightOps (σ E : Type) where
  readExactTo : Nat → Prog σ (TargetServerHelloReadErrorKind E) Unit
  fill : Nat → Prog σ (TargetServerHelloReadErrorKind E) Unit
  /-- The bytes at hand from the consumed position on. -/
  unconsumed : σ → Bytes
  consume : Nat → σ → σ

namespace FlightOps

variable (ops : FlightOps σ E)

/-- The next `len` bytes at hand, or what there is of them. -/
def peek (len : Nat) : Prog σ (TargetServerHelloReadErrorKind E) Bytes := asks fun s => (ops.unconsumed s).take len

def header : Prog σ (TargetServerHelloReadErrorKind E) (UInt8 × Nat) := do
  let header ← ops.peek tlsRecordHeaderLen
  if header.length < tlsRecordHeaderLen then fail .unexpectedEof
  else if slice header 1 3 ≠ legacyRecordVersion then fail .unexpectedRecord
  else if declaredBodyLen header = 0 ∨ declaredBodyLen header > maxCiphertextLen then fail .recordTooLarge
  else return (header.getD 0 0, tlsRecordHeaderLen + declaredBodyLen header)

/-- Whether there is a compatibility record; the first encrypted record is left where it is. -/
def changeCipherSpec : Prog σ (TargetServerHelloReadErrorKind E) Bool := do
  ops.fill tlsRecordHeaderLen
  let (outerType, wireLen) ← ops.header
  if outerType = tlsContentTypeChangeCipherSpec then
    if wireLen ≠ tlsRecordHeaderLen + 1 then fail .unexpectedRecord
    else do
      ops.fill wireLen
      let record ← ops.peek wireLen
      if record.drop tlsRecordHeaderLen ≠ [1] then fail .unexpectedRecord
      else do
        modify (ops.consume wireLen)
        return true
  else if outerType = outerApplicationData then return false
  else fail .unexpectedRecord

def encryptedHeader : Prog σ (TargetServerHelloReadErrorKind E) Nat := do
  ops.fill tlsRecordHeaderLen
  let (outerType, wireLen) ← ops.header
  if outerType ≠ outerApplicationData then fail .unexpectedRecord else return wireLen

variable (parse : Bytes → Except E T)

/-- The ServerHello record; `parse` is the template parser with the client's offer. -/
def serverHello : Prog σ (TargetServerHelloReadErrorKind E) T := do
  ops.readExactTo tlsRecordHeaderLen
  let header ← ops.peek tlsRecordHeaderLen
  if header.length < tlsRecordHeaderLen then fail .unexpectedEof
  else if header.getD 0 0 ≠ tlsContentTypeHandshake ∨ slice header 1 3 ≠ legacyRecordVersion then
    fail .unexpectedRecord
  else if declaredBodyLen header = 0 ∨ declaredBodyLen header > maxTlsPlaintextBytes then fail .recordTooLarge
  else do
    let recordEnd := tlsRecordHeaderLen + declaredBodyLen header
    ops.readExactTo recordEnd
    let record ← ops.peek recordEnd
    match parse (record.drop tlsRecordHeaderLen) with
    | .error error => fail (.invalid error)
    | .ok template => do
      modify (ops.consume recordEnd)
      return template

def takeRecord (wireLen : Nat) : Prog σ (TargetServerHelloReadErrorKind E) Nat := do
  ops.fill wireLen
  modify (ops.consume wireLen)
  return wireLen

def nextRecord : Prog σ (TargetServerHelloReadErrorKind E) Nat := do
  let wireLen ← ops.encryptedHeader
  ops.takeRecord wireLen

def flight : Prog σ (TargetServerHelloReadErrorKind E) (T × CoverHandshakePlan) := do
  let template ← ops.serverHello parse
  let emitCcs ← ops.changeCipherSpec
  let firstWireLen ← ops.encryptedHeader
  if firstWireLen > coalescedCoverRecordThreshold then do
    ops.fill (tlsRecordHeaderLen + 1)
    modify (ops.consume (tlsRecordHeaderLen + 1))
    return (template, { emitCcs, shape := .coalesced firstWireLen })
  else do
    let first ← ops.takeRecord firstWireLen
    let second ← ops.nextRecord
    let third ← ops.nextRecord
    let fourth ← ops.nextRecord
    return (template, { emitCcs, shape := .positionalRecords #v[first, second, third, fourth] none })

end FlightOps

/-! ### The reader -/

structure BufferedFlightReader where
  io : Source
  buffer : Bytes
  consumed : Nat
  /-- The allocator's next answers; it grants once they are used up. -/
  heap : List Bool
  deriving DecidableEq

namespace BufferedFlightReader

def new (io : Source) (heap : List Bool) : BufferedFlightReader := ⟨io, [], 0, heap⟩

variable (self : BufferedFlightReader)

def grant : BufferedFlightReader × Bool :=
  match self.heap with
  | [] => (self, true)
  | answer :: heap => ({ self with heap }, answer)

theorem grant_spec (self : BufferedFlightReader) : ∃ heap answer, self.grant = ({ self with heap }, answer) ∧
    (answer = false → self.heap.head? = some false) ∧ (false ∉ self.heap → false ∉ heap) := by
  obtain ⟨io, buffer, consumed, heap⟩ := self
  match heap with
  | [] => exact ⟨[], true, rfl, fun hf => (nomatch hf), id⟩
  | answer :: heap => exact ⟨heap, answer, rfl, fun hf => by rw [hf]; rfl, fun ha hm => ha (.tail _ hm)⟩

def readExactTo (len : Nat) : Prog BufferedFlightReader (TargetServerHelloReadErrorKind E) Unit := fun self =>
  let target := self.consumed + len
  match if target > 512 then self.grant else (self, true) with
  | (self, false) => (self, .error .recordTooLarge)
  | (self, true) =>
    match self.io.readTo readScratchBytes self.buffer target with
    | (io, buffer, none) => ({ self with io, buffer }, .ok ())
    | (io, buffer, some stop) => ({ self with io, buffer }, .error (.ofStop stop))

/-- How much a refill asks for when the buffer has `len` bytes. -/
def refillLen (target len : Nat) : Nat :=
  min (min (target - len + tlsRecordHeaderLen) readScratchBytes) (maxRetainedCoverPrefixLen - len)

def fill (len : Nat) : Prog BufferedFlightReader (TargetServerHelloReadErrorKind E) Unit := fun self =>
  let target := self.consumed + len
  if target > maxRetainedCoverPrefixLen ∨ self.buffer.length > maxRetainedCoverPrefixLen then
    (self, .error .recordTooLarge)
  else if self.buffer.length ≥ target then (self, .ok ())
  else
    match self.grant with
    | (self, false) => (self, .error .recordTooLarge)
    | (self, true) =>
      match self.io.readPast (refillLen target) self.buffer target with
      | (io, buffer, .full) => ({ self with io, buffer }, .ok ())
      | (io, buffer, .noRoom) => ({ self with io, buffer }, .error .recordTooLarge)
      | (io, buffer, .stopped why) => ({ self with io, buffer }, .error (.ofStop why))

def ops : FlightOps BufferedFlightReader E where
  readExactTo := readExactTo
  fill := fill
  unconsumed self := self.buffer.drop self.consumed
  consume len self := { self with consumed := self.consumed + len }

def ticketWireLen (header : Bytes) : Except (TargetServerHelloReadErrorKind E) (Option Nat) :=
  if header.length < tlsRecordHeaderLen then .ok none
  else if header.getD 0 0 ≠ outerApplicationData ∨ slice header 1 3 ≠ legacyRecordVersion then .ok none
  else if declaredBodyLen header = 0 ∨ declaredBodyLen header > maxCiphertextLen then .error .recordTooLarge
  else .ok (some (tlsRecordHeaderLen + declaredBodyLen header))

/-- One read that does not wait; `ready` says whether the socket has anything to answer. -/
def tryReadNow (ready : Bool) (requestLen : Nat) : BufferedFlightReader × Bytes :=
  if !ready then (self, [])
  else
    match self.io.read requestLen with
    | (io, .ok bytes) => ({ self with io }, bytes)
    | (io, .error _) => ({ self with io }, [])

def probeSessionTicket (ready : Bool) : Prog BufferedFlightReader (TargetServerHelloReadErrorKind E) (Option Nat) :=
  fun self =>
    if self.buffer.length - self.consumed < tlsRecordHeaderLen then
      if self.buffer.length ≥ maxRetainedCoverPrefixLen then (self, .error .recordTooLarge)
      else
        match self.tryReadNow ready (min nstProbeScratchBytes (maxRetainedCoverPrefixLen - self.buffer.length)) with
        | (self, []) => (self, ticketWireLen ((self.buffer.drop self.consumed).take tlsRecordHeaderLen))
        | (self, first :: more) =>
          -- The bytes are off the socket before storage for them is asked for.
          match self.grant with
          | (self, false) => (self, .error .recordTooLarge)
          | (self, true) =>
            let self := { self with buffer := self.buffer ++ first :: more }
            (self, ticketWireLen ((self.buffer.drop self.consumed).take tlsRecordHeaderLen))
    else (self, ticketWireLen ((self.buffer.drop self.consumed).take tlsRecordHeaderLen))

end BufferedFlightReader

abbrev CoverOutcome (T E : Type) := Except (TargetServerHelloReadError E) (TargetServerFlightRead T)

def coverPrefix : CoverOutcome T E → Bytes
  | .ok read => read.wirePrefix
  | .error error => error.wirePrefix

/-- `armed` says whether the deadline can be represented. -/
def readTargetServerFlight (parse : Bytes → Except E T) (armed ready : Bool) (source : Source) (heap : List Bool) :
    Source × CoverOutcome T E :=
  if !armed then (source, .error ⟨.timeout, []⟩)
  else
    match BufferedFlightReader.ops.flight parse (.new source heap) with
    | (flight, .error kind) => (flight.io, .error ⟨kind, flight.buffer⟩)
    | (flight, .ok (template, plan)) =>
      match plan.shape with
      | .coalesced _ => (flight.io, .ok ⟨template, plan, flight.buffer⟩)
      | .positionalRecords wireLens _ =>
        match flight.probeSessionTicket ready with
        | (flight, .error kind) => (flight.io, .error ⟨kind, flight.buffer⟩)
        | (flight, .ok nstWireLen) =>
          (flight.io, .ok ⟨template, { plan with shape := .positionalRecords wireLens nstWireLen }, flight.buffer⟩)

/-! ### The flight on the stream -/

/-- Bytes of a stream that ends this way are there, or the reason why not. -/
def need (ending : Option Failure) (len : Nat) : Prog Bytes (TargetServerHelloReadErrorKind E) Unit := fun rest =>
  if rest.length < len then (rest, .error (.ofStop ending)) else (rest, .ok ())

def streamOps (ending : Option Failure) : FlightOps Bytes E where
  readExactTo := need ending
  fill := need ending
  unconsumed rest := rest
  consume len rest := rest.drop len

/-- The longest flight: ServerHello, compatibility record, a first record up to the threshold, three more. -/
def maxFlightLen : Nat :=
  tlsRecordHeaderLen + maxTlsPlaintextBytes + (tlsRecordHeaderLen + 1) + coalescedCoverRecordThreshold +
    3 * maxTlsRecordWireLen

theorem maxRetainedCoverPrefixLen_eq :
    maxRetainedCoverPrefixLen = maxFlightLen + tlsRecordHeaderLen + nstProbeScratchBytes := rfl

/-- Where the reader is in the stream: `rest` of it is not consumed, `held` bytes of that are in the buffer
and at most `excess`, and `budget` more can be consumed within the longest flight. -/
structure FlightAt (source : Source) (heap : List Bool) (budget excess held : Nat) (rest : Bytes) (f : BufferedFlightReader) :
    Prop where
  stream_eq : f.buffer ++ f.io.stream = source.stream
  bytes_eq : f.buffer ++ f.io.bytes = source.bytes
  ending_eq : f.io.ending = source.ending
  rest_eq : rest = source.bytes.drop f.consumed
  held_le : f.consumed + held ≤ f.buffer.length
  room : f.consumed + budget ≤ maxFlightLen
  excess_ge : f.buffer.length ≤ f.consumed + excess
  grants : false ∉ heap → false ∉ f.heap

structure FlightStopped (source : Source) (f : BufferedFlightReader) : Prop where
  stream_eq : f.buffer ++ f.io.stream = source.stream
  bounded : f.buffer.length ≤ maxRetainedCoverPrefixLen

def Refused (heap : List Bool) (kind : TargetServerHelloReadErrorKind E) : Prop := false ∈ heap ∧ kind = .recordTooLarge

variable {len : Nat}

namespace FlightAt

variable {source : Source} {heap : List Bool} {budget excess held : Nat} {rest : Bytes} {f : BufferedFlightReader}

theorem weaken {budget' excess' held' : Nat} (h : FlightAt source heap budget excess held rest f) (hb : budget' ≤ budget)
    (he : excess ≤ excess') (hh : held' ≤ held) : FlightAt source heap budget' excess' held' rest f where
  __ := h
  held_le := by have := h.held_le; omega
  room := by have := h.room; omega
  excess_ge := by have := h.excess_ge; omega

theorem stopped (h : FlightAt source heap budget excess held rest f) (he : excess ≤ budget + 517) : FlightStopped source f where
  stream_eq := h.stream_eq
  bounded := by
    have hr := h.room
    have hl := h.excess_ge
    rw [maxRetainedCoverPrefixLen_eq, tlsRecordHeaderLen, nstProbeScratchBytes]
    omega

theorem length_rest (h : FlightAt source heap budget excess held rest f) :
    f.consumed + rest.length = f.buffer.length + f.io.bytes.length := by
  have hh := h.held_le
  rw [h.rest_eq, ← h.bytes_eq, List.length_drop, List.length_append]
  omega

theorem unconsumed_take (h : FlightAt source heap budget excess held rest f) (hl : len ≤ held) :
    (f.buffer.drop f.consumed).take len = rest.take len := by
  have hh := h.held_le
  rw [h.rest_eq, ← h.bytes_eq, List.drop_append, List.take_append_of_le_length]
  rw [List.length_drop]
  omega

theorem grant (h : FlightAt source heap budget excess held rest f) :
    FlightAt source heap budget excess held rest f.grant.1 ∧ f.grant.1.buffer = f.buffer ∧ f.grant.1.consumed = f.consumed ∧
      (f.grant.2 = false → false ∈ heap) := by
  obtain ⟨answers, answer, hg, hr, hk⟩ := f.grant_spec
  rw [hg]
  refine ⟨{ h with grants := fun ha => hk (h.grants ha) }, rfl, rfl, fun hf => ?_⟩
  exact by_contra fun ha => h.grants ha (List.mem_of_mem_head? (hr hf))

theorem took {excess' held' : Nat} {io' : Source} {taken : Bytes} (h : FlightAt source heap budget excess held rest f)
    (hb : f.io.bytes = taken ++ io'.bytes) (hend : io'.ending = f.io.ending) (hs : f.io.stream = taken ++ io'.stream)
    (hh : f.consumed + held' ≤ f.buffer.length + taken.length)
    (he : f.buffer.length + taken.length ≤ f.consumed + excess') :
    FlightAt source heap budget excess' held' rest { f with io := io', buffer := f.buffer ++ taken } where
  stream_eq := by rw [← h.stream_eq, hs, List.append_assoc]
  bytes_eq := by rw [← h.bytes_eq, hb, List.append_assoc]
  ending_eq := hend.trans h.ending_eq
  rest_eq := h.rest_eq
  held_le := by rw [List.length_append]; exact hh
  room := h.room
  excess_ge := by rw [List.length_append]; exact he
  grants := h.grants

theorem ranDry {io' : Source} (h : FlightAt source heap budget excess held rest f)
    (hl : f.buffer.length + f.io.bytes.length < f.consumed + len) (hb : len ≤ budget)
    (hs : f.io.stream = f.io.bytes ++ io'.stream) :
    FlightStopped source { f with io := io', buffer := f.buffer ++ f.io.bytes } where
  stream_eq := by rw [← h.stream_eq, hs, List.append_assoc]
  bounded := by
    have hr := h.room
    rw [List.length_append, maxRetainedCoverPrefixLen_eq]
    omega

end FlightAt

section

variable {source : Source} {heap : List Bool} {budget excess held : Nat} {α : Type}

open Prog BufferedFlightReader

/-- The reader does on its buffer and socket what the flight does on the stream. -/
abbrev Follows (source : Source) (heap : List Bool) (I : Bytes → BufferedFlightReader → Prop)
    (m : Prog BufferedFlightReader (TargetServerHelloReadErrorKind E) α)
    (spec : Prog Bytes (TargetServerHelloReadErrorKind E) α) (J : α → Bytes → BufferedFlightReader → Prop) : Prop :=
  Simulates I m spec J (FlightStopped source) (Refused heap)

theorem peek_follows (hl : len ≤ held) :
    Follows source heap (FlightAt source heap budget excess held) ((ops (E := E)).peek len)
      ((streamOps source.ending).peek len) (fun _ => FlightAt source heap budget excess held) := by
  intro rest f h
  exact ⟨rest, congrArg (fun bytes => (rest, Except.ok bytes)) (h.unconsumed_take hl).symm, h⟩

theorem consume_follows (hheld : len ≤ held) (hb : len ≤ budget) :
    Follows (E := E) source heap (FlightAt source heap budget excess held) (modify ((ops (E := E)).consume len))
      (modify ((streamOps (E := E) source.ending).consume len))
      (fun _ => FlightAt source heap (budget - len) (excess - len) (held - len)) := by
  intro rest f h
  have hl := h.held_le
  have hh := h.excess_ge
  have hr := h.room
  refine ⟨_, rfl, ?_⟩
  exact {
    stream_eq := h.stream_eq
    bytes_eq := h.bytes_eq
    ending_eq := h.ending_eq
    rest_eq := by rw [h.rest_eq]; exact List.drop_drop
    held_le := by dsimp only [ops]; omega
    room := by dsimp only [ops]; omega
    excess_ge := by dsimp only [ops]; omega
    grants := h.grants }

theorem refillLen_spec {target : Nat} (ht : target ≤ maxRetainedCoverPrefixLen) :
    ∀ n < target, 0 < refillLen target n ∧ refillLen target n ≤ target - n + tlsRecordHeaderLen := by
  intro n hn
  have hs : 0 < readScratchBytes := by decide
  rw [refillLen]
  omega

theorem fill_follows (hlen : len ≤ budget) (he : excess ≤ budget + 517) :
    Follows source heap (FlightAt source heap budget excess held) ((ops (E := E)).fill len) ((streamOps source.ending).fill len)
      (fun _ => FlightAt source heap budget (max excess (len + tlsRecordHeaderLen)) (max held len)) := by
  intro rest f h
  have ht : f.consumed + len ≤ maxRetainedCoverPrefixLen := by
    have hrm := h.room
    rw [maxRetainedCoverPrefixLen_eq]
    omega
  have hbo := (h.stopped he).bounded
  show Ends _ _ (fill len f)
  unfold fill
  dsimp only
  rw [if_neg (by omega)]
  by_cases hf : f.buffer.length ≥ f.consumed + len
  · have hrs := h.length_rest
    have hl := h.held_le
    have hh := h.excess_ge
    rw [if_pos hf]
    exact ⟨rest, if_neg (by omega), { h with held_le := by omega, excess_ge := by omega }⟩
  · rw [if_neg hf]
    obtain ⟨hgr, hbf, hc, hr⟩ := h.grant
    generalize f.grant = answered at hgr hbf hc hr ⊢
    obtain ⟨g, answer⟩ := answered
    dsimp only at hgr hbf hc hr
    have hrs := hgr.length_rest
    have hl := hgr.held_le
    have hh := hgr.excess_ge
    cases answer with
    | false => exact ⟨hgr.stopped he, .inr ⟨hr rfl, rfl⟩⟩
    | true =>
      dsimp only
      rw [← hc] at ht ⊢
      have hrd := Source.readPast_spec (refillLen_spec ht) g.io g.buffer
      generalize g.io.readPast (refillLen (g.consumed + len)) g.buffer (g.consumed + len) = result at hrd ⊢
      cases hrd with
      | full hb hen hs hre hm =>
        refine ⟨rest, if_neg ?_, hgr.took hb hen hs (by omega) (by omega)⟩
        rw [hb, List.length_append] at hrs
        omega
      | short hsh hs =>
        refine ⟨hgr.ranDry hsh hlen hs, .inl ?_⟩
        rw [hgr.ending_eq]
        exact congrArg Prod.snd (if_pos (by omega))

theorem readExactTo_follows (hl : len ≤ budget) (he : excess ≤ budget + 517) :
    Follows source heap (FlightAt source heap budget excess held) ((ops (E := E)).readExactTo len)
      ((streamOps source.ending).readExactTo len)
      (fun _ => FlightAt source heap budget (max excess len) (max held len)) := by
  intro rest f h
  show Ends _ _ (readExactTo len f)
  unfold readExactTo
  dsimp only
  obtain ⟨g, answer, ha, hgr, hbf, hc, hrf⟩ : ∃ g answer,
      (if f.consumed + len > 512 then f.grant else (f, true)) = (g, answer) ∧
        FlightAt source heap budget excess held rest g ∧ g.buffer = f.buffer ∧ g.consumed = f.consumed ∧
        (answer = false → false ∈ heap) := by
    split_ifs
    · exact ⟨_, _, rfl, h.grant⟩
    · exact ⟨_, _, rfl, h, rfl, rfl, fun hf => by cases hf⟩
  rw [ha]
  have hrs := hgr.length_rest
  have hlw := hgr.held_le
  have hh := hgr.excess_ge
  cases answer with
  | false => exact ⟨hgr.stopped he, .inr ⟨hrf rfl, rfl⟩⟩
  | true =>
    dsimp only
    rw [← hc]
    have hr := Source.readTo_spec (show 0 < readScratchBytes by decide) g.io g.buffer (g.consumed + len)
    generalize g.io.readTo readScratchBytes g.buffer (g.consumed + len) = result at hr ⊢
    cases hr with
    | full hre hb hen hs =>
      refine ⟨rest, if_neg (by omega), hgr.took ?_ hen hs ?_ ?_⟩
      · rw [hb, List.take_append_drop]
      · rw [List.length_take]
        omega
      · rw [List.length_take]
        omega
    | short hsh hs =>
      refine ⟨hgr.ranDry (by omega) hl hs, .inl ?_⟩
      rw [hgr.ending_eq]
      exact congrArg Prod.snd (if_pos (by omega))

/-- A record header was read: the buffer holds it, and the length it gives is one of a record. -/
def HeaderAt (source : Source) (heap : List Bool) (budget excess held wireLen : Nat) (rest : Bytes) (f : BufferedFlightReader) :
    Prop :=
  FlightAt source heap budget excess held rest f ∧ tlsRecordHeaderLen < wireLen ∧ wireLen ≤ maxTlsRecordWireLen

theorem header_follows (hh : tlsRecordHeaderLen ≤ held) (he : excess ≤ budget + 517) :
    Follows source heap (FlightAt source heap budget excess held) ((ops (E := E)).header) ((streamOps source.ending).header)
      (fun record => HeaderAt source heap budget excess held record.2) := by
  refine (peek_follows hh).bind fun header => ?_
  refine .ite (fun _ => .fail _ fun _ _ h => h.stopped he) fun _ => ?_
  refine .ite (fun _ => .fail _ fun _ _ h => h.stopped he) fun _ => ?_
  refine .ite (fun _ => .fail _ fun _ _ h => h.stopped he) fun hl => .pure _ fun _ _ h => ⟨h, ?_, ?_⟩
  · omega
  · show tlsRecordHeaderLen + declaredBodyLen header ≤ headerLen + maxCiphertextLen
    rw [show tlsRecordHeaderLen = headerLen from rfl]
    omega

def recordsBudget : Nat := coalescedCoverRecordThreshold + 3 * maxTlsRecordWireLen

theorem changeCipherSpec_follows :
    Follows source heap (FlightAt source heap (tlsRecordHeaderLen + 1 + recordsBudget) 0 0) ((ops (E := E)).changeCipherSpec)
      ((streamOps source.ending).changeCipherSpec) (fun _ => FlightAt source heap recordsBudget 10 0) := by
  have hh : tlsRecordHeaderLen = 5 := rfl
  refine (fill_follows (by omega) (by omega)).bind fun _ => ?_
  refine (header_follows (Nat.le_max_right _ _) (by omega)).bind fun record => ?_
  obtain ⟨outerType, wireLen⟩ := record
  refine .ite (fun _ => ?_) fun _ => .ite (fun _ => ?_) fun _ => ?_
  · refine .ite (fun _ => .fail _ fun _ _ h => h.1.stopped (by omega)) fun hl => ?_
    refine .given fun _ => (fill_follows (by omega) (by omega)).bind fun _ => ?_
    refine (peek_follows (Nat.le_max_right _ _)).bind fun record => ?_
    refine .ite (fun _ => .fail _ fun _ _ h => h.stopped (by omega)) fun _ => ?_
    refine (consume_follows (Nat.le_max_right _ _) (by omega)).bind fun _ => .pure _ fun _ _ h => ?_
    exact h.weaken (by omega) (by omega) (by omega)
  · exact .pure _ fun _ _ h => h.1.weaken (by omega) (by omega) (by omega)
  · exact .fail _ fun _ _ h => h.1.stopped (by omega)

theorem encryptedHeader_follows (hb : tlsRecordHeaderLen ≤ budget) (he : excess ≤ 10) :
    Follows source heap (FlightAt source heap budget excess 0) ((ops (E := E)).encryptedHeader)
      ((streamOps source.ending).encryptedHeader) (fun wireLen => HeaderAt source heap budget 10 0 wireLen) := by
  have hh : tlsRecordHeaderLen = 5 := rfl
  refine (fill_follows hb (by omega)).bind fun _ => ?_
  refine (header_follows (Nat.le_max_right _ _) (by omega)).bind fun record => ?_
  refine .ite (fun _ => .fail _ fun _ _ h => h.1.stopped (by omega)) fun _ => .pure _ fun _ _ h => ?_
  exact ⟨h.1.weaken (Nat.le_refl _) (by omega) (by omega), h.2⟩

theorem takeRecord_follows {wireLen : Nat} (hl : tlsRecordHeaderLen < wireLen) (hb : wireLen ≤ budget) :
    Follows source heap (FlightAt source heap budget 10 0) ((ops (E := E)).takeRecord wireLen)
      ((streamOps source.ending).takeRecord wireLen) (fun _ => FlightAt source heap (budget - wireLen) 5 0) := by
  have hh : tlsRecordHeaderLen = 5 := rfl
  refine (fill_follows hb (by omega)).bind fun _ => ?_
  refine (consume_follows (Nat.le_max_right _ _) hb).bind fun _ => .pure _ fun _ _ h => ?_
  exact h.weaken (Nat.le_refl _) (by omega) (by omega)

theorem nextRecord_follows (hb : maxTlsRecordWireLen ≤ budget) :
    Follows source heap (FlightAt source heap budget 5 0) ((ops (E := E)).nextRecord)
      ((streamOps source.ending).nextRecord) (fun _ => FlightAt source heap (budget - maxTlsRecordWireLen) 5 0) := by
  refine (encryptedHeader_follows (Nat.le_trans (by decide) hb) (by omega)).bind fun wireLen => .given fun hl => ?_
  refine (takeRecord_follows hl.1 (hl.2.trans hb)).weaken (fun _ _ h => h) fun _ _ _ h => ?_
  exact h.weaken (Nat.sub_le_sub_left hl.2 _) (Nat.le_refl _) (Nat.le_refl _)

variable (parse : Bytes → Except E T)

theorem serverHello_follows :
    Follows source heap (FlightAt source heap maxFlightLen 0 0) (ops.serverHello parse)
      ((streamOps source.ending).serverHello parse)
      (fun _ => FlightAt source heap (tlsRecordHeaderLen + 1 + recordsBudget) 0 0) := by
  have hh : tlsRecordHeaderLen = 5 := rfl
  have hp : maxTlsPlaintextBytes = 16384 := rfl
  have hb : tlsRecordHeaderLen + 1 + recordsBudget = 49736 := rfl
  have hf : maxFlightLen = 66125 := rfl
  refine (readExactTo_follows (by omega) (by omega)).bind fun _ => ?_
  refine (peek_follows (Nat.le_max_right _ _)).bind fun header => ?_
  refine .ite (fun _ => .fail _ fun _ _ h => h.stopped (by omega)) fun _ => ?_
  refine .ite (fun _ => .fail _ fun _ _ h => h.stopped (by omega)) fun _ => ?_
  refine .ite (fun _ => .fail _ fun _ _ h => h.stopped (by omega)) fun hl => ?_
  refine (readExactTo_follows (by omega) (by omega)).bind fun _ => ?_
  refine (peek_follows (Nat.le_max_right _ _)).bind fun record => ?_
  cases parse (record.drop tlsRecordHeaderLen) with
  | error error => exact .fail _ fun _ _ h => h.stopped (by omega)
  | ok template =>
    refine (consume_follows (Nat.le_max_right _ _) (by omega)).bind fun _ => .pure _ fun _ _ h => ?_
    exact h.weaken (by omega) (by omega) (by omega)

theorem flight_follows :
    Follows source heap (FlightAt source heap maxFlightLen 0 0) (ops.flight parse) ((streamOps source.ending).flight parse)
      (fun _ => FlightAt source heap 0 5 0) := by
  have hh : tlsRecordHeaderLen = 5 := rfl
  have hw : maxTlsRecordWireLen = 16406 := rfl
  have ht : coalescedCoverRecordThreshold = 512 := rfl
  have hb : recordsBudget = 49730 := rfl
  refine (serverHello_follows parse).bind fun template => changeCipherSpec_follows.bind fun emitCcs => ?_
  refine (encryptedHeader_follows (by omega) (by omega)).bind fun firstWireLen => .given fun hl => ?_
  refine .ite (fun _ => ?_) fun hf => ?_
  · refine (fill_follows (by omega) (by omega)).bind fun _ => ?_
    refine (consume_follows (Nat.le_max_right _ _) (by omega)).bind fun _ => .pure _ fun _ _ h => ?_
    exact h.weaken (by omega) (by omega) (by omega)
  · refine (takeRecord_follows hl.1 (by omega)).bind fun _ => ?_
    refine (nextRecord_follows (by omega)).bind fun _ => (nextRecord_follows (by omega)).bind fun _ => ?_
    refine (nextRecord_follows (by omega)).bind fun _ => .pure _ fun _ _ h => ?_
    exact h.weaken (Nat.zero_le _) (Nat.le_refl _) (Nat.le_refl _)

end

end RustReality.Tls
