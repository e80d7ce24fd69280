import RustReality.Vision.Error

/-!
# The Vision uplink

`relayUplinkFramed` decodes the client's records, stages the payload and flushes it to the destination
until the client closes or an authenticated Direct command ends the framing. `finishUplinkDirect` then
drains the ciphertext read ahead and moves the raw bytes, in a relay of its own or in one for the pair.
`session` puts the statistics of both directions together.
-/

namespace RustReality.Vision
open Vless (UserId)
open Net Tls Transport

def saturatingAdd (a b : Nat) : Nat := min (a + b) (2 ^ 64 - 1)

/-! ### The staging buffer -/

/-- A growable buffer with the allocator's answers: refused, or granted with some spare capacity. -/
structure Stage where
  bytes : Bytes
  capacity : Nat
  heap : List (Option Nat)

namespace Stage

def new (heap : List (Option Nat)) : Stage := ⟨[], 0, heap⟩

/-- `try_reserve` and `try_reserve_exact`: room for `additional` more bytes. -/
def tryReserve (self : Stage) (additional : Nat) : Stage × Bool :=
  if additional ≤ self.capacity - self.bytes.length then (self, true)
  else
    match self.heap with
    | [] => ({ self with capacity := self.bytes.length + additional }, true)
    | none :: heap => ({ self with heap }, false)
    | some spare :: heap => ({ self with capacity := self.bytes.length + additional + spare, heap }, true)

def extend (self : Stage) (content : Bytes) : Stage :=
  { self with
    bytes := self.bytes ++ content
    capacity := max self.capacity (self.bytes.length + content.length) }

end Stage

def uplinkStageCapacity : Nat := 4 * maxPlaintextLen

/-! ### The framed phase -/

variable {S K : Type} (crypto : RecordCrypto S K)

structure Uplink (S K : Type) where
  client : TlsApplicationReader S K
  destination : Sink
  decoder : VisionDecoder
  stage : Stage
  bytes : Nat

inductive UplinkStep
  | framed (bytes : Nat)
  | direct (bytes : Nat)
  deriving DecidableEq, Repr

namespace Uplink

variable (self : Uplink S K)

def flushUplink : Uplink S K × Except VisionSessionError Unit :=
  if self.stage.bytes = [] then (self, .ok ())
  else
    match self.destination.writeAll self.stage.bytes with
    | (destination, .error failure) => ({ self with destination }, .error (idleFailure failure))
    | (destination, .ok ()) =>
      ({ self with
        destination
        bytes := saturatingAdd self.bytes self.stage.bytes.length
        stage := { self.stage with bytes := [] } }, .ok ())

/-- Make room for a record: a full stage is flushed and grows to the batched capacity. -/
def makeRoom (recordLen : Nat) : Uplink S K × Except VisionSessionError Unit :=
  if self.stage.bytes.length + recordLen > self.stage.capacity then
    match self.flushUplink with
    | (self, .error e) => (self, .error e)
    | (self, .ok ()) =>
      if self.stage.capacity < uplinkStageCapacity then
        match self.stage.tryReserve (uplinkStageCapacity - self.stage.capacity) with
        | (stage, true) => ({ self with stage }, .ok ())
        | (stage, false) => ({ self with stage }, .error .allocationFailed)
      else (self, .ok ())
  else (self, .ok ())

/-- Decode a fragment into the stage with `decode_append`. -/
def decodeInitial (initial : Bytes) : Uplink S K × Except VisionSessionError VisionMode :=
  let (stage, reserved) := self.stage.tryReserve initial.length
  match self.decoder.decodeAppend reserved initial stage.bytes with
  | (decoder, bytes, .error e) => ({ self with decoder, stage := { stage with bytes } }, .error (.visionDecode e))
  | (decoder, bytes, .ok mode) => ({ self with decoder, stage := { stage with bytes } }, .ok mode)

/-- Decode a record with `decode_borrowed_append`; borrowed content joins the stage. The decoder
reserves storage only when it stages. -/
def decodeRecord (record : Bytes) : Uplink S K × Except VisionSessionError VisionMode :=
  let (stage, reserved) :=
    if self.decoder.mode = .framed then self.stage.tryReserve record.length else (self.stage, true)
  match self.decoder.decodeBorrowedAppend reserved record stage.bytes with
  | (decoder, bytes, .error e) => ({ self with decoder, stage := { stage with bytes } }, .error (.visionDecode e))
  | (decoder, bytes, .ok (mode, .staged)) => ({ self with decoder, stage := { stage with bytes } }, .ok mode)
  | (decoder, bytes, .ok (mode, .borrowed content)) =>
    ({ self with decoder, stage := { stage with bytes }.extend content }, .ok mode)

def closeUplink : Uplink S K × Except VisionSessionError UplinkStep :=
  match self.flushUplink with
  | (self, .error e) => (self, .error e)
  | (self, .ok ()) =>
    match self.destination.shutdown with
    | (destination, .error failure) => ({ self with destination }, .error (idleFailure failure))
    | (destination, .ok ()) => ({ self with destination }, .ok (.framed self.bytes))

def stopDirect : Uplink S K × Except VisionSessionError UplinkStep :=
  match self.flushUplink with
  | (self, .error e) => (self, .error e)
  | (self, .ok ()) => (self, .ok (.direct self.bytes))

/-- A read failed; a close notification ends the direction normally. -/
def readFailed (e : TlsApplicationIoError) : Uplink S K × Except VisionSessionError UplinkStep :=
  match e with
  | .peerAlert level description =>
    if description = 0 then self.closeUplink else (self, .error (.tls (.peerAlert level description)))
  | e => (self, .error (.tls e))

def flushIdle : Uplink S K × Except VisionSessionError Unit :=
  if self.client.hasBufferedRecord then (self, .ok ()) else self.flushUplink

def stageRecord (record : Bytes) : Uplink S K × Except VisionSessionError VisionMode :=
  match self.makeRoom record.length with
  | (self, .error e) => (self, .error e)
  | (self, .ok ()) => self.decodeRecord record

def recordLoop : Nat → Uplink S K → Uplink S K × Except VisionSessionError UplinkStep
  | 0, self => (self, .error .dropped)
  | fuel + 1, self =>
    match self.flushIdle with
    | (self, .error e) => (self, .error e)
    | (self, .ok ()) =>
      match self.client.readApplication crypto with
      | (client, .error e) => readFailed { self with client } e
      | (client, .ok record) =>
        if record = [] then recordLoop fuel { self with client }
        else
          match stageRecord { self with client } record with
          | (self, .error e) => (self, .error e)
          | (self, .ok mode) => if mode = .direct then self.stopDirect else recordLoop fuel self

/-- The bytes still to come bound the turns of the record loop. -/
def relayRecords : Uplink S K × Except VisionSessionError UplinkStep :=
  recordLoop crypto (self.client.buffered.length + self.client.io.bytes.length + 1) self

def relayPrefetched (prefetched : Bytes) : Uplink S K × Except VisionSessionError VisionMode :=
  if prefetched = [] then (self, .ok .framed)
  else
    match self.decodeInitial prefetched with
    | (self, .error e) => (self, .error e)
    | (self, .ok mode) =>
      match self.flushUplink with
      | (self, .error e) => (self, .error e)
      | (self, .ok ()) => (self, .ok mode)

end Uplink

def relayUplinkFramed (client : TlsApplicationReader S K) (destination : Sink) (userId : UserId)
    (prefetched : Bytes) (heap : List (Option Nat)) : Uplink S K × Except VisionSessionError UplinkStep :=
  match (Stage.new heap).tryReserve maxPlaintextLen with
  | (stage, false) => (⟨client, destination, .new userId, stage, 0⟩, .error .allocationFailed)
  | (stage, true) =>
    match Uplink.relayPrefetched ⟨client, destination, .new userId, stage, 0⟩ prefetched with
    | (self, .error e) => (self, .error e)
    | (self, .ok mode) =>
      if mode = .direct then (self, .ok (.direct self.bytes)) else self.relayRecords crypto

/-! ### Statistics -/

structure DirectionStats where
  bytes : Nat
  direct : Bool
  handoff : Option RelayOutcome
  backend : Option RelayBackend
  directAtBytes : Nat
  deriving DecidableEq, Repr

namespace DirectionStats

def ofFramed (bytes : Nat) : DirectionStats := ⟨bytes, false, none, none, 0⟩

def ofDirect (bytes : Nat) (handoff : Option RelayOutcome) (backend : Option RelayBackend) (directAtBytes : Nat) :
    DirectionStats :=
  ⟨bytes, true, handoff, backend, directAtBytes⟩

end DirectionStats

structure VisionRelayStats where
  uplinkBytes : Nat
  downlinkBytes : Nat
  uplinkDirect : Bool
  downlinkDirect : Bool
  relayBackend : Option RelayBackend
  uplinkDirectAtBytes : Nat
  downlinkDirectAtBytes : Nat
  uplinkBackend : Option RelayBackend
  downlinkBackend : Option RelayBackend
  deriving DecidableEq, Repr

def sessionStats (uplink downlink : DirectionStats) : VisionRelayStats :=
  let handedOff := uplink.handoff.or downlink.handoff
  let pairBackend := handedOff.map RelayOutcome.backend
  { uplinkBytes := saturatingAdd uplink.bytes ((handedOff.map RelayOutcome.inboundToOutbound).getD 0)
    downlinkBytes := saturatingAdd downlink.bytes ((handedOff.map RelayOutcome.outboundToInbound).getD 0)
    uplinkDirect := uplink.direct
    downlinkDirect := downlink.direct
    relayBackend := pairBackend
    uplinkDirectAtBytes := uplink.directAtBytes
    downlinkDirectAtBytes := downlink.directAtBytes
    uplinkBackend := uplink.backend.or pairBackend
    downlinkBackend := downlink.backend.or pairBackend }

/-! ### The raw phase -/

/-- A raw-stage error that closes the direction instead of failing the session. -/
def isBenignTeardown : RelayError → Bool
  | .io .brokenPipe => true
  | .io .connectionReset => true
  | .io .timedOut => true
  | _ => false

structure BoundaryBytes where
  total : Nat
  directAt : Nat
  deriving DecidableEq, Repr

def runDirectional (pools : Pools) (source : Source) (destination : Sink) (bytes : BoundaryBytes) :
    Pump × Except VisionSessionError DirectionStats :=
  match relayDirection pools source destination with
  | (p, .ok outcome) =>
    (p, .ok (.ofDirect (saturatingAdd bytes.total outcome.bytes) none (some outcome.backend) bytes.directAt))
  | (p, .error e) =>
    if isBenignTeardown e then (p, .ok (.ofDirect bytes.total none none bytes.directAt))
    else (p, .error (.relay e))

/-- `run_handoff` of the direction that deposited last. -/
def runHandoff (pools : Pools) (upFirst : Bool) (up down : Source × Sink) (bytes : BoundaryBytes) :
    Pump × Pump × Except VisionSessionError DirectionStats :=
  match relayOwned pools false upFirst up down with
  | (p, q, .ok outcome) => (p, q, .ok (.ofDirect bytes.total (some outcome) (some outcome.backend) bytes.directAt))
  | (p, q, .error e) =>
    if isBenignTeardown e then (p, q, .ok (.ofDirect bytes.total none none bytes.directAt))
    else (p, q, .error (.relay e))

/-- What the other direction of the session does, as far as the uplink meets it. -/
structure DownlinkView where
  /-- Its state when the pair window closes; none if the session is dropped in the window. -/
  state : Option DirectionState
  /-- It has already deposited its halves then. -/
  deposited : Bool
  /-- Its halves in a pair relay: the destination's read half and the client's write half. -/
  halves : Source × Sink
  /-- Its own result, up to a pair relay it may still have to run. -/
  result : Except VisionSessionError DirectionStats

structure RawEnv where
  pools : Pools
  downlink : DownlinkView
  /-- The recovered halves belong to one socket each. -/
  reunites : Bool
  /-- In a pair relay the uplink's error comes first. -/
  upFirst : Bool

inductive UplinkOutcome
  | settled (destination : Sink) (result : Except VisionSessionError DirectionStats)
  /-- The halves wait for the downlink, which runs the pair relay. -/
  | deposited (client : Source) (destination : Sink) (stats : DirectionStats)

variable (env : RawEnv)

def runRaw (handoff : DirectHandoff) (client : Source) (destination : Sink) (bytes : BoundaryBytes) : UplinkOutcome :=
  match handoff.decide .uplink with
  | .error e => .settled destination (.error (.directTransition e))
  | .ok (_, .directional) =>
    let (p, result) := runDirectional env.pools client destination bytes
    .settled p.sink result
  | .ok (handoff, .pair) =>
    match handoff.deposit .uplink with
    | (_, false) => .deposited client destination (.ofDirect bytes.total none none bytes.directAt)
    | (_, true) =>
      if env.reunites then
        let (p, _, result) := runHandoff env.pools env.upFirst (client, destination) env.downlink.halves bytes
        .settled p.sink result
      else .settled destination (.error .handoff)

def drainPending (destination : Sink) (pending : Bytes) : Sink × Except Failure Unit :=
  if pending = [] then (destination, .ok ()) else destination.writeAll pending

def finishUplinkDirect (handoff : DirectHandoff) (client : TlsApplicationReader S K)
    (destination : Sink) (bytes : Nat) : UplinkOutcome :=
  match handoff.advance .uplink .directPending with
  | .error e => .settled destination (.error (.directTransition e))
  | .ok handoff =>
    let (pending, rawClient) := client.intoInnerWithPending
    match drainPending destination pending with
    | (destination, .error failure) => .settled destination (.error (idleFailure failure))
    | (destination, .ok ()) =>
      match handoff.advance .uplink .rawReady with
      | .error e => .settled destination (.error (.directTransition e))
      | .ok handoff =>
        match env.downlink.state with
        | none => .settled destination (.error .dropped)
        | some peer =>
          let handoff := { handoff.setState .downlink peer with
            deposited := fun d => d = .downlink && env.downlink.deposited }
          runRaw env handoff rawClient destination
            { total := saturatingAdd bytes pending.length, directAt := bytes }

/-! ### The session -/

structure UplinkInput (S K : Type) where
  userId : UserId
  prefetched : Bytes
  client : TlsApplicationReader S K
  client_inv : client.Inv
  /-- The destination's answers to writes. -/
  script : List WriteEvent
  /-- The allocator's answers to the staging buffer. -/
  heap : List (Option Nat)
  env : RawEnv

def relayUplink (input : UplinkInput S K) : UplinkOutcome :=
  match relayUplinkFramed crypto input.client (.fresh input.script) input.userId input.prefetched input.heap with
  | (u, .error e) => .settled u.destination (.error e)
  | (u, .ok (.framed bytes)) => .settled u.destination (.ok (.ofFramed bytes))
  | (u, .ok (.direct bytes)) => finishUplinkDirect input.env .new u.client u.destination bytes

/-- `join_directions` from the uplink's side: what the destination got, and the statistics of both
directions. A downlink that did not deposit last has no pair outcome of its own. -/
def joinDirections : UplinkOutcome → Sink × Except VisionSessionError VisionRelayStats
  | .settled destination (.error e) => (destination, .error e)
  | .settled destination (.ok uplink) =>
    (destination, env.downlink.result.map fun downlink => sessionStats uplink { downlink with handoff := none })
  | .deposited client destination uplink =>
    match env.downlink.result with
    | .error e => (destination, .error e)
    | .ok downlink =>
      if env.reunites then
        let (p, _, result) := runHandoff env.pools env.upFirst (client, destination) env.downlink.halves
          ⟨downlink.bytes, downlink.directAtBytes⟩
        (p.sink, result.map (sessionStats uplink))
      else (destination, .error .handoff)

def session (input : UplinkInput S K) : Sink × Except VisionSessionError VisionRelayStats :=
  joinDirections input.env (relayUplink crypto input)

end RustReality.Vision
