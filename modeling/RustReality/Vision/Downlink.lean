import RustReality.Vision.Framing
import RustReality.Vision.Nested
import RustReality.Vision.Uplink

/-!
# The Vision downlink

The server opens with the response header and an empty frame, then frames the destination's records
until its detector ends the padding. Behind an End command the bytes go on inside TLS records
(`relayOuterDownlink`); behind a Direct command the bytes read ahead and the rest of the stream go to
the client raw, in a relay of their own or in one for the pair.
-/

namespace RustReality.Vision
open Vless (UserId)
open Net Tls Transport

variable {ρ S K : Type} (rng : PaddingRng ρ) (crypto : RecordCrypto S K)

/-! ### The framed phase -/

structure Downlink (ρ S K : Type) where
  destination : NestedRecordReader
  client : VisionWriter ρ S K
  detector : NestedTlsDetector
  bytes : Nat

inductive DownlinkStep
  | framed (bytes : Nat)
  | direct (bytes : Nat)
  deriving DecidableEq, Repr

def PaddingDecision.command : PaddingDecision → VisionCommand
  | .continue => .continue
  | .end => .end
  | .direct => .direct

namespace Downlink

/-- Relay the rest of the stream inside TLS records. Each turn takes bytes off the stream. -/
def outerLoop : Nat → Downlink ρ S K → Nat → Downlink ρ S K × Except VisionSessionError Nat
  | 0, self, _ => (self, .error .dropped)
  | fuel + 1, self, copied =>
    match self.client.writer.writeApplicationReadFromBatched crypto NestedRecordReader.vectored self.destination with
    | (writer, destination, .error e) =>
      ({ self with destination, client := { self.client with writer } }, .error (.tls e))
    | (writer, destination, .ok read) =>
      if read = 0 then
        match writer.shutdown crypto with
        | (writer, .error e) => ({ self with destination, client := { self.client with writer } }, .error (.tls e))
        | (writer, .ok ()) => ({ self with destination, client := { self.client with writer } }, .ok copied)
      else outerLoop fuel { self with destination, client := { self.client with writer } } (saturatingAdd copied read)

variable (self : Downlink ρ S K)

/-- `relay_outer_downlink` and the end of the framed phase behind it. -/
def relayOuterDownlink : Downlink ρ S K × Except VisionSessionError DownlinkStep :=
  match outerLoop crypto (self.destination.buffer.held.length + self.destination.io.bytes.length + 1) self 0 with
  | (self, .error e) => (self, .error e)
  | (self, .ok copied) => (self, .ok (.framed (saturatingAdd self.bytes copied)))

def closeDownlink : Downlink ρ S K × Except VisionSessionError DownlinkStep :=
  match self.client.writer.shutdown crypto with
  | (writer, .error e) => ({ self with client := { self.client with writer } }, .error (.tls e))
  | (writer, .ok ()) => ({ self with client := { self.client with writer } }, .ok (.framed self.bytes))

def frame (content : Bytes) (command : VisionCommand) (longPadding : Bool) :
    Downlink ρ S K × Except VisionSessionError Unit :=
  match self.client.writeVisionContent rng crypto content command longPadding with
  | (client, result) => ({ self with client, bytes := saturatingAdd self.bytes content.length }, result)

def relayUnframed (content : Bytes) : Downlink ρ S K × Except VisionSessionError DownlinkStep :=
  match self.frame rng crypto content .end false with
  | (self, .error e) => (self, .error e)
  | (self, .ok ()) => self.relayOuterDownlink crypto

def recordLoop : Nat → Downlink ρ S K → Downlink ρ S K × Except VisionSessionError DownlinkStep
  | 0, self => (self, .error .dropped)
  | fuel + 1, self =>
    match self.destination.next with
    | (destination, .error e) => ({ self with destination }, .error e)
    | (destination, .ok .eof) => closeDownlink crypto { self with destination }
    | (destination, .ok (.unframed content)) => relayUnframed rng crypto { self with destination } content
    | (destination, .ok (.record record)) =>
      let (detector, decision) := self.detector.observe record
      match frame rng crypto { self with destination, detector } record decision.command true with
      | (self, .error e) => (self, .error e)
      | (self, .ok ()) =>
        match decision with
        | .continue => recordLoop fuel self
        | .end => self.relayOuterDownlink crypto
        | .direct => (self, .ok (.direct self.bytes))

end Downlink

def writePreamble (self : VisionWriter ρ S K) : VisionWriter ρ S K × Except VisionSessionError Unit :=
  match self.encoder.plan rng 0 .continue true with
  | (encoder, .error e) => ({ self with encoder }, .error (.visionEncode e))
  | (encoder, .ok plan) =>
    match self.writer.writeAssembled crypto
      (responseHeader ++ encoder.assemble plan [] (List.replicate plan.wireLen 0)) with
    | (writer, .error e) => (⟨writer, encoder⟩, .error (.tls e))
    | (writer, .ok ()) => (⟨writer, encoder.commit plan⟩, .ok ())

/-- `relay_downlink_framed` with a seeded padding generator. -/
def relayDownlinkFramed (destination : NestedRecordReader) (writer : TlsApplicationWriter S K) (userId : UserId)
    (seed : ρ) (detectorHeap : List Bool) : Downlink ρ S K × Except VisionSessionError DownlinkStep :=
  match writePreamble rng crypto ⟨writer, .new userId seed⟩ with
  | (client, .error e) => (⟨destination, client, .new detectorHeap, 0⟩, .error e)
  | (client, .ok ()) =>
    Downlink.recordLoop rng crypto (destination.buffer.held.length + destination.io.bytes.length + 1)
      ⟨destination, client, .new detectorHeap, 0⟩

/-! ### The raw phase -/

/-- What the other direction of the session does, as far as the downlink meets it. -/
structure UplinkView where
  /-- Its state when the pair window closes; none if the session is dropped in the window. -/
  state : Option DirectionState
  /-- It has already deposited its halves then. -/
  deposited : Bool
  /-- Its halves in a pair relay: the client's read half and the destination's write half. -/
  halves : Source × Sink
  /-- It fails before it could run a pair relay. -/
  failure : Option VisionSessionError

structure DownRawEnv where
  pools : Pools
  uplink : UplinkView
  reunites : Bool
  upFirst : Bool

variable (env : DownRawEnv)

/-- A pair relay, whichever direction runs it: the downlink's sink afterwards and the outcome. -/
def runDownlinkPair (destination : Source) (client : Sink) (bytes : BoundaryBytes) :
    Sink × Except VisionSessionError DirectionStats :=
  if env.reunites then
    let (_, q, result) := runHandoff env.pools env.upFirst env.uplink.halves (destination, client) bytes
    (q.sink, result)
  else (client, .error .handoff)

def runDownlinkRaw (handoff : DirectHandoff) (destination : Source) (client : Sink)
    (bytes : BoundaryBytes) : Sink × Except VisionSessionError DirectionStats :=
  match handoff.decide .downlink with
  | .error e => (client, .error (.directTransition e))
  | .ok (_, .directional) =>
    let (p, result) := runDirectional env.pools destination client bytes
    (p.sink, result)
  | .ok (handoff, .pair) =>
    match handoff.deposit .downlink with
    | (_, true) => runDownlinkPair env destination client bytes
    | (_, false) =>
      -- the uplink deposits last and runs the relay, unless it fails first
      match env.uplink.failure with
      | some e => (client, .error e)
      | none => runDownlinkPair env destination client bytes

def finishDownlinkDirect (handoff : DirectHandoff) (destination : NestedRecordReader) (client : Sink)
    (bytes : Nat) : Sink × Except VisionSessionError DirectionStats :=
  match handoff.advance .downlink .directPending with
  | .error e => (client, .error (.directTransition e))
  | .ok handoff =>
    let (pending, rawDestination) := destination.intoInnerWithPending
    match drainPending client pending with
    | (client, .error failure) => (client, .error (idleFailure failure))
    | (client, .ok ()) =>
      match handoff.advance .downlink .rawReady with
      | .error e => (client, .error (.directTransition e))
      | .ok handoff =>
        match env.uplink.state with
        | none => (client, .error .dropped)
        | some peer =>
          let handoff := { handoff.setState .uplink peer with
            deposited := fun d => d = .uplink && env.uplink.deposited }
          runDownlinkRaw env handoff rawDestination client
            { total := saturatingAdd bytes pending.length, directAt := bytes }

/-! ### The whole direction -/

structure DownlinkInput (ρ S K : Type) where
  userId : UserId
  /-- The destination's stream, in the pieces its reads deliver. -/
  destination : Source
  writer : TlsApplicationWriter S K
  /-- The seed of the padding generator; none if the system has no entropy. -/
  seed : Option ρ
  readerHeap : List Bool
  detectorHeap : List Bool
  env : DownRawEnv

/-- `relay_downlink`: everything written to the client's socket, and the result. -/
def relayDownlink (input : DownlinkInput ρ S K) : Sink × Except VisionSessionError DirectionStats :=
  match input.seed with
  | none => (input.writer.io, .error (.visionEncode .entropyUnavailable))
  | some seed =>
    match relayDownlinkFramed rng crypto (.new input.destination input.readerHeap) input.writer input.userId seed
      input.detectorHeap with
    | (d, .error e) => (d.client.writer.io, .error e)
    | (d, .ok (.framed bytes)) => (d.client.writer.io, .ok (.ofFramed bytes))
    | (d, .ok (.direct bytes)) => finishDownlinkDirect input.env .new d.destination d.client.writer.io bytes

end RustReality.Vision
