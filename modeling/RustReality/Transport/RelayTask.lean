import RustReality.Lib.Interleaving
import RustReality.Transport.Relay

/-!
# Raw relays that share their pools

`TcpRelay` keeps buffers and splice pipes from one relay to the next. Here a relay is a task that is suspended wherever
the source awaits: between two turns other relays use the pools, and at an await the task may be dropped. A pool gets
back what the source puts there: a buffer with the contents of its last use, a pipe unless its queue holds bytes or
cannot be inspected. A pipe of a dropped task is closed.

A pair relay has two lanes and a directional relay has one; the steps are the same.
-/

namespace RustReality.Transport
open Net Interleaving List

/-! ### Pools -/

structure Pipe where
  capacity : Capacity
  queued : Bytes

structure PipePool where
  /-- The pipe given back last comes first. -/
  free : List Pipe
  keep : Nat

/-- A hit takes a pipe as it lies in the pool. On a miss the descriptor budget and the kernel may refuse a new one. -/
def PipePool.take (pool : PipePool) (opened : Option Capacity) : PipePool × Option Pipe :=
  match pool.free with
  | pipe :: free => ({ pool with free }, some pipe)
  | [] => (pool, opened.map fun capacity => ⟨capacity, []⟩)

/-- `inspected` says whether `pending_input` could read the queue. -/
def PipePool.giveBack (pool : PipePool) (inspected : Bool) (pipe : Pipe) : PipePool :=
  let dirty := if inspected then decide (0 < pipe.queued.length) else true
  if dirty then pool
  else if pool.free.length < pool.keep then { pool with free := pipe :: pool.free }
  else pool

/-- Permits and descriptor units only decide whether a relay is admitted; the turns of a run answer for them. -/
structure SplicePool where
  pipes : Option PipePool

/-- One pipe of a relay: from the pool if there is one, else opened for this relay alone. -/
def SplicePool.take (splice : SplicePool) (opened : Option Capacity) : SplicePool × Option Pipe :=
  match splice.pipes with
  | some pool => (⟨some (pool.take opened).1⟩, (pool.take opened).2)
  | none => (splice, opened.map fun capacity => ⟨capacity, []⟩)

def SplicePool.giveBack (splice : SplicePool) (inspected : Bool) (pipe : Pipe) : SplicePool :=
  ⟨splice.pipes.map fun pool => pool.giveBack inspected pipe⟩

/-- A pooled buffer: its length is fixed, its contents are whatever it was last used for. -/
abbrev Buffer (size : Capacity) := { contents : Bytes // contents.length = size }

namespace Buffer
variable {size : Capacity}

def zeroed (size : Capacity) : Buffer size := ⟨List.replicate size 0, length_replicate⟩

def fill (buffer : Buffer size) (chunk : Bytes) : Buffer size :=
  ⟨(chunk ++ buffer.1.drop chunk.length).take size, by
    rw [length_take, length_append, length_drop, buffer.2]
    omega⟩

theorem take_fill (buffer : Buffer size) {chunk : Bytes} (h : chunk.length ≤ size) :
    (buffer.fill chunk).1.take chunk.length = chunk := by
  show ((chunk ++ buffer.1.drop chunk.length).take size).take chunk.length = chunk
  rw [take_take, Nat.min_eq_left h, take_left]

end Buffer

structure BufferPool (size : Capacity) where
  available : List (Buffer size)
  maxBuffers : Nat

namespace BufferPool
variable {size : Capacity}

def takeBuffer (pool : BufferPool size) (allocates : Bool) : BufferPool size × Option (Buffer size) :=
  match pool.available with
  | buffer :: available => ({ pool with available }, some buffer)
  | [] => (pool, if allocates then some (Buffer.zeroed size) else none)

def returnBuffer (pool : BufferPool size) (buffer : Buffer size) : BufferPool size :=
  if pool.available.length < pool.maxBuffers then { pool with available := buffer :: pool.available } else pool

/-- `acquire_pair` and `acquire_single` behind their permits: when an allocation fails, the buffers taken before it go
back. -/
def acquire (pool : BufferPool size) : List Bool → BufferPool size × Option (List (Buffer size))
  | [] => (pool, some [])
  | allocates :: more =>
    match pool.takeBuffer allocates with
    | (pool, none) => (pool, none)
    | (pool, some buffer) =>
      match pool.acquire more with
      | (pool, none) => (pool.returnBuffer buffer, none)
      | (pool, some buffers) => (pool, some (buffer :: buffers))

theorem acquire_length {pool pool' : BufferPool size} {answers : List Bool} {buffers : List (Buffer size)}
    (h : pool.acquire answers = (pool', some buffers)) : buffers.length = answers.length := by
  induction answers generalizing pool pool' buffers with
  | nil =>
    cases h
    rfl
  | cons allocates more ih =>
    unfold acquire at h
    rcases ht : pool.takeBuffer allocates with ⟨mid, _ | buffer⟩
    · simp only [ht] at h
      cases h
    · rcases hr : mid.acquire more with ⟨last, _ | rest⟩
      · simp only [ht, hr] at h
        cases h
      · simp only [ht, hr] at h
        cases h
        rw [length_cons, length_cons, ih hr]

end BufferPool

structure TcpRelay (size : Capacity) where
  buffers : BufferPool size
  splice : Option SplicePool

structure TcpRelayConfig where
  bufferBytes : Capacity
  maxPooledBuffers : Nat
  splice : Bool
  pipePool : Bool
  maxPooledPipes : Nat

def TcpRelay.new (config : TcpRelayConfig) : TcpRelay config.bufferBytes where
  buffers := ⟨[], config.maxPooledBuffers⟩
  splice := if config.splice then some ⟨if config.pipePool then some ⟨[], config.maxPooledPipes⟩ else none⟩ else none

/-! ### One direction -/

/-- Where the future of a direction is suspended, or how it ended. -/
inductive Stage
  /-- On the read, or the splice out of the source. -/
  | reading
  /-- On the write of what is left of a chunk. -/
  | copying (payload : Bytes)
  /-- On the splice out of the pipe, with the number of bytes still to go. -/
  | draining (pending : Nat)
  /-- On the shutdown of the destination. -/
  | closing
  | ended (result : Except RelayError Unit)

inductive Medium (size : Capacity)
  | buffer (buffer : Buffer size)
  | pipe (pipe : Pipe)

structure Lane (size : Capacity) where
  pump : Pump
  /-- What the bytes go through while a backend runs. -/
  medium : Option (Medium size)
  stage : Stage

/-- One write and its `record`: how many bytes the destination took, and what the write or the count failed with. -/
def Pump.offer (p : Pump) (payload : Bytes) : Pump × Nat × Except RelayError Unit :=
  match p.sink.write payload with
  | (sink, .error failure) => ({ p with sink }, 0, .error (.ofFailure failure))
  | (sink, .ok 0) => ({ p with sink }, 0, .error (.io .writeZero))
  | (sink, .ok (n + 1)) =>
    match addCount p.moved (n + 1) with
    | none => ({ p with sink }, n + 1, .error (.io .other))
    | some moved => ({ p with sink, moved }, n + 1, .ok ())

namespace Lane
variable {size : Capacity}

def fresh (ends : Source × Sink) : Lane size := ⟨⟨ends.1, ends.2, 0⟩, none, .reading⟩

/-- What the read of a chunk leads to; `store` is where a chunk goes. -/
def read (lane : Lane size) (sourceResetIsEof : Bool) (capacity : Nat) (store : Bytes → Medium size × Stage) : Lane size :=
  match lane.pump.source.read capacity with
  | (source, .error failure) =>
    let stage := if sourceResetIsEof && isPeerReset failure then .closing else .ended (.error (.ofFailure failure))
    { lane with pump := { lane.pump with source }, stage }
  | (source, .ok chunk) =>
    if chunk = [] then { lane with pump := { lane.pump with source }, stage := .closing }
    else ⟨{ lane.pump with source }, some (store chunk).1, (store chunk).2⟩

/-- The pending operation of a direction completes: `copy_direction` over a buffer, `splice_pump` and the shutdown after
it over a pipe. -/
def poll (sourceResetIsEof : Bool) (lane : Lane size) : Lane size :=
  match lane.medium, lane.stage with
  | some (.buffer buffer), .reading =>
    lane.read sourceResetIsEof size fun chunk =>
      (.buffer (buffer.fill chunk), .copying ((buffer.fill chunk).1.take chunk.length))
  | some (.pipe pipe), .reading =>
    lane.read sourceResetIsEof pipe.capacity fun chunk =>
      (.pipe { pipe with queued := pipe.queued ++ chunk }, .draining chunk.length)
  | some (.buffer _), .copying payload =>
    match lane.pump.offer payload with
    | (pump, _, .error e) => { lane with pump, stage := .ended (.error e) }
    | (pump, n, .ok ()) =>
      { lane with pump, stage := if payload.drop n = [] then .reading else .copying (payload.drop n) }
  | some (.pipe pipe), .draining pending =>
    match lane.pump.offer (pipe.queued.take pending) with
    | (pump, n, .error e) => ⟨pump, some (.pipe { pipe with queued := pipe.queued.drop n }), .ended (.error e)⟩
    | (pump, n, .ok ()) =>
      ⟨pump, some (.pipe { pipe with queued := pipe.queued.drop n }),
        if pending - n = 0 then .reading else .draining (pending - n)⟩
  | some _, .closing =>
    let (sink, result) := closeWrite sourceResetIsEof lane.pump.sink
    { lane with pump := { lane.pump with sink }, stage := .ended result }
  | _, _ => lane

variable (lane : Lane size)

def failure : Option RelayError :=
  match lane.stage with
  | .ended (.error e) => some e
  | _ => none

def finished : Bool :=
  match lane.stage with
  | .ended (.ok ()) => true
  | _ => false

def pipe? : Option Pipe :=
  match lane.medium with
  | some (.pipe pipe) => some pipe
  | _ => none

def buffer? : Option (Buffer size) :=
  match lane.medium with
  | some (.buffer buffer) => some buffer
  | _ => none

def release : Lane size := { lane with medium := none }

end Lane

/-! ### One relay -/

inductive BackendRequest
  | automatic
  | explicit (backend : RelayBackend)

/-- `selection_order`, and `directional_selection_order`, which is the same. -/
def selectionOrder : BackendRequest → List RelayBackend
  | .automatic => [.splice, .buffered]
  | .explicit .buffered => [.buffered]
  | .explicit .splice => [.splice, .buffered]

inductive RelayCall
  | owned (request : BackendRequest) (sourceResetIsEof : Bool) (uplink downlink : Source × Sink)
  | direction (request : BackendRequest) (lane : Source × Sink)

namespace RelayCall

def ends : RelayCall → List (Source × Sink)
  | .owned _ _ uplink downlink => [uplink, downlink]
  | .direction _ lane => [lane]

def order : RelayCall → List RelayBackend
  | .owned request _ _ _ => selectionOrder request
  | .direction request _ => selectionOrder request

def sourceResetIsEof : RelayCall → Bool
  | .owned _ sourceResetIsEof _ _ => sourceResetIsEof
  | .direction _ _ => false

end RelayCall

/-- `RelayOutcome` and `DirectionalRelayOutcome`: the ledger's count for each lane. -/
structure Completed where
  backend : RelayBackend
  counts : List Nat
  deriving DecidableEq, Repr

inductive Resume
  | decline (later : List RelayBackend)
  | finish (result : Except RelayError Completed)

inductive Phase
  /-- At the head of the backend loop. -/
  | trying (order : List RelayBackend)
  /-- Admitted to splice, with the pipes it has so far. -/
  | leasing (later : List RelayBackend) (pipes : List Pipe)
  /-- On the buffer permits. -/
  | waiting
  | running (backend : RelayBackend)
  | returning (pipes : List Pipe) (next : Resume)
  | ended (result : Except RelayError Completed)
  | dropped

structure Relay (size : Capacity) where
  sourceResetIsEof : Bool
  lanes : List (Lane size)
  phase : Phase

/-- What the scheduler and the environment decide about the next action of a relay. -/
inductive Turn
  /-- The loop goes to its next backend; splice has a permit left or not. -/
  | select (permit : Bool)
  | take (opened : Option Capacity)
  | acquire (allocates : Nat → Bool)
  | poll (lane : Nat)
  | giveBack (inspected : Bool)
  /-- The future of the relay is dropped. -/
  | cancel

namespace Relay
variable {size : Capacity}

def start (call : RelayCall) : Relay size where
  sourceResetIsEof := call.sourceResetIsEof
  lanes := call.ends.map Lane.fresh
  phase := .trying call.order

variable (relay : Relay size)

/-- `TransferLedger::is_untouched`; every backend starts with a ledger of its own. -/
def untouched : Bool := relay.lanes.all fun lane => lane.pump.moved == 0

/-- `TransferLedger::decline`, and the loop it returns to. -/
def decline (later : List RelayBackend) : Relay size :=
  { relay with phase := if relay.untouched then .trying later else .ended (.error (.io .other)) }

def launch (backend : RelayBackend) (media : List (Medium size)) : Relay size where
  sourceResetIsEof := relay.sourceResetIsEof
  lanes := List.zipWith (fun lane medium => { lane with medium := some medium }) relay.lanes media
  phase := .running backend

/-- How `try_join!` over the lanes stands: an error of one lane drops the others. -/
def joined (backend : RelayBackend) : Option (Except RelayError Completed) :=
  match relay.lanes.findSome? Lane.failure with
  | some e => some (.error (relayError relay.untouched e))
  | none =>
    if relay.lanes.all Lane.finished then some (.ok ⟨backend, relay.lanes.map fun lane => lane.pump.moved⟩) else none

end Relay

/-- The buffers of a relay go back to their pool when their lease is dropped. -/
def TcpRelay.reclaim {size : Capacity} (pools : TcpRelay size) (lanes : List (Lane size)) : TcpRelay size :=
  { pools with buffers := (lanes.filterMap Lane.buffer?).foldl BufferPool.returnBuffer pools.buffers }

namespace Relay
variable {size : Capacity} (relay : Relay size)

/-- The end of a backend: its buffers are back at once, its pipes are to be given back. -/
def conclude (result : Except RelayError Completed) : Relay size :=
  { relay with
    lanes := relay.lanes.map Lane.release
    phase := .returning (relay.lanes.filterMap Lane.pipe?) (.finish result) }

variable (pools : TcpRelay size)

/-- `run` and `relay_direction` at the head of their loop: splice is admitted or declines, the buffered backend waits for
its permits, and without a backend the relay fails. -/
def select (permit : Bool) : List RelayBackend → Relay size
  | [] => { relay with phase := .ended (.error (.io .other)) }
  | .splice :: later =>
    match pools.splice with
    | none => relay.decline later
    | some _ => if permit then { relay with phase := .leasing later [] } else relay.decline later
  | .buffered :: _ => { relay with phase := .waiting }

/-- `try_relay_pooled` and `try_relay_direction` up to their first await: a pipe for each lane, or none. -/
def lease (splice : SplicePool) (opened : Option Capacity) (later : List RelayBackend)
    (pipes : List Pipe) : SplicePool × Relay size :=
  match splice.take opened with
  | (splice, none) => (splice, { relay with phase := .returning pipes (.decline later) })
  | (splice, some pipe) =>
    let pipes := pipes ++ [pipe]
    (splice, if pipes.length = relay.lanes.length then relay.launch .splice (pipes.map .pipe)
      else { relay with phase := .leasing later pipes })

/-- `BufferPool::relay` and `relay_direction` behind their permits. -/
def acquire (relay : Relay size) (buffers : BufferPool size) (allocates : Nat → Bool) : BufferPool size × Relay size :=
  match buffers.acquire ((List.range relay.lanes.length).map allocates) with
  | (buffers, none) => (buffers, { relay with phase := .ended (.error (.io .other)) })
  | (buffers, some leased) => (buffers, relay.launch .buffered (leased.map .buffer))

def pollLane (i : Nat) : Relay size :=
  { relay with lanes := relay.lanes.modify i (Lane.poll relay.sourceResetIsEof) }

def advance (backend : RelayBackend) (i : Nat) : TcpRelay size × Relay size :=
  match (relay.pollLane i).joined backend with
  | none => (pools, relay.pollLane i)
  | some result => (pools.reclaim (relay.pollLane i).lanes, (relay.pollLane i).conclude result)

/-- The next pipe goes back; after the last one the relay declines or returns. -/
def settle (inspected : Bool) : List Pipe → Resume → TcpRelay size × Relay size
  | pipe :: pipes, next =>
    ({ pools with splice := pools.splice.map fun splice => splice.giveBack inspected pipe },
      { relay with phase := .returning pipes next })
  | [], .decline later => (pools, relay.decline later)
  | [], .finish result => (pools, { relay with phase := .ended result })

/-- Buffers go back when their lease is dropped; pipes are closed. -/
def cancel : TcpRelay size × Relay size :=
  (pools.reclaim relay.lanes, { relay with lanes := relay.lanes.map Lane.release, phase := .dropped })

/-- One action of a relay; `none` if it has nothing to do on such a turn. -/
def act (turn : Turn) (pools : TcpRelay size) (relay : Relay size) : Option (TcpRelay size × Relay size) :=
  match relay.phase, turn with
  | .trying order, .select permit => some (pools, relay.select pools permit order)
  | .leasing later pipes, .take opened =>
    pools.splice.map fun splice =>
      let leased := relay.lease splice opened later pipes
      ({ pools with splice := some leased.1 }, leased.2)
  | .waiting, .acquire allocates =>
    let acquired := relay.acquire pools.buffers allocates
    some ({ pools with buffers := acquired.1 }, acquired.2)
  | .running backend, .poll i => some (relay.advance pools backend i)
  | .returning pipes next, .giveBack inspected => some (relay.settle pools inspected pipes next)
  | .waiting, .cancel => some (relay.cancel pools)
  | .running _, .cancel => some (relay.cancel pools)
  | _, _ => none

end Relay

def relayProgram {ι : Type} {size : Capacity} : Program ι Turn (TcpRelay size) (Relay size) Empty :=
  fun _ turn pools relay => (relay.act turn pools).map fun next => (next.1, next.2, none)

end RustReality.Transport
