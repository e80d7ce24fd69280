import RustReality.Lib.Expiry
import RustReality.Lib.Interleaving
import RustReality.Handoff.State

/-!
# The nonce caches of NXR and Handoff

Both landings keep the nonces they have accepted in sixteen locked shards with one atomic counter for
the capacity; the two sources differ in the errors they return. A call is a task that goes through
the phases of `reserve_at` or `purge_expired_at`, one atomic action at a time: taking a lock, working
on the locked shard, giving it back, and single operations on the counter.
-/

namespace RustReality.Replay

open Expiry Interleaving

abbrev Nonce := Vector UInt8 16

def replayShards : Nat := 16

def nonceShard (nonce : Nonce) : Fin replayShards := ⟨nonce[0].toNat % replayShards, Nat.mod_lt _ (by decide)⟩

/-- The entries map a nonce to its expiry; the queue holds both, the sooner expiry first. -/
abbrev NonceShard := Shard Nonce Nat (Nat × Nonce)

def nonceRecords : Records Nonce Nat (Nat × Nonce) where
  key := Prod.snd
  deadline := Prod.fst
  describes record current := current == record.1

def purgeNonceShard (shard : NonceShard) (now : Nat) : NonceShard × Nat := purge nonceRecords shard now

def SoonerNonce (first second : Nat × Nonce) : Prop :=
  first.1 < second.1 ∨ first.1 = second.1 ∧ first.2.toList ≤ second.2.toList

instance : DecidableRel SoonerNonce := fun first second => by
  unfold SoonerNonce
  infer_instance

def insertNonce (shard : NonceShard) (nonce : Nonce) (expiresAt : Nat) : NonceShard where
  entries := shard.entries.insert nonce expiresAt
  expirations := shard.expirations.orderedInsert SoonerNonce (expiresAt, nonce)

/-! ### Policies and errors -/

/-- `saturating_mul` and `saturating_add` of a `u64`. -/
def replayRetentionSeconds (maxTimeDifferenceSeconds : Nat) : Nat :=
  min (min (maxTimeDifferenceSeconds * 2) (2 ^ 64 - 1) + 1) (2 ^ 64 - 1)

structure ReplayErrors (ε : Type) where
  unavailable : ε
  duplicate : ε
  capacity : ε
  allocation : ε

inductive NxrReplayError
  | duplicate
  | capacity
  | unavailable
  deriving DecidableEq, Repr

def nxrReplayErrors : ReplayErrors NxrReplayError where
  unavailable := .unavailable
  duplicate := .duplicate
  capacity := .capacity
  allocation := .capacity

def handoffReplayErrors : ReplayErrors Handoff.HandoffError where
  unavailable := .replay
  duplicate := .replay
  capacity := .replay
  allocation := .allocation

/-- The bounds of one cache. Instants are nanoseconds; `lastInstant` is the last one a clock can represent. -/
structure ReplayPolicy where
  capacity : Nat
  retention : Nat
  lastInstant : Nat
  capacity_pos : 0 < capacity
  capacity_lt : capacity < 2 ^ 64
  retention_pos : 0 < retention

/-! ### Calls in progress -/

/-- `purge_expired_at` over all shards, with the entries removed so far. -/
inductive SweepPhase
  | next (removed shard : Nat)
  | locked (removed : Nat) (shard : Fin replayShards)
  | subtract (removed : Nat)
  | done (removed : Nat)
  deriving DecidableEq, Repr

/-- Where a `reserve_at` stands. -/
inductive ReservePhase (ε : Type)
  | called
  | lock
  | purge
  | subtract (removed : Nat)
  | lookUp
  | load
  | tryReserve
  | loadSlot
  | exchange (observed : Nat)
  | insert
  | sweep (phase : SweepPhase)
  | returned (result : Except ε Unit)
  deriving DecidableEq

structure ReserveCall (ε : Type) where
  nonce : Nonce
  now : Nat
  sweptAll : Bool
  phase : ReservePhase ε
  deriving DecidableEq

inductive NonceTask (ε : Type)
  | reserve (call : ReserveCall ε)
  | purge (now : Nat) (phase : SweepPhase)
  deriving DecidableEq

inductive NonceEvent (ε : Type)
  | admitted (nonce : Nonce) (now : Nat)
  | refused (nonce : Nonce) (now : Nat) (error : ε)
  | purged (shard : Fin replayShards) (now : Nat)
  deriving DecidableEq

structure NonceStore (ι : Type) where
  shards : Fin replayShards → Mutex ι NonceShard
  used : Nat

/-- Answers of the allocator, and whether a weak exchange fails spuriously. -/
structure Answers where
  entriesReserved : Bool
  expirationsReserved : Bool
  spurious : Bool

variable {ι ε : Type}

namespace NonceStore

variable (store : NonceStore ι)

def setShard (shard : Fin replayShards) (owner : Option ι) (value : NonceShard) : NonceStore ι :=
  { store with shards := Function.update store.shards shard ⟨owner, value⟩ }

def lock (i : ι) (shard : Fin replayShards) : Option (NonceStore ι) :=
  match (store.shards shard).owner with
  | none => some (store.setShard shard (some i) (store.shards shard).value)
  | some _ => none

def unlock (shard : Fin replayShards) : NonceStore ι :=
  store.setShard shard none (store.shards shard).value

/-- `fetch_sub` of an atomic `usize`. -/
def fetchSub (removed : Nat) : NonceStore ι :=
  { store with used := (store.used + 2 ^ 64 - removed) % 2 ^ 64 }

end NonceStore

/-! ### The actions -/

def sweepStep (now : Nat) (i : ι) (store : NonceStore ι) :
    SweepPhase → Option (NonceStore ι × SweepPhase × Option (NonceEvent ε))
  | .next removed shard =>
    if h : shard < replayShards then
      (store.lock i ⟨shard, h⟩).map fun store => (store, .locked removed ⟨shard, h⟩, none)
    else some (store, .subtract removed, none)
  | .locked removed shard =>
    let (value, count) := purgeNonceShard (store.shards shard).value now
    some (store.setShard shard none value, .next (removed + count) (shard + 1), some (.purged shard now))
  | .subtract removed => some (if removed ≠ 0 then store.fetchSub removed else store, .done removed, none)
  | .done _ => none

def reserveStep (errors : ReplayErrors ε) (policy : ReplayPolicy) (i : ι) (answers : Answers) (store : NonceStore ι)
    (call : ReserveCall ε) : Option (NonceStore ι × ReserveCall ε × Option (NonceEvent ε)) :=
  let shard := nonceShard call.nonce
  let value := (store.shards shard).value
  let goto (phase : ReservePhase ε) : ReserveCall ε := { call with phase }
  let refuse (error : ε) : ReserveCall ε × Option (NonceEvent ε) :=
    (goto (.returned (.error error)), some (.refused call.nonce call.now error))
  match call.phase with
  | .called =>
    if call.now + policy.retention ≤ policy.lastInstant then some (store, goto .lock, none)
    else some (store, refuse errors.unavailable)
  | .lock => (store.lock i shard).map fun store => (store, goto .purge, none)
  | .purge =>
    let (value, removed) := purgeNonceShard value call.now
    let phase := if removed ≠ 0 then .subtract removed else .lookUp
    some (store.setShard shard (some i) value, goto phase, some (.purged shard call.now))
  | .subtract removed => some (store.fetchSub removed, goto .lookUp, none)
  | .lookUp =>
    if (value.lookup call.nonce).isSome then some (store.unlock shard, refuse errors.duplicate)
    else some (store, goto .load, none)
  | .load =>
    -- A full sweep is made once, when the counter says that the cache is full.
    if store.used ≥ policy.capacity then
      if call.sweptAll then some (store.unlock shard, refuse errors.capacity)
      else some (store.unlock shard, goto (.sweep (.next 0 0)), none)
    else some (store, goto .tryReserve, none)
  | .tryReserve =>
    if answers.entriesReserved && answers.expirationsReserved then some (store, goto .loadSlot, none)
    else some (store.unlock shard, refuse errors.allocation)
  | .loadSlot => some (store, goto (.exchange store.used), none)
  | .exchange observed =>
    if observed ≥ policy.capacity then
      if call.sweptAll then some (store.unlock shard, refuse errors.capacity)
      else some (store.unlock shard, goto (.sweep (.next 0 0)), none)
    else if store.used = observed ∧ !answers.spurious then
      some ({ store with used := observed + 1 }, goto .insert, none)
    else some (store, goto (.exchange store.used), none)
  | .insert =>
    let value := insertNonce value call.nonce (call.now + policy.retention)
    some (store.setShard shard none value, goto (.returned (.ok ())), some (.admitted call.nonce call.now))
  | .sweep (.done _) => some (store, { call with sweptAll := true, phase := .lock }, none)
  | .sweep phase => (sweepStep call.now i store phase).map fun (store, phase, event) => (store, goto (.sweep phase), event)
  | .returned _ => none

def nonceStep (errors : ReplayErrors ε) (policy : ReplayPolicy) :
    Program ι Answers (NonceStore ι) (NonceTask ε) (NonceEvent ε) := fun i answers store task =>
  match task with
  | .reserve call =>
    (reserveStep errors policy i answers store call).map fun (store, call, event) => (store, .reserve call, event)
  | .purge now phase => (sweepStep now i store phase).map fun (store, phase, event) => (store, .purge now phase, event)

/-! ### Whole runs -/

inductive NonceCall
  | reserve (nonce : Nonce) (now : Nat)
  | purge (now : Nat)
  deriving DecidableEq

def NonceCall.task : NonceCall → NonceTask ε
  | .reserve nonce now => .reserve { nonce, now, sweptAll := false, phase := .called }
  | .purge now => .purge now (.next 0 0)

def nonceStart (calls : ι → NonceCall) : Config ι (NonceStore ι) (NonceTask ε) where
  shared := { shards := fun _ => ⟨none, .empty⟩, used := 0 }
  tasks i := (calls i).task

def nonceRun [DecidableEq ι] (errors : ReplayErrors ε) (policy : ReplayPolicy) (calls : ι → NonceCall)
    (schedule : List (ι × Answers)) : Config ι (NonceStore ι) (NonceTask ε) × List (ι × NonceEvent ε) :=
  execute (nonceStep errors policy) (nonceStart calls) schedule

end RustReality.Replay
