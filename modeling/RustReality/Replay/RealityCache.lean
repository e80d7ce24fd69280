import RustReality.Lib.Bytes
import RustReality.Lib.Expiry
import RustReality.Lib.Interleaving

/-!
# The REALITY replay cache

A ClientHello is reserved before ClientFinished and committed after it. A reservation is a task: it
reserves, is then held until its owner commits or drops it, and may be overtaken in between. What
happens under the lock of a shard is one action, since it touches nothing else than that shard and
gives permits back; the governor's permits and the generation counter are taken by actions of their
own.
-/

namespace RustReality.Replay

open Expiry Interleaving

namespace Reality

abbrev ReplayKey := Vector UInt8 32

def replayShards : Nat := 16

def shardIndex (key : ReplayKey) : Fin replayShards := ⟨key[0].toNat % replayShards, Nat.mod_lt _ (by decide)⟩

inductive ReplayError
  | duplicate
  | capacity
  | reservationLost
  | unavailable
  deriving DecidableEq, Repr

structure ReplayEntry where
  generation : Nat
  committed : Bool
  expiresAt : Nat
  deriving DecidableEq, Repr

/-- A record of the queue: expiry, generation and key, compared in this order. -/
abbrev Expiration := Nat × Nat × ReplayKey

def Sooner (first second : Expiration) : Prop :=
  first.1 < second.1 ∨ first.1 = second.1 ∧
    (first.2.1 < second.2.1 ∨ first.2.1 = second.2.1 ∧ first.2.2.toList ≤ second.2.2.toList)

instance : DecidableRel Sooner := fun first second => by
  unfold Sooner
  infer_instance

abbrev ReplayShard := Shard ReplayKey ReplayEntry Expiration

def replayRecords : Records ReplayKey ReplayEntry Expiration where
  key record := record.2.2
  deadline record := record.1
  describes record entry := entry.generation == record.2.1 && entry.expiresAt == record.1

def purgeReplayShard (shard : ReplayShard) (now : Nat) : ReplayShard × Nat := purge replayRecords shard now

/-- Drop the stale records once they outnumber the entries by a wide margin. -/
def compactStaleExpirations (shard : ReplayShard) : ReplayShard :=
  let maximum := shard.entries.keys.length * 2 + 1024
  if shard.expirations.length ≤ maximum then shard
  else
    { shard with
      expirations := shard.expirations.filter fun record =>
        (shard.lookup (replayRecords.key record)).any (replayRecords.describes record) }

def removePending (shard : ReplayShard) (key : ReplayKey) : ReplayShard :=
  compactStaleExpirations { shard with entries := shard.entries.erase key }

def putEntry (shard : ReplayShard) (key : ReplayKey) (entry : ReplayEntry) : ReplayShard where
  entries := shard.entries.insert key entry
  expirations := shard.expirations.orderedInsert Sooner (entry.expiresAt, entry.generation, key)

/-! ### Reservations in progress -/

structure ReplayPolicy where
  pendingTtl : Nat
  committedTtl : Nat
  lastInstant : Nat
  maxReplayEntries : Nat

inductive ReservationPhase
  | called
  | check
  | acquire
  | sweep (shard : Nat)
  | acquireAgain
  | generation
  | insert (generation : Nat)
  | release (error : ReplayError)
  | held (generation : Nat)
  | committed
  | dropped
  | refused (error : ReplayError)
  deriving DecidableEq

structure Reservation where
  key : ReplayKey
  now : Nat
  phase : ReservationPhase
  deriving DecidableEq

inductive ReplayTask
  | reservation (reservation : Reservation)
  | purge (now shard : Nat)
  deriving DecidableEq

/-- What the history of a cache records. A reservation purges the shard of its key as it is made. -/
inductive ReplayEvent
  | purged (shard : Fin replayShards) (now : Nat)
  | reserved (key : ReplayKey) (generation now : Nat)
  | committed (key : ReplayKey) (generation now : Nat)
  deriving DecidableEq

def ReplayEvent.purges : ReplayEvent → Option (Fin replayShards × Nat)
  | .purged shard now => some (shard, now)
  | .reserved key _ now => some (shardIndex key, now)
  | .committed _ _ _ => none

structure ReplayStore where
  shards : Fin replayShards → ReplayShard
  permits : Nat
  nextGeneration : Nat

inductive Use
  | commit (now : Nat)
  | drop
  deriving DecidableEq

/-- Answers of the governor's pressure gauge and soft ceiling and of the allocator, and the owner's choice. -/
structure Answers where
  admits : Bool
  entriesReserved : Bool
  expirationsReserved : Bool
  use : Use

namespace ReplayStore

/-- Change one shard; `released` permits go back with the entries that were removed. -/
def setShard (store : ReplayStore) (shard : Fin replayShards) (value : ReplayShard) (released : Nat) : ReplayStore :=
  { store with shards := Function.update store.shards shard value, permits := store.permits - released }

def purgeShard (store : ReplayStore) (shard : Fin replayShards) (now : Nat) : ReplayStore :=
  let (value, removed) := purgeReplayShard (store.shards shard) now
  store.setShard shard value removed

/-- `ResourceGovernor::try_acquire`. -/
def tryAcquire (policy : ReplayPolicy) (admits : Bool) (store : ReplayStore) : Option ReplayStore :=
  if admits && store.permits < policy.maxReplayEntries then some { store with permits := store.permits + 1 } else none

end ReplayStore

variable (policy : ReplayPolicy)

/-- The locked part of `commit_at`. -/
def commitEntry (expirationsReserved : Bool) (key : ReplayKey) (generation now : Nat)
    (store : ReplayStore) : ReplayStore × Except ReplayError Unit :=
  let shard := store.shards (shardIndex key)
  match shard.lookup key with
  | none => (store, .error .reservationLost)
  | some entry =>
    if entry.generation ≠ generation ∨ entry.committed ∨ entry.expiresAt ≤ now then
      if entry.generation = generation ∧ !entry.committed then
        (store.setShard (shardIndex key) (removePending shard key) 1, .error .reservationLost)
      else (store, .error .reservationLost)
    else if !expirationsReserved then (store, .error .capacity)
    else
      let entry := { entry with committed := true, expiresAt := now + policy.committedTtl }
      (store.setShard (shardIndex key) (putEntry shard key entry) 0, .ok ())

/-- The locked part of `drop` for an active reservation. -/
def dropEntry (key : ReplayKey) (generation : Nat) (store : ReplayStore) : ReplayStore :=
  let shard := store.shards (shardIndex key)
  match shard.lookup key with
  | none => store
  | some entry =>
    if entry.generation = generation ∧ !entry.committed then
      store.setShard (shardIndex key) (removePending shard key) 1
    else store

/-! ### The actions -/

/-- Use a held reservation. A reservation whose commit failed stays active, to be dropped later. -/
def useStep (answers : Answers) (store : ReplayStore) (reservation : Reservation)
    (generation : Nat) : ReplayStore × Reservation × Option ReplayEvent :=
  match answers.use with
  | .commit now =>
    if now + policy.committedTtl ≤ policy.lastInstant then
      match commitEntry policy answers.expirationsReserved reservation.key generation now store with
      | (store, .ok ()) =>
        (store, { reservation with phase := .committed }, some (.committed reservation.key generation now))
      | (store, .error _) => (store, reservation, none)
    else (store, reservation, none)
  | .drop => (dropEntry reservation.key generation store, { reservation with phase := .dropped }, none)

def reservationStep (answers : Answers) (store : ReplayStore) (reservation : Reservation) :
    Option (ReplayStore × Reservation × Option ReplayEvent) :=
  let shard := shardIndex reservation.key
  let goto (phase : ReservationPhase) : Reservation := { reservation with phase }
  match reservation.phase with
  | .called =>
    if reservation.now + policy.pendingTtl ≤ policy.lastInstant then some (store, goto .check, none)
    else some (store, goto (.refused .unavailable), none)
  | .check =>
    let store := store.purgeShard shard reservation.now
    let phase := if ((store.shards shard).lookup reservation.key).isSome then .refused .duplicate else .acquire
    some (store, goto phase, some (.purged shard reservation.now))
  | .acquire =>
    match store.tryAcquire policy answers.admits with
    | some store => some (store, goto .generation, none)
    | none => some (store, goto (.sweep 0), none)
  | .sweep index =>
    if h : index < replayShards then
      some (store.purgeShard ⟨index, h⟩ reservation.now, goto (.sweep (index + 1)),
        some (.purged ⟨index, h⟩ reservation.now))
    else some (store, goto .acquireAgain, none)
  | .acquireAgain =>
    match store.tryAcquire policy answers.admits with
    | some store => some (store, goto .generation, none)
    | none => some (store, goto (.refused .capacity), none)
  | .generation =>
    if store.nextGeneration + 1 < 2 ^ 64 then
      some ({ store with nextGeneration := store.nextGeneration + 1 }, goto (.insert store.nextGeneration), none)
    else some (store, goto (.release .unavailable), none)
  | .insert generation =>
    let store := store.purgeShard shard reservation.now
    let value := store.shards shard
    if (value.lookup reservation.key).isSome then
      some (store, goto (.release .duplicate), some (.purged shard reservation.now))
    else if !(answers.entriesReserved && answers.expirationsReserved) then
      some (store, goto (.release .capacity), some (.purged shard reservation.now))
    else
      let entry := { generation, committed := false, expiresAt := reservation.now + policy.pendingTtl }
      some (store.setShard shard (putEntry value reservation.key entry) 0, goto (.held generation),
        some (.reserved reservation.key generation reservation.now))
  | .release error => some ({ store with permits := store.permits - 1 }, goto (.refused error), none)
  | .held generation => some (useStep policy answers store reservation generation)
  | .committed => none
  | .dropped => none
  | .refused _ => none

def replayStep {ι : Type} (policy : ReplayPolicy) : Program ι Answers ReplayStore ReplayTask ReplayEvent :=
  fun _ answers store task =>
    match task with
    | .reservation reservation =>
      (reservationStep policy answers store reservation).map fun (store, reservation, event) =>
        (store, .reservation reservation, event)
    | .purge now index =>
      if h : index < replayShards then
        some (store.purgeShard ⟨index, h⟩ now, .purge now (index + 1), some (.purged ⟨index, h⟩ now))
      else none

/-! ### Whole runs -/

inductive ReplayCall
  | reserve (key : ReplayKey) (now : Nat)
  | purge (now : Nat)
  deriving DecidableEq

def ReplayCall.task : ReplayCall → ReplayTask
  | .reserve key now => .reservation { key, now, phase := .called }
  | .purge now => .purge now 0

variable {ι : Type}

def replayStart (calls : ι → ReplayCall) : Config ι ReplayStore ReplayTask where
  shared := { shards := fun _ => .empty, permits := 0, nextGeneration := 1 }
  tasks i := (calls i).task

def replayRun [DecidableEq ι] (policy : ReplayPolicy) (calls : ι → ReplayCall) (schedule : List (ι × Answers)) :
    Config ι ReplayStore ReplayTask × List (ι × ReplayEvent) :=
  execute (replayStep policy) (replayStart calls) schedule

end Reality

end RustReality.Replay
