import RustReality.Replay.RealityCache

/-!
# What every interleaving of the REALITY cache keeps

Every entry has its record, every key is stored in its own shard, every permit belongs to an entry or
to a reservation on its way, and a generation belongs to one reservation. A committed entry stays until
its shard is purged at or after its expiry.
-/

namespace RustReality.Replay.Reality
open ReplayStore List Function Option Expiry Interleaving

variable {ι : Type}

namespace ReplayTask

def inFlight : ReplayTask → Nat
  | .reservation own =>
    match own.phase with
    | .generation | .insert _ | .release _ => 1
    | _ => 0
  | .purge _ _ => 0

def generation : ReplayTask → Option Nat
  | .reservation own =>
    match own.phase with
    | .insert generation | .held generation => some generation
    | _ => none
  | .purge _ _ => none

end ReplayTask

/-! ### Shards -/

theorem compact_entries (shard : ReplayShard) : (compactStaleExpirations shard).entries = shard.entries := by
  unfold compactStaleExpirations
  dsimp only
  split
  · rfl
  · rfl

variable {shard : ReplayShard} {key : ReplayKey} {entry : ReplayEntry} {generation : Nat} {store : ReplayStore}

theorem covered_compact (h : Covered replayRecords shard) :
    Covered replayRecords (compactStaleExpirations shard) := by
  intro key entry hl
  rw [Shard.lookup, compact_entries] at hl
  rcases h key entry hl with ⟨record, hm, rfl, hd⟩
  unfold compactStaleExpirations
  dsimp only
  split
  · exact ⟨record, hm, rfl, hd⟩
  · refine ⟨record, mem_filter.2 ⟨hm, ?_⟩, rfl, hd⟩
    exact (any_eq_true _ _).2 ⟨entry, hl, hd⟩

theorem lookup_removePending (shard : ReplayShard) (key other : ReplayKey) :
    (removePending shard key).lookup other = if other = key then none else shard.lookup other := by
  rw [removePending, Shard.lookup, compact_entries]
  split
  · next hk => rw [hk, AList.lookup_erase]
  · next hk => exact AList.lookup_erase_ne hk

theorem covered_removePending (h : Covered replayRecords shard) (key : ReplayKey) :
    Covered replayRecords (removePending shard key) := by
  refine covered_compact ?_
  intro other entry hl
  have hne : other ≠ key := by
    rintro rfl
    rw [Shard.lookup, AList.lookup_erase] at hl
    cases hl
  rw [Shard.lookup, AList.lookup_erase_ne hne] at hl
  exact h other entry hl

theorem size_removePending (h : shard.lookup key = some entry) : (removePending shard key).size + 1 = shard.size := by
  rw [removePending, Shard.size, compact_entries]
  exact size_erase h

theorem lookup_putEntry (shard : ReplayShard) (key other : ReplayKey) (entry : ReplayEntry) :
    (putEntry shard key entry).lookup other = if other = key then some entry else shard.lookup other := by
  split
  · next hk => rw [hk, putEntry, Shard.lookup, AList.lookup_insert]
  · next hk => exact AList.lookup_insert_ne hk

theorem covered_putEntry (h : Covered replayRecords shard) (key : ReplayKey) (entry : ReplayEntry) :
    Covered replayRecords (putEntry shard key entry) :=
  h.insert (perm_orderedInsert Sooner (entry.expiresAt, entry.generation, key) _) (by simp [replayRecords])

theorem size_putEntry_of_none (h : shard.lookup key = none) (entry : ReplayEntry) :
    (putEntry shard key entry).size = shard.size + 1 :=
  size_insert (AList.lookup_eq_none.1 h) entry

theorem size_putEntry_of_some {old : ReplayEntry} (h : shard.lookup key = some old) (entry : ReplayEntry) :
    (putEntry shard key entry).size = shard.size :=
  size_replace h entry

theorem size_purge (shard : ReplayShard) (now : Nat) :
    (purgeReplayShard shard now).1.size + (purgeReplayShard shard now).2 = shard.size := purge_size shard now

theorem covered_purge (h : Covered replayRecords shard) (now : Nat) :
    Covered replayRecords (purgeReplayShard shard now).1 := h.purge now

theorem purgeShard_eq (store : ReplayStore) (shard : Fin replayShards) (now : Nat) :
    store.purgeShard shard now =
      store.setShard shard (purgeReplayShard (store.shards shard) now).1 (purgeReplayShard (store.shards shard) now).2 :=
  rfl

theorem lookup_setShard (store : ReplayStore) (shard : Fin replayShards) (value : ReplayShard) (released : Nat)
    (key : ReplayKey) : ((store.setShard shard value released).shards (shardIndex key)).lookup key =
      if shardIndex key = shard then value.lookup key else (store.shards (shardIndex key)).lookup key := by
  split
  · next hs => simp [setShard, hs]
  · next hs => simp [setShard, update_of_ne hs]

/-- Where one pending entry changes, the committed ones stay. -/
theorem lookup_setShard_committed {value : ReplayShard} {released : Nat}
    (hl : (store.shards (shardIndex key)).lookup key = some entry) (hp : entry.committed = false)
    (hv : ∀ other ≠ key, value.lookup other = (store.shards (shardIndex key)).lookup other)
    (other : ReplayKey) (generation expiresAt : Nat)
    (hs : (store.shards (shardIndex other)).lookup other = some ⟨generation, true, expiresAt⟩) :
    ((store.setShard (shardIndex key) value released).shards (shardIndex other)).lookup other =
      some ⟨generation, true, expiresAt⟩ := by
  have hne : other ≠ key := by
    rintro rfl
    rw [hl] at hs
    cases hs
    cases hp
  rw [lookup_setShard, hv other hne]
  split
  · next hsh => rwa [← hsh]
  · exact hs

theorem lookup_purge (now : Nat) (h : shard.lookup key = some entry) :
    (purgeReplayShard shard now).1.lookup key = some entry ∨ entry.expiresAt ≤ now := by
  rcases @purge_lookup _ _ _ _ replayRecords shard now key with hs | ⟨-, value, record, hv, hds, hd⟩
  · exact .inl (hs.trans h)
  · rw [h] at hv
    cases hv
    have hr : entry.generation = record.2.1 ∧ entry.expiresAt = record.1 := by
      simpa [replayRecords] using hds
    exact .inr (hr.2 ▸ hd)

variable {now : Nat}

theorem lookup_of_purge (h : (purgeReplayShard shard now).1.lookup key = some entry) :
    shard.lookup key = some entry := by
  rcases @purge_lookup _ _ _ _ replayRecords shard now key with hs | ⟨hn, -⟩
  · exact hs.symm.trans h
  · rw [purgeReplayShard, hn] at h
    cases h

/-! ### The use of a reservation -/

/-- What dropping a reservation, or failing to commit it, does to the store. -/
inductive GivesUp (store : ReplayStore) (key : ReplayKey) (generation : Nat) : ReplayStore → Prop
  | same : GivesUp store key generation store
  | removed {entry : ReplayEntry} (hlookup : (store.shards (shardIndex key)).lookup key = some entry)
      (hgeneration : entry.generation = generation) (hpending : entry.committed = false) :
      GivesUp store key generation
        (store.setShard (shardIndex key) (removePending (store.shards (shardIndex key)) key) 1)

theorem givesUp_dropEntry (store : ReplayStore) (key : ReplayKey) (generation : Nat) :
    GivesUp store key generation (dropEntry key generation store) := by
  unfold dropEntry
  dsimp only
  split
  · exact .same
  · next entry hl =>
    split
    · next ho => exact .removed hl ho.1 (by simpa using ho.2)
    · exact .same

variable {store' : ReplayStore}

theorem givesUp_commitEntry {policy : ReplayPolicy} {expirationsReserved : Bool} {error : ReplayError}
    (h : commitEntry policy expirationsReserved key generation now store = (store', .error error)) :
    GivesUp store key generation store' := by
  unfold commitEntry at h
  dsimp only at h
  split at h
  · cases h
    exact .same
  · next entry hl =>
    split at h
    · split at h
      · next ho =>
        cases h
        exact .removed hl ho.1 (by simpa using ho.2)
      · cases h
        exact .same
    · split at h
      · cases h
        exact .same
      · cases h

theorem commitEntry_ok {policy : ReplayPolicy} {expirationsReserved : Bool}
    (h : commitEntry policy expirationsReserved key generation now store = (store', .ok ())) :
    ∃ entry, (store.shards (shardIndex key)).lookup key = some entry ∧ entry.generation = generation ∧
      entry.committed = false ∧ now < entry.expiresAt ∧
      store' = store.setShard (shardIndex key)
        (putEntry (store.shards (shardIndex key)) key ⟨entry.generation, true, now + policy.committedTtl⟩) 0 := by
  unfold commitEntry at h
  dsimp only at h
  split at h
  · cases h
  · next entry hlo =>
    split at h
    · split at h <;> cases h
    · next hl =>
      split at h
      · cases h
      · cases h
        rw [not_or, not_or, not_not, Nat.not_le] at hl
        exact ⟨entry, hlo, hl.1, by simpa using hl.2.1, hl.2.2, rfl⟩

/-! ### What an action of a reservation does -/

/-- The reservation takes no permit and returns none, and has no number afterwards. -/
def Reservation.Moves (own : Reservation) (phase : ReservationPhase) : Prop :=
  (ReplayTask.reservation { own with phase }).inFlight = (ReplayTask.reservation own).inFlight ∧
    (ReplayTask.reservation { own with phase }).generation = none

/-- The store afterwards, the new phase and the event. -/
inductive ReservationTurn (policy : ReplayPolicy) (store : ReplayStore) (own : Reservation) :
    ReplayStore → ReservationPhase → Option ReplayEvent → Prop
  | move {phase} : own.Moves phase → ReservationTurn policy store own store phase none
  | acquire : own.phase = .acquire ∨ own.phase = .acquireAgain → store.permits + 1 ≤ policy.maxReplayEntries →
      ReservationTurn policy store own { store with permits := store.permits + 1 } .generation none
  | number : own.phase = .generation → ReservationTurn policy store own
      { store with nextGeneration := store.nextGeneration + 1 } (.insert store.nextGeneration) none
  | release {error} : own.phase = .release error →
      ReservationTurn policy store own { store with permits := store.permits - 1 } (.refused error) none
  | purge {place : Fin replayShards} {phase} : own.Moves phase →
      ReservationTurn policy store own (store.purgeShard place own.now) phase (some (.purged place own.now))
  | reserve {number expiresAt} {value : ReplayShard} : own.phase = .insert number →
      (purgeReplayShard (store.shards (shardIndex own.key)) own.now).1 = value → value.lookup own.key = none →
      ReservationTurn policy store own ((store.purgeShard (shardIndex own.key) own.now).setShard (shardIndex own.key)
        (putEntry value own.key ⟨number, false, expiresAt⟩) 0) (.held number) (some (.reserved own.key number own.now))
  | commit {found : ReplayEntry} {time : Nat} : own.phase = .held found.generation →
      (store.shards (shardIndex own.key)).lookup own.key = some found → found.committed = false →
      ReservationTurn policy store own (store.setShard (shardIndex own.key)
        (putEntry (store.shards (shardIndex own.key)) own.key ⟨found.generation, true, time + policy.committedTtl⟩) 0)
        .committed (some (.committed own.key found.generation time))
  | givesUp {number phase} {after : ReplayStore} : own.phase = .held number → phase = .held number ∨ phase = .dropped →
      GivesUp store own.key number after → ReservationTurn policy store own after phase none

section Turn

variable {policy : ReplayPolicy} {answers : Answers} {own own' : Reservation} {event : Option ReplayEvent}

theorem useStep_turn (hh : own.phase = .held generation)
    (h : useStep policy answers store own generation = (store', own', event)) :
    ∃ phase, own' = { own with phase } ∧ ReservationTurn policy store own store' phase event := by
  unfold useStep at h
  split at h
  · split at h
    · split at h
      · next hc =>
        cases h
        rcases commitEntry_ok hc with ⟨entry, hl, rfl, hp, -, rfl⟩
        exact ⟨_, rfl, .commit hh hl hp⟩
      · next hc =>
        cases h
        exact ⟨own.phase, rfl, .givesUp hh (.inl hh) (givesUp_commitEntry hc)⟩
    · cases h
      exact ⟨own.phase, rfl, .givesUp hh (.inl hh) .same⟩
  · cases h
    exact ⟨_, rfl, .givesUp hh (.inr rfl) (givesUp_dropEntry _ _ _)⟩

theorem tryAcquire_eq_some {admits : Bool} (h : store.tryAcquire policy admits = some store') :
    store' = { store with permits := store.permits + 1 } ∧ store.permits + 1 ≤ policy.maxReplayEntries := by
  unfold tryAcquire at h
  split at h
  · next hr =>
    cases h
    rw [Bool.and_eq_true, decide_eq_true_eq] at hr
    exact ⟨rfl, hr.2⟩
  · cases h

theorem reservationStep_turn (h : reservationStep policy answers store own = some (store', own', event)) :
    ∃ phase, own' = { own with phase } ∧ ReservationTurn policy store own store' phase event := by
  rcases own with ⟨key, now, phase⟩
  cases phase with
  | called =>
    dsimp only [reservationStep] at h
    split at h <;> cases h <;> exact ⟨_, rfl, .move ⟨rfl, rfl⟩⟩
  | check =>
    cases h
    refine ⟨_, rfl, .purge ?_⟩
    split <;> exact ⟨rfl, rfl⟩
  | acquire =>
    dsimp only [reservationStep] at h
    split at h
    · next ha =>
      cases h
      rcases tryAcquire_eq_some ha with ⟨rfl, hle⟩
      exact ⟨_, rfl, .acquire (.inl rfl) hle⟩
    · cases h
      exact ⟨_, rfl, .move ⟨rfl, rfl⟩⟩
  | sweep index =>
    dsimp only [reservationStep] at h
    split at h <;> cases h
    · exact ⟨_, rfl, .purge ⟨rfl, rfl⟩⟩
    · exact ⟨_, rfl, .move ⟨rfl, rfl⟩⟩
  | acquireAgain =>
    dsimp only [reservationStep] at h
    split at h
    · next ha =>
      cases h
      rcases tryAcquire_eq_some ha with ⟨rfl, hle⟩
      exact ⟨_, rfl, .acquire (.inr rfl) hle⟩
    · cases h
      exact ⟨_, rfl, .move ⟨rfl, rfl⟩⟩
  | generation =>
    dsimp only [reservationStep] at h
    split at h <;> cases h
    · exact ⟨_, rfl, .number rfl⟩
    · exact ⟨_, rfl, .move ⟨rfl, rfl⟩⟩
  | insert generation =>
    have hv : (store.purgeShard (shardIndex key) now).shards (shardIndex key) =
        (purgeReplayShard (store.shards (shardIndex key)) now).1 := by
      simp [purgeShard_eq, setShard]
    dsimp only [reservationStep] at h
    split at h
    · cases h
      exact ⟨_, rfl, .purge ⟨rfl, rfl⟩⟩
    · next ha =>
      split at h <;> cases h
      · exact ⟨_, rfl, .purge ⟨rfl, rfl⟩⟩
      · exact ⟨_, rfl, .reserve rfl hv.symm (by simpa using ha)⟩
  | release error =>
    cases h
    exact ⟨_, rfl, .release rfl⟩
  | held generation => exact useStep_turn rfl (Option.some.inj h)
  | committed => cases h
  | dropped => cases h
  | refused error => cases h

end Turn

/-! ### The invariant -/

/-- A committed entry is stored, or its shard has been purged at or after its expiry. -/
def CommittedKept (ttl : Nat) (shards : Fin replayShards → ReplayShard) (history : List (ι × ReplayEvent)) : Prop :=
  ∀ before i key generation now after, history = before ++ (i, .committed key generation now) :: after →
    (∃ j event time, (j, event) ∈ after ∧ event.purges = some (shardIndex key, time) ∧ now + ttl ≤ time) ∨
      (shards (shardIndex key)).lookup key = some ⟨generation, true, now + ttl⟩

structure ReplayInv [Fintype ι] (policy : ReplayPolicy) (config : Config ι ReplayStore ReplayTask)
    (history : List (ι × ReplayEvent)) : Prop where
  covered : ∀ shard, Covered replayRecords (config.shared.shards shard)
  home : ∀ shard key entry, (config.shared.shards shard).lookup key = some entry → shardIndex key = shard
  permits : config.shared.permits = ∑ shard, (config.shared.shards shard).size + ∑ i, (config.tasks i).inFlight
  bounded : config.shared.permits ≤ policy.maxReplayEntries
  generations : ∀ i generation, (config.tasks i).generation = some generation →
    generation < config.shared.nextGeneration
  distinct : ∀ i j generation, (config.tasks i).generation = some generation →
    (config.tasks j).generation = some generation → i = j
  kept : CommittedKept policy.committedTtl config.shared.shards history

variable {i : ι}

theorem CommittedKept.append {ttl : Nat} {shards shards' : Fin replayShards → ReplayShard}
    {history : List (ι × ReplayEvent)} {event : ReplayEvent} (h : CommittedKept ttl shards history)
    (hk : ∀ key generation expiresAt, (shards (shardIndex key)).lookup key = some ⟨generation, true, expiresAt⟩ →
      (shards' (shardIndex key)).lookup key = some ⟨generation, true, expiresAt⟩ ∨
        ∃ time, event.purges = some (shardIndex key, time) ∧ expiresAt ≤ time)
    (hc : ∀ key generation now, event = .committed key generation now →
      (shards' (shardIndex key)).lookup key = some ⟨generation, true, now + ttl⟩) :
    CommittedKept ttl shards' (history ++ [(i, event)]) := by
  intro before j key generation now after hh
  rcases concat_eq_append_cons hh with ⟨rfl, he, rfl⟩ | ⟨front, rfl, hf⟩
  · cases he
    exact .inr (hc key generation now rfl)
  · rcases h before j key generation now front hf with ⟨k, other, time, hm, hp, hle⟩ | hs
    · exact .inl ⟨k, other, time, mem_append_left _ hm, hp, hle⟩
    · rcases hk key generation _ hs with hs' | ⟨time, hp, hle⟩
      · exact .inr hs'
      · exact .inl ⟨i, event, time, by simp, hp, hle⟩

theorem CommittedKept.same {ttl : Nat} {shards shards' : Fin replayShards → ReplayShard}
    {history : List (ι × ReplayEvent)} (h : CommittedKept ttl shards history)
    (hk : ∀ key generation expiresAt, (shards (shardIndex key)).lookup key = some ⟨generation, true, expiresAt⟩ →
      (shards' (shardIndex key)).lookup key = some ⟨generation, true, expiresAt⟩) :
    CommittedKept ttl shards' history := by
  intro before j key generation now after hh
  rcases h before j key generation now after hh with hp | hs
  · exact .inl hp
  · exact .inr (hk key generation _ hs)

section Step

variable [Fintype ι] [DecidableEq ι] {policy : ReplayPolicy} {config : Config ι ReplayStore ReplayTask}
  {history history' : List (ι × ReplayEvent)}
  {task : ReplayTask} {event : Option ReplayEvent}

omit [Fintype ι] in
theorem distinct_update {tasks : ι → ReplayTask}
    (hd : ∀ i j generation, (tasks i).generation = some generation →
      (tasks j).generation = some generation → i = j) (ht : ∀ generation, task.generation = some generation →
      ∀ j, j ≠ i → (tasks j).generation ≠ some generation) (j k : ι) (generation : Nat)
    (hj : (Function.update tasks i task j).generation = some generation)
    (hk : (Function.update tasks i task k).generation = some generation) : j = k := by
  by_cases hji : j = i
  · by_cases hki : k = i
    · rw [hji, hki]
    · subst hji
      rw [update_self] at hj
      rw [update_of_ne hki] at hk
      exact absurd hk (ht generation hj k hki)
  · rw [update_of_ne hji] at hj
    by_cases hki : k = i
    · subst hki
      rw [update_self] at hk
      exact absurd hj (ht generation hk j hji)
    · rw [update_of_ne hki] at hk
      exact hd j k generation hj hk

theorem ReplayInv.keep (h : ReplayInv policy config history) {permits nextGeneration : Nat}
    (hp : permits + (config.tasks i).inFlight = config.shared.permits + task.inFlight)
    (hb : permits ≤ policy.maxReplayEntries) (hn : config.shared.nextGeneration ≤ nextGeneration)
    (hgeneration : ∀ generation, task.generation = some generation →
      (config.tasks i).generation = some generation ∨
        config.shared.nextGeneration ≤ generation ∧ generation < nextGeneration) :
    ReplayInv policy ⟨{ config.shared with permits, nextGeneration }, Function.update config.tasks i task⟩ history := by
  refine ⟨h.covered, h.home, ?_, hb, ?_, ?_, h.kept⟩
  · have hs := sum_update ReplayTask.inFlight config.tasks i task
    have ho := h.permits
    dsimp only
    omega
  · intro j generation hj
    change (Function.update config.tasks i task j).generation = some generation at hj
    by_cases hij : j = i
    · subst hij
      rw [update_self] at hj
      rcases hgeneration generation hj with ho | ⟨-, hlt⟩
      · exact Nat.lt_of_lt_of_le (h.generations j generation ho) hn
      · exact hlt
    · rw [update_of_ne hij] at hj
      exact Nat.lt_of_lt_of_le (h.generations j generation hj) hn
  · refine distinct_update h.distinct ?_
    intro generation hg j hij hj
    rcases hgeneration generation hg with ho | ⟨hle, -⟩
    · exact hij (h.distinct j i generation hj ho)
    · exact absurd (h.generations j generation hj) (Nat.not_lt.2 hle)

omit [DecidableEq ι] in
theorem ReplayInv.home_purge (h : ReplayInv policy config history) (shard : Fin replayShards) (now : Nat)
    (key : ReplayKey) (entry : ReplayEntry)
    (hl : (purgeReplayShard (config.shared.shards shard) now).1.lookup key = some entry) : shardIndex key = shard :=
  h.home shard key entry (lookup_of_purge hl)

/-! ### The kinds of actions on a shard -/

section Shard

variable (h : ReplayInv policy config history)
  (hgeneration : ∀ generation, task.generation = some generation → (config.tasks i).generation = some generation)

include h hgeneration

theorem ReplayInv.touch {shard : Fin replayShards} {value : ReplayShard} {released : Nat} (hc : Covered replayRecords value)
    (hh : ∀ key entry, value.lookup key = some entry → shardIndex key = shard)
    (hr : released ≤ (config.shared.shards shard).size)
    (hcount : value.size + released + task.inFlight = (config.shared.shards shard).size + (config.tasks i).inFlight)
    (hk : CommittedKept policy.committedTtl (config.shared.setShard shard value released).shards history') :
    ReplayInv policy ⟨config.shared.setShard shard value released, Function.update config.tasks i task⟩ history' := by
  refine ⟨?_, ?_, ?_, Nat.le_trans (Nat.sub_le _ _) h.bounded, ?_, ?_, hk⟩
  · intro other
    by_cases hot : other = shard
    · subst hot
      simpa [setShard] using hc
    · simpa [setShard, update_of_ne hot] using h.covered other
  · intro other key entry hl
    by_cases hot : other = shard
    · subst hot
      exact hh key entry (by simpa [setShard] using hl)
    · exact h.home other key entry (by simpa [setShard, update_of_ne hot] using hl)
  · have ht := sum_update ReplayTask.inFlight config.tasks i task
    have hs := sum_update (fun value : ReplayShard => value.size) config.shared.shards shard value
    have ho := h.permits
    show config.shared.permits - released = ∑ s, (Function.update config.shared.shards shard value s).size +
      ∑ j, (Function.update config.tasks i task j).inFlight
    omega
  · intro j generation hj
    change (Function.update config.tasks i task j).generation = some generation at hj
    by_cases hij : j = i
    · subst hij
      rw [update_self] at hj
      exact h.generations j generation (hgeneration generation hj)
    · rw [update_of_ne hij] at hj
      exact h.generations j generation hj
  · refine distinct_update h.distinct ?_
    intro generation hg j hij hj
    exact hij (h.distinct j i generation hj (hgeneration generation hg))

theorem ReplayInv.reserve {now expiresAt : Nat}
    (ha : (purgeReplayShard (config.shared.shards (shardIndex key)) now).1.lookup key = none)
    (hone : (config.tasks i).inFlight = 1) (hinFlight : task.inFlight = 0) :
    ReplayInv policy
      ⟨(config.shared.purgeShard (shardIndex key) now).setShard (shardIndex key)
          (putEntry (purgeReplayShard (config.shared.shards (shardIndex key)) now).1 key ⟨generation, false, expiresAt⟩) 0,
        Function.update config.tasks i task⟩ (history ++ [(i, .reserved key generation now)]) := by
  have hsz := size_purge (config.shared.shards (shardIndex key)) now
  have hp := size_putEntry_of_none ha ⟨generation, false, expiresAt⟩
  have hst : (config.shared.purgeShard (shardIndex key) now).setShard (shardIndex key)
      (putEntry (purgeReplayShard (config.shared.shards (shardIndex key)) now).1 key ⟨generation, false, expiresAt⟩) 0 =
      config.shared.setShard (shardIndex key)
        (putEntry (purgeReplayShard (config.shared.shards (shardIndex key)) now).1 key ⟨generation, false, expiresAt⟩)
        (purgeReplayShard (config.shared.shards (shardIndex key)) now).2 := by
    simp [purgeShard_eq, setShard]
  rw [hst]
  refine h.touch hgeneration (covered_putEntry (covered_purge (h.covered _) now) key _) ?_ (by omega) (by omega) ?_
  · intro other entry hl
    rw [lookup_putEntry] at hl
    split at hl
    · next ho => rw [ho]
    · exact h.home_purge _ now other entry hl
  · refine h.kept.append ?_ (by rintro key generation time ⟨⟩)
    intro other generation' expiresAt' hs
    rw [lookup_setShard]
    split
    · next hsh =>
      rw [hsh] at hs
      rcases lookup_purge now hs with hsm | hd
      · rw [lookup_putEntry, if_neg fun heq => by simp [heq, ha] at hsm]
        exact .inl hsm
      · exact .inr ⟨now, congrArg (fun shard => some (shard, now)) hsh.symm, hd⟩
    · exact .inl hs

variable (hinFlight : task.inFlight = (config.tasks i).inFlight)

include hinFlight

theorem ReplayInv.purge {shard : Fin replayShards} {now : Nat} :
    ReplayInv policy ⟨config.shared.purgeShard shard now, Function.update config.tasks i task⟩
      (history ++ [(i, .purged shard now)]) := by
  have hs := size_purge (config.shared.shards shard) now
  refine h.touch hgeneration (covered_purge (h.covered shard) now) (h.home_purge shard now) ?_ ?_ ?_
  · exact Nat.le.intro ((Nat.add_comm _ _).trans hs)
  · rw [hinFlight]
    exact congrArg (· + _) hs
  · refine h.kept.append ?_ (by rintro key generation time ⟨⟩)
    intro key generation expiresAt hst
    rw [lookup_setShard]
    split
    · next hsh =>
      subst hsh
      exact (lookup_purge now hst).imp_right fun hd => ⟨now, rfl, hd⟩
    · exact .inl hst

theorem ReplayInv.remove (hl : (config.shared.shards (shardIndex key)).lookup key = some entry)
    (hp : entry.committed = false) :
    ReplayInv policy
      ⟨config.shared.setShard (shardIndex key) (removePending (config.shared.shards (shardIndex key)) key) 1,
        Function.update config.tasks i task⟩ history := by
  have hs := size_removePending hl
  refine h.touch hgeneration (covered_removePending (h.covered _) key) ?_ (by omega) (by omega) ?_
  · intro other found hf
    rw [lookup_removePending] at hf
    split at hf
    · cases hf
    · exact h.home _ other found hf
  · exact h.kept.same (lookup_setShard_committed hl hp fun _ hne => by rw [lookup_removePending, if_neg hne])

theorem ReplayInv.commit (hl : (config.shared.shards (shardIndex key)).lookup key = some entry)
    (hp : entry.committed = false) :
    ReplayInv policy
      ⟨config.shared.setShard (shardIndex key) (putEntry (config.shared.shards (shardIndex key)) key
          ⟨entry.generation, true, now + policy.committedTtl⟩) 0,
        Function.update config.tasks i task⟩ (history ++ [(i, .committed key entry.generation now)]) := by
  have hsz := size_putEntry_of_some hl ⟨entry.generation, true, now + policy.committedTtl⟩
  refine h.touch hgeneration (covered_putEntry (h.covered _) key _) ?_ (Nat.zero_le _) (by omega) ?_
  · intro other found hf
    rw [lookup_putEntry] at hf
    split at hf
    · next ho => rw [ho]
    · exact h.home _ other found hf
  · refine h.kept.append (fun other generation expiresAt hs => .inl ?_) ?_
    · exact lookup_setShard_committed hl hp (fun _ hne => by rw [lookup_putEntry, if_neg hne]) _ _ _ hs
    · rintro other generation time ⟨⟩
      simp [setShard, lookup_putEntry]

theorem ReplayInv.givesUp (hs : GivesUp config.shared key generation store) :
    ReplayInv policy ⟨store, Function.update config.tasks i task⟩ history := by
  cases hs with
  | same => exact h.keep (by rw [hinFlight]) h.bounded (Nat.le_refl _) fun generation hg => .inl (hgeneration generation hg)
  | removed hl _ hp => exact h.remove hgeneration hinFlight hl hp

end Shard

/-! ### All actions -/

variable {answers : Answers}

theorem ReplayInv.turn (h : ReplayInv policy config history) {own : Reservation} {phase : ReservationPhase}
    (ht : config.tasks i = .reservation own) (hs : ReservationTurn policy config.shared own store phase event) :
    ReplayInv policy ⟨store, Function.update config.tasks i (.reservation { own with phase })⟩
      (history ++ (event.map (i, ·)).toList) := by
  have hi := congrArg ReplayTask.inFlight ht
  have hg := congrArg ReplayTask.generation ht
  cases hs with
  | move hm =>
    rw [map_none, toList_none, append_nil]
    refine h.keep (by rw [hi, hm.1]) h.bounded (Nat.le_refl _) ?_
    rw [hm.2]
    rintro _ ⟨⟩
  | acquire ho hle =>
    rw [map_none, toList_none, append_nil]
    have hz : (config.tasks i).inFlight = 0 := by rcases ho with ho | ho <;> rw [hi, ReplayTask.inFlight, ho]
    exact h.keep (by rw [hz]; rfl) hle (Nat.le_refl _) (by rintro _ ⟨⟩)
  | number ho =>
    rw [ReplayTask.inFlight, ho] at hi
    rw [map_none, toList_none, append_nil]
    refine h.keep (by rw [hi]; rfl) h.bounded (Nat.le_succ _) ?_
    rintro _ ⟨⟩
    exact .inr ⟨Nat.le_refl _, Nat.lt_succ_self _⟩
  | release ho =>
    rw [ReplayTask.inFlight, ho] at hi
    rw [map_none, toList_none, append_nil]
    have hle : (config.tasks i).inFlight ≤ ∑ j, (config.tasks j).inFlight :=
      Finset.single_le_sum (f := fun j => (config.tasks j).inFlight) (fun _ _ => Nat.zero_le _) (Finset.mem_univ i)
    have hp := h.permits
    refine h.keep ?_ (Nat.le_trans (Nat.sub_le _ _) h.bounded) (Nat.le_refl _) (by rintro _ ⟨⟩)
    show config.shared.permits - 1 + (config.tasks i).inFlight = config.shared.permits + 0
    dsimp only at hi
    omega
  | purge hm => exact h.purge (by rw [hm.2]; rintro _ ⟨⟩) (hm.1.trans hi.symm)
  | reserve ho hv ha =>
    subst hv
    rw [ReplayTask.inFlight, ho] at hi
    rw [ReplayTask.generation, ho] at hg
    exact h.reserve (by exact fun _ hn => hg.trans hn) ha hi rfl
  | commit ho hl hp =>
    rw [ReplayTask.inFlight, ho] at hi
    exact h.commit nofun hi.symm hl hp
  | givesUp ho hph hs =>
    rw [ReplayTask.inFlight, ho] at hi
    rw [ReplayTask.generation, ho] at hg
    rw [map_none, toList_none, append_nil]
    rcases hph with rfl | rfl
    · exact h.givesUp (fun _ hn => hg.trans hn) hi.symm hs
    · exact h.givesUp nofun hi.symm hs

theorem ReplayInv.step (h : ReplayInv policy config history)
    (hs : replayStep policy i answers config.shared (config.tasks i) = some (store, task, event)) :
    ReplayInv policy ⟨store, Function.update config.tasks i task⟩ (history ++ (event.map (i, ·)).toList) := by
  cases ht : config.tasks i with
  | reservation own =>
    rw [ht] at hs
    rcases map_eq_some_iff.1 hs with ⟨⟨next, own', event'⟩, hrs, hr⟩
    cases hr
    rcases reservationStep_turn hrs with ⟨phase, rfl, htr⟩
    exact h.turn ht htr
  | purge now index =>
    rw [ht] at hs
    dsimp only [replayStep] at hs
    split at hs
    · cases hs
      exact h.purge (by nofun) (by rw [ht]; rfl)
    · cases hs

omit [DecidableEq ι] in
theorem ReplayInv.start (policy : ReplayPolicy) (calls : ι → ReplayCall) :
    ReplayInv policy (replayStart calls) [] := by
  have hc : ∀ i, (calls i).task.inFlight = 0 ∧ (calls i).task.generation = none := by
    intro i
    cases calls i <;> exact ⟨rfl, rfl⟩
  refine ⟨fun _ => exact_empty.covered, ?_, ?_, Nat.zero_le _, ?_, ?_, ?_⟩
  · rintro shard key entry ⟨⟩
  · simp [replayStart, hc, Shard.size, Shard.empty]
  · intro i generation hg
    rw [replayStart, (hc i).2] at hg
    cases hg
  · intro i j generation hg
    rw [replayStart, (hc i).2] at hg
    cases hg
  · intro before i key generation now after hh
    simp at hh

end Step

end RustReality.Replay.Reality
