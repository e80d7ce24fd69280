import RustReality.Replay.RealityCacheInv

/-!
# A committed ClientHello is refused

Between a commit and the next reservation of its key the shard has been purged at or after the expiry
of the commit. A reservation that is dropped or not committed takes at most its own pending entry with
it.
-/

namespace RustReality.Replay.Reality
open List Option Expiry Interleaving

variable {ι : Type}

/-- A reservation of a committed key is made after the commit has expired, or after a purge that was. -/
def CommittedOnce (ttl : Nat) (history : List (ι × ReplayEvent)) : Prop :=
  ∀ before i key generation now between j generation' later after,
    history = before ++ (i, .committed key generation now) :: (between ++ (j, .reserved key generation' later) :: after) →
    now + ttl ≤ later ∨
      ∃ k event time, (k, event) ∈ between ∧ event.purges = some (shardIndex key, time) ∧ now + ttl ≤ time

theorem CommittedOnce.append {ttl : Nat} {shards : Fin replayShards → ReplayShard} {history : List (ι × ReplayEvent)}
    {j : ι} {event : ReplayEvent} (h : CommittedOnce ttl history) (hk : CommittedKept ttl shards history)
    (hr : ∀ key generation later, event = .reserved key generation later →
      ∀ entry, (shards (shardIndex key)).lookup key = some entry → entry.expiresAt ≤ later) :
    CommittedOnce ttl (history ++ [(j, event)]) := by
  intro before i key generation now between k generation' later after hh
  rw [← cons_append, ← append_assoc] at hh
  rcases concat_eq_append_cons hh with ⟨rfl, he, hb⟩ | ⟨front, rfl, hf⟩
  · cases he
    rcases hk before i key generation now between hb.symm with hp | hs
    · exact .inr hp
    · exact .inl (hr key generation' later rfl _ hs)
  · rw [append_assoc, cons_append] at hf
    exact h before i key generation now between k generation' later front hf

variable {answers : Answers} {store store' : ReplayStore} {key : ReplayKey}

theorem ReservationTurn.reserved {policy : ReplayPolicy} {own : Reservation} {phase : ReservationPhase}
    {generation later : Nat} {entry : ReplayEntry}
    (h : ReservationTurn policy store own store' phase (some (.reserved key generation later)))
    (hentry : (store.shards (shardIndex key)).lookup key = some entry) : entry.expiresAt ≤ later := by
  cases h with
  | reserve ho hv ha =>
    rcases lookup_purge own.now hentry with hs | hd
    · rw [hv, ha] at hs
      cases hs
    · exact hd

section Runs

variable {policy : ReplayPolicy} {config : Config ι ReplayStore ReplayTask} {history : List (ι × ReplayEvent)}

theorem CommittedOnce.step [Fintype ι] {i : ι} {store : ReplayStore} {task : ReplayTask}
    {event : Option ReplayEvent} (h : CommittedOnce policy.committedTtl history) (hi : ReplayInv policy config history)
    (hs : replayStep policy i answers config.shared (config.tasks i) = some (store, task, event)) :
    CommittedOnce policy.committedTtl (history ++ (event.map (i, ·)).toList) := by
  cases event with
  | none => simpa using h
  | some event =>
    refine h.append hi.kept ?_
    rintro key generation later rfl entry hst
    cases ht : config.tasks i with
    | reservation own =>
      rw [ht] at hs
      rcases map_eq_some_iff.1 hs with ⟨⟨next, own', event'⟩, hrs, hr⟩
      cases hr
      rcases reservationStep_turn hrs with ⟨phase, rfl, htr⟩
      exact htr.reserved hst
    | purge now index =>
      rw [ht] at hs
      dsimp only [replayStep] at hs
      split at hs <;> cases hs

theorem replayInv_run [Fintype ι] [DecidableEq ι] (policy : ReplayPolicy) (calls : ι → ReplayCall)
    (schedule : List (ι × Answers)) :
    ReplayInv policy (replayRun policy calls schedule).1 (replayRun policy calls schedule).2 ∧
      CommittedOnce policy.committedTtl (replayRun policy calls schedule).2 := by
  refine @execute_invariant _ _ _ _ _ _ (replayStep policy)
    (fun config history => ReplayInv policy config history ∧ CommittedOnce policy.committedTtl history)
    (fun _ _ _ _ _ _ _ h hs => ⟨h.1.step hs, h.2.step h.1 hs⟩) _ ⟨.start policy calls, ?_⟩ schedule
  intro before i key generation now between j generation' later after hh
  simp at hh

/-- The task holds a reservation of the key, and its pending or committed entry is stored. -/
def Reserves (config : Config ι ReplayStore ReplayTask) (i : ι) (key : ReplayKey) : Prop :=
  ∃ own entry, config.tasks i = .reservation own ∧ own.key = key ∧ own.phase = .held entry.generation ∧
    (config.shared.shards (shardIndex key)).lookup key = some entry

theorem ReplayInv.reserves_unique [Fintype ι] (h : ReplayInv policy config history) {i j : ι}
    (hi : Reserves config i key) (hj : Reserves config j key) : i = j := by
  rcases hi with ⟨own, entry, ht, -, hh, hl⟩
  rcases hj with ⟨own', entry', ht', -, hh', hl'⟩
  rw [hl] at hl'
  cases hl'
  refine h.distinct i j entry.generation ?_ ?_
  · rw [ht, ReplayTask.generation, hh]
  · rw [ht', ReplayTask.generation, hh']

theorem GivesUp.lookup {generation : Nat}
    (h : GivesUp store key generation store') (shard : Fin replayShards) (other : ReplayKey) :
    (store'.shards shard).lookup other = (store.shards shard).lookup other ∨
      other = key ∧ (store'.shards shard).lookup other = none ∧
        ∃ entry, (store.shards shard).lookup other = some entry ∧ entry.generation = generation ∧
          entry.committed = false := by
  cases h with
  | same => exact .inl rfl
  | @removed entry hl hg hp =>
    by_cases hs : shard = shardIndex key
    · subst hs
      by_cases hk : other = key
      · subst hk
        exact .inr ⟨rfl, by simp [ReplayStore.setShard, lookup_removePending], entry, hl, hg, hp⟩
      · left
        simp [ReplayStore.setShard, lookup_removePending, hk]
    · left
      simp [ReplayStore.setShard, Function.update_of_ne hs]

theorem ReservationTurn.quiet {own : Reservation} {phase : ReservationPhase} {generation : Nat}
    (h : ReservationTurn policy store own store' phase none) (hh : own.phase = .held generation) :
    GivesUp store own.key generation store' := by
  cases h with
  | move => exact .same
  | acquire ho => rcases ho with ho | ho <;> cases ho.symm.trans hh
  | number ho => cases ho.symm.trans hh
  | release ho => cases ho.symm.trans hh
  | givesUp ho _ hg =>
    cases ho.symm.trans hh
    exact hg

end Runs

/-- For any number of reservations and purges, every interleaving of their actions, all times and every
answer of governor and allocator: a key has at most one entry, and at most one reservation whose entry is
stored; a committed key is reserved again only after its shard was purged at or after its expiry; giving a
reservation up removes at most its own pending entry; every entry has its record in the queue of its shard;
and every permit belongs to an entry or to a reservation that has yet to insert. -/
theorem reality_cache_exactly_once [Fintype ι] [DecidableEq ι] (policy : ReplayPolicy) (calls : ι → ReplayCall)
    (schedule : List (ι × Answers)) :
    let config := (replayRun policy calls schedule).1
    let history := (replayRun policy calls schedule).2
    let stored := ∑ shard, (config.shared.shards shard).entries.keys.length
    ((∀ shard shard' key entry entry', (config.shared.shards shard).lookup key = some entry →
        (config.shared.shards shard').lookup key = some entry' → shard = shard' ∧ entry = entry') ∧
      ∀ i j key, Reserves config i key → Reserves config j key → i = j) ∧
    (∀ before i key generation now between j generation' later after,
      history = before ++ (i, .committed key generation now) ::
        (between ++ (j, .reserved key generation' later) :: after) →
      later < now + policy.committedTtl →
      ∃ k event time, (k, event) ∈ between ∧ event.purges = some (shardIndex key, time) ∧
        now + policy.committedTtl ≤ time) ∧
    (∀ i answers own generation, config.tasks i = .reservation own → own.phase = .held generation →
      (act (replayStep policy) config (i, answers)).2 = none →
      ∀ shard key, ((act (replayStep policy) config (i, answers)).1.shared.shards shard).lookup key =
          (config.shared.shards shard).lookup key ∨
        key = own.key ∧ ((act (replayStep policy) config (i, answers)).1.shared.shards shard).lookup key = none ∧
          ∃ entry, (config.shared.shards shard).lookup key = some entry ∧ entry.generation = generation ∧
            entry.committed = false) ∧
    (∀ shard key entry, (config.shared.shards shard).lookup key = some entry →
      (entry.expiresAt, entry.generation, key) ∈ (config.shared.shards shard).expirations) ∧
    (config.shared.permits = stored + ∑ i, (config.tasks i).inFlight ∧
      ((∀ i, (config.tasks i).inFlight = 0) → config.shared.permits = stored)) := by
  intro config history stored
  have hrn : ReplayInv policy config history ∧ CommittedOnce policy.committedTtl history :=
    replayInv_run policy calls schedule
  rcases hrn with ⟨hi, ho⟩
  have hp : config.shared.permits = stored + ∑ i, (config.tasks i).inFlight := hi.permits
  refine ⟨⟨?_, fun i j key => hi.reserves_unique⟩, ?_, ?_, ?_, hp, ?_⟩
  · intro shard shard' key entry entry' hlo hlo'
    have hsh := hi.home shard key entry hlo
    have hsh' := hi.home shard' key entry' hlo'
    subst hsh hsh'
    rw [hlo] at hlo'
    exact ⟨rfl, Option.some.inj hlo'⟩
  · intro before i key generation now between j generation' later after hhs hl
    rcases ho before i key generation now between j generation' later after hhs with hex | hpr
    · omega
    · exact hpr
  · intro i answers own generation ht hh he shard key
    cases hs : replayStep policy i answers config.shared (config.tasks i) with
    | none =>
      rw [act_of_none hs]
      exact .inl rfl
    | some result =>
      rcases result with ⟨store, task, event⟩
      rw [act_of_some hs] at he ⊢
      rw [ht] at hs
      rcases map_eq_some_iff.1 hs with ⟨⟨next, own', event'⟩, hre, hrs⟩
      cases hrs
      have hn : event = none := map_eq_none_iff.1 he
      subst hn
      rcases reservationStep_turn hre with ⟨phase, rfl, htr⟩
      exact (htr.quiet hh).lookup shard key
  · intro shard key entry hlo
    rcases hi.covered shard key entry hlo with ⟨⟨expiresAt, generation, own⟩, hm, rfl, hd⟩
    have hr : entry.generation = generation ∧ entry.expiresAt = expiresAt := by
      simpa [replayRecords] using hd
    rw [hr.1, hr.2]
    exact hm
  · intro hn
    rw [hp, Finset.sum_eq_zero fun i _ => hn i, Nat.add_zero]

/-- A key committed at 1 for 10 is reserved again at 5, after a call at 11 has purged it; and a reservation
on its way holds a permit while nothing is stored. -/
theorem reality_cache_late_call :
    let policy : ReplayPolicy := { pendingTtl := 10, committedTtl := 10, lastInstant := 1000, maxReplayEntries := 8 }
    let first : ReplayKey := Vector.replicate 32 0
    let second : ReplayKey := Vector.replicate 32 16
    let turns (i : Fin 3) : List (Fin 3 × Answers) := List.replicate 5 (i, ⟨true, true, true, .commit 1⟩)
    let calls := #v[ReplayCall.reserve first 0, .reserve second 11, .reserve first 5].get
    (replayRun policy calls (turns 0 ++ [(0, ⟨true, true, true, .commit 1⟩)] ++ turns 1 ++ turns 2)).2 =
      [(0, .purged (shardIndex first) 0), (0, .reserved first 1 0), (0, .committed first 1 1),
        (1, .purged (shardIndex first) 11), (1, .reserved second 2 11), (2, .purged (shardIndex first) 5),
        (2, .reserved first 3 5)] ∧
    (let run := replayRun policy calls (List.replicate 3 (0, ⟨true, true, true, .drop⟩))
     run.1.shared.permits = 1 ∧ ∀ shard, (run.1.shared.shards shard).entries.keys.length = 0) := by
  decide +kernel

/-- No interleaving takes the cache over its capacity, calls on their way counted. -/
theorem reality_cache_bounded [Fintype ι] [DecidableEq ι] (policy : ReplayPolicy) (calls : ι → ReplayCall)
    (schedule : List (ι × Answers)) :
    let config := (replayRun policy calls schedule).1
    ∑ shard, (config.shared.shards shard).entries.keys.length + ∑ i, (config.tasks i).inFlight ≤
      policy.maxReplayEntries := by
  have hi := (replayInv_run policy calls schedule).1
  exact hi.permits.ge.trans hi.bounded

end RustReality.Replay.Reality
