import RustReality.Replay.NonceCacheInv

/-!
# A nonce is admitted once

Between two admissions of one nonce its shard has been purged at or after the first one's expiry.
Every action that is not an admission leaves the entries as they are, except those that have expired
at the time of its call.
-/

namespace RustReality.Replay
open List Function Option Expiry Interleaving

variable {ι ε : Type}

def NonceCall.now : NonceCall → Nat
  | .reserve _ now => now
  | .purge now => now

def NonceTask.call : NonceTask ε → NonceCall
  | .reserve call => .reserve call.nonce call.now
  | .purge now _ => .purge now

/-- Two admissions of a nonce have a purge between them that the first one's retention allows. -/
def AdmittedOnce (retention : Nat) (history : List (ι × NonceEvent ε)) : Prop :=
  ∀ before i nonce now between j later after,
    history = before ++ (i, .admitted nonce now) :: (between ++ (j, .admitted nonce later) :: after) →
    ∃ k time, (k, .purged (nonceShard nonce) time) ∈ between ∧ now + retention ≤ time

/-- What an action may do to an entry: nothing, or remove it if it is due. -/
def DueOnly (now : Nat) (before after : Option Nat) : Prop :=
  after = before ∨ after = none ∧ ∃ expiry, before = some expiry ∧ expiry ≤ now

def DueOnlyAt (now : Nat) (store store' : NonceStore ι) : Prop :=
  ∀ shard nonce, DueOnly now ((store.shards shard).value.lookup nonce) ((store'.shards shard).value.lookup nonce)

def NonceTask.Returned : NonceTask ε → Prop
  | .reserve call => ∃ result, call.phase = .returned result
  | .purge _ _ => False

inductive NonceOutcome (store : NonceStore ι) (task : NonceTask ε) :
    NonceStore ι → NonceTask ε → Option (NonceEvent ε) → Prop
  | admitted {store' : NonceStore ι} {call : ReserveCall ε} (htask : task = .reserve call)
      (hinsert : call.phase = .insert) :
      NonceOutcome store task store' (.reserve { call with phase := .returned (.ok ()) })
        (some (.admitted call.nonce call.now))
  | refused {store' : NonceStore ι} {call : ReserveCall ε} {error : ε} (htask : task = .reserve call)
      (hdue : DueOnlyAt call.now store store') :
      NonceOutcome store task store' (.reserve { call with phase := .returned (.error error) })
        (some (.refused call.nonce call.now error))
  | purged {store' : NonceStore ι} {task' : NonceTask ε} {shard : Fin replayShards} {time : Nat}
      (hcall : task'.call = task.call) (htime : time = task.call.now) (hdue : DueOnlyAt time store store') :
      NonceOutcome store task store' task' (some (.purged shard time))
  | quiet {store' : NonceStore ι} {task' : NonceTask ε} (hcall : task'.call = task.call)
      (hdue : DueOnlyAt task.call.now store store') : NonceOutcome store task store' task' none

variable {event : NonceEvent ε} {store store' : NonceStore ι} {task task' : NonceTask ε}

theorem AdmittedOnce.append {retention : Nat} {shards : Fin replayShards → Mutex ι NonceShard}
    {history : List (ι × NonceEvent ε)} {j : ι} (h : AdmittedOnce retention history)
    (hr : Retained retention shards history)
    (ha : ∀ nonce later, event = .admitted nonce later → held shards nonce = none) :
    AdmittedOnce retention (history ++ [(j, event)]) := by
  intro before i nonce now between k later after hhs
  rw [← cons_append, ← append_assoc] at hhs
  rcases concat_eq_append_cons hhs with ⟨rfl, he, hb⟩ | ⟨front, rfl, hf⟩
  · cases he
    rcases hr before i nonce now between hb.symm with hp | hh
    · exact hp
    · rw [ha nonce later rfl] at hh
      cases hh
  · rw [append_assoc, cons_append] at hf
    exact h before i nonce now between k later front hf

/-! ### Single actions -/

section Actions

variable {errors : ReplayErrors ε} {policy : ReplayPolicy} {i : ι} {answers : Answers} {store store' : NonceStore ι}

theorem DueOnlyAt.refl (now : Nat) (store : NonceStore ι) : DueOnlyAt now store store := fun _ _ => .inl rfl

theorem setShard_dueOnly {store : NonceStore ι} {shard : Fin replayShards} {owner : Option ι} {value : NonceShard}
    {now : Nat} (hv : ∀ nonce, DueOnly now ((store.shards shard).value.lookup nonce) (value.lookup nonce)) :
    DueOnlyAt now store (store.setShard shard owner value) := by
  intro other nonce
  by_cases hs : other = shard
  · subst hs
    simpa [NonceStore.setShard] using hv nonce
  · left
    simp [NonceStore.setShard, update_of_ne hs]

theorem unlock_dueOnly (store : NonceStore ι) (shard : Fin replayShards) (now : Nat) :
    DueOnlyAt now store (store.unlock shard) := setShard_dueOnly fun _ => .inl rfl

theorem lock_dueOnly {shard : Fin replayShards} (h : store.lock i shard = some store') (now : Nat) :
    DueOnlyAt now store store' := by
  rcases lock_eq_some h with ⟨-, rfl⟩
  exact setShard_dueOnly fun _ => .inl rfl

theorem purgeNonceShard_dueOnly (shard : NonceShard) (now : Nat) (nonce : Nonce) :
    DueOnly now (shard.lookup nonce) ((purgeNonceShard shard now).1.lookup nonce) := by
  rcases @purge_lookup _ _ _ _ nonceRecords shard now nonce with hs | ⟨hn, value, record, hv, hds, hd⟩
  · exact .inl hs
  · have hr : value = record.1 := by simpa [nonceRecords] using hds
    exact .inr ⟨hn, value, hv, hr ▸ hd⟩

theorem sweepStep_outcome (wrap : SweepPhase → NonceTask ε) (call : NonceCall) {now : Nat} (hn : now = call.now)
    (hc : ∀ phase, (wrap phase).call = call) {phase phase' : SweepPhase}
    {event : Option (NonceEvent ε)} (h : sweepStep now i store phase = some (store', phase', event)) :
    NonceOutcome store (wrap phase) store' (wrap phase') event := by
  have hs : (wrap phase').call = (wrap phase).call := by rw [hc, hc]
  cases phase with
  | next removed shard =>
    by_cases hlt : shard < replayShards
    · rw [sweepStep, dif_pos hlt] at h
      rcases map_eq_some_iff.1 h with ⟨locked, hl, hr⟩
      cases hr
      exact .quiet hs (lock_dueOnly hl _)
    · rw [sweepStep, dif_neg hlt] at h
      cases h
      exact .quiet hs (.refl _ _)
  | locked removed shard =>
    cases h
    refine .purged hs (by rw [hc, hn]) ?_
    exact setShard_dueOnly (purgeNonceShard_dueOnly _ now)
  | subtract removed =>
    cases h
    refine .quiet hs ?_
    split
    · exact fun _ _ => .inl rfl
    · exact .refl _ _
  | done removed => cases h

theorem reserveStep_outcome {call call' : ReserveCall ε} {event : Option (NonceEvent ε)}
    (h : reserveStep errors policy i answers store call = some (store', call', event)) :
    NonceOutcome store (.reserve call) store' (.reserve call') event := by
  rcases call with ⟨nonce, now, sweptAll, phase⟩
  cases phase with
  | called =>
    dsimp only [reserveStep] at h
    split at h
    · cases h
      exact .quiet rfl (.refl _ _)
    · cases h
      exact .refused rfl (.refl _ _)
  | lock =>
    rcases map_eq_some_iff.1 h with ⟨locked, hl, hr⟩
    cases hr
    exact .quiet rfl (lock_dueOnly hl _)
  | purge =>
    cases h
    exact .purged rfl rfl (setShard_dueOnly (purgeNonceShard_dueOnly _ _))
  | subtract removed =>
    cases h
    exact .quiet rfl fun _ _ => .inl rfl
  | lookUp =>
    dsimp only [reserveStep] at h
    split at h
    · cases h
      exact .refused rfl (unlock_dueOnly _ _ _)
    · cases h
      exact .quiet rfl (.refl _ _)
  | load =>
    dsimp only [reserveStep] at h
    split at h
    · split at h
      · cases h
        exact .refused rfl (unlock_dueOnly _ _ _)
      · cases h
        exact .quiet rfl (unlock_dueOnly _ _ _)
    · cases h
      exact .quiet rfl (.refl _ _)
  | tryReserve =>
    dsimp only [reserveStep] at h
    split at h
    · cases h
      exact .quiet rfl (.refl _ _)
    · cases h
      exact .refused rfl (unlock_dueOnly _ _ _)
  | loadSlot =>
    cases h
    exact .quiet rfl (.refl _ _)
  | exchange observed =>
    dsimp only [reserveStep] at h
    split at h
    · split at h
      · cases h
        exact .refused rfl (unlock_dueOnly _ _ _)
      · cases h
        exact .quiet rfl (unlock_dueOnly _ _ _)
    · split at h
      · cases h
        exact .quiet rfl fun _ _ => .inl rfl
      · cases h
        exact .quiet rfl (.refl _ _)
  | insert =>
    cases h
    exact .admitted rfl rfl
  | sweep phase =>
    by_cases hd : ∃ removed, phase = .done removed
    · rcases hd with ⟨removed, rfl⟩
      cases h
      exact .quiet rfl (.refl _ _)
    · rw [reserveStep_sweep hd] at h
      rcases map_eq_some_iff.1 h with ⟨⟨next, phase', event'⟩, hs, hr⟩
      cases hr
      exact sweepStep_outcome (fun phase => .reserve ⟨nonce, now, sweptAll, .sweep phase⟩) (.reserve nonce now) rfl
        (fun _ => rfl) hs
  | returned result => cases h

theorem nonceStep_outcome {task task' : NonceTask ε} {event : Option (NonceEvent ε)}
    (h : nonceStep errors policy i answers store task = some (store', task', event)) :
    NonceOutcome store task store' task' event := by
  cases task with
  | reserve call =>
    rcases map_eq_some_iff.1 h with ⟨⟨next, call', event'⟩, hrs, hr⟩
    cases hr
    exact reserveStep_outcome hrs
  | purge now phase =>
    rcases map_eq_some_iff.1 h with ⟨⟨next, phase', event'⟩, hs, hr⟩
    cases hr
    exact sweepStep_outcome (.purge now) (.purge now) rfl (fun _ => rfl) hs

theorem nonceStep_returned {task : NonceTask ε} (h : task.Returned) :
    nonceStep errors policy i answers store task = none := by
  cases task with
  | reserve call =>
    rcases call with ⟨nonce, now, sweptAll, phase⟩
    rcases h with ⟨result, rfl⟩
    rfl
  | purge now phase => cases h

end Actions

/-! ### Whole runs -/

def Speaks (call : NonceCall) : NonceEvent ε → Prop
  | .admitted nonce now => call = .reserve nonce now
  | .refused nonce now _ => call = .reserve nonce now
  | .purged _ now => now = call.now

def Ended (task : NonceTask ε) : NonceEvent ε → Prop
  | .admitted _ _ => ∃ call, task = .reserve call ∧ call.phase = .returned (.ok ())
  | .refused _ _ error => ∃ call, task = .reserve call ∧ call.phase = .returned (.error error)
  | .purged _ _ => True

structure NonceTrace (calls : ι → NonceCall) (retention : Nat) (config : Config ι (NonceStore ι) (NonceTask ε))
    (history : List (ι × NonceEvent ε)) : Prop where
  once : AdmittedOnce retention history
  call : ∀ i, (config.tasks i).call = calls i
  speaks : ∀ i event, (i, event) ∈ history → Speaks (calls i) event
  ended : ∀ i event, (i, event) ∈ history → Ended (config.tasks i) event

theorem NonceOutcome.call {event : Option (NonceEvent ε)} (h : NonceOutcome store task store' task' event) :
    task'.call = task.call := by
  cases h with
  | admitted ht _ =>
    rw [ht]
    rfl
  | refused ht _ =>
    rw [ht]
    rfl
  | purged hc _ _ => exact hc
  | quiet hc _ => exact hc

theorem NonceOutcome.speaks (h : NonceOutcome store task store' task' (some event)) : Speaks task.call event := by
  cases h with
  | admitted ht _ =>
    rw [ht]
    rfl
  | refused ht _ =>
    rw [ht]
    rfl
  | purged _ htm _ => exact htm

theorem NonceOutcome.ended (h : NonceOutcome store task store' task' (some event)) : Ended task' event := by
  cases h with
  | admitted ht _ => exact ⟨_, rfl, rfl⟩
  | refused ht _ => exact ⟨_, rfl, rfl⟩
  | purged _ _ _ => trivial

theorem NonceOutcome.dueOnly {event : Option (NonceEvent ε)} (h : NonceOutcome store task store' task' event)
    (ho : ∀ nonce now, event ≠ some (.admitted nonce now)) : DueOnlyAt task.call.now store store' := by
  cases h with
  | admitted _ _ => exact absurd rfl (ho _ _)
  | refused hts hd =>
    rw [hts]
    exact hd
  | purged _ ht hd => exact ht ▸ hd
  | quiet _ hd => exact hd

theorem NonceOutcome.checked {nonce : Nonce} {now : Nat}
    (h : NonceOutcome store task store' task' (some (.admitted nonce now))) : task.checked = some nonce := by
  cases h with
  | admitted ht hi =>
    rw [ht, NonceTask.checked, hi]

theorem Ended.of_live (h : Ended task event) (hl : ¬task.Returned)
    (task' : NonceTask ε) : Ended task' event := by
  cases event with
  | admitted nonce now =>
    rcases h with ⟨call, rfl, hp⟩
    exact absurd ⟨_, hp⟩ hl
  | refused nonce now error =>
    rcases h with ⟨call, rfl, hp⟩
    exact absurd ⟨_, hp⟩ hl
  | purged shard now => trivial

section Runs

variable {policy : ReplayPolicy} {calls : ι → NonceCall} {config : Config ι (NonceStore ι) (NonceTask ε)}
  {history : List (ι × NonceEvent ε)}

theorem NonceTrace.step [Fintype ι] [DecidableEq ι] {errors : ReplayErrors ε} {i : ι} {answers : Answers}
    {event : Option (NonceEvent ε)} (h : NonceTrace calls policy.retention config history)
    (hi : NonceInv policy config history)
    (hs : nonceStep errors policy i answers config.shared (config.tasks i) = some (store, task, event)) :
    NonceTrace calls policy.retention ⟨store, Function.update config.tasks i task⟩
      (history ++ (event.map (i, ·)).toList) := by
  have hn := nonceStep_outcome hs
  have hl : ¬(config.tasks i).Returned := by
    intro hr
    rw [nonceStep_returned hr] at hs
    cases hs
  refine ⟨?_, ?_, ?_, ?_⟩
  · cases event with
    | none => simpa using h.once
    | some event =>
      refine h.once.append hi.retained ?_
      rintro nonce later rfl
      exact hi.fresh i nonce hn.checked
  · intro j
    show (Function.update config.tasks i task j).call = calls j
    by_cases hij : j = i
    · subst hij
      rw [update_self, hn.call, h.call]
    · rw [update_of_ne hij, h.call]
  · intro j found hm
    rcases mem_append.1 hm with ho | hnw
    · exact h.speaks j found ho
    · cases event with
      | none => cases hnw
      | some event =>
        cases mem_singleton.1 hnw
        rw [← h.call]
        exact hn.speaks
  · intro j found hm
    show Ended (Function.update config.tasks i task j) found
    rcases mem_append.1 hm with ho | hnw
    · by_cases hij : j = i
      · subst hij
        exact (h.ended j found ho).of_live hl _
      · rw [update_of_ne hij]
        exact h.ended j found ho
    · cases event with
      | none => cases hnw
      | some event =>
        cases mem_singleton.1 hnw
        rw [update_self]
        exact hn.ended

theorem nonceTrace_run [Fintype ι] [DecidableEq ι] (errors : ReplayErrors ε) (policy : ReplayPolicy)
    (calls : ι → NonceCall) (schedule : List (ι × Answers)) :
    NonceTrace calls policy.retention (nonceRun errors policy calls schedule).1
      (nonceRun errors policy calls schedule).2 := by
  have hr : NonceInv policy (nonceRun errors policy calls schedule).1 (nonceRun errors policy calls schedule).2 ∧
      NonceTrace calls policy.retention (nonceRun errors policy calls schedule).1
        (nonceRun errors policy calls schedule).2 := by
    refine @execute_invariant _ _ _ _ _ _ (nonceStep errors policy)
      (fun config history => NonceInv policy config history ∧ NonceTrace calls policy.retention config history)
      (fun _ _ _ _ _ _ _ h hs => ⟨h.1.step hs, h.2.step h.1 hs⟩) _ ⟨.start policy calls, ?_, ?_, ?_, ?_⟩ schedule
    · intro before i nonce now between j later after hh
      simp at hh
    · intro i
      show ((calls i).task : NonceTask ε).call = calls i
      cases calls i <;> rfl
    · rintro i event ⟨⟩
    · rintro i event ⟨⟩
  exact hr.2

end Runs

/-- For every number of tasks, all their calls, every interleaving of their actions and every answer of
the allocator: a nonce is admitted again only after its shard was purged at or after its expiry; the
counter is between the number of entries and the capacity, and exact when no call is in progress; queue
and map of a shard hold the same nonces; a call ends once; and an action that is not an admission only
removes entries that have expired at the time of its call. -/
theorem nonce_cache_admits_once [Fintype ι] [DecidableEq ι] (errors : ReplayErrors ε) (policy : ReplayPolicy)
    (calls : ι → NonceCall) (schedule : List (ι × Answers)) :
    let config := (nonceRun errors policy calls schedule).1
    let history := (nonceRun errors policy calls schedule).2
    let stored := ∑ shard, (config.shared.shards shard).value.entries.keys.length
    (∀ before i nonce now between j later after,
      history = before ++ (i, .admitted nonce now) :: (between ++ (j, .admitted nonce later) :: after) →
      ∃ k time, (k, .purged (nonceShard nonce) time) ∈ between ∧ time = (calls k).now ∧ now + policy.retention ≤ time) ∧
    (stored ≤ config.shared.used ∧ config.shared.used ≤ policy.capacity ∧
      ((∀ i, (config.tasks i).Idle) → config.shared.used = stored)) ∧
    (∀ shard, ((config.shared.shards shard).value.expirations.map Prod.snd).Perm
      (config.shared.shards shard).value.entries.keys) ∧
    (∀ i nonce now error, (i, .refused nonce now error) ∈ history →
      ∀ nonce' now', (i, .admitted nonce' now') ∉ history) ∧
    (∀ turn : ι × Answers, (∀ nonce now, (act (nonceStep errors policy) config turn).2 ≠ some (turn.1, .admitted nonce now)) →
      ∀ shard nonce, DueOnly (calls turn.1).now ((config.shared.shards shard).value.lookup nonce)
        (((act (nonceStep errors policy) config turn).1.shared.shards shard).value.lookup nonce)) := by
  intro config history stored
  have hi : NonceInv policy config history := nonceInv_run errors policy calls schedule
  have htr : NonceTrace calls policy.retention config history := nonceTrace_run errors policy calls schedule
  have hc : config.shared.used = stored + ∑ i, (config.tasks i).pending := hi.count
  refine ⟨?_, ⟨by omega, hi.bounded, ?_⟩, fun shard => (hi.exact shard).keys, ?_, ?_⟩
  · intro before i nonce now between j later after hh
    rcases htr.once before i nonce now between j later after hh with ⟨k, time, hm, hle⟩
    have hpr : (k, NonceEvent.purged (nonceShard nonce) time) ∈ history := by
      rw [hh]
      exact mem_append_right _ (mem_cons_of_mem _ (mem_append_left _ hm))
    exact ⟨k, time, hm, htr.speaks k _ hpr, hle⟩
  · intro hid
    rw [hc, Finset.sum_eq_zero fun i _ => (hid i).pending, Nat.add_zero]
  · intro i nonce now error hr nonce' now' ha
    rcases htr.ended i _ hr with ⟨call, ht, hp⟩
    rcases htr.ended i _ ha with ⟨call', ht', hp'⟩
    rw [ht] at ht'
    cases ht'
    rw [hp] at hp'
    cases hp'
  · rintro ⟨i, answers⟩ ho shard nonce
    cases hs : nonceStep errors policy i answers config.shared (config.tasks i) with
    | none =>
      rw [act_of_none hs]
      exact .inl rfl
    | some result =>
      rcases result with ⟨store, task, event⟩
      rw [act_of_some hs] at ho ⊢
      have hd := (nonceStep_outcome hs).dueOnly ?_
      · rw [htr.call] at hd
        exact hd shard nonce
      · rintro nonce now rfl
        exact ho nonce now rfl

/-- A nonce admitted at 0 and kept for 10 is admitted again at 5, after a call at 10 has purged it; and a
call at 12 that is refused as a duplicate removes an expired entry. -/
theorem nonce_cache_late_call :
    let policy : ReplayPolicy :=
      { capacity := 4, retention := 10, lastInstant := 1000, capacity_pos := by decide, capacity_lt := by decide,
        retention_pos := by decide }
    let first : Nonce := Vector.replicate 16 0
    let second : Nonce := Vector.replicate 16 16
    let turns (i : Fin 3) : List (Fin 3 × Answers) := List.replicate 10 (i, ⟨true, true, false⟩)
    (nonceRun nxrReplayErrors policy #v[NonceCall.reserve first 0, .reserve second 10, .reserve first 5].get
        (turns 0 ++ turns 1 ++ turns 2)).2 =
      [(0, .purged (nonceShard first) 0), (0, .admitted first 0), (1, .purged (nonceShard first) 10),
        (1, .admitted second 10), (2, .purged (nonceShard first) 5), (2, .admitted first 5)] ∧
    (let run := nonceRun nxrReplayErrors policy #v[NonceCall.reserve first 0, .reserve second 5, .reserve second 12].get
     ((run (turns 0 ++ turns 1)).1.shared.shards (nonceShard first)).value.lookup first = some 10 ∧
       (2, NonceEvent.refused second 12 .duplicate) ∈ (run (turns 0 ++ turns 1 ++ turns 2)).2 ∧
       ((run (turns 0 ++ turns 1 ++ turns 2)).1.shared.shards (nonceShard first)).value.lookup first = none) := by
  decide +kernel

/-! ### Progress -/

open NonceTask NonceStore

variable {errors : ReplayErrors ε} {policy : ReplayPolicy} {i : ι} {answers : Answers}

def NonceTask.Over : NonceTask ε → Prop
  | .reserve call => ∃ result, call.phase = .returned result
  | .purge _ phase => ∃ removed, phase = .done removed

theorem setShard_owner (store : NonceStore ι) (shard other owner value) :
    ((store.setShard shard owner value).shards other).owner =
      if other = shard then owner else (store.shards other).owner := by
  by_cases h : other = shard <;> simp [setShard, h]

/-- A call that cannot act is over or waits for a lock, and holds none. -/
theorem nonceStep_none {store : NonceStore ι} {task : NonceTask ε}
    (h : nonceStep errors policy i answers store task = none) :
    task.holds = none ∧ (task.Over ∨ ∃ shard j, (store.shards shard).owner = some j) := by
  rcases task with ⟨nonce, now, sweptAll, phase⟩ | ⟨now, phase⟩
  · cases phase with
    | sweep phase =>
      cases phase <;> simp only [nonceStep, reserveStep, sweepStep, lock] at h <;> grind [holds, SweepPhase.holds, Over]
    | _ =>
      simp only [nonceStep, reserveStep, lock] at h
      grind [holds, Over]
  · cases phase <;> simp only [nonceStep, sweepStep, lock] at h <;> grind [holds, SweepPhase.holds, Over]

/-- A lock passes only to the call that acts, which holds it from then on. -/
theorem nonceStep_owner {store store' : NonceStore ι} {task task' : NonceTask ε} {event shard j}
    (h : nonceStep errors policy i answers store task = some (store', task', event))
    (hj : (store'.shards shard).owner = some j) (hk : (store.shards shard).owner = some i → task.holds = some shard) :
    j = i ∧ task'.holds = some shard ∨ j ≠ i ∧ (store.shards shard).owner = some j := by
  rcases task with ⟨nonce, now, sweptAll, phase⟩ | ⟨now, phase⟩
  · cases phase with
    | sweep phase =>
      cases phase <;> simp only [nonceStep, reserveStep, sweepStep, lock] at h <;>
        grind [holds, SweepPhase.holds, setShard_owner, fetchSub]
    | _ =>
      simp only [nonceStep, reserveStep, lock] at h
      grind [holds, SweepPhase.holds, setShard_owner, unlock, fetchSub]
  · cases phase <;> simp only [nonceStep, sweepStep, lock] at h <;>
      grind [holds, SweepPhase.holds, setShard_owner, fetchSub]

/-- No interleaving of calls deadlocks: who owns a lock can act, so while a call is not over some call can. -/
theorem nonce_cache_never_deadlocks [DecidableEq ι] (errors : ReplayErrors ε) (policy : ReplayPolicy)
    (calls : ι → NonceCall) (schedule : List (ι × Answers)) :
    let config := (nonceRun errors policy calls schedule).1
    let acts := fun i => ∀ answers, nonceStep errors policy i answers config.shared (config.tasks i) ≠ none
    (∀ shard i, (config.shared.shards shard).owner = some i → acts i) ∧ ∀ i, (config.tasks i).Over ∨ ∃ j, acts j := by
  intro config acts
  have ho : ∀ shard i, (config.shared.shards shard).owner = some i → (config.tasks i).holds = some shard := by
    refine @execute_invariant _ _ _ _ _ _ _ (fun (config : Config ι (NonceStore ι) (NonceTask ε)) _ => ∀ shard i,
      (config.shared.shards shard).owner = some i → (config.tasks i).holds = some shard) ?_ _ (by rintro _ _ ⟨⟩) schedule
    intro config history i answers store task event h hs shard j hj
    rcases nonceStep_owner hs hj (h shard i) with ⟨rfl, hh⟩ | ⟨hn, hk⟩
    · simpa using hh
    · simpa [hn] using h shard j hk
  have ha : ∀ shard i, (config.shared.shards shard).owner = some i → acts i := by
    intro shard i hi answers hn
    have hh := ho shard i hi
    rw [(nonceStep_none hn).1] at hh
    cases hh
  refine ⟨ha, fun i => ?_⟩
  by_cases hi : acts i
  · exact .inr ⟨i, hi⟩
  · obtain ⟨answers, hn⟩ := not_forall.1 hi
    rcases (nonceStep_none (not_not.1 hn)).2 with hv | ⟨shard, j, hj⟩
    · exact .inl hv
    · exact .inr ⟨j, ha shard j hj⟩

end RustReality.Replay
