import RustReality.Replay.RealityCacheOnce

/-!
# A replay cache whose events happen in time order

The events of a run carry the clock readings of their calls. If these are in order, a committed key is
reserved again only when its lifetime has passed, and it is stored as long as it has not.
-/

namespace RustReality.Replay.Reality
open List Function Option Expiry Interleaving

variable {ι : Type}

def ReplayEvent.now : ReplayEvent → Nat
  | .purged _ now => now
  | .reserved _ _ now => now
  | .committed _ _ now => now

theorem ReplayEvent.now_of_purges {event : ReplayEvent} {shard : Fin replayShards} {time : Nat}
    (h : event.purges = some (shard, time)) : event.now = time := by
  cases event <;> cases h <;> rfl

def InTimeOrder (history : List (ι × ReplayEvent)) : Prop :=
  history.Pairwise fun first second => first.2.now ≤ second.2.now

/-! ### Which call an event belongs to -/

def ReplayTask.call : ReplayTask → ReplayCall
  | .reservation own => .reserve own.key own.now
  | .purge now _ => .purge now

def ReplayCall.now : ReplayCall → Nat
  | .reserve _ now => now
  | .purge now => now

def Speaks (call : ReplayCall) : ReplayEvent → Prop
  | .purged _ now => now = call.now
  | .reserved key _ now => call = .reserve key now
  | .committed key _ _ => ∃ now, call = .reserve key now

section Turn

variable {policy : ReplayPolicy} {store store' : ReplayStore} {own : Reservation} {phase : ReservationPhase}
  {event : Option ReplayEvent}

theorem ReservationTurn.speaks {event : ReplayEvent} (h : ReservationTurn policy store own store' phase (some event)) :
    Speaks (.reserve own.key own.now) event := by
  cases h with
  | purge => rfl
  | reserve => rfl
  | commit => exact ⟨own.now, rfl⟩

theorem ReservationTurn.held {generation : Nat} (h : ReservationTurn policy store own store' phase event)
    (hphase : phase = .held generation) :
    event = some (.reserved own.key generation own.now) ∨ own.phase = .held generation := by
  subst hphase
  cases h with
  | move hm => cases hm.2
  | purge hm => cases hm.2
  | reserve => exact .inl rfl
  | givesUp ho hp => exact .inr (hp.elim (fun hp => ho.trans hp.symm) nofun)

end Turn

/-- A reservation that is held was made before, and so was one that is committed. -/
structure ReplayTrace (calls : ι → ReplayCall) (config : Config ι ReplayStore ReplayTask)
    (history : List (ι × ReplayEvent)) : Prop where
  call : ∀ i, (config.tasks i).call = calls i
  speaks : ∀ i event, (i, event) ∈ history → Speaks (calls i) event
  held : ∀ i own generation, config.tasks i = .reservation own → own.phase = .held generation →
    (i, .reserved own.key generation own.now) ∈ history
  committed : ∀ before i key generation now after, history = before ++ (i, .committed key generation now) :: after →
    ∃ time, calls i = .reserve key time ∧ (i, .reserved key generation time) ∈ before

section Runs

variable [DecidableEq ι] {policy : ReplayPolicy} {calls : ι → ReplayCall} {config : Config ι ReplayStore ReplayTask}
  {history : List (ι × ReplayEvent)}

theorem ReplayTrace.append (h : ReplayTrace calls config history) {i : ι} {store : ReplayStore} {task : ReplayTask}
    {event : Option ReplayEvent} (hc : task.call = (config.tasks i).call)
    (hs : ∀ found, event = some found → Speaks (config.tasks i).call found)
    (hheld : ∀ own generation, task = .reservation own → own.phase = .held generation →
      event = some (.reserved own.key generation own.now) ∨ (i, .reserved own.key generation own.now) ∈ history)
    (hcommit : ∀ key generation now, event = some (.committed key generation now) →
      ∃ time, calls i = .reserve key time ∧ (i, .reserved key generation time) ∈ history) :
    ReplayTrace calls ⟨store, Function.update config.tasks i task⟩ (history ++ (event.map (i, ·)).toList) := by
  constructor
  · intro j
    show (Function.update config.tasks i task j).call = calls j
    by_cases hij : j = i
    · subst hij
      rw [update_self, hc, h.call]
    · rw [update_of_ne hij, h.call]
  · intro j found hm
    rcases mem_append.1 hm with ho | hn
    · exact h.speaks j found ho
    · cases event with
      | none => cases hn
      | some event =>
        cases mem_singleton.1 hn
        rw [← h.call]
        exact hs _ rfl
  · intro j own generation ht hp
    change Function.update config.tasks i task j = _ at ht
    by_cases hij : j = i
    · subst hij
      rw [update_self] at ht
      rcases hheld own generation ht hp with rfl | hm
      · exact mem_append_right _ (mem_singleton_self _)
      · exact mem_append_left _ hm
    · rw [update_of_ne hij] at ht
      exact mem_append_left _ (h.held j own generation ht hp)
  · intro before j key generation now after hh
    cases event with
    | none =>
      rw [map_none, toList_none, append_nil] at hh
      exact h.committed before j key generation now after hh
    | some event =>
      rcases concat_eq_append_cons hh with ⟨rfl, he, rfl⟩ | ⟨front, rfl, hf⟩
      · cases he
        exact hcommit key generation now rfl
      · exact h.committed before j key generation now front hf

theorem ReplayTrace.step (h : ReplayTrace calls config history) {i : ι} {answers : Answers} {store : ReplayStore}
    {task : ReplayTask} {event : Option ReplayEvent}
    (hs : replayStep policy i answers config.shared (config.tasks i) = some (store, task, event)) :
    ReplayTrace calls ⟨store, Function.update config.tasks i task⟩ (history ++ (event.map (i, ·)).toList) := by
  cases ht : config.tasks i with
  | purge now index =>
    rw [ht] at hs
    dsimp only [replayStep] at hs
    split at hs
    · cases hs
      refine h.append (by rw [ht]; rfl) ?_ ?_ ?_
      · rintro found ⟨⟩
        rw [ht]
        rfl
      · rintro own generation ⟨⟩
      · rintro key generation time ⟨⟩
    · cases hs
  | reservation own =>
    rw [ht] at hs
    rcases map_eq_some_iff.1 hs with ⟨⟨next, own', event'⟩, hrs, hr⟩
    cases hr
    rcases reservationStep_turn hrs with ⟨phase, rfl, htr⟩
    have ho : (config.tasks i).call = .reserve own.key own.now := by
      rw [ht]
      rfl
    refine h.append ?_ ?_ ?_ ?_
    · rw [ho, ReplayTask.call]
    · rintro found rfl
      rw [ho]
      exact htr.speaks
    · rintro _ generation ⟨⟩ hph
      exact (htr.held hph).imp_right (h.held i own generation ht)
    · rintro key generation now rfl
      cases htr with
      | commit hh =>
        refine ⟨own.now, ?_, h.held i own _ ht hh⟩
        rw [← h.call, ho]

theorem replayTrace_run (policy : ReplayPolicy) (calls : ι → ReplayCall) (schedule : List (ι × Answers)) :
    ReplayTrace calls (replayRun policy calls schedule).1 (replayRun policy calls schedule).2 := by
  refine @execute_invariant _ _ _ _ _ _ (replayStep policy) (ReplayTrace calls)
    (fun _ _ _ _ _ _ _ h hs => h.step hs) _ ?_ schedule
  constructor
  · intro i
    show (calls i).task.call = calls i
    cases calls i <;> rfl
  · rintro i event ⟨⟩
  · intro i own generation ht hp
    change (calls i).task = .reservation own at ht
    cases hc : calls i with
    | reserve key now =>
      rw [hc] at ht
      cases ht
      cases hp
    | purge now =>
      rw [hc] at ht
      cases ht
  · intro before i key generation now after hh
    simp at hh

/-! ### Runs in time order -/

variable {schedule : List (ι × Answers)} {key : ReplayKey}

theorem InTimeOrder.reserved_le (ho : InTimeOrder (replayRun policy calls schedule).2) {i : ι}
    {generation now : Nat} {before after : List (ι × ReplayEvent)}
    (hh : (replayRun policy calls schedule).2 = before ++ (i, .committed key generation now) :: after) :
    (calls i).now ≤ now := by
  rcases (replayTrace_run policy calls schedule).committed before i key generation now after hh with
    ⟨time, hc, hm⟩
  rw [hh] at ho
  have hle : time ≤ now := (pairwise_append.1 ho).2.2 _ hm _ mem_cons_self
  rw [hc]
  exact hle

variable [Fintype ι]

theorem InTimeOrder.reserved_again (ho : InTimeOrder (replayRun policy calls schedule).2) {i j : ι}
    {generation generation' now later : Nat} {before between after : List (ι × ReplayEvent)}
    (hh : (replayRun policy calls schedule).2 = before ++ (i, .committed key generation now) ::
      (between ++ (j, .reserved key generation' later) :: after)) :
    now + policy.committedTtl ≤ later := by
  rcases (replayInv_run policy calls schedule).2 before i key generation now between j generation' later after hh with
    he | ⟨k, event, time, hm, hp, hle⟩
  · exact he
  · rw [hh] at ho
    have ht := (pairwise_append.1 (pairwise_cons.1 (pairwise_append.1 ho).2.1).2).2.2
    have hb : event.now ≤ later := ht _ hm _ mem_cons_self
    rw [ReplayEvent.now_of_purges hp] at hb
    exact hle.trans hb

/-- A committed key is stored as long as the clock has not reached the end of its lifetime. -/
theorem committed_until {i : ι} {generation now instant : Nat}
    (hc : (i, .committed key generation now) ∈ (replayRun policy calls schedule).2)
    (hr : ∀ found ∈ (replayRun policy calls schedule).2, found.2.now ≤ instant)
    (htime : instant < now + policy.committedTtl) :
    ((replayRun policy calls schedule).1.shared.shards (shardIndex key)).lookup key =
      some ⟨generation, true, now + policy.committedTtl⟩ := by
  have hi := (replayInv_run policy calls schedule).1
  rcases append_of_mem hc with ⟨before, after, hh⟩
  rcases hi.kept before i key generation now after hh with ⟨k, event, time, hm, hp, hle⟩ | hs
  · have he := hr (k, event) (by
      rw [hh]
      exact mem_append_right _ (mem_cons_of_mem _ hm))
    have ht := ReplayEvent.now_of_purges hp
    dsimp only at he
    omega
  · exact hs

end Runs

end RustReality.Replay.Reality
