import RustReality.Lib.Clock
import RustReality.Lib.Interleaving

/-!
# The cover profile cache

Callers look profiles up, nominate classes and invalidate them, one collector takes candidates off the
queue and publishes what it finds, and a deactivation empties both lists. A critical section is one
action, since what it writes is written nowhere else without the lock; every atomic load is one of its
own, so a caller acts on a list or a lifecycle that others may have changed.

The lists keep their shape in every run. The lifecycle is checked before the lock is taken and not again
under it, so they stay empty behind a deactivation when it finds no task between the two (`Settled`).
-/

namespace RustReality.Reality
open Interleaving Clock List Function Option

def maxProfileClasses : Nat := 16
def profileTtl : Nat := 10 * 60 * nanosPerSecond
def profileTtlJitter : Nat := 60 * nanosPerSecond
def failureCooldown : Nat := 30 * nanosPerSecond
def unstableCooldown : Nat := 5 * 60 * nanosPerSecond

inductive CoverLifecycle
  | created
  | active
  | stopped
  deriving DecidableEq, Repr

inductive CoverProfileState
  | unavailable
  | unstable
  deriving DecidableEq, Repr

/-- Classes are `γ`, profiles `π`. -/
structure CoverProbeTemplate (γ : Type) where
  profileClass : γ
  body : List UInt8
  deriving DecidableEq

structure PublishedProfile (γ π : Type) where
  generation : Nat
  profileClass : γ
  profile : π
  template : CoverProbeTemplate γ
  expiresAt : Nat
  deriving DecidableEq

structure Candidate (γ : Type) where
  profileClass : γ
  template : CoverProbeTemplate γ
  deriving DecidableEq

structure ProfileCooldown (γ : Type) where
  profileClass : γ
  untilTime : Nat
  state : CoverProfileState
  deriving DecidableEq

/-- `CoverProfilesInner` with the `CollectionQueue` laid open. -/
structure CoverProfiles (γ π : Type) where
  generation : Nat
  lifecycle : CoverLifecycle
  published : List (PublishedProfile γ π)
  candidates : List (Candidate γ)
  cooldowns : List (ProfileCooldown γ)
  inFlight : Option γ
  deriving DecidableEq

structure ProfileHello (γ : Type) where
  normalizedProfileClass : Option γ
  controlledCoverProbeTemplateForClass : γ → Option (CoverProbeTemplate γ)

inductive CollectionFailure
  | unavailable
  | unstable
  deriving DecidableEq, Repr

inductive CoverCall (γ : Type)
  | lookup (hello : ProfileHello γ)
  | nominate (hello : ProfileHello γ)
  | invalidate (hello : ProfileHello γ)
  | deactivate

/-- What an action meets: the call an idle task makes, the clock, the consensus and the random jitter. -/
structure CoverAnswer (γ π : Type) where
  call : CoverCall γ
  now : Nat
  consensus : Except CollectionFailure π
  entropy : Option Nat

inductive CoverTask (γ π : Type)
  | idle
  | lookup (hello : ProfileHello γ)
  | find (profileClass : γ) (now : Nat)
  | nominate (hello : ProfileHello γ)
  | nominated (hello : ProfileHello γ) (profileClass : γ) (now : Nat)
  /-- `enqueue`: look at the published list, then take the queue. -/
  | enqueue (template : CoverProbeTemplate γ) (now : Nat)
  | push (template : CoverProbeTemplate γ) (now known : Nat) (replacesExisting : Bool)
  | invalidate (profileClass : γ)
  /-- `cooldown`, called by the collector or by `invalidate`. -/
  | cooldown (collector : Bool) (profileClass : γ) (duration : Nat) (state : CoverProfileState)
  /-- `run_collector`: the head of the loop, the queue, the wait, and a candidate. -/
  | check
  | pop
  | recheck
  | notified
  | collect (candidate : Candidate γ)
  | publish (candidate : Candidate γ) (profile : π)
  | store (candidate : Candidate γ) (profile : π)
  | release
  | ended
  /-- `deactivate`: stop, then one list after the other. -/
  | stop
  | clearQueue
  | clearPublished

inductive CoverEvent (π : Type)
  | found (profile : π)
  | pushed
  | published
  | queueCleared
  | publishedCleared
  deriving DecidableEq

variable {γ π : Type} [DecidableEq γ]

def profileIsCurrent (profileGeneration currentGeneration expiresAt now : Nat) : Bool :=
  profileGeneration == currentGeneration && decide (now < expiresAt)

def collectionCapacityAvailable (known queued : Nat) (replacesExisting : Bool) : Bool :=
  replacesExisting || decide (known + queued < maxProfileClasses)

def jitteredTtl : Option Nat → Nat
  | none => profileTtl
  | some bytes => profileTtl - profileTtlJitter + bytes % (profileTtlJitter / nanosPerSecond * 2) * nanosPerSecond

namespace CoverProfiles

variable (s : CoverProfiles γ π)

def fresh (profileClass : γ) (now : Nat) : Bool :=
  s.published.any fun entry => entry.profileClass = profileClass && decide (now < entry.expiresAt)

/-- The locked part of `enqueue`; whether the candidate was taken. -/
def enqueueLocked (template : CoverProbeTemplate γ) (now known : Nat) (replacesExisting : Bool) :
    CoverProfiles γ π × Bool :=
  let s := { s with cooldowns := s.cooldowns.filter fun cooldown => now < cooldown.untilTime }
  if s.cooldowns.any (·.profileClass = template.profileClass) || s.candidates.any (·.profileClass = template.profileClass) ||
      s.inFlight == some template.profileClass || decide (maxProfileClasses ≤ s.candidates.length) then (s, false)
  else if collectionCapacityAvailable known s.candidates.length replacesExisting then
    ({ s with candidates := s.candidates ++ [⟨template.profileClass, template⟩] }, true)
  else (s, false)

/-- The locked part of `publish`. -/
def publishLocked (candidate : Candidate γ) (profile : π) (now : Nat) (entropy : Option Nat) :
    Option (CoverProfiles γ π) :=
  let profiles := s.published.filter (·.profileClass ≠ candidate.profileClass)
  if maxProfileClasses ≤ profiles.length then none
  else
    some { s with
      published := profiles ++ [{
        generation := s.generation
        profileClass := candidate.profileClass
        profile
        template := candidate.template
        expiresAt := now + jitteredTtl entropy }] }

def cooldown (profileClass : γ) (untilTime : Nat) (state : CoverProfileState) : CoverProfiles γ π :=
  let kept := if maxProfileClasses ≤ s.cooldowns.length then s.cooldowns.tail else s.cooldowns
  { s with cooldowns := kept ++ [⟨profileClass, untilTime, state⟩] }

end CoverProfiles

def coverProgram {ι : Type} : Program ι (CoverAnswer γ π) (CoverProfiles γ π) (CoverTask γ π) (CoverEvent π) :=
  fun _ answer s task =>
  match task with
  | .idle =>
    match answer.call with
    | .lookup hello => some (s, .lookup hello, none)
    | .nominate hello => some (s, .nominate hello, none)
    | .invalidate hello =>
      match hello.normalizedProfileClass with
      | none => some (s, .idle, none)
      | some profileClass => some (s, .invalidate profileClass, none)
    | .deactivate => some (s, .stop, none)
  | .lookup hello =>
    match if s.lifecycle = .active then hello.normalizedProfileClass else none with
    | none => some (s, .idle, none)
    | some profileClass => some (s, .find profileClass answer.now, none)
  | .find profileClass now =>
    match s.published.find? (·.profileClass = profileClass) with
    | none => some (s, .idle, none)
    | some entry =>
      if profileIsCurrent entry.generation s.generation entry.expiresAt now then some (s, .idle, some (.found entry.profile))
      else if entry.generation = s.generation then some (s, .enqueue entry.template now, none)
      else some (s, .idle, none)
  | .nominate hello =>
    match if s.lifecycle = .active then hello.normalizedProfileClass else none with
    | none => some (s, .idle, none)
    | some profileClass => some (s, .nominated hello profileClass answer.now, none)
  | .nominated hello profileClass now =>
    match if s.fresh profileClass now then none else hello.controlledCoverProbeTemplateForClass profileClass with
    | none => some (s, .idle, none)
    | some template => some (s, .enqueue template answer.now, none)
  | .enqueue template now =>
    if s.fresh template.profileClass now then some (s, .idle, none)
    else some (s, .push template now s.published.length (s.published.any (·.profileClass = template.profileClass)), none)
  | .push template now known replacesExisting =>
    let (s, taken) := s.enqueueLocked template now known replacesExisting
    some (s, .idle, if taken then some .pushed else none)
  | .invalidate profileClass =>
    if s.published.any (·.profileClass = profileClass) then
      some ({ s with published := s.published.filter (·.profileClass ≠ profileClass) }, .cooldown false profileClass unstableCooldown .unstable, none)
    else some (s, .idle, none)
  | .cooldown collector profileClass duration state =>
    some (s.cooldown profileClass (answer.now + duration) state, if collector then .release else .idle, none)
  | .check => some (s, if s.lifecycle = .active then .pop else .ended, none)
  | .pop =>
    match s.candidates with
    | [] => some (s, .recheck, none)
    | candidate :: candidates => some ({ s with candidates, inFlight := some candidate.profileClass }, .collect candidate, none)
  | .recheck => some (s, if s.lifecycle = .active then .notified else .ended, none)
  | .notified => some (s, .check, none)
  | .collect candidate =>
    match answer.consensus with
    | .ok profile => some (s, .publish candidate profile, none)
    | .error .unstable => some (s, .cooldown true candidate.profileClass unstableCooldown .unstable, none)
    | .error .unavailable => some (s, .cooldown true candidate.profileClass failureCooldown .unavailable, none)
  | .publish candidate profile => some (s, if s.lifecycle = .active then .store candidate profile else .release, none)
  | .store candidate profile =>
    match s.publishLocked candidate profile answer.now answer.entropy with
    | none => some (s, .release, none)
    | some s => some (s, .release, some .published)
  | .release => some ({ s with inFlight := none }, .check, none)
  | .ended => none
  | .stop => some ({ s with lifecycle := .stopped }, if s.lifecycle = .stopped then .idle else .clearQueue, none)
  | .clearQueue => some ({ s with candidates := [], cooldowns := [], inFlight := none }, .clearPublished, some .queueCleared)
  | .clearPublished => some ({ s with published := [] }, .idle, some .publishedCleared)

/-- An active cache with its collector, task `none`, and callers. -/
def coverStart (ι γ π : Type) (generation : Nat) : Config (Option ι) (CoverProfiles γ π) (CoverTask γ π) :=
  ⟨⟨generation, .active, [], [], [], none⟩, fun i => if i = none then .check else .idle⟩

namespace CoverTask

def collects : CoverTask γ π → Bool
  | cooldown collector .. => collector
  | check | pop | recheck | notified | collect _ | publish .. | store .. | release | ended => true
  | _ => false

def working : CoverTask γ π → Option γ
  | collect candidate => some candidate.profileClass
  | publish candidate _ => some candidate.profileClass
  | store candidate _ => some candidate.profileClass
  | cooldown true profileClass .. => some profileClass
  | _ => none

/-- A lookup or a nomination that has passed its lifecycle check. -/
def entered : CoverTask γ π → Bool
  | find .. | nominated .. | enqueue .. | push .. => true
  | _ => false

/-- A collector that has passed the lifecycle check of `publish`. -/
def stores : CoverTask γ π → Bool
  | store .. => true
  | _ => false

def clears : CoverTask γ π → Bool
  | clearQueue | clearPublished => true
  | _ => false

omit [DecidableEq γ] in
theorem collects_of_working {task : CoverTask γ π} {profileClass : γ} (h : profileClass ∈ task.working) :
    task.collects = true := by
  cases task with
  | cooldown collector =>
    cases collector with
    | true => rfl
    | false => cases h
  | collect | publish | store => rfl
  | _ => cases h

end CoverTask

/-! ### What one action does -/

/-- What an action of `task` does to the cache; `task'` is what the task does next. -/
inductive Changes (s : CoverProfiles γ π) (task task' : CoverTask γ π) : CoverProfiles γ π → Option (CoverEvent π) → Prop
  | none {lifecycle cooldowns} {event : Option (CoverEvent π)} (hevent : ∀ e ∈ event, ∃ profile, e = .found profile)
      (hlifecycle : lifecycle = s.lifecycle ∨ lifecycle = .stopped)
      (hworking : task'.working = none ∨ task'.working = task.working) :
      Changes s task task' { s with lifecycle, cooldowns } event
  | push {cooldowns} {candidate : Candidate γ} (hqueued : candidate.profileClass ∉ s.candidates.map (·.profileClass))
      (hflight : s.inFlight ≠ some candidate.profileClass) (hentered : task.entered) (hworking : task'.working = Option.none) :
      Changes s task task' { s with cooldowns, candidates := s.candidates ++ [candidate] } (some .pushed)
  | pop {candidate : Candidate γ} {candidates} (hqueue : s.candidates = candidate :: candidates)
      (hcollects : task.collects) (hworking : task'.working = some candidate.profileClass) :
      Changes s task task' { s with candidates, inFlight := some candidate.profileClass } Option.none
  | invalidate {profileClass : γ} (hworking : task'.working = Option.none) :
      Changes s task task' { s with published := s.published.filter (·.profileClass ≠ profileClass) } Option.none
  | publish {profileClass : γ} {entry : PublishedProfile γ π} (hclass : entry.profileClass = profileClass)
      (hroom : (s.published.filter (·.profileClass ≠ profileClass)).length < maxProfileClasses) (hstores : task.stores)
      (hworking : task'.working = Option.none) :
      Changes s task task' { s with published := s.published.filter (·.profileClass ≠ profileClass) ++ [entry] }
        (some .published)
  | release (hcollects : task.collects) (hworking : task'.working = Option.none) :
      Changes s task task' { s with inFlight := Option.none } Option.none
  | clearQueue (htask : task = .clearQueue) (hworking : task'.working = Option.none) :
      Changes s task task' { s with candidates := [], cooldowns := [], inFlight := Option.none } (some .queueCleared)
  | clearPublished (htask : task = .clearPublished) (hworking : task'.working = Option.none) :
      Changes s task task' { s with published := [] } (some .publishedCleared)

theorem enqueueLocked_changes (s : CoverProfiles γ π) (template : CoverProbeTemplate γ) (now known : Nat)
    (replacesExisting : Bool) (task : CoverTask γ π) (hentered : task.entered) :
    Changes s task .idle (s.enqueueLocked template now known replacesExisting).1
      (if (s.enqueueLocked template now known replacesExisting).2 then some .pushed else none) := by
  unfold CoverProfiles.enqueueLocked
  dsimp only
  split
  · exact .none nofun (.inl rfl) (.inl rfl)
  · next hr =>
    split
    · simp only [Bool.or_eq_true, not_or, List.any_eq_true, beq_iff_eq] at hr
      refine .push ?_ hr.1.2 hentered rfl
      intro hm
      obtain ⟨other, ho, hc⟩ := mem_map.1 hm
      exact hr.1.1.2 ⟨other, ho, by simpa using hc⟩
    · exact .none nofun (.inl rfl) (.inl rfl)

variable {task task' : CoverTask γ π} {s' : CoverProfiles γ π} {event : Option (CoverEvent π)} {s : CoverProfiles γ π}

theorem coverProgram_changes {ι : Type} {i : ι} {answer : CoverAnswer γ π}
    (h : coverProgram i answer s task = some (s', task', event)) :
    Changes s task task' s' event ∧ task'.collects = task.collects := by
  cases task with
  | idle =>
    simp only [coverProgram] at h
    split at h
    · cases h; exact ⟨.none nofun (.inl rfl) (.inl rfl), rfl⟩
    · cases h; exact ⟨.none nofun (.inl rfl) (.inl rfl), rfl⟩
    · split at h <;> cases h <;> exact ⟨.none nofun (.inl rfl) (.inl rfl), rfl⟩
    · cases h; exact ⟨.none nofun (.inl rfl) (.inl rfl), rfl⟩
  | lookup hello | nominate hello | nominated hello profileClass now | enqueue template now =>
    simp only [coverProgram] at h
    split at h <;> cases h <;> exact ⟨.none nofun (.inl rfl) (.inl rfl), rfl⟩
  | find profileClass now =>
    simp only [coverProgram] at h
    split at h
    · cases h
      exact ⟨.none nofun (.inl rfl) (.inl rfl), rfl⟩
    · split_ifs at h <;> cases h
      · exact ⟨.none (fun e he => ⟨_, (Option.some.inj he).symm⟩) (.inl rfl) (.inl rfl), rfl⟩
      · exact ⟨.none nofun (.inl rfl) (.inl rfl), rfl⟩
      · exact ⟨.none nofun (.inl rfl) (.inl rfl), rfl⟩
  | push template now known replacesExisting =>
    cases h
    exact ⟨enqueueLocked_changes s template now known replacesExisting _ rfl, rfl⟩
  | invalidate profileClass =>
    simp only [coverProgram] at h
    split at h <;> cases h
    · exact ⟨.invalidate rfl, rfl⟩
    · exact ⟨.none nofun (.inl rfl) (.inl rfl), rfl⟩
  | cooldown collector profileClass duration state =>
    cases h
    cases collector <;> exact ⟨.none nofun (.inl rfl) (.inl rfl), rfl⟩
  | check | recheck =>
    cases h
    split <;> exact ⟨.none nofun (.inl rfl) (.inl rfl), rfl⟩
  | stop =>
    cases h
    split <;> exact ⟨.none nofun (.inr rfl) (.inl rfl), rfl⟩
  | pop =>
    simp only [coverProgram] at h
    split at h
    · cases h
      exact ⟨.none nofun (.inl rfl) (.inl rfl), rfl⟩
    · next hq =>
      cases h
      exact ⟨.pop hq rfl rfl, rfl⟩
  | notified =>
    cases h
    exact ⟨.none nofun (.inl rfl) (.inl rfl), rfl⟩
  | collect candidate =>
    simp only [coverProgram] at h
    split at h <;> cases h <;> exact ⟨.none nofun (.inl rfl) (.inr rfl), rfl⟩
  | publish candidate profile =>
    cases h
    split
    · exact ⟨.none nofun (.inl rfl) (.inr rfl), rfl⟩
    · exact ⟨.none nofun (.inl rfl) (.inl rfl), rfl⟩
  | store candidate profile =>
    simp only [coverProgram, CoverProfiles.publishLocked] at h
    split_ifs at h with hf <;> cases h
    · exact ⟨.none nofun (.inl rfl) (.inl rfl), rfl⟩
    · exact ⟨.publish rfl (not_le.1 hf) rfl rfl, rfl⟩
  | release =>
    cases h
    exact ⟨.release rfl rfl, rfl⟩
  | ended => cases h
  | clearQueue =>
    cases h
    exact ⟨.clearQueue rfl rfl, rfl⟩
  | clearPublished =>
    cases h
    exact ⟨.clearPublished rfl rfl, rfl⟩

/-- How a task gets past a lifecycle check, and to the lists it clears. -/
structure Moves (s : CoverProfiles γ π) (task : CoverTask γ π) (s' : CoverProfiles γ π) (task' : CoverTask γ π) : Prop where
  entered : task'.entered = true → task.entered = true ∨ s.lifecycle = .active
  stores : task'.stores = true → task.stores = true ∨ s.lifecycle = .active
  clears : task'.clears = true → task.clears = true ∨ s'.lifecycle = .stopped

theorem coverProgram_moves {ι : Type} {i : ι} {answer : CoverAnswer γ π}
    (h : coverProgram i answer s task = some (s', task', event)) : Moves s task s' task' := by
  refine ⟨fun he => ?_, fun he => ?_, fun he => ?_⟩ <;> cases task <;>
    grind [coverProgram, CoverTask.entered, CoverTask.stores, CoverTask.clears]

/-! ### What a run keeps -/

variable {ι : Type} [DecidableEq ι]

structure CoverProfiles.Shaped (s : CoverProfiles γ π) : Prop where
  limit : s.published.length ≤ maxProfileClasses
  distinct : (s.published.map (·.profileClass)).Nodup
  queued : (s.candidates.map (·.profileClass)).Nodup
  flight : ∀ profileClass ∈ s.inFlight, profileClass ∉ s.candidates.map (·.profileClass)

structure CoverInv (config : Config (Option ι) (CoverProfiles γ π) (CoverTask γ π))
    (history : List (Option ι × CoverEvent π)) : Prop where
  shaped : config.shared.Shaped
  collector : ∀ i, (config.tasks i).collects = i.isNone
  working : ∀ profileClass ∈ (config.tasks none).working,
    config.shared.inFlight = some profileClass ∨ ∃ i, (i, CoverEvent.queueCleared) ∈ history
  stopping : ∀ i, (config.tasks i).clears = true → config.shared.lifecycle = .stopped

theorem filter_map_profileClass (profiles : List (PublishedProfile γ π)) (profileClass : γ) :
    (profiles.filter (·.profileClass ≠ profileClass)).map (·.profileClass) =
      (profiles.map (·.profileClass)).filter (· ≠ profileClass) := by
  simp [List.filter_map, Function.comp_def]

theorem Changes.shaped (h : Changes s task task' s' event) (hs : s.Shaped) : s'.Shaped := by
  have hf (profileClass : γ) : ((s.published.filter (·.profileClass ≠ profileClass)).map (·.profileClass)).Nodup := by
    rw [filter_map_profileClass]
    exact hs.distinct.filter _
  cases h with
  | none => exact ⟨hs.limit, hs.distinct, hs.queued, hs.flight⟩
  | push hqu hfl =>
    refine ⟨hs.limit, hs.distinct, ?_, fun profileClass hcl => ?_⟩
    · rw [map_append, map_singleton, nodup_append_comm]
      exact nodup_cons.2 ⟨hqu, hs.queued⟩
    · rw [map_append, map_singleton, mem_append, mem_singleton, not_or]
      exact ⟨hs.flight _ hcl, fun heq => hfl (heq ▸ hcl)⟩
  | pop hq =>
    have hqu := hs.queued
    rw [hq, map_cons, nodup_cons] at hqu
    refine ⟨hs.limit, hs.distinct, hqu.2, fun profileClass hcl => ?_⟩
    exact Option.some.inj hcl ▸ hqu.1
  | invalidate => exact ⟨(length_filter_le _ _).trans hs.limit, hf _, hs.queued, hs.flight⟩
  | @publish profileClass entry hcl hr =>
    refine ⟨by rw [length_append, length_singleton]; exact hr, ?_, hs.queued, hs.flight⟩
    rw [map_append, map_singleton, nodup_append_comm]
    refine nodup_cons.2 ⟨?_, hf _⟩
    rw [filter_map_profileClass, hcl]
    simp
  | release => exact ⟨hs.limit, hs.distinct, hs.queued, nofun⟩
  | clearQueue => exact ⟨hs.limit, hs.distinct, nodup_nil, nofun⟩
  | clearPublished => exact ⟨Nat.zero_le _, nodup_nil, hs.queued, hs.flight⟩

theorem Changes.inFlight_caller (h : Changes s task task' s' event)
    (hcaller : task.collects = false) : s'.inFlight = s.inFlight ∨ event = some .queueCleared := by
  cases h with
  | clearQueue => exact .inr rfl
  | pop _ hc | release hc => exact absurd (hcaller.symm.trans hc) nofun
  | _ => exact .inl rfl

/-- The class the collector works on is the one it has just marked, or the one it worked on before. -/
theorem Changes.working_collector (h : Changes s task task' s' event) :
    ∀ profileClass ∈ task'.working, s'.inFlight = some profileClass ∨ (s'.inFlight = s.inFlight ∧ profileClass ∈ task.working) := by
  intro profileClass hm
  cases h with
  | none _ _ hworking =>
    rcases hworking with hnone | hsame
    · exact absurd (hnone.symm.trans hm) nofun
    · exact .inr ⟨rfl, hsame ▸ hm⟩
  | pop _ _ hworking => exact .inl (hworking.symm.trans hm)
  | push _ _ _ hworking | publish _ _ _ hworking | release _ hworking | invalidate hworking | clearQueue _ hworking
  | clearPublished _ hworking => exact absurd (hworking.symm.trans hm) nofun

theorem Changes.stopped (h : Changes s task task' s' event) (hstopped : s.lifecycle = .stopped) :
    s'.lifecycle = .stopped := by
  cases h with
  | none _ hlifecycle => exact hlifecycle.elim (·.trans hstopped) id
  | _ => exact hstopped

theorem CoverInv.step {config : Config (Option ι) (CoverProfiles γ π) (CoverTask γ π)}
    {history : List (Option ι × CoverEvent π)} (h : CoverInv config history) {i : Option ι} {answer : CoverAnswer γ π}
    (hact : coverProgram i answer config.shared (config.tasks i) = some (s', task', event)) :
    CoverInv ⟨s', Function.update config.tasks i task'⟩ (history ++ (event.map (i, ·)).toList) := by
  obtain ⟨hchanges, hcollects⟩ := coverProgram_changes hact
  refine ⟨hchanges.shaped h.shaped, fun j => ?_, fun profileClass hworks => ?_, fun j hclears => ?_⟩
  · by_cases hj : j = i
    · subst hj
      simpa using hcollects.trans (h.collector j)
    · simpa [update_of_ne hj] using h.collector j
  · by_cases hi : i = none
    · subst hi
      rcases hchanges.working_collector profileClass (by simpa using hworks) with hmarked | ⟨hkept, hbefore⟩
      · exact .inl hmarked
      · exact (h.working profileClass hbefore).imp hkept.trans fun ⟨j, hj⟩ => ⟨j, mem_append_left _ hj⟩
    · dsimp only at hworks
      rw [update_of_ne (Ne.symm hi)] at hworks
      have hcaller : (config.tasks i).collects = false := by
        rw [h.collector i]
        exact isNone_eq_false_iff.2 (isSome_iff_ne_none.2 hi)
      rcases hchanges.inFlight_caller hcaller with hkept | rfl
      · exact (h.working profileClass hworks).imp hkept.trans fun ⟨j, hj⟩ => ⟨j, mem_append_left _ hj⟩
      · exact .inr ⟨i, mem_append_right _ (by simp)⟩
  · by_cases hj : j = i
    · subst hj
      rcases (coverProgram_moves hact).clears (by simpa using hclears) with hbefore | hstopped
      · exact hchanges.stopped (h.stopping j hbefore)
      · exact hstopped
    · exact hchanges.stopped (h.stopping j (by simpa [update_of_ne hj] using hclears))

theorem coverInv_execute (generation : Nat) (schedule : List (Option ι × CoverAnswer γ π)) :
    CoverInv (execute coverProgram (coverStart ι γ π generation) schedule).1
      (execute coverProgram (coverStart ι γ π generation) schedule).2 := by
  refine execute_invariant (fun config history i answer s' task' event h hact => h.step hact) ?_ schedule
  refine ⟨⟨Nat.zero_le _, nodup_nil, nodup_nil, nofun⟩, fun i => ?_, nofun, fun i hclears => ?_⟩
  · cases i <;> rfl
  · cases i <;> cases hclears

/-! ### What a deactivation leaves -/

/-- A task that clears the queue finds no lookup or nomination past its lifecycle check, and one that clears
the published list no collector past it. -/
def Settled (config : Config (Option ι) (CoverProfiles γ π) (CoverTask γ π)) (i : Option ι) : Prop :=
  (config.tasks i = .clearQueue → ∀ j, (config.tasks j).entered = false) ∧
    (config.tasks i = .clearPublished → ∀ j, (config.tasks j).stores = false)

/-- The list is empty, and no task can get where it is added to. -/
structure Shut {α : Type} (late : CoverTask γ π → Bool) (list : List α)
    (config : Config (Option ι) (CoverProfiles γ π) (CoverTask γ π)) : Prop where
  stopped : config.shared.lifecycle = .stopped
  empty : list = []
  early : ∀ j, late (config.tasks j) = false

theorem Shut.step {α : Type} {late : CoverTask γ π → Bool} {list list' : List α}
    {config : Config (Option ι) (CoverProfiles γ π) (CoverTask γ π)} (h : Shut late list config) {i : Option ι}
    (hchanges : Changes config.shared (config.tasks i) task' s' event)
    (hlate : late task' = true → late (config.tasks i) = true ∨ config.shared.lifecycle = .active)
    (hlist : late (config.tasks i) = false → list = [] → list' = []) :
    Shut late list' ⟨s', Function.update config.tasks i task'⟩ := by
  refine ⟨hchanges.stopped h.stopped, hlist (h.early i) h.empty, fun j => ?_⟩
  by_cases hj : j = i
  · subst hj
    refine Bool.eq_false_iff.2 fun hl => ?_
    rcases hlate (by simpa using hl) with hbefore | hactive
    · exact Bool.noConfusion ((h.early j).symm.trans hbefore)
    · exact CoverLifecycle.noConfusion (h.stopped.symm.trans hactive)
  · simpa [update_of_ne hj] using h.early j

/-- Behind its clearing a list is shut. -/
structure Emptied (config : Config (Option ι) (CoverProfiles γ π) (CoverTask γ π))
    (history : List (Option ι × CoverEvent π)) : Prop extends CoverInv config history where
  queue : (∃ i, (i, CoverEvent.queueCleared) ∈ history) → Shut CoverTask.entered config.shared.candidates config
  list : (∃ i, (i, CoverEvent.publishedCleared) ∈ history) → Shut CoverTask.stores config.shared.published config

theorem Changes.queue_empty (h : Changes s task task' s' event) (hearly : task.entered = false)
    (hempty : s.candidates = []) : s'.candidates = [] := by
  cases h with
  | push _ _ hentered => exact Bool.noConfusion (hearly.symm.trans hentered)
  | pop hqueue => exact absurd (hqueue.symm.trans hempty) nofun
  | clearQueue => rfl
  | _ => exact hempty

theorem Changes.list_empty (h : Changes s task task' s' event) (hearly : task.stores = false)
    (hempty : s.published = []) : s'.published = [] := by
  cases h with
  | publish _ _ hstores => exact Bool.noConfusion (hearly.symm.trans hstores)
  | invalidate => simp [hempty]
  | clearPublished => rfl
  | _ => exact hempty

theorem Changes.queueCleared (h : Changes s task task' s' (some .queueCleared)) :
    task = .clearQueue ∧ s'.candidates = [] := by
  cases h with
  | none hevent => exact absurd (hevent _ rfl) nofun
  | clearQueue htask => exact ⟨htask, rfl⟩

theorem Changes.publishedCleared (h : Changes s task task' s' (some .publishedCleared)) :
    task = .clearPublished ∧ s'.published = [] := by
  cases h with
  | none hevent => exact absurd (hevent _ rfl) nofun
  | clearPublished htask => exact ⟨htask, rfl⟩

theorem Emptied.step {config : Config (Option ι) (CoverProfiles γ π) (CoverTask γ π)}
    {history : List (Option ι × CoverEvent π)} (h : Emptied config history) {i : Option ι} (hsettled : Settled config i)
    {answer : CoverAnswer γ π}
    (hact : coverProgram i answer config.shared (config.tasks i) = some (s', task', event)) :
    Emptied ⟨s', Function.update config.tasks i task'⟩ (history ++ (event.map (i, ·)).toList) := by
  obtain ⟨hchanges, -⟩ := coverProgram_changes hact
  have hmoves := coverProgram_moves hact
  refine ⟨h.toCoverInv.step hact, ?_, ?_⟩
  · rintro ⟨j, hm⟩
    rcases mem_append.1 hm with hold | hnew
    · exact (h.queue ⟨j, hold⟩).step hchanges hmoves.entered hchanges.queue_empty
    · obtain ⟨e, he, heq⟩ := Option.map_eq_some_iff.1 (Option.mem_toList.1 hnew)
      cases heq
      subst he
      obtain ⟨htask, hempty⟩ := hchanges.queueCleared
      have hshut : Shut CoverTask.entered ([] : List (Candidate γ)) config :=
        ⟨h.stopping i (by rw [htask]; rfl), rfl, hsettled.1 htask⟩
      exact hshut.step hchanges hmoves.entered fun _ _ => hempty
  · rintro ⟨j, hm⟩
    rcases mem_append.1 hm with hold | hnew
    · exact (h.list ⟨j, hold⟩).step hchanges hmoves.stores hchanges.list_empty
    · obtain ⟨e, he, heq⟩ := Option.map_eq_some_iff.1 (Option.mem_toList.1 hnew)
      cases heq
      subst he
      obtain ⟨htask, hempty⟩ := hchanges.publishedCleared
      have hshut : Shut CoverTask.stores ([] : List (PublishedProfile γ π)) config :=
        ⟨h.stopping i (by rw [htask]; rfl), rfl, hsettled.2 htask⟩
      exact hshut.step hchanges hmoves.stores fun _ _ => hempty

theorem emptied_execute (generation : Nat) (schedule : List (Option ι × CoverAnswer γ π))
    (hsettled : ∀ front turn back, schedule = front ++ turn :: back →
      Settled (execute coverProgram (coverStart ι γ π generation) front).1 turn.1) :
    Emptied (execute coverProgram (coverStart ι γ π generation) schedule).1
      (execute coverProgram (coverStart ι γ π generation) schedule).2 := by
  refine execute_invariant_of (fun config history i answer s' task' event h hs hact => h.step hs hact) ?_ schedule hsettled
  refine ⟨coverInv_execute generation [], ?_, ?_⟩ <;> rintro ⟨i, ⟨⟩⟩

/-! ### The cache -/

/-- In every run the published list is within its limit and has every class once, and the queue has every
class once and not the one that is marked as in flight. In a run whose deactivations find no task past its
lifecycle check when they clear a list, the queue does not hold the class the collector works on either, and
once a deactivation has cleared both lists they are empty. -/
theorem cover_profiles_bounded (generation : Nat) (schedule : List (Option ι × CoverAnswer γ π)) :
    let run := execute coverProgram (coverStart ι γ π generation) schedule
    let s := run.1.shared
    s.published.length ≤ maxProfileClasses ∧ (s.published.map (·.profileClass)).Nodup ∧
      (s.candidates.map (·.profileClass)).Nodup ∧
      (∀ profileClass ∈ s.inFlight, profileClass ∉ s.candidates.map (·.profileClass)) ∧
      ((∀ front turn back, schedule = front ++ turn :: back →
          Settled (execute coverProgram (coverStart ι γ π generation) front).1 turn.1) →
        (∀ i, ∀ profileClass ∈ (run.1.tasks i).working, profileClass ∉ s.candidates.map (·.profileClass)) ∧
        ((∃ i, (i, .queueCleared) ∈ run.2) → (∃ i, (i, .publishedCleared) ∈ run.2) →
          s.candidates = [] ∧ s.published = [])) := by
  intro run s
  have h : CoverInv run.1 run.2 := coverInv_execute generation schedule
  refine ⟨h.shaped.limit, h.shaped.distinct, h.shaped.queued, h.shaped.flight, fun hsettled => ?_⟩
  have he : Emptied run.1 run.2 := emptied_execute generation schedule hsettled
  refine ⟨fun i profileClass hworks => ?_, fun hqueue hlist => ⟨(he.queue hqueue).empty, (he.list hlist).empty⟩⟩
  have hi : i = none := by
    have hcollects := CoverTask.collects_of_working hworks
    rw [h.collector i] at hcollects
    exact isNone_iff_eq_none.1 hcollects
  subst hi
  rcases h.working profileClass hworks with hmarked | hcleared
  · exact h.shaped.flight profileClass hmarked
  · show profileClass ∉ s.candidates.map (·.profileClass)
    rw [(he.queue hcleared).empty]
    exact not_mem_nil

/-- A nomination passes the lifecycle check and both looks at the published list; a deactivation runs
from start to end and the collector ends; then the nomination takes the queue. -/
theorem nomination_outlives_deactivation :
    let hello : ProfileHello Nat := ⟨some 7, fun profileClass => some ⟨profileClass, []⟩⟩
    let turn (call : CoverCall Nat) : CoverAnswer Nat Nat := ⟨call, 0, .error .unavailable, none⟩
    let run := execute coverProgram (coverStart Bool Nat Nat 0)
      (List.replicate 4 (some true, turn (.nominate hello)) ++ List.replicate 4 (some false, turn .deactivate) ++
        [(none, turn .deactivate), (some true, turn .deactivate)])
    (match run.1.tasks none, run.1.tasks (some true), run.1.tasks (some false) with
      | .ended, .idle, .idle => true
      | _, _, _ => false) = true ∧
      (some false, .queueCleared) ∈ run.2 ∧ (some false, .publishedCleared) ∈ run.2 ∧
      run.1.shared.candidates = [⟨7, ⟨7, []⟩⟩] := by
  decide +kernel

end RustReality.Reality
