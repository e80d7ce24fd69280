import RustReality.Lib.Interleaving

/-!
# The descriptor budget

Permits are reservations of units of one budget. The count, the pressure flag and the wake-ups are
separate atomics, and a call updates them one after the other: a task's state says which atomic
operation comes next, and tasks take turns in any order. A permit may move between tasks, so the live
ones form one pool.

The count is exact at every moment. The flag is only as fresh as the last swap: a swap that was decided
on a count which has since crossed to the other watermark leaves the wrong flag behind (`FdTask.Timely`).
-/

namespace RustReality.Transport
open Interleaving

/-- Capacity and watermarks; `identity` is the allocation that clones of a budget share. -/
structure FdBudget where
  identity : Nat
  capacity : Nat
  highWatermark : Nat
  lowWatermark : Nat
  capacity_lt : capacity < 2 ^ 64
  highWatermark_pos : 0 < highWatermark

namespace FdBudget

/-- `u64::saturating_mul`. -/
def saturatingMul (a b : Nat) : Nat := min (a * b) (2 ^ 64 - 1)

def new (identity : Nat) (capacity : UInt64) : FdBudget :=
  let capacity' := max capacity.toNat 1
  let highWatermark := min (max (saturatingMul capacity' 15 / 16) 1) capacity'
  { identity
    capacity := capacity'
    highWatermark
    lowWatermark := min (saturatingMul capacity' 13 / 16) highWatermark
    capacity_lt := by
      have := capacity.toNat_lt
      omega
    highWatermark_pos := by omega }

end FdBudget

structure FdPermit where
  budget : Nat
  units : Nat
  deriving DecidableEq

/-- Both permits come back unchanged when the budgets differ or the sum does not fit its `u32`. -/
def FdPermit.merge (self other : FdPermit) : Except (FdPermit × FdPermit) FdPermit :=
  if self.budget ≠ other.budget then .error (self, other)
  else if self.units + other.units ≥ 2 ^ 32 then .error (self, other)
  else .ok { self with units := self.units + other.units }

inductive FdPressure
  | normal
  | high
  deriving DecidableEq, Repr

/-- The atomics of a budget, and the live permits of this and other budgets. -/
structure FdState where
  used : Nat
  underPressure : Bool
  waiters : Nat
  /-- How often `released.notify_waiters` was called. A `Notified` is woken by every call behind its creation. -/
  released : Nat
  underflows : Nat
  permits : List FdPermit
  deriving DecidableEq

def FdState.pressure (s : FdState) : FdPressure := if s.underPressure then .high else .normal

/-- The caller of `try_acquire`: a plain call, the first attempt of `acquire`, or its recheck behind a `Notified`. -/
inductive Attempt
  | plain
  | first
  | recheck (seen : Nat)
  deriving DecidableEq

/-- Why `acquire` drops its `WaiterCount`. -/
inductive Leave
  | acquired
  | woken
  | cancelled
  deriving DecidableEq

inductive FdTask
  | idle
  /-- `try_acquire`: load the count, exchange it, `observe_acquired`. -/
  | load (attempt : Attempt) (units : Nat)
  | exchange (attempt : Attempt) (units current : Nat)
  | observe (attempt : Attempt) (units next : Nat)
  /-- `acquire` behind a failed attempt: count the waiter, create the `Notified`, await it, drop the count. -/
  | count (units : Nat)
  | listen (units : Nat)
  | parked (units seen : Nat)
  | leave (why : Leave) (units : Nat)
  /-- `release`: load the count, exchange it, swap the flag, look for waiters, wake them. -/
  | unload (units : Nat)
  | subtract (units current : Nat)
  | relieve (remaining : Nat)
  | wake
  | notify
  deriving DecidableEq

inductive FdAnswer
  | tryAcquire (units : Nat)
  | acquire (units : Nat)
  | drop (permit : FdPermit)
  | merge (self other : FdPermit)
  /-- A permit of another budget comes in. -/
  | receive (permit : FdPermit)
  /-- A weak exchange fails although the count is the expected one. -/
  | spurious
  | cancel
  | proceed
  deriving DecidableEq

variable (b : FdBudget)

def fdCall (s : FdState) : FdAnswer → Option (FdState × FdTask × Option Empty)
  | .tryAcquire units =>
    if units = 0 then some ({ s with permits := ⟨b.identity, 0⟩ :: s.permits }, .idle, none)
    else some (s, .load .plain units, none)
  | .acquire units =>
    if units = 0 then some ({ s with permits := ⟨b.identity, 0⟩ :: s.permits }, .idle, none)
    else some (s, .load .first units, none)
  | .drop permit =>
    if permit ∈ s.permits then
      let s := { s with permits := s.permits.erase permit }
      if permit.budget = b.identity ∧ permit.units ≠ 0 then some (s, .unload permit.units, none) else some (s, .idle, none)
    else none
  | .merge self other =>
    if self ∈ s.permits ∧ other ∈ s.permits.erase self then
      match self.merge other with
      | .error _ => some (s, .idle, none)
      | .ok merged => some ({ s with permits := merged :: (s.permits.erase self).erase other }, .idle, none)
    else none
  | .receive permit =>
    if permit.budget = b.identity then none else some ({ s with permits := permit :: s.permits }, .idle, none)
  | _ => none

def fdProgram {ι : Type} : Program ι FdAnswer FdState FdTask Empty := fun _ answer s task =>
  match task with
  | .idle => fdCall b s answer
  | .load attempt units => some (s, .exchange attempt units s.used, none)
  | .exchange attempt units current =>
    -- `checked_add` of a `u64`
    if current + units ≥ 2 ^ 64 ∨ current + units > b.capacity then
      match attempt with
      | .plain => some (s, .idle, none)
      | .first => some (s, .count units, none)
      | .recheck seen => some (s, .parked units seen, none)
    else if s.used = current ∧ answer ≠ .spurious then
      some ({ s with used := current + units }, .observe attempt units (current + units), none)
    else some (s, .exchange attempt units s.used, none)
  | .observe attempt units next =>
    let raised := decide (b.highWatermark ≤ next)
    let s' := { s with underPressure := s.underPressure || raised }
    match attempt with
    | .recheck _ => some (s', .leave .acquired units, none)
    | _ => some ({ s' with permits := ⟨b.identity, units⟩ :: s.permits }, .idle, none)
  | .count units => some ({ s with waiters := s.waiters + 1 }, .listen units, none)
  | .listen units => some (s, .load (.recheck s.released) units, none)
  | .parked units seen =>
    if answer = .cancel then some (s, .leave .cancelled units, none)
    else if s.released ≠ seen then some (s, .leave .woken units, none)
    else none
  | .leave why units =>
    let s := { s with waiters := s.waiters - 1 }
    match why with
    | .acquired => some ({ s with permits := ⟨b.identity, units⟩ :: s.permits }, .idle, none)
    | .woken => some (s, .load .first units, none)
    | .cancelled => some (s, .idle, none)
  | .unload units => some (s, .subtract units s.used, none)
  | .subtract units current =>
    if current < units then some ({ s with underflows := s.underflows + 1 }, .idle, none)
    else if s.used = current ∧ answer ≠ .spurious then
      some ({ s with used := current - units }, .relieve (current - units), none)
    else some (s, .subtract units s.used, none)
  | .relieve remaining =>
    if remaining ≤ b.lowWatermark then some ({ s with underPressure := false }, .wake, none) else some (s, .wake, none)
  | .wake => if 0 < s.waiters then some (s, .notify, none) else some (s, .idle, none)
  | .notify => some ({ s with released := s.released + 1 }, .idle, none)

def fdStart (ι : Type) : Config ι FdState FdTask := ⟨⟨0, false, 0, 0, 0, []⟩, fun _ => .idle⟩

def live (permits : List FdPermit) : Nat :=
  (permits.map fun permit => if permit.budget = b.identity then permit.units else 0).sum

namespace FdTask

/-- The units a call in progress stands for: reserved and not yet a permit, or no permit any more and still reserved. -/
@[simp] def held : FdTask → Nat
  | observe _ units _ => units
  | leave .acquired units => units
  | unload units => units
  | subtract units _ => units
  | _ => 0

def Updated : FdTask → Prop
  | observe .. => True
  | leave .acquired _ => True
  | relieve _ => True
  | wake => True
  | notify => True
  | _ => False

@[simp] def Waking : FdTask → Prop
  | relieve _ => True
  | wake => True
  | notify => True
  | _ => False

@[simp] def Raising : FdTask → Prop
  | observe _ _ next => b.highWatermark ≤ next
  | _ => False

@[simp] def Lowering : FdTask → Prop
  | relieve remaining => remaining ≤ b.lowWatermark
  | _ => False

/-- A call whose own count is at a watermark swaps the flag while the count has not reached the other one. -/
def Timely (used : Nat) (task : FdTask) : Prop :=
  (task.Raising b → b.lowWatermark < used) ∧ (task.Lowering b → used < b.highWatermark)

/-- One for a task that holds a `WaiterCount`. -/
@[simp] def waiting : FdTask → Nat
  | listen _ => 1
  | load (.recheck _) _ => 1
  | exchange (.recheck _) _ _ => 1
  | observe (.recheck _) _ _ => 1
  | parked _ _ => 1
  | leave _ _ => 1
  | _ => 0

@[simp] def seen : FdTask → Option Nat
  | load (.recheck n) _ => some n
  | exchange (.recheck n) _ _ => some n
  | parked _ n => some n
  | _ => none

/-- The task is going to wait, or waits, although a count of `used` has room for it. -/
@[simp] def Stale (used : Nat) : FdTask → Prop
  | exchange (.recheck _) _ current => used < current
  | parked units _ => used + units ≤ b.capacity
  | _ => False

@[simp] def Covered : FdTask → Prop
  | subtract units current => units ≤ current
  | _ => True

end FdTask

/-! ### What one action does -/

structure Moves (s : FdState) (task : FdTask) (s' : FdState) (task' : FdTask) : Prop where
  accounted : s'.used + live b s.permits + task.held = s.used + live b s'.permits + task'.held
  bounded : s.used ≤ b.capacity → s'.used ≤ b.capacity
  covered : task'.Covered ∧ s'.underflows = s.underflows
  counted : s'.waiters + task.waiting = s.waiters + task'.waiting
  pressed : task.Timely b s.used → b.highWatermark ≤ s'.used →
    s'.underPressure = true ∨ task'.Raising b ∨
      (b.highWatermark ≤ s.used ∧ s'.underPressure = s.underPressure ∧ ¬task.Raising b)
  relieved : task.Timely b s.used → s'.used ≤ b.lowWatermark →
    s'.underPressure = false ∨ task'.Lowering b ∨
      (s.used ≤ b.lowWatermark ∧ s'.underPressure = s.underPressure ∧ ¬task.Lowering b)
  released_le : s.released ≤ s'.released
  freed : s'.used < s.used → task'.Waking
  waking : task.Waking → task'.Waking ∨ s.released < s'.released ∨ s.waiters = 0
  seen : ∀ n ∈ task'.seen, n = s.released ∨ n ∈ task.seen
  stale : task'.Stale b s'.used → task.Stale b s.used ∧ task'.seen = task.seen

section Live

variable {b}

@[simp] theorem live_cons (permit : FdPermit) (permits : List FdPermit) :
    live b (permit :: permits) = (if permit.budget = b.identity then permit.units else 0) + live b permits := by
  simp [live]

theorem live_erase {permit : FdPermit} {permits : List FdPermit} (h : permit ∈ permits) :
    live b permits = (if permit.budget = b.identity then permit.units else 0) + live b (permits.erase permit) := by
  exact ((List.perm_cons_erase h).map _).sum_eq

end Live

/-- A turn that leaves the atomics alone and neither starts nor ends a phase that the invariant follows. -/
theorem Moves.of_permits {s : FdState} {permits : List FdPermit} {task task' : FdTask}
    (ha : live b s.permits + task.held = live b permits + task'.held) (hc : task'.Covered)
    (hwait : task.waiting = task'.waiting) (hr : ¬task.Raising b) (hl : ¬task.Lowering b)
    (hw : ¬task.Waking) (hs : ∀ n ∈ task'.seen, n = s.released ∨ n ∈ task.seen)
    (hstale : task'.Stale b s.used → task.Stale b s.used ∧ task'.seen = task.seen) :
    Moves b s task { s with permits } task' where
  accounted := by dsimp only; omega
  bounded := id
  covered := ⟨hc, rfl⟩
  counted := by dsimp only; omega
  pressed := fun _ hu => .inr (.inr ⟨hu, rfl, hr⟩)
  relieved := fun _ hu => .inr (.inr ⟨hu, rfl, hl⟩)
  released_le := le_refl _
  freed := fun hlt => absurd hlt (lt_irrefl _)
  waking := fun h => absurd h hw
  seen := hs
  stale := hstale

variable {answer : FdAnswer} {event : Option Empty}

theorem fdCall_moves {s s' : FdState} {task' : FdTask}
    (h : fdCall b s answer = some (s', task', event)) : Moves b s .idle s' task' := by
  have hst : ∀ {permits : List FdPermit} {task' : FdTask}, live b s.permits = live b permits + task'.held →
      task'.Covered → task'.waiting = 0 → task'.seen = none → ¬task'.Stale b s.used →
      Moves b s .idle { s with permits } task' := by
    intro permits task' ha hc hco hs hsa
    exact .of_permits b ha hc hco.symm id id id (fun n hn => by rw [hs] at hn; cases hn)
      (fun h => absurd h hsa)
  cases answer with
  | tryAcquire units | acquire units =>
    simp only [fdCall] at h
    split_ifs at h <;> cases h
    · exact hst (by simp) trivial rfl rfl id
    · exact hst (by simp) trivial rfl rfl id
  | drop permit =>
    simp only [fdCall] at h
    split_ifs at h with hm ho <;> cases h
    all_goals
      have hl := live_erase (b := b) hm
      refine hst ?_ trivial rfl rfl id
      simp only [FdTask.held]
      grind
  | merge self other =>
    simp only [fdCall, FdPermit.merge] at h
    split_ifs at h with hm hb hsm
    · cases h
      exact hst (by simp) trivial rfl rfl id
    · cases h
      exact hst (by simp) trivial rfl rfl id
    · cases h
      have hsl := live_erase (b := b) hm.1
      have hot := live_erase (b := b) hm.2
      refine hst ?_ trivial rfl rfl id
      simp only [FdTask.held, live_cons]
      grind
  | receive permit =>
    simp only [fdCall] at h
    split_ifs at h with hb
    cases h
    exact hst (by simp [hb]) trivial rfl rfl id
  | spurious | cancel | proceed => cases h

theorem fdProgram_moves {ι : Type} {i : ι} {s s' : FdState} {task task' : FdTask}
    (hc : task.Covered) (hh : task.held ≤ s.used) (hw : task.waiting ≤ s.waiters)
    (h : fdProgram b i answer s task = some (s', task', event)) : Moves b s task s' task' := by
  cases task with
  | idle => exact fdCall_moves b h
  | load attempt units =>
    cases h
    cases attempt with
    | plain | first => exact .of_permits b rfl trivial rfl id id id (fun _ => nofun) False.elim
    | recheck seen => exact .of_permits b rfl trivial rfl id id id (fun _ => .inr) (absurd · (lt_irrefl _))
  | exchange attempt units current =>
    simp only [fdProgram] at h
    split_ifs at h with hfl hs
    · have := b.capacity_lt
      cases attempt with
      | plain | first =>
        cases h
        exact .of_permits b rfl trivial rfl id id id (fun _ => nofun) False.elim
      | recheck seen =>
        cases h
        refine .of_permits b rfl trivial rfl id id id (fun _ => .inr) fun hf => ⟨?_, rfl⟩
        simp only [FdTask.Stale] at hf ⊢
        omega
    · cases h
      constructor <;> cases attempt <;> simp <;> omega
    · cases h
      cases attempt with
      | plain | first => exact .of_permits b rfl trivial rfl id id id (fun _ => nofun) False.elim
      | recheck seen => exact .of_permits b rfl trivial rfl id id id (fun _ => .inr) (absurd · (lt_irrefl _))
  | observe attempt units next =>
    cases attempt <;> cases h <;> constructor <;> simp [FdTask.Timely] <;> grind
  | count units =>
    cases h
    constructor <;> simp <;> grind
  | listen units =>
    cases h
    exact .of_permits b rfl trivial rfl id id id (fun _ h => .inl (Option.some.inj h).symm) False.elim
  | parked units seen =>
    simp only [fdProgram] at h
    split_ifs at h <;> cases h
    all_goals exact .of_permits b rfl trivial rfl id id id (fun _ => nofun) False.elim
  | leave why units =>
    have ho : 1 ≤ s.waiters := hw
    cases why <;> cases h <;> constructor <;> simp <;> grind
  | unload units =>
    cases h
    exact .of_permits b rfl hh rfl id id id (fun _ => nofun) False.elim
  | subtract units current =>
    simp only [fdProgram] at h
    split_ifs at h with hu hs
    · exact absurd hc (not_le.2 hu)
    · cases h
      constructor <;> simp <;> grind
    · cases h
      exact .of_permits b rfl hh rfl id id id (fun _ => nofun) False.elim
  | relieve remaining =>
    simp only [fdProgram] at h
    split_ifs at h <;> cases h <;> constructor <;> simp [FdTask.Timely] <;> grind
  | wake =>
    simp only [fdProgram] at h
    split_ifs at h <;> cases h <;> constructor <;> simp <;> grind
  | notify =>
    cases h
    constructor <;> simp <;> grind

/-! ### What a run keeps -/

variable {ι : Type} [Fintype ι] [DecidableEq ι]

structure FdInv (config : Config ι FdState FdTask) : Prop where
  accounted : config.shared.used = live b config.shared.permits + ∑ i, (config.tasks i).held
  bounded : config.shared.used ≤ b.capacity
  covered : ∀ i, (config.tasks i).Covered
  checked : config.shared.underflows = 0
  counted : config.shared.waiters = ∑ i, (config.tasks i).waiting
  seen_le : ∀ i, ∀ n ∈ (config.tasks i).seen, n ≤ config.shared.released
  woken : ∀ i, config.shared.released ∈ (config.tasks i).seen → (config.tasks i).Stale b config.shared.used →
    ∃ j, (config.tasks j).Waking

/-- The flag is right at both watermarks, or a call is about to set it. -/
structure Flagged (config : Config ι FdState FdTask) : Prop where
  pressed : b.highWatermark ≤ config.shared.used →
    config.shared.underPressure = true ∨ ∃ i, (config.tasks i).Raising b
  relieved : config.shared.used ≤ b.lowWatermark →
    config.shared.underPressure = false ∨ ∃ i, (config.tasks i).Lowering b

variable {b} {task : FdTask}

theorem FdTask.Raising.updated (h : task.Raising b) : task.Updated := by
  cases task with
  | observe => trivial
  | _ => exact False.elim h

theorem FdTask.Lowering.updated (h : task.Lowering b) : task.Updated := by
  cases task with
  | relieve => trivial
  | _ => exact False.elim h

theorem FdTask.waiting_of_seen {n : Nat} (h : n ∈ task.seen) : task.waiting = 1 := by
  cases task with
  | load attempt units => cases attempt <;> simp_all
  | exchange attempt units current => cases attempt <;> simp_all
  | _ => simp_all

theorem FdTask.Stale.of_le {used used' : Nat} (h : task.Stale b used') (hle : used ≤ used') :
    task.Stale b used := by
  cases task with
  | exchange attempt units current =>
    cases attempt with
    | plain | first => exact h
    | recheck seen => exact hle.trans_lt h
  | parked units seen => exact (Nat.add_le_add_right hle units).trans h
  | _ => exact h

omit [DecidableEq ι] in
theorem FdInv.waiting_le {config : Config ι FdState FdTask} (h : FdInv b config) (i : ι) :
    (config.tasks i).waiting ≤ config.shared.waiters := by
  rw [h.counted]
  exact Finset.single_le_sum (f := fun j => (config.tasks j).waiting) (fun _ _ => Nat.zero_le _) (Finset.mem_univ i)

omit [DecidableEq ι] in
theorem FdInv.moves {config : Config ι FdState FdTask} (h : FdInv b config) {i : ι} {s' : FdState} {task' : FdTask}
    (hp : fdProgram b i answer config.shared (config.tasks i) = some (s', task', event)) :
    Moves b config.shared (config.tasks i) s' task' := by
  have hheld : (config.tasks i).held ≤ ∑ j, (config.tasks j).held :=
    Finset.single_le_sum (f := fun j => (config.tasks j).held) (fun _ _ => Nat.zero_le _) (Finset.mem_univ i)
  exact fdProgram_moves b (h.covered i) (by have := h.accounted; omega) (h.waiting_le i) hp

theorem FdInv.step {config : Config ι FdState FdTask} (h : FdInv b config) {i : ι} {s' : FdState} {task' : FdTask}
    (hmove : Moves b config.shared (config.tasks i) s' task') :
    FdInv b ⟨s', Function.update config.tasks i task'⟩ := by
  have hheld := sum_update FdTask.held config.tasks i task'
  have hwaiting := sum_update FdTask.waiting config.tasks i task'
  exact {
    accounted := by have := h.accounted; have := hmove.accounted; dsimp only; omega
    bounded := hmove.bounded h.bounded
    covered := fun j => by
      by_cases hj : j = i
      · subst hj
        simpa using hmove.covered.1
      · simpa [Function.update_of_ne hj] using h.covered j
    checked := hmove.covered.2.trans h.checked
    counted := by have := h.counted; have := hmove.counted; dsimp only; omega
    seen_le := fun j n hn => by
      have hle := hmove.released_le
      by_cases hj : j = i
      · subst hj
        rcases hmove.seen n (by simpa using hn) with rfl | hbe
        · exact hle
        · exact (h.seen_le j n hbe).trans hle
      · exact (h.seen_le j n (by simpa [Function.update_of_ne hj] using hn)).trans hle
    woken := fun j hsn hst => by
      -- the waiter that has not been woken is counted, so a call that looks for waiters finds it
      have hkp : ∀ k, s'.released ∈ (config.tasks k).seen → (config.tasks k).Stale b config.shared.used →
          ∃ l, (Function.update config.tasks i task' l).Waking := fun k hk hks => by
        have hs := le_antisymm (h.seen_le k _ hk) hmove.released_le
        refine exists_update (fun hwk => ?_) (h.woken k (hs ▸ hk) hks)
        rcases hmove.waking hwk with hsi | hlt | hnn
        · exact hsi
        · omega
        · have := FdTask.waiting_of_seen hk
          have := h.waiting_le k
          omega
      by_cases hj : j = i
      · subst hj
        obtain ⟨hbe, hs⟩ := hmove.stale (by simpa using hst)
        exact hkp j (hs ▸ by simpa using hsn) hbe
      · dsimp only at hsn hst
        rw [Function.update_of_ne hj] at hsn hst
        by_cases hfr : s'.used < config.shared.used
        · exact ⟨i, by simpa using hmove.freed hfr⟩
        · exact hkp j hsn (hst.of_le (not_lt.1 hfr)) }

omit [Fintype ι] in
theorem Flagged.step {config : Config ι FdState FdTask} (h : Flagged b config) {i : ι} {s' : FdState} {task' : FdTask}
    (htimely : (config.tasks i).Timely b config.shared.used) (hmove : Moves b config.shared (config.tasks i) s' task') :
    Flagged b ⟨s', Function.update config.tasks i task'⟩ where
  pressed hu := by
    rcases hmove.pressed htimely hu with hflag | hraising | ⟨hhigh, hkept, hnot⟩
    · exact .inl hflag
    · exact .inr ⟨i, by simpa using hraising⟩
    · exact (h.pressed hhigh).imp (hkept.trans ·) (exists_update (absurd · hnot))
  relieved hu := by
    rcases hmove.relieved htimely hu with hflag | hlowering | ⟨hlow, hkept, hnot⟩
    · exact .inl hflag
    · exact .inr ⟨i, by simpa using hlowering⟩
    · exact (h.relieved hlow).imp (hkept.trans ·) (exists_update (absurd · hnot))

variable (b)

omit [DecidableEq ι] in
theorem fdInv_start : FdInv b (fdStart ι) := by
  constructor <;> simp [fdStart, live]

theorem fdInv_execute (schedule : List (ι × FdAnswer)) : FdInv b (execute (fdProgram b) (fdStart ι) schedule).1 :=
  @execute_invariant _ _ _ _ _ _ (fdProgram b) (fun config _ => FdInv b config)
    (fun _ _ _ _ _ _ _ h hp => h.step (h.moves hp)) _ (fdInv_start b) schedule

/-- Every swap of the flag is made while the count has not reached the other watermark. -/
def TimelySwaps (schedule : List (ι × FdAnswer)) : Prop :=
  ∀ front turn back, schedule = front ++ turn :: back →
    let before := (execute (fdProgram b) (fdStart ι) front).1
    (before.tasks turn.1).Timely b before.shared.used

theorem flagged_execute {schedule : List (ι × FdAnswer)} (htimely : TimelySwaps b schedule) :
    Flagged b (execute (fdProgram b) (fdStart ι) schedule).1 := by
  have hstart : Flagged b (fdStart ι) := by
    have := b.highWatermark_pos
    constructor <;> simp [fdStart]
    omega
  exact (@execute_invariant_of _ _ _ _ _ _ (fdProgram b) (fun config _ => FdInv b config ∧ Flagged b config)
    (fun config i => (config.tasks i).Timely b config.shared.used)
    (fun _ _ _ _ _ _ _ h ht hp => ⟨h.1.step (h.1.moves hp), h.2.step ht (h.1.moves hp)⟩) _ ⟨fdInv_start b, hstart⟩
    schedule htimely).2

/-! ### The budget -/

/-- In every run the count is what the live permits and the calls in progress stand for, stays within the
capacity, and no release finds too little to subtract; a parked task whose request fits has been woken or
is going to be found by a call on its way to wake. When every swap of the flag was timely, a flag that no
call is about to touch is right at both watermarks. -/
theorem fd_budget_accounts (identity : Nat) (capacity : UInt64) (schedule : List (ι × FdAnswer)) :
    let b := FdBudget.new identity capacity
    let config := (execute (fdProgram b) (fdStart ι) schedule).1
    let s := config.shared
    s.used = live b s.permits + ∑ i, (config.tasks i).held ∧ s.used ≤ b.capacity ∧ s.underflows = 0 ∧
      (∀ i units seen, config.tasks i = .parked units seen → s.used + units ≤ b.capacity →
        s.released ≠ seen ∨ (0 < s.waiters ∧ ∃ j, (config.tasks j).Waking)) ∧
      (TimelySwaps b schedule → (∀ i, ¬(config.tasks i).Updated) →
        (b.highWatermark ≤ s.used → s.pressure = .high) ∧ (s.used ≤ b.lowWatermark → s.pressure = .normal)) := by
  intro b config s
  have h : FdInv b config := fdInv_execute b schedule
  refine ⟨h.accounted, h.bounded, h.checked, fun i units seen hparked hfits => ?_, fun htimely hquiet => ⟨?_, ?_⟩⟩
  · by_cases hs : s.released = seen
    · have hm : s.released ∈ (config.tasks i).seen := by simp [hparked, hs]
      refine .inr ⟨?_, h.woken i hm (by simpa [hparked] using hfits)⟩
      exact (FdTask.waiting_of_seen hm).symm.trans_le (h.waiting_le i)
    · exact .inl hs
  · intro hu
    rcases (flagged_execute b htimely).pressed hu with hflag | ⟨i, hraising⟩
    · exact if_pos hflag
    · exact absurd hraising.updated (hquiet i)
  · intro hu
    rcases (flagged_execute b htimely).relieved hu with hflag | ⟨i, hlowering⟩
    · exact if_neg (ne_true_of_eq_false hflag)
    · exact absurd hlowering.updated (hquiet i)

/-- Sixteen units, so watermarks of fifteen and thirteen. One task reserves up to the high watermark and
stops before it raises the flag; another drops two units and lowers the flag; then the first one raises it.
Both calls have returned and the count is at the low watermark. -/
theorem crossed_swaps_leave_pressure_high :
    let b := FdBudget.new 0 16
    let acquire (i : Bool) := [(i, FdAnswer.proceed), (i, .proceed), (i, .proceed)]
    let run := execute (fdProgram b) (fdStart Bool)
      ((true, .tryAcquire 2) :: acquire true ++ (false, .tryAcquire 13) :: [(false, .proceed), (false, .proceed)] ++
        (true, .drop ⟨0, 2⟩) :: acquire true ++ [(true, .proceed), (false, .proceed)])
    (∀ i, run.1.tasks i = .idle) ∧ run.1.shared.used = b.lowWatermark ∧ run.1.shared.pressure = .high := by
  decide +kernel

end RustReality.Transport
