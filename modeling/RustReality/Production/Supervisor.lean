import RustReality.Lib.Mealy

/-!
# The supervisor's update slot

The loop of `supervise` runs one update at a time. A reload signal is put into a channel of capacity one; the
loop takes it from there and starts to load the configuration file if no update is running, and forgets it
otherwise. What ends the loop, a shutdown or a listener that stops, ends a run.
-/

namespace RustReality.Production

inductive Update
  | configuration (loading : Bool)
  | assets
  deriving DecidableEq

inductive Completion
  | published
  | failed
  /-- The task panicked, so its field is not known. -/
  | lost
  deriving DecidableEq

inductive SupervisorEvent
  /-- `forward_reload_signals`: a request that finds the channel full is the one that waits there. -/
  | requested
  | received
  | refresh
  /-- The blocking task of `reload_path` opens the file. -/
  | loading
  | completed (completion : Completion)
  deriving DecidableEq

inductive Notice
  | activateWarmPools
  | rejected (field : String)
  deriving DecidableEq

structure Supervisor where
  waiting : Bool := false
  update : Option Update := none

def Update.field : Update → String
  | .configuration _ => "configuration"
  | .assets => "assets"

def Completion.notice (update : Update) : Completion → Notice
  | .published => .activateWarmPools
  | .failed => .rejected update.field
  | .lost => .rejected "configuration"

/-- One turn of the loop; `path` says whether the server knows its configuration file. -/
def Supervisor.step (path : Bool) (self : Supervisor) : SupervisorEvent → Supervisor × Option Notice
  | .requested => ({ self with waiting := true }, none)
  | .received =>
    if self.waiting then
      if self.update = none then
        if path then (⟨false, some (.configuration false)⟩, none) else (⟨false, none⟩, some (.rejected "configuration"))
      else ({ self with waiting := false }, none)
    else (self, none)
  | .refresh => (if self.update = none then { self with update := some .assets } else self, none)
  | .loading => (if self.update = some (.configuration false) then { self with update := some (.configuration true) } else self, none)
  | .completed completion =>
    match self.update with
    | some (.configuration false) | none => (self, none)
    | some update => ({ self with update := none }, some (completion.notice update))

/-- The supervisor with the time of the last request and of the last start of a load. -/
structure Observed where
  supervisor : Supervisor := {}
  now : Nat := 0
  request : Option Nat := none
  load : Option Nat := none

namespace Observed

variable (path : Bool)

def next (self : Observed) (event : SupervisorEvent) : Observed where
  supervisor := (self.supervisor.step path event).1
  now := self.now + 1
  request := if event = .requested then some self.now else self.request
  load := if event = .loading ∧ self.supervisor.update = some (.configuration false) then some self.now else self.load

def run (events : List SupervisorEvent) : Observed := events.foldl (next path) {}

/-- No update is running and no request is waiting. -/
def Quiet (self : Observed) : Prop := self.supervisor.waiting = false ∧ self.supervisor.update = none

def LoadedAfter (self : Observed) (time : Nat) : Prop := ∃ load ∈ self.load, time < load

/-- If the event takes a request from the channel, the server knows its configuration file and no update is
running. -/
def TakesAtRest (self : Observed) (event : SupervisorEvent) : Prop :=
  event = .received → self.supervisor.waiting = true → path = true ∧ self.supervisor.update = none

/-- The last request waits, is about to be served or was served. -/
structure Inv (observed : Observed) : Prop where
  request_lt : ∀ time ∈ observed.request, time < observed.now
  accounted : ∀ time ∈ observed.request,
    observed.supervisor.waiting = true ∨ observed.supervisor.update = some (.configuration false) ∨ observed.LoadedAfter time

theorem Inv.next {self : Observed} (h : self.Inv) {event : SupervisorEvent} (htakes : self.TakesAtRest path event) :
    (self.next path event).Inv := by
  obtain ⟨hlt, haccounted⟩ := h
  have hlt' : ∀ time ∈ self.request, time < self.now + 1 := fun time ht => (hlt time ht).trans (Nat.lt_succ_self _)
  cases event with
  | requested =>
    refine ⟨?_, fun _ _ => .inl rfl⟩
    rintro time ⟨⟩
    exact Nat.lt_succ_self _
  | received =>
    by_cases hwaiting : self.supervisor.waiting = true
    · obtain ⟨hpath, hrest⟩ := htakes rfl hwaiting
      exact ⟨hlt', fun _ _ => .inr (.inl (by simp [Observed.next, Supervisor.step, hwaiting, hpath, hrest]))⟩
    · have hs : self.next path .received = { self with now := self.now + 1 } := by
        simp [Observed.next, Supervisor.step, hwaiting]
      rw [hs]
      exact ⟨hlt', haccounted⟩
  | refresh =>
    refine ⟨hlt', fun time ht => (haccounted time ht).imp ?_ (.imp_left ?_)⟩
    · intro hwaiting
      simp only [Observed.next, Supervisor.step]
      split_ifs <;> exact hwaiting
    · intro hupdate
      simp [Observed.next, Supervisor.step, hupdate]
  | loading =>
    by_cases hupdate : self.supervisor.update = some (.configuration false)
    · exact ⟨hlt', fun time ht => .inr (.inr ⟨self.now, if_pos ⟨rfl, hupdate⟩, hlt time ht⟩)⟩
    · have hs : self.next path .loading = { self with now := self.now + 1 } := by
        simp [Observed.next, Supervisor.step, hupdate]
      rw [hs]
      exact ⟨hlt', haccounted⟩
  | completed completion =>
    refine ⟨hlt', fun time ht => (haccounted time ht).imp ?_ (.imp_left ?_)⟩
    · intro hwaiting
      simp only [Observed.next, Supervisor.step]
      split <;> exact hwaiting
    · intro hupdate
      simp [Observed.next, Supervisor.step, hupdate]

/-- In a run that takes requests only at rest, the supervisor never rests with a request that came after the
last load of the configuration file began. -/
theorem requests_served {events : List SupervisorEvent}
    (htakes : ∀ k (hk : k < events.length), (run path (events.take k)).TakesAtRest path events[k]) (k : ℕ)
    (hquiet : (run path (events.take k)).Quiet) :
    ∀ time ∈ (run path (events.take k)).request, (run path (events.take k)).LoadedAfter time := by
  have hinit : Inv {} := ⟨by rintro _ ⟨⟩, by rintro _ ⟨⟩⟩
  have hinv : (run path (events.take k)).Inv :=
    Mealy.foldl_invariant hinit (fun _ _ h => h.next path) htakes k
  intro time ht
  rcases hinv.accounted time ht with hwaiting | hupdate | hload
  · cases hquiet.1.symm.trans hwaiting
  · cases hquiet.2.symm.trans hupdate
  · exact hload

/-- A request that waits until the assets are refreshed is served. -/
theorem requests_served_after_refresh :
    (run true [.refresh, .requested, .completed .published, .received, .loading, .completed .published]).LoadedAfter 1 := by
  refine @requests_served true [.refresh, .requested, .completed .published, .received, .loading, .completed .published]
    ?_ 6 ⟨rfl, rfl⟩ 1 rfl
  unfold TakesAtRest
  decide

/-- A request that arrives while the assets are refreshed is taken and forgotten; the file is not loaded. -/
theorem request_lost_during_refresh :
    let run := run true [.refresh, .requested, .received, .completed .published]
    run.Quiet ∧ run.request = some 1 ∧ run.load = none :=
  ⟨⟨rfl, rfl⟩, rfl, rfl⟩

end Observed

end RustReality.Production
