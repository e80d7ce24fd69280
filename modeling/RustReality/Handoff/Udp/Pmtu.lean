import RustReality.Lib.Mealy

/-!
# Path MTU discovery of the native UDP channel

`PmtuProber` searches the largest packet size a path carries: the limit starts at the base, probes
above it raise it when they are acknowledged, confirmation probes at it lower it when they are lost,
and the kernel lowers the ceiling of the search when it refuses a send. Times are numbers and the
prober reads no clock of its own. `Bounded` is the relation between the limit, the search bounds and
the outstanding probe that every event keeps.
-/

namespace RustReality.Handoff.Udp

def minPlpmtu : Nat := 512

def basePlpmtu : Nat := 1200

def maxPlpmtu : Nat := 9000 - 28

/-- Rust's `clamp`. -/
def clampTo (low high size : Nat) : Nat := if size < low then low else if size > high then high else size

/-- Rust's `div_ceil`. -/
def divCeil (n d : Nat) : Nat := (n + d - 1) / d

structure PmtuTimers where
  probeTimeout : Nat
  maxProbes : Nat
  confirmInterval : Nat
  raiseInterval : Nat
  granularity : Nat
  deriving DecidableEq, Repr

def PmtuTimers.default : PmtuTimers :=
  { probeTimeout := 1000, maxProbes := 3, confirmInterval := 15000, raiseInterval := 600000,
    granularity := 16 }

structure PmtuProbe where
  id : UInt32
  size : Nat
  deriving DecidableEq, Repr

inductive Purpose
  | search
  | confirm
  deriving DecidableEq, Repr

structure Outstanding where
  id : UInt32
  size : Nat
  sent : Nat
  attempts : Nat
  purpose : Purpose
  deriving DecidableEq, Repr

inductive PmtuPhase
  | fixed
  | search (high : Nat)
  | complete (nextRaise : Nat)
  deriving DecidableEq, Repr

structure PmtuProber where
  timers : PmtuTimers
  current : Nat
  ceiling : Nat
  maxCeiling : Nat
  phase : PmtuPhase
  outstanding : Option Outstanding
  nextId : UInt32
  nextConfirm : Nat
  blackHoles : Nat
  floorValidated : Bool
  deriving DecidableEq, Repr

namespace PmtuProber

def discover (ceiling : Nat) (timers : PmtuTimers) (now : Nat) : PmtuProber :=
  let ceiling := clampTo minPlpmtu maxPlpmtu ceiling
  { timers, current := min basePlpmtu ceiling, ceiling, maxCeiling := ceiling, phase := .search ceiling,
    outstanding := none, nextId := 1, nextConfirm := now + timers.confirmInterval, blackHoles := 0,
    floorValidated := false }

def fixed (size : Nat) (now : Nat) : PmtuProber :=
  let size := clampTo minPlpmtu maxPlpmtu size
  { timers := .default, current := size, ceiling := size, maxCeiling := size, phase := .fixed,
    outstanding := none, nextId := 1, nextConfirm := now, blackHoles := 0, floorValidated := true }

variable (self : PmtuProber)

def plpmtu : Nat := self.current

def takeId : PmtuProber × UInt32 :=
  ({ self with nextId := max (self.nextId + 1) 1 }, self.nextId)

def launch (size : Nat) (purpose : Purpose) (now : Nat) : PmtuProber × PmtuProbe :=
  let (self, id) := self.takeId
  ({ self with outstanding := some { id, size, sent := now, attempts := 1, purpose } }, { id, size })

/-- `high = f(high)` while a search runs; the other phases have no bound to move. -/
def mapHigh (f : Nat → Nat) : PmtuPhase → PmtuPhase
  | .search high => .search (f high)
  | phase => phase

def probeLost (lost : Outstanding) (now : Nat) : PmtuProber :=
  match lost.purpose with
  | .search => { self with phase := mapHigh (fun high => min high (lost.size - 1)) self.phase }
  | .confirm =>
    let failed := self.current
    let current := if failed > basePlpmtu then basePlpmtu else minPlpmtu
    { self with
      blackHoles := self.blackHoles + 1
      current
      phase := .search (max (failed - 1) current)
      nextConfirm := now + self.timers.confirmInterval
      floorValidated := false }

/-- The part of `poll` that runs when no probe is outstanding any more. -/
def advance (now : Nat) : PmtuProber × Option PmtuProbe :=
  match self.phase with
  | .fixed => (self, none)
  | .search high =>
    if !self.floorValidated then
      let (self, probe) := self.launch self.current .confirm now
      (self, some probe)
    else
      let low := self.current
      if high ≤ low ∨ high - low < self.timers.granularity then
        ({ self with
           phase := .complete (now + self.timers.raiseInterval)
           nextConfirm := now + self.timers.confirmInterval }, none)
      else
        let (self, probe) := self.launch (low + divCeil (high - low) 2) .search now
        (self, some probe)
  | .complete nextRaise =>
    if nextRaise ≤ now then
      let self := { self with ceiling := self.maxCeiling }
      if self.ceiling - self.current ≥ self.timers.granularity then
        let self := { self with phase := .search self.ceiling }
        let (self, probe) := self.launch (self.current + divCeil (self.ceiling - self.current) 2) .search now
        (self, some probe)
      else
        confirm { self with phase := .complete (now + self.timers.raiseInterval) } now
    else confirm self now
where
  /-- The end of the `Complete` branch: a confirmation probe at the limit when one is due. -/
  confirm (self : PmtuProber) (now : Nat) : PmtuProber × Option PmtuProbe :=
    if self.nextConfirm ≤ now then
      let self := { self with nextConfirm := now + self.timers.confirmInterval }
      let (self, probe) := self.launch self.current .confirm now
      (self, some probe)
    else (self, none)

def poll (now : Nat) : PmtuProber × Option PmtuProbe :=
  if self.phase = .fixed then (self, none)
  else
    match self.outstanding with
    | none => self.advance now
    | some outstanding =>
      if now - outstanding.sent < self.timers.probeTimeout then (self, none)
      else if outstanding.attempts < self.timers.maxProbes then
        let outstanding := { outstanding with attempts := outstanding.attempts + 1, sent := now }
        ({ self with outstanding := some outstanding },
          some { id := outstanding.id, size := outstanding.size })
      else ({ self with outstanding := none }.probeLost outstanding now).advance now

def onProbeAck (id : UInt32) (size now : Nat) : PmtuProber :=
  match self.outstanding with
  | none => self
  | some outstanding =>
    if outstanding.id ≠ id ∨ outstanding.size ≠ size then self
    else
      let self := { self with outstanding := none }
      match outstanding.purpose with
      | .search => if size > self.current ∧ size ≤ self.ceiling then { self with current := size } else self
      | .confirm =>
        { self with floorValidated := true, nextConfirm := now + self.timers.confirmInterval }

def onSendTooBig (attempted : Nat) (kernelLimit : Option Nat) : PmtuProber :=
  let fallback := if attempted > basePlpmtu then basePlpmtu else minPlpmtu
  let limit := clampTo minPlpmtu maxPlpmtu (min (kernelLimit.getD fallback) (attempted - 1))
  let ceiling := max (min self.ceiling limit) minPlpmtu
  { self with
    ceiling
    current := if self.current > ceiling then ceiling else self.current
    phase := mapHigh (fun high => min high ceiling) self.phase
    outstanding := self.outstanding.filter fun outstanding => ¬ outstanding.size > ceiling }

def onProbeTooBig (size : Nat) : PmtuProber :=
  let ceiling := max (min self.ceiling (size - 1)) self.current
  { self with
    outstanding := self.outstanding.filter fun outstanding => ¬ outstanding.size = size
    ceiling
    phase := mapHigh (fun high => min high ceiling) self.phase }

end PmtuProber

/-- What the owner of a prober reports to it. A lost probe is a poll after its last timeout. -/
inductive PmtuEvent
  | poll (now : Nat)
  | probeAck (id : UInt32) (size now : Nat)
  | sendTooBig (attempted : Nat) (kernelLimit : Option Nat)
  | probeTooBig (size : Nat)
  deriving DecidableEq, Repr

namespace PmtuProber

variable (self : PmtuProber)

def step : PmtuEvent → PmtuProber × Option PmtuProbe
  | .poll now => self.poll now
  | .probeAck id size now => (self.onProbeAck id size now, none)
  | .sendTooBig attempted kernelLimit => (self.onSendTooBig attempted kernelLimit, none)
  | .probeTooBig size => (self.onProbeTooBig size, none)

/-! ### The bounds -/

theorem le_clampTo (low high size : Nat) (h : low ≤ high) : low ≤ clampTo low high size := by
  unfold clampTo
  split_ifs <;> omega

theorem clampTo_le (low high size : Nat) : clampTo low high size ≤ max low size := by
  unfold clampTo
  split_ifs <;> omega

/-- What holds of the outstanding probe. A prober of granularity zero may probe the limit itself. -/
def Fits (probe : Outstanding) : Prop :=
  match probe.purpose with
  | .search => self.current ≤ probe.size ∧ (0 < self.timers.granularity → self.current < probe.size)
  | .confirm => probe.size = self.current

structure Bounded (timers : PmtuTimers) (maximum : Nat) (prober : PmtuProber) : Prop where
  timers_eq : prober.timers = timers
  max_eq : prober.maxCeiling = maximum
  min_le : minPlpmtu ≤ prober.current
  le_ceiling : prober.current ≤ prober.ceiling
  ceiling_le : prober.ceiling ≤ prober.maxCeiling
  high_le : ∀ high, prober.phase = .search high → high ≤ prober.ceiling
  fits : ∀ probe, prober.outstanding = some probe → prober.Fits probe

def WithinCeiling : Prop :=
  ∀ probe, self.outstanding = some probe → probe.purpose = .search → probe.size ≤ self.ceiling

variable {timers : PmtuTimers} {maximum : Nat} {self : PmtuProber}

theorem bounded_discover (ceiling : Nat) (timers : PmtuTimers) (now : Nat) :
    Bounded timers (clampTo minPlpmtu maxPlpmtu ceiling) (discover ceiling timers now) := by
  have hm := le_clampTo minPlpmtu maxPlpmtu ceiling (by decide)
  refine ⟨rfl, rfl, ?_, Nat.min_le_right _ _, Nat.le_refl _, ?_, ?_⟩
  · exact Nat.le_min.2 ⟨by decide, hm⟩
  · rintro high h
    cases h
    exact Nat.le_refl _
  · rintro probe h
    cases h

theorem bounded_fixed (size now : Nat) :
    Bounded .default (clampTo minPlpmtu maxPlpmtu size) (fixed size now) := by
  refine ⟨rfl, rfl, le_clampTo _ _ size (by decide), Nat.le_refl _, Nat.le_refl _, ?_, ?_⟩
  · rintro high h
    cases h
  · rintro probe h
    cases h

/-! ### One event -/

theorem mapHigh_search {f : Nat → Nat} {phase : PmtuPhase} {high : Nat}
    (h : mapHigh f phase = .search high) : ∃ before, phase = .search before ∧ high = f before := by
  cases phase with
  | search before =>
    cases h
    exact ⟨before, rfl, rfl⟩
  | fixed => cases h
  | complete nextRaise => cases h

theorem Bounded.launch (h : Bounded timers maximum self) {size : Nat} {purpose : Purpose} (now : Nat)
    (hf : self.Fits { id := self.nextId, size, sent := now, attempts := 1, purpose }) :
    Bounded timers maximum (self.launch size purpose now).1 := by
  refine ⟨h.timers_eq, h.max_eq, h.min_le, h.le_ceiling, h.ceiling_le, h.high_le, ?_⟩
  rintro probe hp
  cases hp
  exact hf

theorem lt_add_divCeil {low high : Nat} (h : low < high) :
    low < low + divCeil (high - low) 2 ∧ low + divCeil (high - low) 2 ≤ high := by
  unfold divCeil
  omega

/-- What a prober without an outstanding probe becomes: the same limit and, perhaps, a new probe. -/
structure Advances (timers : PmtuTimers) (maximum limit : Nat) (after : PmtuProber) : Prop where
  bounded : Bounded timers maximum after
  within : after.WithinCeiling
  current_eq : after.current = limit

theorem WithinCeiling.of_none (h : self.outstanding = none) : self.WithinCeiling := by
  rintro probe hp
  rw [h] at hp
  cases hp

theorem Advances.confirm (h : Bounded timers maximum self) (hn : self.outstanding = none) (now : Nat) :
    Advances timers maximum self.current (advance.confirm self now).1 := by
  unfold advance.confirm
  split_ifs with hd
  · have hnx : Bounded timers maximum { self with nextConfirm := now + self.timers.confirmInterval } :=
      ⟨h.timers_eq, h.max_eq, h.min_le, h.le_ceiling, h.ceiling_le, h.high_le, h.fits⟩
    refine ⟨hnx.launch now rfl, ?_, rfl⟩
    rintro probe hpr hp
    cases hpr
    cases hp
  · exact ⟨h, .of_none hn, rfl⟩

theorem Bounded.advance (h : Bounded timers maximum self) (hn : self.outstanding = none) (now : Nat) :
    Advances timers maximum self.current (self.advance now).1 := by
  unfold PmtuProber.advance
  cases hph : self.phase with
  | fixed => exact ⟨h, .of_none hn, rfl⟩
  | search high =>
    have hh := h.high_le high hph
    dsimp only
    split_ifs with hf hd
    · -- the search first confirms the size it starts from
      refine ⟨h.launch now rfl, ?_, rfl⟩
      rintro probe hpr hp
      cases hpr
      cases hp
    · refine ⟨⟨h.timers_eq, h.max_eq, h.min_le, h.le_ceiling, h.ceiling_le, ?_, h.fits⟩, ?_, rfl⟩
      · rintro high' h'
        cases h'
      · exact .of_none hn
    · have hlt := @lt_add_divCeil self.current high (by omega)
      refine ⟨h.launch now ⟨Nat.le_of_lt hlt.1, fun _ => hlt.1⟩, ?_, rfl⟩
      rintro probe hpr _
      cases hpr
      exact Nat.le_trans hlt.2 hh
  | complete nextRaise =>
    have hle : self.current ≤ self.maxCeiling := Nat.le_trans h.le_ceiling h.ceiling_le
    dsimp only
    split_ifs with hra hr
    · -- a raise searches up to the configured maximum again
      have hse : Bounded timers maximum
          { self with ceiling := self.maxCeiling, phase := .search self.maxCeiling } := by
        refine ⟨h.timers_eq, h.max_eq, h.min_le, hle, Nat.le_refl _, ?_, ?_⟩
        · rintro high h'
          cases h'
          exact Nat.le_refl _
        · intro probe hpr
          exact h.fits probe hpr
      have hs : self.current + divCeil (self.maxCeiling - self.current) 2 ≤ self.maxCeiling := by
        unfold divCeil
        omega
      refine ⟨hse.launch now ⟨Nat.le_add_right _ _, ?_⟩, ?_, rfl⟩
      · intro hg
        have hps : 0 < self.timers.granularity := hg
        exact (@lt_add_divCeil self.current self.maxCeiling (by omega)).1
      · rintro probe hpr _
        cases hpr
        exact hs
    · have hc : Bounded timers maximum { self with
          ceiling := self.maxCeiling, phase := .complete (now + self.timers.raiseInterval) } := by
        refine ⟨h.timers_eq, h.max_eq, h.min_le, hle, Nat.le_refl _, ?_, ?_⟩
        · rintro high h'
          cases h'
        · intro probe hpr
          exact h.fits probe hpr
      exact Advances.confirm hc hn now
    · exact Advances.confirm h hn now

theorem Bounded.probeLost (h : Bounded timers maximum self) (lost : Outstanding) (now : Nat) :
    Bounded timers maximum ({ self with outstanding := none }.probeLost lost now) ∧
      ({ self with outstanding := none }.probeLost lost now).current ≤ self.current ∧
      ({ self with outstanding := none }.probeLost lost now).outstanding = none := by
  have hm := h.min_le
  have hle := h.le_ceiling
  unfold PmtuProber.probeLost
  cases lost.purpose with
  | search =>
    refine ⟨⟨h.timers_eq, h.max_eq, hm, hle, h.ceiling_le, ?_, ?_⟩, Nat.le_refl _, rfl⟩
    · intro high hh
      obtain ⟨before, hbf, rfl⟩ := mapHigh_search hh
      exact Nat.le_trans (Nat.min_le_left _ _) (h.high_le before hbf)
    · rintro probe hp
      cases hp
  | confirm =>
    have hf : minPlpmtu ≤ (if self.current > basePlpmtu then basePlpmtu else minPlpmtu) ∧
        (if self.current > basePlpmtu then basePlpmtu else minPlpmtu) ≤ self.current := by
      split_ifs with hb
      · exact ⟨by decide, Nat.le_of_lt hb⟩
      · exact ⟨Nat.le_refl _, hm⟩
    refine ⟨⟨h.timers_eq, h.max_eq, hf.1, Nat.le_trans hf.2 hle, h.ceiling_le, ?_, ?_⟩, hf.2, rfl⟩
    · rintro high hh
      cases hh
      exact Nat.max_le.2 ⟨Nat.le_trans (Nat.sub_le _ _) hle, Nat.le_trans hf.2 hle⟩
    · rintro probe hp
      cases hp

theorem Bounded.poll (h : Bounded timers maximum self) (now : Nat) :
    Bounded timers maximum (self.poll now).1 ∧ (self.poll now).1.current ≤ self.current ∧
      (self.WithinCeiling → (self.poll now).1.WithinCeiling) := by
  unfold PmtuProber.poll
  split_ifs with hf
  · exact ⟨h, Nat.le_refl _, id⟩
  cases ho : self.outstanding with
  | none =>
    have ha := h.advance ho now
    exact ⟨ha.bounded, Nat.le_of_eq ha.current_eq, fun _ => ha.within⟩
  | some outstanding =>
    dsimp only
    split_ifs with hwt hr
    · exact ⟨h, Nat.le_refl _, id⟩
    · -- a retransmission has the size and the purpose of the probe it repeats
      refine ⟨⟨h.timers_eq, h.max_eq, h.min_le, h.le_ceiling, h.ceiling_le, h.high_le, ?_⟩, Nat.le_refl _, ?_⟩
      · rintro probe hp
        cases hp
        exact h.fits outstanding ho
      · rintro hw probe hp hpr
        cases hp
        exact hw outstanding ho hpr
    · obtain ⟨hl, hle, hn⟩ := h.probeLost outstanding now
      have ha := hl.advance hn now
      exact ⟨ha.bounded, Nat.le_trans (Nat.le_of_eq ha.current_eq) hle, fun _ => ha.within⟩

theorem Bounded.onProbeAck (h : Bounded timers maximum self) (id : UInt32) (size now : Nat) :
    Bounded timers maximum (self.onProbeAck id size now) ∧
      (self.current < (self.onProbeAck id size now).current →
        ∃ probe, self.outstanding = some probe ∧ probe.purpose = .search ∧ probe.id = id ∧ probe.size = size) ∧
      (self.WithinCeiling → (self.onProbeAck id size now).WithinCeiling) := by
  unfold PmtuProber.onProbeAck
  cases hot : self.outstanding with
  | none => exact ⟨h, fun hlt => absurd hlt (Nat.lt_irrefl _), fun hw => hw⟩
  | some outstanding =>
    dsimp only
    by_cases ho : outstanding.id ≠ id ∨ outstanding.size ≠ size
    · rw [if_pos ho]
      exact ⟨h, fun hlt => absurd hlt (Nat.lt_irrefl _), fun hw => hw⟩
    rw [if_neg ho]
    have hid : outstanding.id = id ∧ outstanding.size = size := by
      simpa [not_or] using ho
    have hc : Bounded timers maximum { self with outstanding := none } := by
      refine ⟨h.timers_eq, h.max_eq, h.min_le, h.le_ceiling, h.ceiling_le, h.high_le, ?_⟩
      rintro probe hp
      cases hp
    cases hpr : outstanding.purpose with
    | search =>
      split_ifs with hr
      · refine ⟨⟨h.timers_eq, h.max_eq, ?_, hr.2, h.ceiling_le, h.high_le, ?_⟩, ?_, fun _ => .of_none rfl⟩
        · exact Nat.le_trans h.min_le (Nat.le_of_lt hr.1)
        · rintro probe hp
          cases hp
        · rintro -
          exact ⟨outstanding, rfl, hpr, hid.1, hid.2⟩
      · exact ⟨hc, fun hlt => absurd hlt (Nat.lt_irrefl _), fun _ => .of_none rfl⟩
    | confirm =>
      refine ⟨?_, fun hlt => absurd hlt (Nat.lt_irrefl _), fun _ => .of_none rfl⟩
      exact ⟨h.timers_eq, h.max_eq, h.min_le, h.le_ceiling, h.ceiling_le, h.high_le, hc.fits⟩

/-- A send of `attempted` bytes that was too big leaves the ceiling below it, down to the minimum. -/
theorem ceiling_onSendTooBig (self : PmtuProber) (attempted : Nat) (kernelLimit : Option Nat) :
    minPlpmtu ≤ (self.onSendTooBig attempted kernelLimit).ceiling ∧
      (self.onSendTooBig attempted kernelLimit).ceiling ≤ max minPlpmtu (attempted - 1) := by
  refine ⟨Nat.le_max_right _ _, Nat.max_le.2 ⟨Nat.le_trans (Nat.min_le_right _ _) ?_, Nat.le_max_left _ _⟩⟩
  refine Nat.le_trans (clampTo_le _ _ _) (Nat.max_le.2 ⟨Nat.le_max_left _ _, ?_⟩)
  exact Nat.le_trans (Nat.min_le_right _ _) (Nat.le_max_right _ _)

theorem Bounded.onSendTooBig (h : Bounded timers maximum self) (attempted : Nat) (kernelLimit : Option Nat) :
    Bounded timers maximum (self.onSendTooBig attempted kernelLimit) ∧
      (self.onSendTooBig attempted kernelLimit).current ≤ self.current ∧
      (self.onSendTooBig attempted kernelLimit).WithinCeiling := by
  have hm := h.min_le
  have hle := h.le_ceiling
  have hc := h.ceiling_le
  unfold PmtuProber.onSendTooBig
  dsimp only
  generalize clampTo minPlpmtu maxPlpmtu _ = limit
  generalize hn : max (min self.ceiling limit) minPlpmtu = ceiling
  have hk : minPlpmtu ≤ ceiling ∧ ceiling ≤ self.ceiling := by omega
  refine ⟨⟨h.timers_eq, h.max_eq, ?_, ?_, Nat.le_trans hk.2 hc, ?_, ?_⟩, ?_, ?_⟩
  · split_ifs
    · exact hk.1
    · exact hm
  · dsimp only
    split_ifs <;> omega
  · intro high hh
    obtain ⟨before, hb, rfl⟩ := mapHigh_search hh
    exact Nat.min_le_right _ _
  · -- a probe that stays outstanding is within the new ceiling, so a confirmation keeps its size
    rintro probe hp
    obtain ⟨ho, hs⟩ := Option.filter_eq_some_iff.1 hp
    have hf := h.fits probe ho
    have hs : probe.size ≤ ceiling := by simpa using hs
    unfold Fits at hf ⊢
    cases hpr : probe.purpose with
    | search =>
      simp only [hpr] at hf ⊢
      split_ifs with hl
      · omega
      · exact hf
    | confirm =>
      simp only [hpr] at hf ⊢
      split_ifs with hl
      · omega
      · exact hf
  · split_ifs <;> omega
  · rintro probe hp _
    obtain ⟨-, hs⟩ := Option.filter_eq_some_iff.1 hp
    simpa using hs

/-- Whether a probe-too-big report is about a probe as large as the outstanding one. The sender
reports the probe it has just polled. -/
def Reports : PmtuEvent → Prop
  | .probeTooBig size => ∀ probe, self.outstanding = some probe → probe.purpose = .search → probe.size ≤ size
  | _ => True

theorem Bounded.onProbeTooBig (h : Bounded timers maximum self) (size : Nat) :
    Bounded timers maximum (self.onProbeTooBig size) ∧
      (self.Reports (.probeTooBig size) → self.WithinCeiling → (self.onProbeTooBig size).WithinCeiling) := by
  have hle := h.le_ceiling
  unfold PmtuProber.onProbeTooBig
  refine ⟨⟨h.timers_eq, h.max_eq, h.min_le, Nat.le_max_right _ _, ?_, ?_, ?_⟩, ?_⟩
  · exact Nat.max_le.2 ⟨Nat.le_trans (Nat.min_le_left _ _) h.ceiling_le, Nat.le_trans hle h.ceiling_le⟩
  · intro high hh
    obtain ⟨before, hb, rfl⟩ := mapHigh_search hh
    exact Nat.min_le_right _ _
  · intro probe hp
    exact h.fits probe (Option.filter_eq_some_iff.1 hp).1
  · intro hr hw probe hp hpr
    obtain ⟨ho, hot⟩ := Option.filter_eq_some_iff.1 hp
    have hs : probe.size ≤ size := hr probe ho hpr
    have hol : probe.size ≤ self.ceiling := hw probe ho hpr
    have hne : probe.size ≠ size := by simpa using hot
    show probe.size ≤ max (min self.ceiling (size - 1)) self.current
    omega

/-- What one event does: it keeps the bounds, raises the limit only for the acknowledgement of the
outstanding search probe, and keeps that probe within the ceiling unless a report is about a smaller one. -/
theorem Bounded.step (h : Bounded timers maximum self) (event : PmtuEvent) :
    Bounded timers maximum (self.step event).1 ∧
      (self.current < (self.step event).1.current → ∃ probe now, self.outstanding = some probe ∧
        probe.purpose = .search ∧ event = .probeAck probe.id probe.size now) ∧
      (self.Reports event → self.WithinCeiling → (self.step event).1.WithinCeiling) := by
  cases event with
  | poll now =>
    obtain ⟨hbo, hle, hwi⟩ := h.poll now
    exact ⟨hbo, fun hlt => absurd hlt (Nat.not_lt.2 hle), fun _ => hwi⟩
  | probeAck id size now =>
    obtain ⟨hbo, hr, hwi⟩ := h.onProbeAck id size now
    refine ⟨hbo, fun hlt => ?_, fun _ => hwi⟩
    obtain ⟨probe, ho, hp, rfl, rfl⟩ := hr hlt
    exact ⟨probe, now, ho, hp, rfl⟩
  | sendTooBig attempted kernelLimit =>
    obtain ⟨hbo, hle, hwi⟩ := h.onSendTooBig attempted kernelLimit
    exact ⟨hbo, fun hlt => absurd hlt (Nat.not_lt.2 hle), fun _ _ => hwi⟩
  | probeTooBig size =>
    obtain ⟨hbo, hwi⟩ := h.onProbeTooBig size
    exact ⟨hbo, fun hlt => absurd hlt (Nat.lt_irrefl _), hwi⟩

/-! ### Runs -/

/-- A prober as it is constructed, with the timers and the maximum it is configured with. -/
inductive Configured : PmtuTimers → Nat → PmtuProber → Prop
  | discover (ceiling : Nat) (timers : PmtuTimers) (now : Nat) :
      Configured timers (clampTo minPlpmtu maxPlpmtu ceiling) (PmtuProber.discover ceiling timers now)
  | fixed (size now : Nat) : Configured .default (clampTo minPlpmtu maxPlpmtu size) (PmtuProber.fixed size now)

theorem Configured.bounded (h : Configured timers maximum self) :
    Bounded timers maximum self ∧ self.WithinCeiling := by
  cases h with
  | discover ceiling timers now => exact ⟨bounded_discover ceiling timers now, .of_none rfl⟩
  | fixed size now => exact ⟨bounded_fixed size now, .of_none rfl⟩

def after (events : List PmtuEvent) : PmtuProber := (Mealy.run PmtuProber.step self events).1

/-- Every probe-too-big report of a run is about a probe as large as the outstanding one. -/
def ReportsAll : PmtuProber → List PmtuEvent → Prop
  | _, [] => True
  | self, event :: events => self.Reports event ∧ ReportsAll (self.step event).1 events

theorem Bounded.after (h : Bounded timers maximum self) (events : List PmtuEvent) :
    Bounded timers maximum (self.after events) :=
  Mealy.run_invariant (fun _ event hs => (hs.step event).1) h events

theorem Bounded.within_after (h : Bounded timers maximum self) (hw : self.WithinCeiling)
    {events : List PmtuEvent} (hr : ReportsAll self events) : (self.after events).WithinCeiling := by
  induction events generalizing self with
  | nil => exact hw
  | cons event events ih =>
    obtain ⟨hb, -, hk⟩ := h.step event
    exact ih hb (hk hr.1 hw) hr.2

/-- In every run of a prober the limit is between the minimum and the ceiling and the ceiling is at
most the configured maximum; an outstanding confirmation has the size of the limit, and an outstanding
search probe is above the limit (at a granularity of at least one) and within the ceiling (unless a
probe-too-big report was about a smaller probe); only the acknowledgement of that probe raises the
limit; and a send reported too big leaves the limit below its size. -/
theorem after_bounds (hself : Configured timers maximum self) (events : List PmtuEvent) :
    minPlpmtu ≤ (self.after events).plpmtu ∧ (self.after events).plpmtu ≤ (self.after events).ceiling ∧
    (self.after events).ceiling ≤ maximum ∧
    (∀ probe, (self.after events).outstanding = some probe → probe.purpose = .search →
      (0 < timers.granularity → (self.after events).plpmtu < probe.size) ∧
      (ReportsAll self events → probe.size ≤ (self.after events).ceiling)) ∧
    (∀ probe, (self.after events).outstanding = some probe → probe.purpose = .confirm →
      probe.size = (self.after events).plpmtu) ∧
    (∀ event, (self.after events).plpmtu < ((self.after events).step event).1.plpmtu →
      ∃ probe now, (self.after events).outstanding = some probe ∧ probe.purpose = .search ∧
        event = .probeAck probe.id probe.size now) ∧
    (∀ size kernelLimit, ((self.after events).step (.sendTooBig size kernelLimit)).1.plpmtu ≤
      max minPlpmtu (size - 1)) := by
  obtain ⟨hi, hw⟩ := hself.bounded
  have h := hi.after events
  refine ⟨h.min_le, h.le_ceiling, Nat.le_trans h.ceiling_le (Nat.le_of_eq h.max_eq), ?_, ?_, ?_, ?_⟩
  · intro probe ho hp
    have hf := h.fits probe ho
    simp only [Fits, hp, h.timers_eq] at hf
    exact ⟨hf.2, fun hr => hi.within_after hw hr probe ho hp⟩
  · intro probe ho hp
    have hf := h.fits probe ho
    simp only [Fits, hp] at hf
    exact hf
  · intro event hlt
    exact (h.step event).2.1 hlt
  · intro size kernelLimit
    exact Nat.le_trans (h.onSendTooBig size kernelLimit).1.le_ceiling (ceiling_onSendTooBig _ size kernelLimit).2

/-- A search probe of 1336 bytes is acknowledged, and the next one is too big. -/
theorem after_bounds_searched :
    let self := PmtuProber.discover 1472 .default 0
    let events : List PmtuEvent := [.poll 0, .probeAck 1 1200 0, .poll 0, .probeAck 2 1336 0, .poll 0, .probeTooBig 1404]
    Configured .default 1472 self ∧ (self.after events).plpmtu = 1336 ∧ (self.after events).ceiling = 1403 ∧
      (self.after events).plpmtu ≤ (self.after events).ceiling :=
  ⟨.discover 1472 .default 0, by decide, by decide, (after_bounds (.discover 1472 .default 0) _).2.1⟩

/-- A report about a probe smaller than the outstanding one leaves that probe above the ceiling, and without
granularity a search probe may have the size of the limit. -/
theorem search_probe_above_ceiling :
    let reported := (PmtuProber.discover 1472 .default 0).after [.poll 0, .probeAck 1 1200 0, .poll 0, .probeTooBig 1300]
    let unsteady := (PmtuProber.discover 1200 { PmtuTimers.default with granularity := 0 } 0).after
      [.poll 0, .probeAck 1 1200 0, .poll 0, .poll 600000]
    (∃ probe, reported.outstanding = some probe ∧ probe.purpose = .search ∧ reported.ceiling < probe.size) ∧
      ∃ probe, unsteady.outstanding = some probe ∧ probe.purpose = .search ∧ probe.size = unsteady.plpmtu :=
  ⟨⟨{ id := 2, size := 1336, sent := 0, attempts := 1, purpose := .search }, by decide, rfl, by decide⟩,
    ⟨{ id := 2, size := 1200, sent := 600000, attempts := 1, purpose := .search }, by decide, rfl, by decide⟩⟩

end PmtuProber

end RustReality.Handoff.Udp
