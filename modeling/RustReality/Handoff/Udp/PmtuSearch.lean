import RustReality.Handoff.Udp.Pmtu

/-!
# Convergence of the path MTU search

A path of limit `path` carries exactly the packets of at most `path` bytes. Against such a path, with
no feedback of the kernel, the prober brackets the path limit: the limit it has confirmed is at most
`path`, and the upper bound of its search never falls below what the path and the ceiling allow.
`remaining` bounds the probes a running search may still send.
-/

namespace RustReality.Handoff.Udp.PmtuProber

variable (self : PmtuProber)

def searchComplete : Bool :=
  match self.phase with
  | .complete _ | .fixed => true
  | .search _ => false

/-- Whether an event settles the outstanding probe: its acknowledgement, or a poll at its last timeout. -/
def Resolves (probe : Outstanding) : PmtuEvent → Prop
  | .poll now => self.timers.probeTimeout ≤ now - probe.sent ∧ self.timers.maxProbes ≤ probe.attempts
  | .probeAck id size _ => probe.id = id ∧ probe.size = size
  | .sendTooBig _ _ | .probeTooBig _ => False

/-- The events of a path that carries exactly the packets of at most `path` bytes and gives no other
feedback: a probe that runs out of retries is larger, an acknowledged one is not. -/
def OnPath (path : Nat) (self : PmtuProber) : PmtuEvent → Prop
  | .poll now => ∀ probe, self.outstanding = some probe → self.Resolves probe (.poll now) → path < probe.size
  | .probeAck id size now =>
    ∀ probe, self.outstanding = some probe → self.Resolves probe (.probeAck id size now) → probe.size ≤ path
  | .sendTooBig _ _ | .probeTooBig _ => False

instance (self : PmtuProber) (probe : Outstanding) (event : PmtuEvent) : Decidable (self.Resolves probe event) :=
  match event with
  | .poll now =>
    inferInstanceAs (Decidable (self.timers.probeTimeout ≤ now - probe.sent ∧ self.timers.maxProbes ≤ probe.attempts))
  | .probeAck id size _ => inferInstanceAs (Decidable (probe.id = id ∧ probe.size = size))
  | .sendTooBig _ _ | .probeTooBig _ => inferInstanceAs (Decidable False)

instance (path : Nat) (self : PmtuProber) (event : PmtuEvent) : Decidable (self.OnPath path event) :=
  match event with
  | .poll now => inferInstanceAs
      (Decidable (∀ probe ∈ self.outstanding, self.Resolves probe (.poll now) → path < probe.size))
  | .probeAck id size now => inferInstanceAs
      (Decidable (∀ probe ∈ self.outstanding, self.Resolves probe (.probeAck id size now) → probe.size ≤ path))
  | .sendTooBig _ _ | .probeTooBig _ => inferInstanceAs (Decidable False)

/-- A schedule of polls and acknowledgements as such a path answers the probes. -/
def OnPathAll (path : Nat) : PmtuProber → List PmtuEvent → Prop
  | _, [] => True
  | self, event :: events => self.OnPath path event ∧ OnPathAll path (self.step event).1 events

instance decidableOnPathAll (path : Nat) : (self : PmtuProber) → (events : List PmtuEvent) →
    Decidable (OnPathAll path self events)
  | _, [] => inferInstanceAs (Decidable True)
  | self, event :: events =>
    have := decidableOnPathAll path (self.step event).1 events
    inferInstanceAs (Decidable (self.OnPath path event ∧ OnPathAll path (self.step event).1 events))

/-- The probes a schedule makes the prober send until its search is complete, retries included. -/
def probesBeforeComplete : PmtuProber → List PmtuEvent → Nat
  | _, [] => 0
  | self, event :: events =>
    if self.searchComplete then 0
    else (self.step event).2.toList.length + probesBeforeComplete (self.step event).1 events

/-! ### The bracket -/

/-- The search is between the confirmed size and an upper bound that the path and the ceiling allow, or it
has come closer to them than the granularity. -/
def Near (path : Nat) : Prop :=
  match self.phase with
  | .fixed => False
  | .search high => self.current ≤ high ∧ min path self.ceiling ≤ high
  | .complete _ => self.floorValidated = true ∧ min path self.ceiling < self.current + self.timers.granularity

/-- A probe above the limit belongs to a search that has confirmed its size, another one to a search that has not. -/
def Probes (probe : Outstanding) : Prop :=
  match probe.purpose with
  | .search => self.floorValidated = true ∧ ∃ high, self.phase = .search high ∧ probe.size ≤ high
  | .confirm => ∀ high, self.phase = .search high → self.floorValidated = false

/-- A prober on a path of limit `path`: the path limit lies between the confirmed size and the upper
bound of the search. -/
structure Bracketed (path : Nat) (timers : PmtuTimers) (maximum : Nat) (prober : PmtuProber) : Prop where
  bounded : Bounded timers maximum prober
  ceiling_eq : prober.ceiling = prober.maxCeiling
  near : prober.Near path
  confirmed : prober.floorValidated = true → prober.current ≤ path
  probes : ∀ probe ∈ prober.outstanding, prober.Probes probe

def tries (timers : PmtuTimers) : Nat := max 1 timers.maxProbes

/-- How many sizes a search may still have to confirm before it starts: the current one, the base and
the minimum. -/
def confirmations (current : Nat) : Nat :=
  if current > basePlpmtu then 3 else if current > minPlpmtu then 2 else 1

/-- How many probes a search still resolves, the outstanding one included. -/
def budget : Nat :=
  match self.phase with
  | .search high =>
    if self.floorValidated then high - self.current else high - minPlpmtu + confirmations self.current
  | .fixed | .complete _ => 0

def remaining : Nat :=
  match self.phase, self.outstanding with
  | .search _, none => tries self.timers * self.budget
  | .search _, some probe => tries self.timers * (self.budget - 1) + (tries self.timers - probe.attempts)
  | .fixed, _ | .complete _, _ => 0

variable {path maximum : Nat} {timers : PmtuTimers} {self : PmtuProber}

theorem bracketed_discover (path ceiling : Nat) (timers : PmtuTimers) (now : Nat) :
    Bracketed path timers (clampTo minPlpmtu maxPlpmtu ceiling) (discover ceiling timers now) where
  bounded := bounded_discover ceiling timers now
  ceiling_eq := rfl
  near := ⟨Nat.min_le_right _ _, Nat.min_le_right _ _⟩
  confirmed := by
    intro h
    cases h
  probes := by
    rintro probe ⟨⟩

namespace Bracketed

variable {high : Nat} {probe : Outstanding}

theorem probing (h : Bracketed path timers maximum self) : self.phase ≠ .fixed := by
  intro hp
  have := h.near
  rwa [Near, hp] at this

theorem within (h : Bracketed path timers maximum self) (hp : self.phase = .search high) :
    self.current ≤ high ∧ min path self.ceiling ≤ high := by
  have := h.near
  rwa [Near, hp] at this

theorem complete (h : Bracketed path timers maximum self) {nextRaise : Nat} (hp : self.phase = .complete nextRaise) :
    self.floorValidated = true ∧ min path self.ceiling < self.current + self.timers.granularity := by
  have := h.near
  rwa [Near, hp] at this

theorem searching (h : Bracketed path timers maximum self) (ho : self.outstanding = some probe)
    (hp : probe.purpose = .search) : self.floorValidated = true ∧ ∃ high, self.phase = .search high ∧ probe.size ≤ high := by
  have := h.probes probe ho
  rwa [Probes, hp] at this

theorem confirming (h : Bracketed path timers maximum self) (ho : self.outstanding = some probe)
    (hp : probe.purpose = .confirm) (hs : self.phase = .search high) : self.floorValidated = false := by
  have := h.probes probe ho
  rw [Probes, hp] at this
  exact this high hs

end Bracketed

theorem exists_high (hr : self.searchComplete = false) : ∃ high, self.phase = .search high := by
  unfold searchComplete at hr
  cases hp : self.phase with
  | search high => exact ⟨high, rfl⟩
  | fixed => simp [hp] at hr
  | complete nextRaise => simp [hp] at hr

variable {high : Nat}

theorem searchComplete_of_search (hp : self.phase = .search high) :
    self.searchComplete = false := by
  simp [searchComplete, hp]

theorem budget_validated {high : Nat} (hp : self.phase = .search high) (hf : self.floorValidated = true) :
    self.budget = high - self.current := by
  simp [budget, hp, hf]

theorem budget_unvalidated (hp : self.phase = .search high) (hf : self.floorValidated = false) :
    self.budget = high - minPlpmtu + confirmations self.current := by
  simp [budget, hp, hf]

theorem confirmations_pos (current : Nat) : 0 < confirmations current := by
  unfold confirmations
  split_ifs <;> omega

theorem remaining_none (hp : self.phase = .search high) (hn : self.outstanding = none) :
    self.remaining = tries self.timers * self.budget := by
  simp [remaining, hp, hn]

theorem remaining_some {high : Nat} {probe : Outstanding} (hp : self.phase = .search high)
    (ho : self.outstanding = some probe) :
    self.remaining = tries self.timers * (self.budget - 1) + (tries self.timers - probe.attempts) := by
  simp [remaining, hp, ho]

/-! ### A probe is sent -/

theorem remaining_launch (hp : self.phase = .search high) (hb : 0 < self.budget)
    (size now : Nat) (purpose : Purpose) :
    1 + (self.launch size purpose now).1.remaining ≤ tries self.timers * self.budget := by
  have ha : (self.launch size purpose now).1.remaining =
      tries self.timers * (self.budget - 1) + (tries self.timers - 1) :=
    @remaining_some (self.launch size purpose now).1 high _ hp rfl
  have ht : 0 < tries self.timers := Nat.lt_of_lt_of_le Nat.one_pos (Nat.le_max_left _ _)
  have hm : tries self.timers * self.budget = tries self.timers * (self.budget - 1) + tries self.timers := by
    obtain ⟨rest, hr⟩ := Nat.exists_eq_succ_of_ne_zero (Nat.pos_iff_ne_zero.1 hb)
    rw [hr]
    rfl
  omega

/-- What `advance` makes of a prober without an outstanding probe. -/
structure Advanced (path : Nat) (timers : PmtuTimers) (maximum : Nat) (before : PmtuProber)
    (next : PmtuProber × Option PmtuProbe) : Prop where
  bracketed : Bracketed path timers maximum next.1
  /-- A running search pays for the probe it sends. -/
  paid : before.searchComplete = false →
    next.2.toList.length + next.1.remaining ≤ tries before.timers * before.budget
  /-- The bounds stay where they are. -/
  current_eq : next.1.current = before.current
  phase_eq : ∀ high high', before.phase = .search high → next.1.phase = .search high' → high' = high
  /-- A running search sends a probe or is complete. -/
  progress : before.searchComplete = false → next.2.isSome = true ∨ next.1.searchComplete = true

theorem Bracketed.launchConfirm (h : Bracketed path timers maximum self)
    (hu : ∀ high, self.phase = .search high → self.floorValidated = false) (now : Nat) :
    Bracketed path timers maximum (self.launch self.current .confirm now).1 where
  bounded := h.bounded.launch now rfl
  ceiling_eq := h.ceiling_eq
  near := h.near
  confirmed := h.confirmed
  probes := by
    rintro probe ⟨⟩
    exact hu

theorem Bracketed.launchSearch (h : Bracketed path timers maximum self)
    (hphase : self.phase = .search high) (hf : self.floorValidated = true) (hlt : self.current < high) (now : Nat) :
    Bracketed path timers maximum (self.launch (self.current + divCeil (high - self.current) 2) .search now).1 where
  bounded := h.bounded.launch now ⟨Nat.le_add_right _ _, fun _ => (lt_add_divCeil hlt).1⟩
  ceiling_eq := h.ceiling_eq
  near := h.near
  confirmed := h.confirmed
  probes := by
    rintro probe ⟨⟩
    exact ⟨hf, high, hphase, (lt_add_divCeil hlt).2⟩

/-- A prober without an outstanding probe changes its phase; its ceiling is the configured one before and after. -/
theorem Bracketed.rephase (h : Bracketed path timers maximum self) (hn : self.outstanding = none) {ceiling : Nat}
    (hc : ceiling = self.maxCeiling) (phase : PmtuPhase) (hhigh : ∀ high, phase = .search high → high ≤ ceiling)
    (hnear : Near { self with ceiling, phase } path) (nextConfirm : Nat) :
    Bracketed path timers maximum { self with ceiling, phase, nextConfirm } := by
  have hb := h.bounded
  refine ⟨⟨hb.timers_eq, hb.max_eq, hb.min_le, ?_, Nat.le_of_eq hc, hhigh, hb.fits⟩, hc, hnear, h.confirmed, ?_⟩
  · exact Nat.le_trans hb.le_ceiling (Nat.le_of_eq (h.ceiling_eq.trans hc.symm))
  · intro probe hp
    cases hn.symm.trans hp

theorem Bracketed.finish (h : Bracketed path timers maximum self) (hn : self.outstanding = none)
    (hphase : self.phase = .search high) (hf : self.floorValidated = true) (hg : 0 < timers.granularity)
    (hd : high ≤ self.current ∨ high - self.current < self.timers.granularity) (nextRaise nextConfirm : Nat) :
    Bracketed path timers maximum { self with phase := .complete nextRaise, nextConfirm } := by
  have hh := (h.within hphase).2
  have ht := h.bounded.timers_eq
  refine h.rephase hn h.ceiling_eq (.complete nextRaise) (by rintro _ ⟨⟩) ⟨hf, ?_⟩ nextConfirm
  show min path self.ceiling < self.current + self.timers.granularity
  rw [ht] at hd ⊢
  omega

theorem Bracketed.advanceSearch (h : Bracketed path timers maximum self) (hn : self.outstanding = none)
    (hg : 0 < timers.granularity) (hphase : self.phase = .search high) (now : Nat) :
    Advanced path timers maximum self (self.advance now) := by
  unfold advance
  simp only [hphase]
  by_cases hfl : self.floorValidated = true
  · rw [if_neg (by simp [hfl])]
    split_ifs with hd
    · have hf := h.finish hn hphase hfl hg hd (now + self.timers.raiseInterval)
        (now + self.timers.confirmInterval)
      refine ⟨hf, fun _ => Nat.zero_le _, rfl, ?_, fun _ => .inr rfl⟩
      rintro high' high'' - h'
      cases h'
    · have hlt : self.current < high := by omega
      refine ⟨h.launchSearch hphase hfl hlt now, fun _ => ?_, rfl, ?_, fun _ => .inl rfl⟩
      · have hbd := budget_validated hphase hfl
        exact remaining_launch hphase (by omega) _ now .search
      · intro high' high'' hb ha
        exact (PmtuPhase.search.inj (ha.symm.trans hb))
  · have hfl : self.floorValidated = false := by simpa using hfl
    rw [if_pos (by simp [hfl])]
    refine ⟨h.launchConfirm (fun _ _ => hfl) now, fun _ => ?_, rfl, ?_, fun _ => .inl rfl⟩
    · have hbd := budget_unvalidated hphase hfl
      have hp := confirmations_pos self.current
      exact remaining_launch hphase (by omega) _ now .confirm
    · intro high' high'' hb ha
      exact (PmtuPhase.search.inj (ha.symm.trans hb))

theorem Bracketed.confirm (h : Bracketed path timers maximum self) {nextRaise : Nat}
    (hp : self.phase = .complete nextRaise) (now : Nat) :
    Bracketed path timers maximum (advance.confirm self now).1 ∧
      (advance.confirm self now).1.current = self.current := by
  unfold advance.confirm
  split_ifs with hd
  · have hb := h.bounded
    have hn : Bracketed path timers maximum { self with nextConfirm := now + self.timers.confirmInterval } :=
      ⟨⟨hb.timers_eq, hb.max_eq, hb.min_le, hb.le_ceiling, hb.ceiling_le, hb.high_le, hb.fits⟩, h.ceiling_eq,
        h.near, h.confirmed, h.probes⟩
    refine ⟨hn.launchConfirm ?_ now, rfl⟩
    intro high hs
    rw [show self.phase = .search high from hs] at hp
    cases hp
  · exact ⟨h, rfl⟩

theorem Bracketed.advance (h : Bracketed path timers maximum self) (hidle : self.outstanding = none)
    (hg : 0 < timers.granularity) (now : Nat) :
    Advanced path timers maximum self (self.advance now) := by
  cases hph : self.phase with
  | fixed => exact absurd hph h.probing
  | search high => exact h.advanceSearch hidle hg hph now
  | complete nextRaise =>
    have hc : ¬ self.searchComplete = false := by simp [searchComplete, hph]
    have hb := h.bounded
    obtain ⟨hf, hcl⟩ := h.complete hph
    have hst : ∀ next : PmtuProber × Option PmtuProbe, Bracketed path timers maximum next.1 →
        next.1.current = self.current → Advanced path timers maximum self next := by
      intro next hn hcu
      refine ⟨hn, fun hr => absurd hr hc, hcu, ?_,
        fun hr => absurd hr hc⟩
      intro high high' hs
      rw [hph] at hs
      cases hs
    unfold PmtuProber.advance
    simp only [hph]
    split_ifs with hra hrm
    · -- a raise searches from the confirmed size up to the configured maximum
      have hle : self.current ≤ self.maxCeiling := Nat.le_trans hb.le_ceiling hb.ceiling_le
      have hs := h.rephase hidle rfl (.search self.maxCeiling) (by rintro _ ⟨⟩; exact Nat.le_refl _)
        ⟨hle, Nat.min_le_right _ _⟩ self.nextConfirm
      have hlt : self.current < self.maxCeiling := by
        rw [hb.timers_eq] at hrm
        omega
      exact hst _ (hs.launchSearch rfl hf hlt now) rfl
    · rw [h.ceiling_eq] at hcl
      have hk := h.rephase hidle rfl (.complete (now + self.timers.raiseInterval)) (by rintro _ ⟨⟩) ⟨hf, hcl⟩
        self.nextConfirm
      obtain ⟨hn, hcu⟩ := hk.confirm rfl now
      exact hst _ hn hcu
    · obtain ⟨hn, hcu⟩ := h.confirm hph now
      exact hst _ hn hcu

/-! ### A probe is resolved -/

/-- What resolving the outstanding probe of a running search leaves: the search goes on with less to do,
and between closer bounds if the probe was one of the search. -/
structure Resolved (path : Nat) (timers : PmtuTimers) (maximum : Nat) (before : PmtuProber)
    (probe : Outstanding) (next : PmtuProber) : Prop where
  bracketed : Bracketed path timers maximum next
  none : next.outstanding = none
  timers_eq : next.timers = before.timers
  running : ∀ high, before.phase = .search high → ∃ high', next.phase = .search high' ∧
    next.budget < before.budget ∧ (probe.purpose = .search → high' - next.current < high - before.current)

variable {probe : Outstanding}

theorem Bracketed.lost (h : Bracketed path timers maximum self) (hpath : minPlpmtu ≤ path)
    (hg : 0 < timers.granularity) (ho : self.outstanding = some probe)
    (hlost : path < probe.size) (now : Nat) :
    Resolved path timers maximum self probe ({ self with outstanding := none }.probeLost probe now) := by
  obtain ⟨hbo, -, hn⟩ := h.bounded.probeLost probe now
  have hf := h.bounded.fits probe ho
  have ht := h.bounded.timers_eq
  unfold probeLost at hbo hn ⊢
  unfold Fits at hf
  cases hp : probe.purpose with
  | search =>
    obtain ⟨hfl, high, hph, hs⟩ := h.searching ho hp
    simp only [hp, hph, mapHigh] at hbo hn hf ⊢
    have hl : self.current < probe.size := hf.2 (by rw [ht]; exact hg)
    have hh := (h.within hph).2
    have hcloser : min high (probe.size - 1) - self.current < high - self.current := by omega
    refine ⟨⟨hbo, h.ceiling_eq, ⟨?_, ?_⟩, h.confirmed, by rintro _ ⟨⟩⟩, rfl, rfl, ?_⟩
    · show self.current ≤ min high (probe.size - 1)
      omega
    · show min path self.ceiling ≤ min high (probe.size - 1)
      omega
    · intro high' h'
      cases hph.symm.trans h'
      refine ⟨min high (probe.size - 1), rfl, ?_, fun _ => hcloser⟩
      rw [budget_validated hph hfl, @budget_validated { self with
        outstanding := none, phase := .search (min high (probe.size - 1)) } _ rfl hfl]
      exact hcloser
  | confirm =>
    simp only [hp] at hbo hn hf ⊢
    -- only a search that has not confirmed its size yet can lose a confirmation
    have hfl : self.floorValidated = false := by
      by_contra hv
      have := h.confirmed (by simpa using hv)
      omega
    have hm := h.bounded.min_le
    generalize hfa : (if self.current > basePlpmtu then basePlpmtu else minPlpmtu) = fallen at hbo hn ⊢
    have hbs : basePlpmtu = 1200 := rfl
    have hle : minPlpmtu = 512 := rfl
    have hfal : minPlpmtu ≤ fallen ∧ fallen < self.current ∧
        confirmations fallen < confirmations self.current := by
      unfold confirmations
      split_ifs at hfa <;> split_ifs <;> omega
    refine ⟨⟨hbo, h.ceiling_eq, ⟨Nat.le_max_right _ _, ?_⟩, by rintro ⟨⟩, by rintro _ ⟨⟩⟩, rfl, rfl, ?_⟩
    · show min path self.ceiling ≤ max (self.current - 1) fallen
      omega
    · intro high hph
      have hl := (h.within hph).1
      refine ⟨max (self.current - 1) fallen, rfl, ?_, fun h' => absurd (hp.symm.trans h') (by decide)⟩
      rw [budget_unvalidated hph hfl]
      show max (self.current - 1) fallen - minPlpmtu + confirmations fallen < _
      omega

theorem Bracketed.acked (h : Bracketed path timers maximum self) (hg : 0 < timers.granularity)
    (ho : self.outstanding = some probe) (hsmall : probe.size ≤ path) (now : Nat) :
    Resolved path timers maximum self probe (self.onProbeAck probe.id probe.size now) := by
  have hbo := (h.bounded.onProbeAck probe.id probe.size now).1
  have hf := h.bounded.fits probe ho
  have ht := h.bounded.timers_eq
  unfold onProbeAck at hbo ⊢
  unfold Fits at hf
  simp only [ho, ne_eq, not_true_eq_false, or_self, if_false] at hbo ⊢
  cases hpu : probe.purpose with
  | search =>
    obtain ⟨hfl, high, hph, hs⟩ := h.searching ho hpu
    have hc := h.bounded.high_le high hph
    simp only [hpu] at hbo hf ⊢
    have hl : self.current < probe.size := hf.2 (by rw [ht]; exact hg)
    have hr : probe.size > self.current ∧ probe.size ≤ self.ceiling := ⟨hl, by omega⟩
    rw [if_pos hr] at hbo ⊢
    have hcloser : high - probe.size < high - self.current := by omega
    refine ⟨⟨hbo, h.ceiling_eq, ?_, fun _ => hsmall, by rintro _ ⟨⟩⟩, rfl, rfl, ?_⟩
    · simp only [Near, hph]
      exact ⟨hs, (h.within hph).2⟩
    · intro high' h'
      cases hph.symm.trans h'
      refine ⟨high, hph, ?_, fun _ => hcloser⟩
      rw [budget_validated hph hfl, @budget_validated { self with outstanding := none, current := probe.size } high hph hfl]
      exact hcloser
  | confirm =>
    simp only [hpu] at hbo hf ⊢
    refine ⟨⟨hbo, h.ceiling_eq, ?_, fun _ => ?_, by rintro _ ⟨⟩⟩, rfl, rfl, ?_⟩
    · have hnear := h.near
      unfold Near at hnear ⊢
      dsimp only
      split
      · next hp => rwa [hp] at hnear
      · next hp => rwa [hp] at hnear
      · next hp =>
        rw [hp] at hnear
        exact ⟨rfl, hnear.2⟩
    · show self.current ≤ path
      omega
    · intro high hph
      have hp := confirmations_pos self.current
      have hm := h.bounded.min_le
      refine ⟨high, hph, ?_, fun h' => absurd (hpu.symm.trans h') (by decide)⟩
      rw [budget_unvalidated hph (h.confirming ho hpu hph), @budget_validated { self with
        outstanding := none, floorValidated := true, nextConfirm := now + self.timers.confirmInterval }
        high hph rfl]
      show high - self.current < _
      omega

theorem Resolved.paid {next : PmtuProber}
    (h : Resolved path timers maximum self probe next) (ho : self.outstanding = some probe)
    (hr : self.searchComplete = false) :
    next.searchComplete = false ∧ tries next.timers * next.budget ≤ self.remaining := by
  obtain ⟨high, hp⟩ := exists_high hr
  obtain ⟨high', hp', hb, -⟩ := h.running high hp
  refine ⟨searchComplete_of_search hp', ?_⟩
  rw [remaining_some hp ho, h.timers_eq]
  have hle : tries self.timers * next.budget ≤ tries self.timers * (self.budget - 1) :=
    Nat.mul_le_mul_left _ (by omega)
  omega

/-! ### One event -/

structure Steps (path : Nat) (timers : PmtuTimers) (maximum : Nat) (before : PmtuProber) (event : PmtuEvent)
    (next : PmtuProber × Option PmtuProbe) : Prop where
  bracketed : Bracketed path timers maximum next.1
  /-- A running search pays for every probe it sends. -/
  paid : before.searchComplete = false → next.2.toList.length + next.1.remaining ≤ before.remaining
  /-- A resolved search probe brings the bounds of the search closer. -/
  shrinks : ∀ probe, before.outstanding = some probe → probe.purpose = .search → before.Resolves probe event →
    ∃ high, before.phase = .search high ∧
      ∀ high', next.1.phase = .search high' → high' - next.1.current < high - before.current

theorem Steps.stay (h : Bracketed path timers maximum self) {event : PmtuEvent}
    (hp : ∀ probe, self.outstanding = some probe → ¬ self.Resolves probe event) :
    Steps path timers maximum self event (self, none) := by
  refine ⟨h, fun _ => Nat.le_of_eq (Nat.zero_add _), ?_⟩
  intro probe ho _ hr
  exact absurd hr (hp probe ho)

theorem Bracketed.poll (h : Bracketed path timers maximum self) (hp : minPlpmtu ≤ path)
    (hg : 0 < timers.granularity) {now : Nat} (hpath : self.OnPath path (.poll now)) :
    Steps path timers maximum self (.poll now) (self.poll now) := by
  unfold PmtuProber.poll
  rw [if_neg h.probing]
  cases ho : self.outstanding with
  | none =>
    have ha := h.advance ho hg now
    refine ⟨ha.bracketed, fun hru => ?_, ?_⟩
    · obtain ⟨high, hph⟩ := exists_high hru
      rw [remaining_none hph ho]
      exact ha.paid hru
    · intro probe h'
      rw [ho] at h'
      cases h'
  | some probe =>
    dsimp only
    split_ifs with hw hrt
    · refine Steps.stay h ?_
      rintro probe' h' ⟨htm, -⟩
      rw [ho] at h'
      cases h'
      omega
    · -- a retransmission has the size and the purpose of the probe it repeats
      have hb := h.bounded
      refine ⟨⟨⟨hb.timers_eq, hb.max_eq, hb.min_le, hb.le_ceiling, hb.ceiling_le, hb.high_le, ?_⟩, h.ceiling_eq,
        h.near, h.confirmed, ?_⟩, ?_, ?_⟩
      · rintro _ ⟨⟩
        exact hb.fits probe ho
      · rintro _ ⟨⟩
        exact h.probes probe ho
      · intro hru
        obtain ⟨high, hph⟩ := exists_high hru
        have haf := @remaining_some { self with
          outstanding := some { probe with attempts := probe.attempts + 1, sent := now } } high _ hph rfl
        have hs : budget { self with
          outstanding := some { probe with attempts := probe.attempts + 1, sent := now } } = self.budget := rfl
        have ht : self.timers.maxProbes ≤ tries self.timers := Nat.le_max_right _ _
        have hr : 1 + (tries self.timers * (self.budget - 1) + (tries self.timers - (probe.attempts + 1))) ≤
            tries self.timers * (self.budget - 1) + (tries self.timers - probe.attempts) := by omega
        rw [remaining_some hph ho, haf, hs]
        exact hr
      · rintro probe' h' - ⟨-, he⟩
        rw [ho] at h'
        cases h'
        omega
    · have hrs : self.Resolves probe (.poll now) := ⟨by omega, by omega⟩
      have hl := h.lost hp hg ho (hpath probe ho hrs) now
      have ha := hl.bracketed.advance hl.none hg now
      refine ⟨ha.bracketed, fun hru => ?_, ?_⟩
      · obtain ⟨hst, hpd⟩ := hl.paid ho hru
        exact Nat.le_trans (ha.paid hst) hpd
      · intro probe' h' hpu _
        rw [ho] at h'
        cases h'
        obtain ⟨-, high, hph, -⟩ := h.searching ho hpu
        obtain ⟨high', hph', -, hsh⟩ := hl.running high hph
        refine ⟨high, hph, ?_⟩
        intro high'' hph''
        rw [ha.phase_eq high' high'' hph' hph'', ha.current_eq]
        exact hsh hpu

theorem Bracketed.onProbeAck (h : Bracketed path timers maximum self) (hg : 0 < timers.granularity)
    {id : UInt32} {size now : Nat} (hpath : self.OnPath path (.probeAck id size now)) :
    Steps path timers maximum self (.probeAck id size now) (self.onProbeAck id size now, none) := by
  cases ho : self.outstanding with
  | none =>
    have hs : self.onProbeAck id size now = self := by simp [PmtuProber.onProbeAck, ho]
    rw [hs]
    refine Steps.stay h ?_
    intro probe h'
    rw [ho] at h'
    cases h'
  | some probe =>
    by_cases hm : probe.id = id ∧ probe.size = size
    · obtain ⟨rfl, rfl⟩ := hm
      have ha := h.acked hg ho (hpath probe ho ⟨rfl, rfl⟩) now
      refine ⟨ha.bracketed, fun hr => ?_, ?_⟩
      · obtain ⟨hst, hpd⟩ := ha.paid ho hr
        obtain ⟨high, hph⟩ := exists_high hst
        rw [remaining_none hph ha.none]
        exact Nat.le_trans (Nat.le_of_eq (Nat.zero_add _)) hpd
      · intro probe' h' hp _
        rw [ho] at h'
        cases h'
        obtain ⟨-, high, hph, -⟩ := h.searching ho hp
        obtain ⟨high', hph', -, hsh⟩ := ha.running high hph
        refine ⟨high, hph, ?_⟩
        rintro high'' hph''
        cases hph'.symm.trans hph''
        exact hsh hp
    · have hot : probe.id ≠ id ∨ probe.size ≠ size := by
        by_contra hb
        exact hm ⟨by simpa using fun h' => hb (.inl h'), by simpa using fun h' => hb (.inr h')⟩
      have hs : self.onProbeAck id size now = self := by simp [PmtuProber.onProbeAck, ho, hot]
      rw [hs]
      refine Steps.stay h ?_
      rintro probe' h' hrs
      rw [ho] at h'
      cases h'
      exact hm hrs

theorem Bracketed.step (h : Bracketed path timers maximum self) (hp : minPlpmtu ≤ path)
    (hg : 0 < timers.granularity) {event : PmtuEvent} (ho : self.OnPath path event) :
    Steps path timers maximum self event (self.step event) := by
  cases event with
  | poll now => exact h.poll hp hg ho
  | probeAck id size now => exact h.onProbeAck hg ho
  | sendTooBig attempted kernelLimit => exact ho.elim
  | probeTooBig size => exact ho.elim

/-! ### Runs -/

theorem Bracketed.after (h : Bracketed path timers maximum self) (hp : minPlpmtu ≤ path)
    (hg : 0 < timers.granularity) {events : List PmtuEvent} (ho : OnPathAll path self events) :
    Bracketed path timers maximum (self.after events) := by
  induction events generalizing self with
  | nil => exact h
  | cons event events ih =>
    have hs := h.step hp hg ho.1
    exact ih hs.bracketed ho.2

theorem Bracketed.probesBeforeComplete_le (h : Bracketed path timers maximum self) (hp : minPlpmtu ≤ path)
    (hg : 0 < timers.granularity) {events : List PmtuEvent} (ho : OnPathAll path self events) :
    self.probesBeforeComplete events ≤ self.remaining := by
  induction events generalizing self with
  | nil => exact Nat.zero_le _
  | cons event events ih =>
    have hs := h.step hp hg ho.1
    have hr := ih hs.bracketed ho.2
    unfold probesBeforeComplete
    split_ifs with hc
    · exact Nat.zero_le _
    · have hpd := hs.paid (by simpa using hc)
      omega

theorem Bracketed.remaining_le (h : Bracketed path timers maximum self) :
    self.remaining ≤ tries timers * (maximum - minPlpmtu + 3) := by
  have hb := h.bounded
  cases hph : self.phase with
  | fixed => simp [remaining, hph]
  | complete nextRaise => simp [remaining, hph]
  | search high =>
    have hh : high ≤ maximum := by
      have hc := hb.high_le high hph
      have hle := hb.ceiling_le
      have hmx := hb.max_eq
      omega
    have hbd : self.budget ≤ maximum - minPlpmtu + 3 := by
      have hm := hb.min_le
      cases hf : self.floorValidated with
      | true =>
        rw [budget_validated hph hf]
        omega
      | false =>
        rw [budget_unvalidated hph hf]
        unfold confirmations
        split_ifs <;> omega
    rw [← hb.timers_eq]
    cases ho : self.outstanding with
    | none =>
      rw [remaining_none hph ho]
      exact Nat.mul_le_mul_left _ hbd
    | some probe =>
      rw [remaining_some hph ho]
      calc tries self.timers * (self.budget - 1) + (tries self.timers - probe.attempts)
          ≤ tries self.timers * (self.budget - 1) + tries self.timers :=
            Nat.add_le_add_left (Nat.sub_le _ _) _
        _ = tries self.timers * (self.budget - 1 + 1) := rfl
        _ ≤ tries self.timers * (maximum - minPlpmtu + 3) := Nat.mul_le_mul_left _ (by omega)

/-- Against a path that carries exactly the packets of at most `path` bytes, a prober that reports its
search complete has a limit of at most `path` and less than the granularity below the smaller of `path`
and its ceiling. Every resolved search probe brings the bounds of the search closer, a search without
an outstanding probe sends one or completes, and the probes sent before completion are bounded, for the
first search and for every later one. -/
theorem search_converges {path : Nat} (hpath : minPlpmtu ≤ path) (ceiling : Nat) {timers : PmtuTimers}
    (hgranularity : 0 < timers.granularity) (now : Nat) {events : List PmtuEvent}
    (honest : OnPathAll path (discover ceiling timers now) events) :
    let prober := (discover ceiling timers now).after events
    (prober.searchComplete = true →
      prober.plpmtu ≤ path ∧ min path prober.ceiling - prober.plpmtu < timers.granularity) ∧
    (∀ event probe, prober.OnPath path event → prober.outstanding = some probe → probe.purpose = .search →
      prober.Resolves probe event → ∃ high, prober.phase = .search high ∧
        ∀ high', (prober.step event).1.phase = .search high' →
          high' - (prober.step event).1.plpmtu < high - prober.plpmtu) ∧
    (∀ now, prober.searchComplete = false → prober.outstanding = none →
      (prober.poll now).2.isSome = true ∨ (prober.poll now).1.searchComplete = true) ∧
    (∀ more, OnPathAll path prober more → prober.probesBeforeComplete more ≤
      max 1 timers.maxProbes * (clampTo minPlpmtu maxPlpmtu ceiling - minPlpmtu + 3)) := by
  intro prober
  have h : Bracketed path timers (clampTo minPlpmtu maxPlpmtu ceiling) prober :=
    (bracketed_discover path ceiling timers now).after hpath hgranularity honest
  refine ⟨?_, ?_, ?_, ?_⟩
  · intro hc
    cases hp : prober.phase with
    | fixed => exact absurd hp h.probing
    | search high => simp [searchComplete, hp] at hc
    | complete nextRaise =>
      obtain ⟨hf, hcl⟩ := h.complete hp
      rw [h.bounded.timers_eq] at hcl
      refine ⟨h.confirmed hf, ?_⟩
      show min path prober.ceiling - prober.current < timers.granularity
      omega
  · intro event probe he ho hpr hrs
    exact (h.step hpath hgranularity he).shrinks probe ho hpr hrs
  · intro now hr hn
    have hpl : prober.poll now = prober.advance now := by
      simp [poll, h.probing, hn]
    rw [hpl]
    exact (h.advance hn hgranularity now).progress hr
  · intro more hm
    exact Nat.le_trans (h.probesBeforeComplete_le hpath hgranularity hm) h.remaining_le

/-- A default prober on a path of 1400 bytes: 1200, 1336, 1370, 1387 and 1395 are acknowledged, 1404 is
sent three times and lost. -/
def search1400 : List PmtuEvent :=
  [.poll 0, .probeAck 1 1200 0, .poll 0, .probeAck 2 1336 0, .poll 0, .poll 1000, .poll 2000, .poll 3000,
    .probeAck 4 1370 3000, .poll 3000, .probeAck 5 1387 3000, .poll 3000, .probeAck 6 1395 3000, .poll 3000]

theorem search_converges_1400 :
    ((discover 1472 .default 0).after search1400).searchComplete = true ∧
    ((discover 1472 .default 0).after search1400).plpmtu ≤ 1400 ∧
    min 1400 ((discover 1472 .default 0).after search1400).ceiling -
      ((discover 1472 .default 0).after search1400).plpmtu < 16 :=
  ⟨by decide, (@search_converges 1400 (by decide) 1472 .default (by decide) 0 search1400 (by decide)).1 (by decide)⟩

end RustReality.Handoff.Udp.PmtuProber
