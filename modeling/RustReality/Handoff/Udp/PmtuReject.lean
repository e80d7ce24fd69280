import RustReality.Handoff.Udp.PmtuSearch

/-!
# Probes the kernel rejects

A rejected search probe lowers the ceiling below its size, and nothing but the raise timer lifts the
ceiling again. A rejected confirmation has the size of the limit, which the ceiling cannot pass: the
prober sends it again, and while the start of a search is not confirmed it does so at once.
-/

namespace RustReality.Handoff.Udp.PmtuProber

variable (self : PmtuProber)

/-- Whether a poll runs the raise timer, which re-opens the ceiling. -/
def Reopens (now : Nat) : Prop :=
  ∃ nextRaise, self.phase = .complete nextRaise ∧ nextRaise ≤ now ∧
    ∀ probe, self.outstanding = some probe → self.Resolves probe (.poll now) ∧ probe.purpose = .search

/-- Events from `now` on, up to the next run of the raise timer. -/
def BeforeRaise (now : Nat) : PmtuProber → List PmtuEvent → Prop
  | _, [] => True
  | self, event :: events =>
    (∀ time, event = .poll time → now ≤ time ∧ ¬ self.Reopens time) ∧ BeforeRaise now (self.step event).1 events

/-- From `now` on, up to the next run of the raise timer, every probe is smaller than `size`. -/
def Spares (size now : Nat) : Prop :=
  ∀ events probe, BeforeRaise now self events → some probe ∈ (Mealy.run step self events).2 → probe.size < size

def RaisesFirst (now : Nat) : Prop :=
  match self.phase with
  | .fixed => True
  | .search _ => self.floorValidated = true ∧ self.timers.raiseInterval ≤ self.timers.confirmInterval
  | .complete nextRaise => nextRaise ≤ max now self.nextConfirm

/-- The sizes that `rounds` polls at one instant send while the kernel rejects every probe. -/
def rejectAll (now : Nat) : Nat → PmtuProber → List Nat
  | 0, _ => []
  | rounds + 1, self =>
    match self.poll now with
    | (next, none) => rejectAll now rounds next
    | (next, some probe) => probe.size :: rejectAll now rounds (next.onProbeTooBig probe.size)

/-- In these rounds the raise timer does not run and every rejected probe is above the limit. -/
def AboveLimit (now : Nat) : Nat → PmtuProber → Prop
  | 0, _ => True
  | rounds + 1, self =>
    ¬ self.Reopens now ∧
    match self.poll now with
    | (next, none) => AboveLimit now rounds next
    | (next, some probe) => next.plpmtu < probe.size ∧ AboveLimit now rounds (next.onProbeTooBig probe.size)

variable {timers : PmtuTimers} {maximum size now : Nat} {self : PmtuProber}

/-! ### Below a rejected size -/

structure Below (timers : PmtuTimers) (maximum size : Nat) (prober : PmtuProber) : Prop where
  bounded : Bounded timers maximum prober
  ceiling_lt : prober.ceiling < size
  outstanding_lt : ∀ probe, prober.outstanding = some probe → probe.size < size

theorem Bounded.advance_within (h : Bounded timers maximum self) (hn : self.outstanding = none) (now : Nat)
    (hr : ∀ nextRaise, self.phase = .complete nextRaise → now < nextRaise) :
    (self.advance now).1.ceiling = self.ceiling ∧
      (∀ probe, (self.advance now).2 = some probe → probe.size ≤ self.ceiling) ∧
      ∀ probe, (self.advance now).1.outstanding = some probe → probe.size ≤ self.ceiling := by
  have hle := h.le_ceiling
  unfold PmtuProber.advance
  cases hp : self.phase with
  | fixed => simp [hn]
  | search high =>
    have hh := h.high_le high hp
    dsimp only
    split_ifs with hf hd
    · simp [PmtuProber.launch, takeId, hle]
    · simp [hn]
    · have hlt := @lt_add_divCeil self.current high (by omega)
      simp [PmtuProber.launch, takeId]
      omega
  | complete nextRaise =>
    have hlt := hr nextRaise hp
    dsimp only
    rw [if_neg (by omega)]
    unfold advance.confirm
    split_ifs with hdu
    · simp [PmtuProber.launch, takeId, hle]
    · simp [hn]

theorem Below.poll (h : Below timers maximum size self) (hr : ¬ self.Reopens now) :
    Below timers maximum size (self.poll now).1 ∧ ∀ probe, (self.poll now).2 = some probe → probe.size < size := by
  have hlt := h.ceiling_lt
  have hbo := (h.bounded.poll now).1
  unfold PmtuProber.poll at hbo ⊢
  split_ifs at hbo ⊢ with hf
  · exact ⟨h, nofun⟩
  cases ho : self.outstanding with
  | none =>
    obtain ⟨hc, hs, hl⟩ := h.bounded.advance_within ho now fun nextRaise hp =>
      Nat.lt_of_not_le fun hle => hr ⟨nextRaise, hp, hle, by simp [ho]⟩
    rw [ho] at hbo
    exact ⟨⟨hbo, Nat.lt_of_le_of_lt (Nat.le_of_eq hc) hlt,
        fun probe hpr => Nat.lt_of_le_of_lt (hl probe hpr) hlt⟩,
      fun probe hpr => Nat.lt_of_le_of_lt (hs probe hpr) hlt⟩
  | some outstanding =>
    have hsz := h.outstanding_lt outstanding ho
    rw [ho] at hbo
    dsimp only at hbo ⊢
    split_ifs at hbo ⊢ with hw hrt
    · exact ⟨h, nofun⟩
    · exact ⟨⟨hbo, hlt, by simp [hsz]⟩, by simp [hsz]⟩
    · obtain ⟨hls, -, hn⟩ := h.bounded.probeLost outstanding now
      have hc : ({ self with outstanding := none }.probeLost outstanding now).ceiling = self.ceiling := by
        unfold PmtuProber.probeLost
        cases outstanding.purpose <;> rfl
      obtain ⟨hk, hs, hl⟩ := hls.advance_within hn now fun nextRaise hp => by
        unfold PmtuProber.probeLost at hp
        cases hpu : outstanding.purpose with
        | confirm => simp [hpu] at hp
        | search =>
          have hcm : self.phase = .complete nextRaise := by
            cases hsl : self.phase <;> simp_all [mapHigh]
          refine Nat.lt_of_not_le fun hle => hr ⟨nextRaise, hcm, hle, ?_⟩
          rintro probe hpr
          cases ho.symm.trans hpr
          exact ⟨⟨by omega, by omega⟩, hpu⟩
      rw [hc] at hk hs hl
      exact ⟨⟨hbo, by omega, fun probe hpr => Nat.lt_of_le_of_lt (hl probe hpr) hlt⟩,
        fun probe hpr => Nat.lt_of_le_of_lt (hs probe hpr) hlt⟩

theorem Below.step (h : Below timers maximum size self) {event : PmtuEvent}
    (hr : ∀ time, event = .poll time → ¬ self.Reopens time) :
    Below timers maximum size (self.step event).1 ∧
      ∀ probe, (self.step event).2 = some probe → probe.size < size := by
  have hle := h.bounded.le_ceiling
  have hlt := h.ceiling_lt
  have hb := (h.bounded.step event).1
  cases event with
  | poll time => exact h.poll (hr time rfl)
  | probeAck id acked time =>
    refine ⟨⟨hb, ?_, ?_⟩, by rintro _ ⟨⟩⟩
    all_goals
      simp only [PmtuProber.step, PmtuProber.onProbeAck]
      cases ho : self.outstanding with
      | none => simp [hlt, ho]
      | some outstanding =>
        dsimp only
        split
        · simp [hlt, ho, h.outstanding_lt outstanding ho]
        · cases outstanding.purpose with
          | search => dsimp only; split_ifs <;> simp [hlt]
          | confirm => simp [hlt]
  | sendTooBig attempted kernelLimit =>
    have hk : (self.onSendTooBig attempted kernelLimit).ceiling ≤ self.ceiling := by
      have hm := h.bounded.min_le
      simp only [PmtuProber.onSendTooBig]
      omega
    refine ⟨⟨hb, Nat.lt_of_le_of_lt hk hlt, ?_⟩, by rintro _ ⟨⟩⟩
    intro probe hp
    exact h.outstanding_lt probe (Option.filter_eq_some_iff.1 hp).1
  | probeTooBig rejected =>
    refine ⟨⟨hb, ?_, ?_⟩, by rintro _ ⟨⟩⟩
    · simp only [PmtuProber.step, PmtuProber.onProbeTooBig]
      omega
    · intro probe hp
      exact h.outstanding_lt probe (Option.filter_eq_some_iff.1 hp).1

theorem Below.spares (h : Below timers maximum size self) : self.Spares size now := by
  intro events
  induction events generalizing self with
  | nil => simp
  | cons event events ih =>
    intro probe hb hp
    obtain ⟨hn, hs⟩ := h.step fun time ht => (hb.1 time ht).2
    rcases List.mem_cons.1 hp with hf | hl
    · exact hs probe hf.symm
    · exact ih hn probe hb.2 hl

/-! ### At the limit -/

structure Waits (now : Nat) (prober : PmtuProber) : Prop where
  outstanding_none : prober.outstanding = none
  high_le : ∀ high, prober.phase = .search high → high ≤ prober.current
  raises : prober.RaisesFirst now

theorem Waits.step (h : Waits now self) {event : PmtuEvent}
    (hr : ∀ time, event = .poll time → now ≤ time ∧ ¬ self.Reopens time) :
    Waits now (self.step event).1 ∧ (self.step event).2 = none := by
  have hn := h.outstanding_none
  have hra := h.raises
  cases event with
  | poll time =>
    obtain ⟨hle, hr⟩ := hr time rfl
    simp only [PmtuProber.step, PmtuProber.poll, hn]
    unfold PmtuProber.advance
    unfold RaisesFirst at hra
    cases hph : self.phase with
    | fixed => simp [h]
    | search high =>
      have hh := h.high_le high hph
      simp only [hph] at hra
      simp only [hra.1, hh, true_or, reduceCtorEq, if_false, if_true, Bool.not_true, Bool.false_eq_true]
      refine ⟨⟨hn, by rintro _ ⟨⟩, ?_⟩, trivial⟩
      show time + self.timers.raiseInterval ≤ max now (time + self.timers.confirmInterval)
      omega
    | complete nextRaise =>
      simp only [hph] at hra
      have he : ¬ nextRaise ≤ time := fun hle => hr ⟨nextRaise, hph, hle, by simp [hn]⟩
      have hc : ¬ self.nextConfirm ≤ time := by omega
      simp [he, hc, advance.confirm, h]
  | probeAck id acked time => simp [PmtuProber.step, PmtuProber.onProbeAck, hn, h]
  | sendTooBig attempted kernelLimit =>
    refine ⟨⟨by simp [PmtuProber.step, PmtuProber.onSendTooBig, hn], ?_, ?_⟩, rfl⟩
    · intro high hh
      obtain ⟨before, hb, rfl⟩ := mapHigh_search hh
      have := h.high_le before hb
      simp only [PmtuProber.step, PmtuProber.onSendTooBig]
      split_ifs <;> omega
    · cases hph : self.phase <;>
        simp_all [RaisesFirst, PmtuProber.step, PmtuProber.onSendTooBig, mapHigh]
  | probeTooBig rejected =>
    refine ⟨⟨by simp [PmtuProber.step, PmtuProber.onProbeTooBig, hn], ?_, ?_⟩, rfl⟩
    · intro high hh
      obtain ⟨before, hb, rfl⟩ := mapHigh_search hh
      exact Nat.le_trans (Nat.min_le_left _ _) (h.high_le before hb)
    · cases hph : self.phase <;>
        simp_all [RaisesFirst, PmtuProber.step, PmtuProber.onProbeTooBig, mapHigh]

theorem Waits.spares (h : Waits now self) (size : Nat) : self.Spares size now := by
  intro events
  induction events generalizing self with
  | nil => simp
  | cons event events ih =>
    intro probe hb hp
    obtain ⟨hn, hs⟩ := h.step hb.1
    rcases List.mem_cons.1 hp with hf | hl
    · rw [hs] at hf
      cases hf
    · exact ih hn probe hb.2 hl

theorem not_spares (hn : self.outstanding = none) (hh : ∀ high, self.phase = .search high → high ≤ self.current)
    (hsize : size ≤ self.current) (hr : ¬ self.RaisesFirst now) : ¬ self.Spares size now := by
  intro hsp
  unfold RaisesFirst at hr
  have ho (phase) (hph : self.phase = .complete phase) (time) (hlt : time < phase) : ¬ self.Reopens time := by
    rintro ⟨nextRaise, hco, hle, -⟩
    cases hph.symm.trans hco
    omega
  cases hph : self.phase with
  | fixed => simp [hph] at hr
  | search high =>
    have hnv (time) : ¬ self.Reopens time := by
      rintro ⟨nextRaise, hco, -⟩
      cases hph.symm.trans hco
    have hle := hh high hph
    cases hf : self.floorValidated with
    | false =>
      have hs := hsp [.poll now] ⟨self.nextId, self.current⟩
        ⟨by rintro time ⟨⟩; exact ⟨Nat.le_refl _, hnv _⟩, trivial⟩
        (by simp [step, poll, advance, hn, hph, hf, launch, takeId])
      exact absurd hs (Nat.not_lt.2 hsize)
    | true =>
      have hl : self.timers.confirmInterval < self.timers.raiseInterval := by
        simpa [hph, hf] using hr
      -- the search is over at once, and the confirmation at the limit comes next
      have hd : self.poll now = ({ self with
          phase := .complete (now + self.timers.raiseInterval)
          nextConfirm := now + self.timers.confirmInterval }, none) := by
        simp [poll, advance, hn, hph, hf, hle]
      have hs := hsp [.poll now, .poll (now + self.timers.confirmInterval)] ⟨self.nextId, self.current⟩
        ⟨by rintro time ⟨⟩; exact ⟨Nat.le_refl _, hnv _⟩, by
          rintro time ⟨⟩
          refine ⟨Nat.le_add_right _ _, ?_⟩
          rintro ⟨nextRaise, hco, hle, -⟩
          simp only [step, hd] at hco
          cases hco
          omega, trivial⟩
        (by
          have he : ¬ self.timers.raiseInterval ≤ self.timers.confirmInterval := Nat.not_le.2 hl
          simp only [Mealy.run_cons, step, hd]
          simp [poll, advance, advance.confirm, hn, he, launch, takeId])
      exact absurd hs (Nat.not_lt.2 hsize)
  | complete nextRaise =>
    have hl : max now self.nextConfirm < nextRaise := by simpa [hph] using hr
    have hnt : ¬ nextRaise ≤ max now self.nextConfirm := Nat.not_le.2 hl
    have hs := hsp [.poll (max now self.nextConfirm)] ⟨self.nextId, self.current⟩
      ⟨by rintro time ⟨⟩; exact ⟨Nat.le_max_left _ _, ho _ hph _ hl⟩, trivial⟩
      (by simp [step, poll, advance, advance.confirm, hn, hph, hnt,
            launch, takeId, -sup_le_iff, -le_sup_iff])
    exact absurd hs (Nat.not_lt.2 hsize)

/-! ### A rejected probe -/

theorem outstanding_of_poll {probe : PmtuProbe} (hp : (self.poll now).2 = some probe) :
    ∃ outstanding, (self.poll now).1.outstanding = some outstanding ∧ outstanding.size = probe.size := by
  have ha (self : PmtuProber) (hp : (self.advance now).2 = some probe) :
      ∃ outstanding, (self.advance now).1.outstanding = some outstanding ∧ outstanding.size = probe.size := by
    unfold advance at hp ⊢
    unfold advance.confirm at hp ⊢
    cases hph : self.phase with
    | fixed => simp [hph] at hp
    | search high =>
      simp only [hph] at hp ⊢
      split_ifs at hp ⊢ <;> simp_all [launch, takeId] <;> simp [← hp]
    | complete nextRaise =>
      simp only [hph] at hp ⊢
      split_ifs at hp ⊢ <;> simp_all [launch, takeId] <;> simp [← hp]
  unfold poll at hp ⊢
  split_ifs at hp ⊢ with hf
  cases ho : self.outstanding with
  | none =>
    rw [ho] at hp
    exact ha self hp
  | some outstanding =>
    rw [ho] at hp
    dsimp only at hp ⊢
    split_ifs at hp ⊢ with hw hr
    · cases hp
      exact ⟨_, rfl, rfl⟩
    · exact ha _ hp

/-- The rejection of the probe just polled leaves none outstanding. Above the limit it puts the prober
below the size, at the limit it leaves nothing to search. -/
theorem Bounded.rejected (h : Bounded timers maximum self) {probe : PmtuProbe}
    (hp : (self.poll now).2 = some probe) :
    ((self.poll now).1.onProbeTooBig probe.size).outstanding = none ∧
    ((self.poll now).1.plpmtu < probe.size →
      Below timers maximum probe.size ((self.poll now).1.onProbeTooBig probe.size)) ∧
    (probe.size ≤ (self.poll now).1.plpmtu → ∀ high,
      ((self.poll now).1.onProbeTooBig probe.size).phase = .search high → high ≤ (self.poll now).1.plpmtu) := by
  obtain ⟨outstanding, ho, hs⟩ := outstanding_of_poll hp
  have hnx := (h.poll now).1
  generalize (self.poll now).1 = next at ho hnx ⊢
  have hn : (next.onProbeTooBig probe.size).outstanding = none := by
    simp [PmtuProber.onProbeTooBig, ho, hs]
  have hb := (hnx.onProbeTooBig probe.size).1
  refine ⟨hn, fun hlt => ⟨hb, ?_, by simp [hn]⟩, fun hle high hh => ?_⟩
  · unfold plpmtu at hlt
    simp only [PmtuProber.onProbeTooBig]
    omega
  · have hc := hb.high_le high hh
    unfold plpmtu at hle ⊢
    simp only [PmtuProber.onProbeTooBig] at hc
    omega

theorem Below.length_rejectAll (h : Below timers maximum size self) {rounds : Nat}
    (habove : AboveLimit now rounds self) : (rejectAll now rounds self).length ≤ size := by
  induction rounds generalizing self size with
  | zero => exact Nat.zero_le _
  | succ rounds ih =>
    obtain ⟨hra, habove⟩ := habove
    obtain ⟨hn, hs⟩ := h.poll hra
    have hr (probe) (hp : (self.poll now).2 = some probe) := (h.bounded.rejected hp).2.1
    unfold rejectAll
    generalize self.poll now = result at habove hn hs hr ⊢
    obtain ⟨next, probe⟩ := result
    cases probe with
    | none => exact ih hn habove
    | some probe => exact Nat.lt_of_le_of_lt (ih (hr probe rfl habove.1) habove.2) (hs probe rfl)

/-- In every run of a prober, a probe that is polled and rejected is not followed by one of its size or
more before the raise timer runs exactly when it was above the limit or the raise timer comes no later
than the next confirmation; and polls at one instant whose rejected probes are all above the limit
send only finitely many. -/
theorem rejected_probe_spared (hself : Configured timers maximum self) (events : List PmtuEvent) :
    (∀ now probe, ((self.after events).poll now).2 = some probe →
      ((((self.after events).poll now).1.onProbeTooBig probe.size).Spares probe.size now ↔
        ((self.after events).poll now).1.plpmtu < probe.size ∨
          (((self.after events).poll now).1.onProbeTooBig probe.size).RaisesFirst now)) ∧
    ∀ now, ∃ bound, ∀ rounds, AboveLimit now rounds (self.after events) →
      (rejectAll now rounds (self.after events)).length ≤ bound := by
  have h := hself.bounded.1.after events
  generalize self.after events = reached at h
  constructor
  · intro now probe hp
    obtain ⟨hn, hb, hh⟩ := h.rejected hp
    by_cases hlt : (reached.poll now).1.plpmtu < probe.size
    · simp only [hlt, true_or, iff_true]
      exact (hb hlt).spares
    · have hle := Nat.le_of_not_lt hlt
      simp only [hlt, false_or]
      constructor
      · intro hs
        by_contra hr
        exact not_spares hn (hh hle) hle hr hs
      · intro hr
        exact Waits.spares ⟨hn, hh hle, hr⟩ probe.size
  · intro now
    -- any size above the ceiling and the outstanding probe bounds the rounds
    refine ⟨max reached.ceiling (reached.outstanding.elim 0 (·.size)) + 1, fun rounds ha => ?_⟩
    refine Below.length_rejectAll ⟨h, by omega, fun probe hpr => ?_⟩ ha
    simp only [hpr, Option.elim_some]
    omega

/-- A search probe of a default prober, rejected by the kernel. -/
theorem rejected_probe_spared_1336 :
    (((discover 1472 .default 0).after [.poll 0, .probeAck 1 1200 0]).poll 0).2 = some ⟨2, 1336⟩ ∧
    ((((discover 1472 .default 0).after [.poll 0, .probeAck 1 1200 0]).poll 0).1.onProbeTooBig 1336).Spares 1336 0 :=
  ⟨by decide, ((rejected_probe_spared (.discover 1472 .default 0) [.poll 0, .probeAck 1 1200 0]).1 0 ⟨2, 1336⟩
    (by decide)).2 (.inl (by decide))⟩

/-- The confirmation a search starts with is rejected and sent again, without time passing. -/
theorem rejected_confirmation_repeats :
    ((discover 1472 .default 0).poll 0).2 = some ⟨1, 1200⟩ ∧
    ¬ (((discover 1472 .default 0).poll 0).1.onProbeTooBig 1200).Reopens 0 ∧
    ((((discover 1472 .default 0).poll 0).1.onProbeTooBig 1200).poll 0).2 = some ⟨2, 1200⟩ ∧
    rejectAll 0 20 (discover 1472 .default 0) = List.replicate 20 1200 := by
  refine ⟨by decide, ?_, by decide, by decide⟩
  rintro ⟨nextRaise, hp, -⟩
  have hs : (((discover 1472 .default 0).poll 0).1.onProbeTooBig 1200).phase = .search 1200 := by decide
  cases hs.symm.trans hp

end RustReality.Handoff.Udp.PmtuProber
