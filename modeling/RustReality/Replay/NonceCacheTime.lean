import RustReality.Lib.Clock
import RustReality.Replay.NonceCacheOnce

/-!
# A nonce cache whose calls are made in time order

A call reads the clock when it is made. If the turns of a schedule are taken in the order of those
times, no call can purge an entry before it is due at the time the schedule has reached.
-/

namespace RustReality.Replay
open List Clock Expiry Interleaving

variable {ι ε : Type}

def InTimeOrder (calls : ι → NonceCall) (schedule : List (ι × Answers)) : Prop :=
  schedule.Pairwise fun first second => (calls first.1).now ≤ (calls second.1).now

variable [DecidableEq ι] {errors : ReplayErrors ε} {policy : ReplayPolicy} {calls : ι → NonceCall}
  {schedule : List (ι × Answers)}

theorem InTimeOrder.history (h : InTimeOrder calls schedule) :
    (nonceRun errors policy calls schedule).2.Pairwise fun first second => (calls first.1).now ≤ (calls second.1).now := by
  have hs := execute_sublist (nonceStep errors policy) (nonceStart calls) schedule
  have ht : (schedule.map Prod.fst).Pairwise fun i j => (calls i).now ≤ (calls j).now := pairwise_map.2 h
  have he := ht.sublist hs
  rw [pairwise_map] at he
  exact he

theorem mem_schedule {i : ι} {event : NonceEvent ε} (h : (i, event) ∈ (nonceRun errors policy calls schedule).2) :
    ∃ answers, (i, answers) ∈ schedule := by
  have hs := execute_sublist (nonceStep errors policy) (nonceStart calls) schedule
  rcases mem_map.1 (hs.subset (mem_map_of_mem h)) with ⟨⟨j, answers⟩, hm, rfl⟩
  exact ⟨answers, hm⟩

variable [Fintype ι] {nonce : Nonce}

/-- The second of two admissions of one nonce comes after the first one has expired. -/
theorem InTimeOrder.admitted_again (ho : InTimeOrder calls schedule) {before between after : List (ι × NonceEvent ε)}
    {i j : ι} {now later : Nat}
    (hh : (nonceRun errors policy calls schedule).2 =
      before ++ (i, .admitted nonce now) :: (between ++ (j, .admitted nonce later) :: after)) :
    now + policy.retention ≤ later := by
  have ht := nonceTrace_run errors policy calls schedule
  have hs := @InTimeOrder.history _ _ _ errors policy _ _ ho
  rcases ht.once before i nonce now between j later after hh with ⟨k, time, hm, hle⟩
  have hp := ht.speaks k (.purged (nonceShard nonce) time)
  have hsc := ht.speaks j (.admitted nonce later)
  rw [hh] at hs hp hsc
  have htm : time = (calls k).now := hp (by simp [hm])
  have hl : calls j = .reserve nonce later := hsc (by simp)
  have htl := (pairwise_append.1 (pairwise_cons.1 (pairwise_append.1 hs).2.1).2).2.2
  have hb : (calls k).now ≤ (calls j).now := htl _ hm _ mem_cons_self
  rw [hl] at hb
  exact hle.trans (htm.le.trans hb)

theorem InTimeOrder.apart (ho : InTimeOrder calls schedule) {i j : ι} {now later : Nat}
    (hi : (i, .admitted nonce now) ∈ (nonceRun errors policy calls schedule).2)
    (hj : (j, .admitted nonce later) ∈ (nonceRun errors policy calls schedule).2) :
    i = j ∨ now + policy.retention ≤ later ∨ later + policy.retention ≤ now := by
  rcases append_of_mem hi with ⟨before, after, hh⟩
  rw [hh] at hj
  rcases mem_append.1 hj with hb | hr
  · rcases append_of_mem hb with ⟨front, between, rfl⟩
    rw [append_assoc, cons_append] at hh
    exact .inr (.inr (ho.admitted_again hh))
  · rcases mem_cons.1 hr with hs | ha
    · cases hs
      exact .inl rfl
    · rcases append_of_mem ha with ⟨between, back, rfl⟩
      exact .inr (.inl (ho.admitted_again hh))

/-- A retention that covers the window of a timestamp admits its nonce once while it is fresh. -/
theorem InTimeOrder.admitted_fresh (ho : InTimeOrder calls schedule) {i j : ι}
    {epoch timestamp difference difference' now later : Nat}
    (hi : (i, .admitted nonce now) ∈ (nonceRun errors policy calls schedule).2)
    (hj : (j, .admitted nonce later) ∈ (nonceRun errors policy calls schedule).2)
    (hfresh : Fresh epoch timestamp difference now) (hfresh' : Fresh epoch timestamp difference' later)
    (hc : (difference + difference' + 1) * nanosPerSecond ≤ policy.retention) : i = j := by
  have hl := hfresh.lt hfresh'
  have he := hfresh'.lt hfresh
  rw [Nat.add_comm difference'] at he
  rcases ho.apart hi hj with hs | ha | ha
  · exact hs
  · omega
  · omega

theorem held_until {i : ι} {now time : Nat}
    (ha : (i, .admitted nonce now) ∈ (nonceRun errors policy calls schedule).2)
    (hr : ∀ turn ∈ schedule, (calls turn.1).now ≤ time) (htime : time < now + policy.retention) :
    held (nonceRun errors policy calls schedule).1.shared.shards nonce = some (now + policy.retention) := by
  have hi := nonceInv_run errors policy calls schedule
  have htr := nonceTrace_run errors policy calls schedule
  rcases append_of_mem ha with ⟨before, after, hh⟩
  rcases hi.retained before i nonce now after hh with ⟨k, late, hm, hle⟩ | hhl
  · have hp : (k, .purged (nonceShard nonce) late) ∈ (nonceRun errors policy calls schedule).2 := by
      rw [hh]
      exact mem_append_right _ (mem_cons_of_mem _ hm)
    have hl : late = (calls k).now := htr.speaks k _ hp
    rcases mem_schedule hp with ⟨answers, ht⟩
    have hn : (calls k).now ≤ time := hr (k, answers) ht
    omega
  · exact hhl

end RustReality.Replay
