import RustReality.Nxr.Open
import RustReality.Replay.NonceCacheTime

/-!
# An NXR open is accepted once

All generations of a landing share one nonce cache, which keeps a nonce for twice the accepted clock
difference and one second. A reload may replace the key; the retention has to stay the same.
-/

namespace RustReality.Nxr

open Interleaving Vless Replay Clock

def replayNonceCapacity : Nat := 65536

structure NxrTiming where
  maxTimeDifferenceSeconds : Nat
  pos : 1 ≤ maxTimeDifferenceSeconds
  le : maxTimeDifferenceSeconds ≤ 300

def NxrTiming.retention (timing : NxrTiming) : Nat :=
  replayRetentionSeconds timing.maxTimeDifferenceSeconds * nanosPerSecond

theorem NxrTiming.retention_eq (timing : NxrTiming) :
    timing.retention = (2 * timing.maxTimeDifferenceSeconds + 1) * nanosPerSecond := by
  have hle := timing.le
  unfold NxrTiming.retention replayRetentionSeconds
  congr 1
  omega

/-- `NxrReplayCache::from_landing`. -/
def NxrTiming.policy (timing : NxrTiming) (lastInstant : Nat) : ReplayPolicy where
  capacity := replayNonceCapacity
  retention := timing.retention
  lastInstant := lastInstant
  capacity_pos := by decide
  capacity_lt := by decide
  retention_pos := by
    rw [timing.retention_eq]
    unfold nanosPerSecond
    omega

/-- One connection: the request, the instant at which it is handled and the generation that handles it. -/
structure Attempt where
  request : Bytes
  now : Nat
  key : NxrKey
  timing : NxrTiming

/-- What happens to the cache of a landing: connections, and the purges of the monitor. -/
inductive LandingCall
  | handle (attempt : Attempt)
  | purge (now : Nat)

section Run

variable (hmac : Hmac) (epoch : Nat)

def Attempt.opens (attempt : Attempt) : Except NxrProtocolError (Nonce × Opened) :=
  openRequest hmac ⟨attempt.key, attempt.timing.maxTimeDifferenceSeconds⟩ attempt.request (unixSeconds epoch attempt.now)

/-- A request that is refused before the reservation does not reach the cache. -/
def LandingCall.reaches : LandingCall → Bool
  | .handle attempt => (attempt.opens hmac epoch).isOk
  | .purge _ => true

def LandingCall.nonceCall : LandingCall → NonceCall
  | .handle attempt => .reserve (nonceAt attempt.request) attempt.now
  | .purge now => .purge now

variable {ι : Type} [DecidableEq ι]

def landingRun (lastInstant : Nat) (timing : NxrTiming) (calls : ι → LandingCall) (schedule : List (ι × Answers)) :
    Config ι (NonceStore ι) (NonceTask NxrReplayError) × List (ι × NonceEvent NxrReplayError) :=
  nonceRun nxrReplayErrors (timing.policy lastInstant) (fun i => (calls i).nonceCall)
    (schedule.filter fun turn => (calls turn.1).reaches hmac epoch)

def Authenticates (lastInstant : Nat) (timing : NxrTiming) (calls : ι → LandingCall) (schedule : List (ι × Answers))
    (i : ι) (attempt : Attempt) : Prop :=
  calls i = .handle attempt ∧ ∃ nonce opened, attempt.opens hmac epoch = .ok (nonce, opened) ∧
    (i, .admitted nonce attempt.now) ∈ (landingRun hmac epoch lastInstant timing calls schedule).2

end Run

section Once

variable {hmac : Hmac} {epoch lastInstant : Nat} {ι : Type} [DecidableEq ι] {timing : NxrTiming}
  {calls : ι → LandingCall} {schedule : List (ι × Answers)}

theorem Authenticates.admitted {i : ι} {attempt : Attempt}
    (h : Authenticates hmac epoch lastInstant timing calls schedule i attempt) :
    (i, .admitted (nonceAt attempt.request) attempt.now) ∈
      (landingRun hmac epoch lastInstant timing calls schedule).2 := by
  rcases h with ⟨-, nonce, opened, ho, hm⟩
  rw [(openRequest_ok ho).1] at hm
  exact hm

theorem Authenticates.fresh {i : ι} {attempt : Attempt}
    (h : Authenticates hmac epoch lastInstant timing calls schedule i attempt) :
    Fresh epoch (timestampAt attempt.request) attempt.timing.maxTimeDifferenceSeconds attempt.now := by
  rcases h with ⟨-, nonce, opened, ho, hm⟩
  exact (openRequest_ok ho).2

theorem NxrTiming.difference_eq {timing timing' : NxrTiming} (h : timing.retention = timing'.retention) :
    timing.maxTimeDifferenceSeconds = timing'.maxTimeDifferenceSeconds := by
  rw [timing.retention_eq, timing'.retention_eq] at h
  unfold nanosPerSecond at h
  omega

/-- Over a run of a landing whose attempts are made in time order, by generations that accepted reloads
produce, a request is authenticated by at most one attempt; and at every instant at which the timestamp of
an authenticated request is still accepted, its nonce is in the cache and not due. -/
theorem nxr_open_once [Fintype ι] (hmac : Hmac) (epoch lastInstant : Nat) (timing : NxrTiming) (calls : ι → LandingCall)
    (schedule : List (ι × Answers))
    (hreload : ∀ i attempt, calls i = .handle attempt → attempt.timing.retention = timing.retention)
    (hordered : schedule.Pairwise fun first second =>
      (calls first.1).nonceCall.now ≤ (calls second.1).nonceCall.now) :
    (∀ i j attempt attempt', Authenticates hmac epoch lastInstant timing calls schedule i attempt →
      Authenticates hmac epoch lastInstant timing calls schedule j attempt' → attempt.request = attempt'.request → i = j) ∧
    (∀ i attempt, Authenticates hmac epoch lastInstant timing calls schedule i attempt →
      ∀ instant, (∀ turn ∈ schedule, (calls turn.1).nonceCall.now ≤ instant) →
        absDiff (timestampAt attempt.request) (unixSeconds epoch instant) ≤ timing.maxTimeDifferenceSeconds →
        ∃ expiry, held (landingRun hmac epoch lastInstant timing calls schedule).1.shared.shards
          (nonceAt attempt.request) = some expiry ∧ instant < expiry) := by
  have htm : InTimeOrder (fun i => (calls i).nonceCall)
      (schedule.filter fun turn => (calls turn.1).reaches hmac epoch) := hordered.sublist List.filter_sublist
  have hd : ∀ i attempt, Authenticates hmac epoch lastInstant timing calls schedule i attempt →
      Fresh epoch (timestampAt attempt.request) timing.maxTimeDifferenceSeconds attempt.now := by
    intro i attempt h
    have hf := h.fresh
    rw [NxrTiming.difference_eq (hreload i attempt h.1)] at hf
    exact hf
  have hw : (timing.policy lastInstant).retention =
      (timing.maxTimeDifferenceSeconds + timing.maxTimeDifferenceSeconds + 1) * nanosPerSecond := by
    rw [← Nat.two_mul]
    exact timing.retention_eq
  constructor
  · intro i j attempt attempt' hi hj hr
    have hfr := hd i attempt hi
    have hs := hd j attempt' hj
    have ha := hj.admitted
    rw [← hr] at hs ha
    exact htm.admitted_fresh hi.admitted ha hfr hs hw.ge
  · intro i attempt hi instant hre hf
    have hlt := (hd i attempt hi).lt hf
    rw [← hw] at hlt
    refine ⟨_, held_until hi.admitted ?_ hlt, hlt⟩
    intro turn ht
    exact hre turn (List.mem_of_mem_filter ht)

/-- The same request three minutes after it was authenticated, when its timestamp is accepted for the last
time. -/
theorem nxr_open_once_last_second :
    let hmac : Hmac := fun _ _ => Vector.replicate 32 0
    let timing : NxrTiming := ⟨90, by decide, by decide⟩
    let request := magic ++ [0, 1, 0, 4, 0, 80] ++ beBytes 8 1000 ++ List.replicate 16 7 ++ [10, 0, 0, 1] ++
      List.replicate 32 0
    let first : Attempt := ⟨request, 0, Vector.replicate 32 1, timing⟩
    let second : Attempt := ⟨request, 180999999999, Vector.replicate 32 2, timing⟩
    let calls : Fin 2 → LandingCall := #v[LandingCall.handle first, .handle second].get
    let turns (i : Fin 2) : List (Fin 2 × Answers) := List.replicate 10 (i, ⟨true, true, false⟩)
    let epoch := 910000000000
    (second.opens hmac epoch).isOk ∧
      Authenticates hmac epoch (2 ^ 64) timing calls (turns 0 ++ turns 1) 0 first ∧
      ¬Authenticates hmac epoch (2 ^ 64) timing calls (turns 0 ++ turns 1) 1 second := by
  intro hmac timing request first second calls turns epoch
  have hf : Authenticates hmac epoch (2 ^ 64) timing calls (turns 0 ++ turns 1) 0 first := by
    refine ⟨rfl, Vector.replicate 16 7, .tcp ⟨.ipv4 (ipv4OfOctets [10, 0, 0, 1]), 80⟩, by decide +kernel, ?_⟩
    decide +kernel
  have ho := nxr_open_once hmac epoch (2 ^ 64) timing calls (turns 0 ++ turns 1) ?_ ?_
  · refine ⟨by decide +kernel, hf, fun hs => ?_⟩
    cases ho.1 0 1 first second hf hs rfl
  · intro i attempt hi
    match i with
    | 0 => cases hi; rfl
    | 1 => cases hi; rfl
  · decide +kernel

end Once

end RustReality.Nxr
