import RustReality.Reality.Auth
import RustReality.Replay.RealityCacheTime

/-!
# A ClientHello establishes one session

A listener authenticates a ClientHello, reserves its digest and commits the reservation after the
handshake. The accepted clock difference is configured; the lifetime of a committed digest is not.
-/

namespace RustReality.Reality

open Clock Interleaving Replay.Reality Tls

def nanosPerMillisecond : Nat := 1000000

/-- `ResourceGovernorPolicy::default`. -/
def defaultReplayPolicy (lastInstant : Nat) : ReplayPolicy where
  pendingTtl := 10000 * nanosPerMillisecond
  committedTtl := 120000 * nanosPerMillisecond
  lastInstant := lastInstant
  maxReplayEntries := 65536

def maxTimeoutMs : Nat := 600000

/-- An accepted clock difference that validation accepts and that is checked. -/
structure RealityTiming where
  maxTimeDiffMs : Nat
  checked : maxTimeDiffMs ≠ 0
  le : maxTimeDiffMs ≤ maxTimeoutMs

/-- The difference of a configuration that names none. -/
def defaultTiming : RealityTiming := ⟨60000, by decide, by decide⟩

/-- What happens to the cache of a process: handshakes, and the purges of the monitor. -/
inductive RealityCall
  | accept (message : Bytes) (now : Nat)
  | purge (now : Nat)

section Run

variable (primitives : Primitives) (authenticator : RealityAuthenticator) (epoch : Nat)

/-- The message is a ClientHello and passes authentication. -/
def authenticatesAt (message : Bytes) (instant : Nat) : Bool :=
  match ClientHello.parseMessage message with
  | .error _ => false
  | .ok hello => (authenticate primitives authenticator hello (unixSeconds epoch instant)).isOk

def RealityCall.reaches : RealityCall → Bool
  | .accept message now => authenticatesAt primitives authenticator epoch message now
  | .purge _ => true

def RealityCall.replayCall : RealityCall → ReplayCall
  | .accept message now => .reserve (primitives.sha256 message) now
  | .purge now => .purge now

variable {ι : Type} [DecidableEq ι]

def realityRun (lastInstant : Nat) (calls : ι → RealityCall) (schedule : List (ι × Answers)) :
    Config ι ReplayStore ReplayTask × List (ι × ReplayEvent) :=
  replayRun (defaultReplayPolicy lastInstant) (fun i => (calls i).replayCall primitives)
    (schedule.filter fun turn => (calls turn.1).reaches primitives authenticator epoch)

end Run

/-- Over every run whose events happen in time order, a ClientHello whose handshake was committed passes
authentication and reservation never again, and its digest is stored at every instant at which it would
still be authenticated. -/
def EstablishesOnce (timing : RealityTiming) : Prop :=
  ∀ (ι : Type) [Fintype ι] [DecidableEq ι] (primitives : Primitives) (authenticator : RealityAuthenticator)
    (epoch lastInstant : Nat) (calls : ι → RealityCall) (schedule : List (ι × Answers)),
    authenticator.maxTimeDiffMs = timing.maxTimeDiffMs →
    InTimeOrder (realityRun primitives authenticator epoch lastInstant calls schedule).2 →
    (∀ (before : List (ι × ReplayEvent)) i key generation now (between : List (ι × ReplayEvent)) j key' generation' later
        after message first second,
      (realityRun primitives authenticator epoch lastInstant calls schedule).2 =
        before ++ (i, .committed key generation now) :: (between ++ (j, .reserved key' generation' later) :: after) →
      calls i = .accept message first → calls j ≠ .accept message second) ∧
    (∀ i key generation now message first instant, calls i = .accept message first →
      (i, .committed key generation now) ∈ (realityRun primitives authenticator epoch lastInstant calls schedule).2 →
      (∀ found ∈ (realityRun primitives authenticator epoch lastInstant calls schedule).2, found.2.now ≤ instant) →
      authenticatesAt primitives authenticator epoch message instant →
      ∃ entry, ((realityRun primitives authenticator epoch lastInstant calls schedule).1.shared.shards
          (shardIndex (primitives.sha256 message))).lookup (primitives.sha256 message) = some entry ∧
        entry.committed ∧ instant < entry.expiresAt)

section Once

variable {primitives : Primitives} {authenticator : RealityAuthenticator} {epoch lastInstant : Nat} {ι : Type}
  [DecidableEq ι] {calls : ι → RealityCall} {schedule : List (ι × Answers)}
  {message : Bytes}

theorem authenticatesAt_fresh {instant : Nat} (hc : authenticator.maxTimeDiffMs ≠ 0)
    (h : authenticatesAt primitives authenticator epoch message instant) :
    ∃ hello result, ClientHello.parseMessage message = .ok hello ∧
      openClientHello primitives authenticator hello = .ok result ∧
      Fresh epoch result.clientTime (authenticator.maxTimeDiffMs / 1000) instant := by
  unfold authenticatesAt at h
  split at h
  · cases h
  · next hello hparsed =>
    cases hr : authenticate primitives authenticator hello (unixSeconds epoch instant) with
    | error error =>
      rw [hr] at h
      cases h
    | ok result => exact ⟨hello, result, hparsed, authenticate_ok hc hr⟩

/-- Two instants at which a message is authenticated are less than the lifetime apart. -/
theorem authenticatesAt_lt (lastInstant : Nat) {instant instant' : Nat} (hc : authenticator.maxTimeDiffMs ≠ 0)
    (hs : authenticator.maxTimeDiffMs < 60000) (h : authenticatesAt primitives authenticator epoch message instant)
    (h' : authenticatesAt primitives authenticator epoch message instant') :
    instant' < instant + (defaultReplayPolicy lastInstant).committedTtl := by
  rcases authenticatesAt_fresh hc h with ⟨hello, result, hparsed, ho, hf⟩
  rcases authenticatesAt_fresh hc h' with ⟨hello', result', hparsed', ho', hf'⟩
  rw [hparsed] at hparsed'
  cases hparsed'
  rw [ho] at ho'
  cases ho'
  have hlt := hf.lt hf'
  have hw : authenticator.maxTimeDiffMs / 1000 + authenticator.maxTimeDiffMs / 1000 + 1 ≤ 120 := by omega
  exact hlt.trans_le (Nat.add_le_add_left (Nat.mul_le_mul_right _ hw) _)

theorem authenticatesAt_of_mem {i : ι} {event : ReplayEvent} {now : Nat} (hc : calls i = .accept message now)
    (hm : (i, event) ∈ (realityRun primitives authenticator epoch lastInstant calls schedule).2) :
    authenticatesAt primitives authenticator epoch message now := by
  have hs := execute_sublist (replayStep (defaultReplayPolicy lastInstant))
    (replayStart fun i => (calls i).replayCall primitives)
    (schedule.filter fun turn => (calls turn.1).reaches primitives authenticator epoch)
  rcases List.mem_map.1 (hs.subset (List.mem_map_of_mem hm)) with ⟨⟨j, answers⟩, ht, hj⟩
  subst hj
  have hr := List.of_mem_filter ht
  rw [hc] at hr
  exact hr

variable [Fintype ι]

theorem committed_refused (hchecks : authenticator.maxTimeDiffMs ≠ 0) (hshort : authenticator.maxTimeDiffMs < 60000)
    (ho : InTimeOrder (realityRun primitives authenticator epoch lastInstant calls schedule).2)
    {before between after : List (ι × ReplayEvent)} {i j : ι} {key key' : Vector UInt8 32}
    {generation generation' now later first second : Nat}
    (hh : (realityRun primitives authenticator epoch lastInstant calls schedule).2 =
      before ++ (i, .committed key generation now) :: (between ++ (j, .reserved key' generation' later) :: after))
    (hi : calls i = .accept message first) : calls j ≠ .accept message second := by
  intro hj
  have ht := replayTrace_run (defaultReplayPolicy lastInstant) (fun i => (calls i).replayCall primitives)
    (schedule.filter fun turn => (calls turn.1).reaches primitives authenticator epoch)
  have hc : (i, .committed key generation now) ∈
      (realityRun primitives authenticator epoch lastInstant calls schedule).2 := by
    rw [hh]
    exact List.mem_append_right _ List.mem_cons_self
  have hr : (j, .reserved key' generation' later) ∈
      (realityRun primitives authenticator epoch lastInstant calls schedule).2 := by
    rw [hh]
    exact List.mem_append_right _ (List.mem_cons_of_mem _ (List.mem_append_right _ List.mem_cons_self))
  have hf : ∃ time, (calls i).replayCall primitives = .reserve key time := ht.speaks i _ hc
  have hsc : (calls j).replayCall primitives = .reserve key' later := ht.speaks j _ hr
  rw [hi] at hf
  rw [hj] at hsc
  rcases hf with ⟨time, hf⟩
  cases hf
  cases hsc
  have hs := ho.reserved_le hh
  rw [hi] at hs
  change first ≤ now at hs
  have ha := ho.reserved_again hh
  have hlt := authenticatesAt_lt lastInstant hchecks hshort (authenticatesAt_of_mem hi hc)
    (authenticatesAt_of_mem hj hr)
  omega

theorem committed_stored (hchecks : authenticator.maxTimeDiffMs ≠ 0) (hshort : authenticator.maxTimeDiffMs < 60000)
    (ho : InTimeOrder (realityRun primitives authenticator epoch lastInstant calls schedule).2)
    {i : ι} {key : Vector UInt8 32} {generation now first instant : Nat} (hi : calls i = .accept message first)
    (hc : (i, .committed key generation now) ∈
      (realityRun primitives authenticator epoch lastInstant calls schedule).2)
    (hr : ∀ found ∈ (realityRun primitives authenticator epoch lastInstant calls schedule).2,
      found.2.now ≤ instant) (ha : authenticatesAt primitives authenticator epoch message instant) :
    ∃ entry, ((realityRun primitives authenticator epoch lastInstant calls schedule).1.shared.shards
        (shardIndex (primitives.sha256 message))).lookup (primitives.sha256 message) = some entry ∧
      entry.committed ∧ instant < entry.expiresAt := by
  have ht := replayTrace_run (defaultReplayPolicy lastInstant) (fun i => (calls i).replayCall primitives)
    (schedule.filter fun turn => (calls turn.1).reaches primitives authenticator epoch)
  have hf : ∃ time, (calls i).replayCall primitives = .reserve key time := ht.speaks i _ hc
  rw [hi] at hf
  rcases hf with ⟨time, hf⟩
  cases hf
  rcases List.append_of_mem hc with ⟨before, after, hh⟩
  have hs := ho.reserved_le hh
  rw [hi] at hs
  change first ≤ now at hs
  have hlt := authenticatesAt_lt lastInstant hchecks hshort (authenticatesAt_of_mem hi hc)
    ha
  have hin : instant < now + (defaultReplayPolicy lastInstant).committedTtl := by omega
  exact ⟨_, committed_until hc hr hin, rfl, hin⟩

end Once

/-! ### Sixty seconds of difference -/

def sampleKey : Vector UInt8 32 := Vector.replicate 32 0

/-- Primitives under which every session id holds the clock at 1000 seconds. -/
def samplePrimitives : Primitives where
  agree _ share := some share
  hkdf _ _ _ := some []
  sha256 _ := sampleKey
  decrypt _ _ _ _ _ := some #v[0, 0, 0, 0, 0, 0, 3, 232, 0, 0, 0, 0, 0, 0, 0, 0]
  serverNameMatches _ _ := true

def sampleAuthenticator (maxTimeDiffMs : Nat) : RealityAuthenticator where
  privateKey := Vector.replicate 32 0
  serverNames := [⟨[], by decide⟩]
  shortIds := [(Vector.replicate 8 0, Vector.replicate 16 0)]
  maxTimeDiffMs := maxTimeDiffMs

/-- A ClientHello for the server name `a`, with TLS 1.3 and an X25519 share among its extensions. -/
def sampleMessage : Bytes :=
  [1, 0, 0, 134, 3, 3] ++ List.replicate 32 7 ++ [32] ++ List.replicate 32 8 ++ [0, 2, 0x13, 1, 1, 0, 0, 59] ++
    [0, 0, 0, 6, 0, 4, 0, 0, 1, 97] ++ [0, 43, 0, 3, 2, 3, 4] ++ [0, 51, 0, 38, 0, 36, 0, 29, 0, 32] ++ List.replicate 32 9

def sampleHello : ClientHello :=
  { rawMessage := sampleMessage, random := List.replicate 32 7, sessionId := List.replicate 32 8, serverName := some [97],
    alpn := [], keyShares := [⟨x25519Group, List.replicate 32 9⟩], cipherSuites := [0x1301], offersTls13 := true,
    offersPsk := false }

def sampleEpoch : Nat := 940 * nanosPerSecond

def sampleCommit : Nat := 400 * nanosPerMillisecond

def sampleReplay : Nat := 120900 * nanosPerMillisecond

/-- One message sixty seconds before the time of its sender's clock, and two minutes later. -/
def sampleCalls : Fin 2 → RealityCall := #v[RealityCall.accept sampleMessage 0, .accept sampleMessage sampleReplay].get

def sampleSchedule : List (Fin 2 × Answers) :=
  List.replicate 6 (0, ⟨true, true, true, .commit sampleCommit⟩) ++ List.replicate 5 (1, ⟨true, true, true, .commit sampleCommit⟩)

theorem openClientHello_sample (maxTimeDiffMs : Nat) :
    openClientHello samplePrimitives (sampleAuthenticator maxTimeDiffMs) sampleHello =
      .ok { clientVersion := [0, 0, 0], clientTime := 1000, userId := Vector.replicate 16 0, authKey := [] } := by
  have hc : openClientHello samplePrimitives (sampleAuthenticator 0) sampleHello =
      .ok { clientVersion := [0, 0, 0], clientTime := 1000, userId := Vector.replicate 16 0, authKey := [] } := by
    decide +kernel
  exact hc

theorem parseMessage_sample : ClientHello.parseMessage sampleMessage = .ok sampleHello := by decide +kernel

theorem authenticatesAt_sample {maxTimeDiffMs : Nat} (h : 60000 ≤ maxTimeDiffMs) {instant : Nat}
    (hc : absDiff (unixSeconds sampleEpoch instant) 1000 = 60) :
    authenticatesAt samplePrimitives (sampleAuthenticator maxTimeDiffMs) sampleEpoch sampleMessage instant := by
  unfold authenticatesAt authenticate
  rw [parseMessage_sample]
  dsimp only
  rw [openClientHello_sample]
  dsimp only
  rw [hc, if_neg]
  · rfl
  · rintro ⟨-, hlt⟩
    change 60 * 1000 > maxTimeDiffMs at hlt
    omega

theorem realityRun_sample {maxTimeDiffMs : Nat} (h : 60000 ≤ maxTimeDiffMs) :
    (realityRun samplePrimitives (sampleAuthenticator maxTimeDiffMs) sampleEpoch (2 ^ 64) sampleCalls sampleSchedule).2 =
      [(0, .purged (shardIndex sampleKey) 0), (0, .reserved sampleKey 1 0), (0, .committed sampleKey 1 sampleCommit),
        (1, .purged (shardIndex sampleKey) sampleReplay), (1, .reserved sampleKey 2 sampleReplay)] := by
  have hr : ∀ i, (sampleCalls i).reaches samplePrimitives (sampleAuthenticator maxTimeDiffMs) sampleEpoch := by
    have hat {instant : Nat} (hc : absDiff (unixSeconds sampleEpoch instant) 1000 = 60) :
        (RealityCall.accept sampleMessage instant).reaches samplePrimitives (sampleAuthenticator maxTimeDiffMs) sampleEpoch := by
      rw [RealityCall.reaches]
      exact authenticatesAt_sample h hc
    intro i
    fin_cases i
    · exact hat (by decide +kernel)
    · exact hat (by decide +kernel)
  unfold realityRun
  rw [List.filter_eq_self.2 fun turn _ => hr turn.1]
  decide +kernel

/-- With the default lifetime a ClientHello establishes at most one session in every run exactly if the
accepted clock difference is below sixty seconds. -/
theorem reality_session_once_iff (timing : RealityTiming) : EstablishesOnce timing ↔ timing.maxTimeDiffMs < 60000 := by
  constructor
  · intro ho
    by_contra hlong
    have hd : 60000 ≤ timing.maxTimeDiffMs := Nat.le_of_not_lt hlong
    have hr := realityRun_sample hd
    have ho := ho (Fin 2) samplePrimitives (sampleAuthenticator timing.maxTimeDiffMs) sampleEpoch (2 ^ 64)
      sampleCalls sampleSchedule rfl (by rw [hr]; unfold InTimeOrder; decide +kernel)
    exact ho.1 [(0, .purged (shardIndex sampleKey) 0), (0, .reserved sampleKey 1 0)] 0 sampleKey 1 _
      [(1, .purged (shardIndex sampleKey) sampleReplay)] 1 _ 2 _ [] sampleMessage 0 sampleReplay hr rfl rfl
  · intro hs ι _ _ primitives authenticator epoch lastInstant calls schedule hd hor
    have hc : authenticator.maxTimeDiffMs ≠ 0 := by
      rw [hd]
      exact timing.checked
    rw [← hd] at hs
    constructor
    · intro before i key generation now between j key' generation' later after message first second hh hi
      exact committed_refused hc hs hor hh hi
    · intro i key generation now message first instant hi hcm hre ha
      exact committed_stored hc hs hor hi hcm hre ha

/-- With the default difference of sixty seconds, a ClientHello that was committed is authenticated and reserved
again two minutes later. -/
theorem reality_session_twice :
    authenticatesAt samplePrimitives (sampleAuthenticator defaultTiming.maxTimeDiffMs) sampleEpoch sampleMessage sampleReplay ∧
      (realityRun samplePrimitives (sampleAuthenticator defaultTiming.maxTimeDiffMs) sampleEpoch (2 ^ 64) sampleCalls sampleSchedule).2 =
        [(0, .purged (shardIndex sampleKey) 0), (0, .reserved sampleKey 1 0), (0, .committed sampleKey 1 sampleCommit),
          (1, .purged (shardIndex sampleKey) sampleReplay), (1, .reserved sampleKey 2 sampleReplay)] := by
  decide +kernel

end RustReality.Reality
