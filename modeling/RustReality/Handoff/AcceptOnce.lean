import RustReality.Handoff.Udp.Open
import RustReality.Replay.NonceCacheTime

/-!
# Transfers and OPENs are accepted once

All TCP listeners of a landing share one nonce cache, whose retention covers every clock difference
that a reload may publish. Each UDP address has a cache of its own.
-/

namespace RustReality.Handoff
open List Clock Interleaving Replay Vless

abbrev SocketAddr := IpAddr × UInt16

/-! ### Transfers on all TCP listeners -/

/-- The clock difference and the retention of a configuration that validation accepts. -/
structure LandingTiming where
  maxTimeDifferenceSeconds : Nat
  nonceRetentionSeconds : Nat
  difference_pos : 1 ≤ maxTimeDifferenceSeconds
  difference_le : maxTimeDifferenceSeconds ≤ 300
  covers : maxTimeDifferenceSeconds * 2 + 1 ≤ nonceRetentionSeconds
  retention_le : nonceRetentionSeconds ≤ 86400

/-- What a configuration that names neither has. -/
instance : Inhabited LandingTiming :=
  ⟨⟨30, replayRetentionSeconds 30, by decide, by decide, by decide, by decide⟩⟩

def replayNonceCapacity : Nat := 65536

/-- `compile_handoff_replays`. -/
def LandingTiming.policy (timing : LandingTiming) (lastInstant : Nat) : ReplayPolicy where
  capacity := replayNonceCapacity
  retention := timing.nonceRetentionSeconds * nanosPerSecond
  lastInstant := lastInstant
  capacity_pos := by decide
  capacity_lt := by decide
  retention_pos := by
    have := timing.covers
    unfold nanosPerSecond
    omega

/-- One connection: the listener and the generation that handle it, the message and the instant. -/
structure TransferAttempt where
  listener : SocketAddr
  message : Bytes
  now : Nat
  keys : HandoffLandingKeys
  timing : LandingTiming

/-- What happens to the cache of the listeners: connections, and the purges of the monitor. -/
inductive TransferCall
  | handle (attempt : TransferAttempt)
  | purge (now : Nat)

section Transfers

variable (primitives : Primitives) (reserve : Nat → Bool) (epoch : Nat)

def TransferAttempt.header (attempt : TransferAttempt) : Except HandoffError TransferHeader :=
  openTransferHeader attempt.message (unixSeconds epoch attempt.now) attempt.timing.maxTimeDifferenceSeconds

/-- A message that is refused before the reservation does not reach the cache. -/
def TransferCall.reaches : TransferCall → Bool
  | .handle attempt => (attempt.header epoch).isOk
  | .purge _ => true

def TransferCall.nonceCall : TransferCall → NonceCall
  | .handle attempt => .reserve (nonceAt attempt.message) attempt.now
  | .purge now => .purge now

variable {ι : Type} [DecidableEq ι]

def transferRun (lastInstant : Nat) (timing : LandingTiming) (calls : ι → TransferCall) (schedule : List (ι × Answers)) :
    Config ι (NonceStore ι) (NonceTask HandoffError) × List (ι × NonceEvent HandoffError) :=
  nonceRun handoffReplayErrors (timing.policy lastInstant) (fun i => (calls i).nonceCall)
    (schedule.filter fun turn => (calls turn.1).reaches epoch)

def Opens (lastInstant : Nat) (timing : LandingTiming) (calls : ι → TransferCall) (schedule : List (ι × Answers))
    (i : ι) (attempt : TransferAttempt) : Prop :=
  calls i = .handle attempt ∧ ∃ header opened, attempt.header epoch = .ok header ∧
    (i, .admitted header.nonce attempt.now) ∈ (transferRun epoch lastInstant timing calls schedule).2 ∧
    openTransferBody primitives reserve attempt.keys attempt.message header = .ok opened

end Transfers

/-- Over every run of the listeners whose attempts are made in time order, by generations that accepted
reloads produce, a message is opened at most once. -/
def TransfersOnce : Prop :=
  ∀ (ι : Type) [Fintype ι] [DecidableEq ι] (primitives : Primitives) (reserve : Nat → Bool) (epoch lastInstant : Nat)
    (timing : LandingTiming) (calls : ι → TransferCall) (schedule : List (ι × Answers)),
    (∀ i attempt, calls i = .handle attempt → attempt.timing.nonceRetentionSeconds = timing.nonceRetentionSeconds) →
    (schedule.Pairwise fun first second => (calls first.1).nonceCall.now ≤ (calls second.1).nonceCall.now) →
    ∀ i j attempt attempt', Opens primitives reserve epoch lastInstant timing calls schedule i attempt →
      Opens primitives reserve epoch lastInstant timing calls schedule j attempt' → attempt.message = attempt'.message → i = j

section

variable {primitives : Primitives} {reserve : Nat → Bool} {epoch lastInstant : Nat} {timing : LandingTiming} {ι : Type}
  [DecidableEq ι] {calls : ι → TransferCall} {schedule : List (ι × Answers)} {i : ι} {attempt : TransferAttempt}

theorem Opens.admitted (h : Opens primitives reserve epoch lastInstant timing calls schedule i attempt) :
    (i, .admitted (nonceAt attempt.message) attempt.now) ∈ (transferRun epoch lastInstant timing calls schedule).2 := by
  rcases h with ⟨-, header, opened, hh, hm, -⟩
  rw [(openTransferHeader_ok hh).1] at hm
  exact hm

theorem Opens.fresh (h : Opens primitives reserve epoch lastInstant timing calls schedule i attempt) :
    Fresh epoch (timestampAt attempt.message) attempt.timing.maxTimeDifferenceSeconds attempt.now := by
  rcases h with ⟨-, header, opened, hh, -, -⟩
  exact (openTransferHeader_ok hh).2

end

theorem LandingTiming.covers_pair {timing first second : LandingTiming} (lastInstant : Nat)
    (hf : first.nonceRetentionSeconds = timing.nonceRetentionSeconds)
    (hs : second.nonceRetentionSeconds = timing.nonceRetentionSeconds) :
    (first.maxTimeDifferenceSeconds + second.maxTimeDifferenceSeconds + 1) * nanosPerSecond ≤
      (timing.policy lastInstant).retention := by
  have hc := first.covers
  have hc' := second.covers
  exact Nat.mul_le_mul_right _ (by omega)

theorem transfersOnce : TransfersOnce := by
  intro ι _ _ primitives reserve epoch lastInstant timing calls schedule hr ho i j attempt attempt' hi hj hm
  have ht : InTimeOrder (fun i => (calls i).nonceCall) (schedule.filter fun turn => (calls turn.1).reaches epoch) :=
    ho.sublist filter_sublist
  have hf := hj.fresh
  have ha := hj.admitted
  rw [← hm] at hf ha
  have hc := LandingTiming.covers_pair lastInstant (hr i attempt hi.1) (hr j attempt' hj.1)
  exact ht.admitted_fresh hi.admitted ha hi.fresh hf hc

/-! ### OPENs at one UDP address -/

namespace Udp

section Trace

variable {primitives : Primitives} {epoch lastInstant : Nat} {inputs : List UdpInput}

def Admitted (epoch : Nat) (inputs : List UdpInput) (history : List (Fin inputs.length × NonceEvent HandoffError))
    (i : Fin inputs.length) : Prop :=
  ∃ packet now policy answers, inputs.get i = .received packet now policy answers ∧
    (i, .admitted (openNonceAt packet) now) ∈ history ∧ Fresh epoch (openTimestampAt packet) maxOpenTimeDifference now

theorem Admitted.append {history later : List (Fin inputs.length × NonceEvent HandoffError)} {i : Fin inputs.length}
    (h : Admitted epoch inputs history i) : Admitted epoch inputs (history ++ later) i := by
  rcases h with ⟨packet, now, policy, answers, hi, hm, hf⟩
  exact ⟨packet, now, policy, answers, hi, mem_append_left _ hm, hf⟩

/-- The cache of an address has run the reservations of the inputs in their order. -/
structure UdpTrace (epoch lastInstant : Nat) (inputs : List UdpInput) (handled : List (Fin inputs.length))
    (listener : UdpListener inputs.length) : Prop where
  run : ∃ schedule, (listener.cache, listener.history) =
      nonceRun handoffReplayErrors (openPolicy lastInstant) (fun i => (inputs.get i).nonceCall) schedule ∧
    schedule.Pairwise (fun first second => first.1 ≤ second.1) ∧ ∀ turn ∈ schedule, turn.1 ∈ handled
  created : ∀ i ∈ listener.created, Admitted epoch inputs listener.history i

variable {handled : List (Fin inputs.length)} {listener : UdpListener inputs.length} {i : Fin inputs.length}

theorem UdpTrace.same (h : UdpTrace epoch lastInstant inputs handled listener) {listener' : UdpListener inputs.length}
    (hcache : listener'.cache = listener.cache) (hh : listener'.history = listener.history)
    (hc : listener'.created = listener.created) : UdpTrace epoch lastInstant inputs (handled ++ [i]) listener' := by
  rcases h.run with ⟨schedule, hr, ho, hhn⟩
  constructor
  · refine ⟨schedule, ?_, ho, fun turn ht => mem_append_left _ (hhn turn ht)⟩
    rw [hcache, hh, hr]
  · intro j hj
    rw [hc] at hj
    rw [hh]
    exact h.created j hj

theorem UdpTrace.reserve (h : UdpTrace epoch lastInstant inputs handled listener) (hl : ∀ j ∈ handled, j ≤ i)
    (answers : List Answers) :
    UdpTrace epoch lastInstant inputs (handled ++ [i]) (listener.reserve lastInstant i answers) := by
  rcases h.run with ⟨schedule, hr, ho, hhn⟩
  constructor
  · refine ⟨schedule ++ answers.map (i, ·), ?_, ?_, ?_⟩
    · have hc := congrArg Prod.fst hr
      have hh := congrArg Prod.snd hr
      rw [nonceRun, execute_append]
      rw [nonceRun] at hc hh
      rw [← hc, ← hh]
      rfl
    · refine pairwise_append.2 ⟨ho, ?_, ?_⟩
      · rw [pairwise_map]
        exact pairwise_of_forall fun _ _ => le_refl i
      · intro first hf second hs
        rcases mem_map.1 hs with ⟨_, _, rfl⟩
        exact hl _ (hhn first hf)
    · intro turn ht
      rcases mem_append.1 ht with hol | hn
      · exact mem_append_left _ (hhn turn hol)
      · rcases mem_map.1 hn with ⟨_, _, rfl⟩
        exact mem_append_right _ (mem_singleton_self _)
  · intro j hj
    exact (h.created j hj).append

theorem UdpTrace.openSession (h : UdpTrace epoch lastInstant inputs handled listener) (hl : ∀ j ∈ handled, j ≤ i)
    {packet : Bytes} {now : Nat} {policy : Option LandingUdpPolicy} {answers : List Answers}
    (hi : inputs.get i = .received packet now policy answers) :
    UdpTrace epoch lastInstant inputs (handled ++ [i])
      (listener.openSession primitives epoch lastInstant i packet now policy answers) := by
  unfold UdpListener.openSession
  split
  · exact h.same rfl rfl rfl
  · split
    · exact h.same rfl rfl rfl
    · next policy =>
      split
      · exact h.same rfl rfl rfl
      · dsimp only
        split
        · exact h.same rfl rfl rfl
        · next sessionId nonce ha =>
          have hre := h.reserve hl answers
          rcases admitOpen_ok ha with ⟨rfl, hf⟩
          split
          · exact hre
          · next hm =>
            split
            · exact hre
            · split
              · exact hre
              · refine ⟨hre.run, ?_⟩
                intro j hj
                rcases mem_cons.1 hj with rfl | hj
                · refine ⟨packet, now, _, answers, hi, ?_, hf.trans (Nat.min_le_right _ _)⟩
                  simpa [UdpListener.reserved] using hm
                · exact hre.created j hj

theorem UdpTrace.handle (h : UdpTrace epoch lastInstant inputs handled listener) (hl : ∀ j ∈ handled, j ≤ i) :
    UdpTrace epoch lastInstant inputs (handled ++ [i])
      (listener.handle primitives epoch lastInstant i (inputs.get i)) := by
  cases hi : inputs.get i with
  | ended sessionId now => exact h.same rfl rfl rfl
  | received packet now policy answers =>
    unfold UdpListener.handle
    dsimp only
    split
    · exact h.same rfl rfl rfl
    · split
      · exact h.same rfl rfl rfl
      · split
        · exact h.same rfl rfl rfl
        · exact h.openSession hl hi

theorem UdpTrace.foldl (rest : List (Fin inputs.length)) (h : UdpTrace epoch lastInstant inputs handled listener)
    (hs : (handled ++ rest).Pairwise (· ≤ ·)) :
    UdpTrace epoch lastInstant inputs (handled ++ rest)
      (rest.foldl (fun listener i => listener.handle primitives epoch lastInstant i (inputs.get i)) listener) := by
  induction rest generalizing handled listener with
  | nil => simpa using h
  | cons i rest ih =>
    have hl : ∀ j ∈ handled, j ≤ i := fun j hj => (pairwise_append.1 hs).2.2 j hj i mem_cons_self
    rw [append_cons] at hs ⊢
    exact ih (h.handle hl) hs

theorem udpTrace_run (primitives : Primitives) (epoch lastInstant : Nat) (inputs : List UdpInput) :
    UdpTrace epoch lastInstant inputs (List.finRange inputs.length) (runLandingUdp primitives epoch lastInstant inputs) := by
  have hs : UdpTrace epoch lastInstant inputs []
      { cache := nonceStart fun i => (inputs.get i).nonceCall, history := [], sessions := [], created := [] } :=
    ⟨⟨[], rfl, .nil, by simp⟩, by simp⟩
  have hsr : (List.finRange inputs.length).Pairwise (· ≤ ·) :=
    (pairwise_lt_finRange _).imp fun hlt => le_of_lt hlt
  exact hs.foldl _ hsr

end Trace

def Creates (primitives : Primitives) (epoch lastInstant : Nat) (inputs : List UdpInput) (i : Fin inputs.length)
    (packet : Bytes) : Prop :=
  i ∈ (runLandingUdp primitives epoch lastInstant inputs).created ∧
    ∃ now policy answers, inputs.get i = .received packet now policy answers

theorem nonceCall_now_le {inputs : List UdpInput} (ho : inputs.Pairwise fun first second => first.now ≤ second.now)
    {i j : Fin inputs.length} (hlt : i < j) : (inputs.get i).nonceCall.now ≤ (inputs.get j).nonceCall.now := by
  have hn : ∀ input : UdpInput, input.nonceCall.now = input.now := by
    intro input
    cases input <;> rfl
  rw [hn, hn]
  exact pairwise_iff_get.1 ho i j hlt

theorem Creates.unique {primitives : Primitives} {epoch lastInstant : Nat} {inputs : List UdpInput}
    (ho : inputs.Pairwise fun first second => first.now ≤ second.now) {i j : Fin inputs.length} {packet : Bytes}
    (hi : Creates primitives epoch lastInstant inputs i packet)
    (hj : Creates primitives epoch lastInstant inputs j packet) : i = j := by
  have ht := udpTrace_run primitives epoch lastInstant inputs
  rcases hi with ⟨hi, now, policy, answers, hin⟩
  rcases hj with ⟨hj, later, policy', answers', hin'⟩
  rcases ht.created i hi with ⟨packet₁, now₁, _, _, hin₁, hm, hf⟩
  rcases ht.created j hj with ⟨packet₂, later₂, _, _, hin₂, hm', hf'⟩
  rw [hin] at hin₁
  rw [hin'] at hin₂
  cases hin₁
  cases hin₂
  rcases ht.run with ⟨schedule, hr, hs, -⟩
  have htm : InTimeOrder (fun i => (inputs.get i).nonceCall) schedule := by
    refine hs.imp fun {first second} hle => ?_
    rcases hle.lt_or_eq with hlt | heq
    · exact nonceCall_now_le ho hlt
    · rw [heq]
  have hh := congrArg Prod.snd hr
  dsimp only at hh
  rw [hh] at hm hm'
  exact htm.admitted_fresh hm hm' hf hf' (le_of_eq rfl)

/-- Over every run of the tasks of the bound addresses, each handling its inputs in time order, a session is
created from an OPEN at most once. -/
def OpensOnce (addresses : Finset SocketAddr) : Prop :=
  ∀ (primitives : Primitives) (epoch lastInstant : Nat) (inputs : SocketAddr → List UdpInput),
    (∀ address ∈ addresses, (inputs address).Pairwise fun first second => first.now ≤ second.now) →
    ∀ address ∈ addresses, ∀ address' ∈ addresses, ∀ i j packet,
      Creates primitives epoch lastInstant (inputs address) i packet →
      Creates primitives epoch lastInstant (inputs address') j packet → address = address' ∧ i.val = j.val

/-! ### Two addresses -/

/-- Primitives under which every key opens every packet. -/
def anyKey : Primitives where
  publicKey := id
  agree _ share := some share
  hkdf _ _ _ length := some (List.replicate length 0)
  hmac _ _ := List.replicate 32 0
  decrypt _ _ _ ciphertext _ := some ciphertext

def sampleOpen : Bytes := encodeHeader .open (Vector.replicate 8 0) 0 ++ List.replicate 104 0

def sampleInputs : List UdpInput :=
  [.received sampleOpen 0
    (some ⟨⟨Vector.replicate 32 0, [], Vector.replicate 32 0, []⟩, 60, true⟩)
    (List.replicate 10 ⟨true, true, false⟩)]

theorem creates_sampleOpen : Creates anyKey 0 (2 ^ 64) sampleInputs ⟨0, by decide⟩ sampleOpen := by
  refine ⟨?_, 0, _, _, rfl⟩
  decide +kernel

end Udp

/-- Transfers are opened at most once on all TCP listeners; OPENs create at most one session on all UDP
addresses exactly if there is at most one address. -/
theorem handoff_accepted_once_iff (addresses : Finset SocketAddr) :
    TransfersOnce ∧ (Udp.OpensOnce addresses ↔ addresses.card ≤ 1) := by
  refine ⟨transfersOnce, ?_, ?_⟩
  · intro ho
    by_contra hc
    rcases Finset.one_lt_card.1 (Nat.lt_of_not_le hc) with ⟨first, hf, second, hsc, hne⟩
    have hs := ho Udp.anyKey 0 (2 ^ 64) (fun _ => Udp.sampleInputs) (fun _ _ => pairwise_singleton _ _)
      first hf second hsc _ _ _ Udp.creates_sampleOpen Udp.creates_sampleOpen
    exact hne hs.1
  · intro hc primitives epoch lastInstant inputs hor address ha address' ha' i j packet hi hj
    rcases Finset.card_le_one.1 hc address ha address' ha' with rfl
    exact ⟨rfl, congrArg Fin.val (hi.unique (hor address ha) hj)⟩

/-- One OPEN creates a session on each of two addresses. -/
theorem handoff_open_on_two_addresses :
    let first : SocketAddr := (.v4 0x0a000005, 8443)
    let second : SocketAddr := (.v4 0x0a000006, 8443)
    let inputs : SocketAddr → List Udp.UdpInput := fun _ => Udp.sampleInputs
    first ≠ second ∧ Udp.Creates Udp.anyKey 0 (2 ^ 64) (inputs first) ⟨0, by decide⟩ Udp.sampleOpen ∧
      Udp.Creates Udp.anyKey 0 (2 ^ 64) (inputs second) ⟨0, by decide⟩ Udp.sampleOpen :=
  ⟨by decide, Udp.creates_sampleOpen, Udp.creates_sampleOpen⟩

end RustReality.Handoff
