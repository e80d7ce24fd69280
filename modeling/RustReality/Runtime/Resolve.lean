import RustReality.Runtime.Plan

/-!
# The effective policy and its report

`resolve_policy` takes each field from the configuration where it is pinned and from the startup plan (or, for a
timeout, from the built-in default) where it is not, and lists what it took. Validation has related the pins to
each other only, and a pipe pool without splice is switched off after the list is made.
-/

namespace RustReality.Runtime

inductive PolicyField
  | maxConnections
  | maxHandshakes
  | maxPreAuthIdleConnections
  | maxFallbacks
  | maxCryptoOperations
  | maxReplayEntries
  | maxDnsLookups
  | replayRetentionMs
  | clientHelloTimeoutMs
  | handshakeTimeoutMs
  | connectTimeoutMs
  | fallbackTimeoutMs
  | maxConcurrent
  | maxPerSecond
  | bufferBytes
  | maxPooledBuffers
  | maxSpliceRelays
  | maxRelayMemoryBytes
  | splice
  | pipePool
  | maxPooledPipes
  | minReady
  | maxReady
  | maxConnecting
  | refillBatch
  deriving DecidableEq

/-- The value of a field; booleans count as 0 and 1. -/
def EffectivePolicy.value (self : EffectivePolicy) : PolicyField → Nat
  | .maxConnections => self.governor.maxConnections
  | .maxHandshakes => self.governor.maxHandshakes
  | .maxPreAuthIdleConnections => self.governor.maxPreAuthIdleConnections
  | .maxFallbacks => self.governor.maxFallbacks
  | .maxCryptoOperations => self.governor.maxCryptoOperations
  | .maxReplayEntries => self.governor.maxReplayEntries
  | .maxDnsLookups => self.governor.maxDnsLookups
  | .replayRetentionMs => self.governor.replayRetentionMs
  | .clientHelloTimeoutMs => self.governor.clientHelloTimeoutMs
  | .handshakeTimeoutMs => self.governor.handshakeTimeoutMs
  | .connectTimeoutMs => self.governor.connectTimeoutMs
  | .fallbackTimeoutMs => self.governor.fallbackTimeoutMs
  | .maxConcurrent => self.directBarrier.maxConcurrent
  | .maxPerSecond => self.directBarrier.maxPerSecond
  | .bufferBytes => self.relay.bufferBytes
  | .maxPooledBuffers => self.relay.maxPooledBuffers
  | .maxSpliceRelays => self.relay.maxSpliceRelays
  | .maxRelayMemoryBytes => self.relay.maxRelayMemoryBytes
  | .splice => self.relay.splice.toNat
  | .pipePool => self.relay.pipePool.toNat
  | .maxPooledPipes => self.relay.maxPooledPipes
  | .minReady => self.warmConnections.minReady
  | .maxReady => self.warmConnections.maxReady
  | .maxConnecting => self.warmConnections.maxConnecting
  | .refillBatch => self.warmConnections.refillBatch

namespace LimitOverrides

variable (self : LimitOverrides)

def pin : PolicyField → Option Nat
  | .maxConnections => self.maxConnections
  | .maxHandshakes => self.maxHandshakes
  | .clientHelloTimeoutMs => self.clientHelloTimeoutMs
  | .handshakeTimeoutMs => self.handshakeTimeoutMs
  | .connectTimeoutMs => self.connectTimeoutMs
  | .fallbackTimeoutMs => self.fallbackTimeoutMs
  | .splice => self.splice.map Bool.toNat
  | .pipePool => self.pipePool.map Bool.toNat
  | _ => none

/-- The derived policy with the pinned fields in place. -/
def apply (derived : EffectivePolicy) : EffectivePolicy :=
  let defaults : EffectivePolicy := {}
  { derived with
    governor := { derived.governor with
      maxConnections := self.maxConnections.getD derived.governor.maxConnections
      maxHandshakes := self.maxHandshakes.getD derived.governor.maxHandshakes
      replayRetentionMs := defaults.governor.replayRetentionMs
      clientHelloTimeoutMs := self.clientHelloTimeoutMs.getD defaults.governor.clientHelloTimeoutMs
      handshakeTimeoutMs := self.handshakeTimeoutMs.getD defaults.governor.handshakeTimeoutMs
      connectTimeoutMs := self.connectTimeoutMs.getD defaults.governor.connectTimeoutMs
      fallbackTimeoutMs := self.fallbackTimeoutMs.getD defaults.governor.fallbackTimeoutMs }
    relay := { derived.relay with
      splice := self.splice.getD derived.relay.splice
      pipePool := self.pipePool.getD derived.relay.pipePool } }

/-- What `validate_limits` accepts. -/
structure Accepted (overrides : LimitOverrides) : Prop where
  positive : overrides.maxConnections ≠ some 0 ∧ overrides.maxHandshakes ≠ some 0
  timeouts : ∀ timeout ∈ [overrides.clientHelloTimeoutMs, overrides.handshakeTimeoutMs, overrides.connectTimeoutMs,
    overrides.fallbackTimeoutMs], ∀ value ∈ timeout, 1 ≤ value ∧ value ≤ 10 * 60 * 1000
  handshakes : ∀ handshakes ∈ overrides.maxHandshakes, ∀ connections ∈ overrides.maxConnections, handshakes ≤ connections
  hello : ∀ hello ∈ overrides.clientHelloTimeoutMs, ∀ handshake ∈ overrides.handshakeTimeoutMs, hello ≤ handshake
  connect : ∀ connect ∈ overrides.connectTimeoutMs, ∀ fallback ∈ overrides.fallbackTimeoutMs, connect ≤ fallback
  pool : ¬(overrides.pipePool = some true ∧ overrides.splice = some false)

end LimitOverrides

/-! ### The report -/

inductive FieldSource
  | derived
  | pinned
  | default
  deriving DecidableEq

structure FieldResolution where
  field : PolicyField
  value : Nat
  source : FieldSource
  multiplier : Option (Nat × Nat) := none
  floor : Option Nat := none
  cap : Option Nat := none

/-- A field of the derivation with its multiplier, floor and cap. -/
structure DerivedField where
  field : PolicyField
  multiplier : Option (Nat × Nat) := none
  floor : Option Nat := none
  cap : Option Nat := none

def governorFields (multipliers : ObjectiveMultipliers) (bounds : SafetyLimits) : List DerivedField :=
  [⟨.maxConnections, some multipliers.connections, some 64, some bounds.maxConnections⟩,
    ⟨.maxHandshakes, some (1, 1), some 1, none⟩, ⟨.maxPreAuthIdleConnections, some (1, 1), some 1, none⟩,
    ⟨.maxFallbacks, some multipliers.fallbacks, some 1, none⟩, ⟨.maxCryptoOperations, some (1, 1), some 1, none⟩,
    ⟨.maxReplayEntries, some (1, 1), some 1024, some 1000000⟩, ⟨.maxDnsLookups, some (1, 1), some 16, none⟩]

def carriedFields : List PolicyField :=
  [.replayRetentionMs, .clientHelloTimeoutMs, .handshakeTimeoutMs, .connectTimeoutMs, .fallbackTimeoutMs]

def relayFields (multipliers : ObjectiveMultipliers) (bounds : SafetyLimits) : List DerivedField :=
  [⟨.maxConcurrent, some multipliers.directConcurrent, some 64, none⟩, ⟨.maxPerSecond, some multipliers.directPerSecond, some 64, none⟩,
    { field := .bufferBytes }, ⟨.maxPooledBuffers, some multipliers.pooledBuffers, some 2, some bounds.maxPooledBuffers⟩,
    ⟨.maxSpliceRelays, some multipliers.spliceRelays, some 1, some bounds.maxSpliceRelays⟩, { field := .maxRelayMemoryBytes },
    { field := .splice }, { field := .pipePool }, ⟨.maxPooledPipes, some multipliers.spliceRelays, none, none⟩,
    { field := .minReady }, { field := .maxReady }, { field := .maxConnecting }, { field := .refillBatch }]

def resolveField (overrides : LimitOverrides) (derived : EffectivePolicy) (field : DerivedField) : FieldResolution :=
  match overrides.pin field.field with
  | some pinned => ⟨field.field, pinned, .pinned, none, field.floor, field.cap⟩
  | none => ⟨field.field, derived.value field.field, .derived, field.multiplier, field.floor, field.cap⟩

def resolveCarried (overrides : LimitOverrides) (field : PolicyField) : FieldResolution :=
  match overrides.pin field with
  | some pinned => { field, value := pinned, source := .pinned }
  | none => { field, value := ({} : EffectivePolicy).value field, source := .default }

/-- A pipe pool without splice would reserve pipes nothing can use. -/
def EffectivePolicy.dropUnusedPool (self : EffectivePolicy) : EffectivePolicy :=
  if self.relay.splice then self else { self with relay := { self.relay with pipePool := false } }

structure PolicyResolution where
  policy : EffectivePolicy
  fields : List FieldResolution
  plan : PlannedPolicy

section Resolve

variable (overrides : LimitOverrides) (objective : Objective) (capabilities : MachineCapabilities) (mode : ResourceMode)
  (listenerCount : Nat) (linux : Bool)

def resolvePolicy : Option PolicyResolution := do
  let plan ← derive capabilities {} mode listenerCount linux objective overrides
  let derived := plan.policy
  let fields := (governorFields (multipliers objective) {}).map (resolveField overrides derived) ++
    carriedFields.map (resolveCarried overrides) ++ (relayFields (multipliers objective) {}).map (resolveField overrides derived)
  return ⟨(overrides.apply derived).dropUnusedPool, fields, plan⟩

variable {overrides} {derived : EffectivePolicy}

theorem value_apply (field : PolicyField) : (overrides.apply derived).value field =
    (overrides.pin field).getD (if field ∈ carriedFields then ({} : EffectivePolicy).value field else derived.value field) := by
  obtain ⟨_, _, _, _, _, _, splice, pipePool⟩ := overrides
  cases field <;> try rfl
  · cases splice <;> rfl
  · cases pipePool <;> rfl

/-- A line of the report is right about a policy. -/
def FieldResolution.Agrees (overrides : LimitOverrides) (policy : EffectivePolicy) (self : FieldResolution) : Prop :=
  self.value = policy.value self.field ∧ (self.source = .pinned ↔ (overrides.pin self.field).isSome)

theorem resolveField_agrees {field : DerivedField} (h : field.field ∉ carriedFields) :
    (resolveField overrides derived field).Agrees overrides (overrides.apply derived) := by
  unfold FieldResolution.Agrees resolveField
  cases hp : overrides.pin field.field with
  | none => simp [hp, value_apply, h]
  | some pinned => simp [hp, value_apply]

theorem resolveCarried_agrees {field : PolicyField} (h : field ∈ carriedFields) :
    (resolveCarried overrides field).Agrees overrides (overrides.apply derived) := by
  unfold FieldResolution.Agrees resolveCarried
  cases hp : overrides.pin field with
  | none => simp [hp, value_apply, h]
  | some pinned => simp [hp, value_apply]

theorem not_mem_carriedFields {bounds : SafetyLimits} {multipliers : ObjectiveMultipliers} :
    ∀ field ∈ governorFields multipliers bounds ++ relayFields multipliers bounds, field.field ∉ carriedFields := by
  simp [governorFields, relayFields, carriedFields]

variable (overrides) in
theorem resolvePolicy_spec : ∃ resolution, resolvePolicy overrides objective capabilities mode listenerCount linux = some resolution ∧
    resolution.policy = (overrides.apply resolution.plan.policy).dropUnusedPool ∧
    resolution.plan.policy.figures = (balancedFigures capabilities mode listenerCount).scale objective ∧
    resolution.plan.policy.warmConnections.minReady ≤ resolution.plan.policy.warmConnections.maxReady ∧
    (resolution.plan.policy.relay.splice = linux ∧ resolution.plan.policy.relay.pipePool = linux) ∧
    (∀ line ∈ resolution.fields, line.Agrees overrides (overrides.apply resolution.plan.policy)) ∧
    ∃ line ∈ resolution.fields, line.field = .pipePool := by
  obtain ⟨plan, hderive, hfigures, -, hwarm, hplatform⟩ := derive_figures capabilities mode listenerCount linux objective overrides
  refine ⟨_, Option.bind_eq_some_iff.2 ⟨_, hderive, rfl⟩, rfl, hfigures, hwarm, hplatform, fun line hl => ?_,
    resolveField overrides plan.policy { field := .pipePool }, by simp [relayFields], ?_⟩
  · rw [List.append_assoc, List.mem_append, List.mem_append, List.mem_map, List.mem_map, List.mem_map] at hl
    rcases hl with ⟨field, hf, rfl⟩ | ⟨field, hf, rfl⟩ | ⟨field, hf, rfl⟩
    · exact resolveField_agrees (not_mem_carriedFields field (List.mem_append_left _ hf))
    · exact resolveCarried_agrees hf
    · exact resolveField_agrees (not_mem_carriedFields field (List.mem_append_right _ hf))
  · unfold resolveField
    split <;> rfl

variable (overrides)

/-- The report lists the policy's own values and pins exactly if splice is on or the pipe pool is off: only a pool
that is switched off for want of splice is listed as on. -/
theorem report_agrees_iff : ∃ resolution, resolvePolicy overrides objective capabilities mode listenerCount linux = some resolution ∧
    ((∀ line ∈ resolution.fields, line.Agrees overrides resolution.policy) ↔
      overrides.splice.getD linux = true ∨ overrides.pipePool.getD linux = false) := by
  obtain ⟨resolution, hr, hpl, -, -, ⟨hs, hp⟩, ha, line, hl, hf⟩ :=
    resolvePolicy_spec overrides objective capabilities mode listenerCount linux
  have hsp : (overrides.apply resolution.plan.policy).relay.splice = overrides.splice.getD linux := by rw [← hs]; rfl
  have hpp : (overrides.apply resolution.plan.policy).relay.pipePool = overrides.pipePool.getD linux := by rw [← hp]; rfl
  refine ⟨resolution, hr, ?_⟩
  rw [hpl, ← hsp, ← hpp]
  generalize overrides.apply resolution.plan.policy = effective at ha ⊢
  constructor
  · intro h
    -- the line of the pool agrees with the policy before and after the pool is dropped
    have hv := (ha line hl).1.symm.trans (h line hl).1
    rw [hf] at hv
    by_contra hne
    obtain ⟨hns, hnp⟩ := not_or.1 hne
    rw [Bool.not_eq_true] at hns
    rw [Bool.not_eq_false] at hnp
    simp [EffectivePolicy.dropUnusedPool, EffectivePolicy.value, hns, hnp] at hv
  · intro h
    have he : effective.dropUnusedPool = effective := by
      unfold EffectivePolicy.dropUnusedPool
      split_ifs with hon
      · rfl
      · rw [← h.resolve_left hon]
    rwa [he]

/-- On a platform with splice, splice alone is pinned off. -/
theorem dropped_pool_is_reported : ({ splice := some false } : LimitOverrides).Accepted ∧ ∃ resolution,
    resolvePolicy { splice := some false } .balanced ⟨4, 65536, 65536, 0⟩ .standard 1 true = some resolution ∧
      (resolution.fields.find? (·.field = .pipePool)).map FieldResolution.value = some 1 ∧ resolution.policy.relay.pipePool = false :=
  ⟨⟨⟨nofun, nofun⟩, by simp, nofun, nofun, nofun, nofun⟩, _, rfl, rfl, rfl⟩

/-! ### The relations -/

/-- The relations of an effective policy. -/
structure Keeps (policy : EffectivePolicy) : Prop where
  handshakes : policy.governor.maxHandshakes ≤ policy.governor.maxConnections
  fallbacks : policy.governor.maxFallbacks ≤ policy.governor.maxConnections
  dnsLookups : policy.governor.maxDnsLookups ≤ policy.governor.maxConnections
  directDials : policy.directBarrier.maxConcurrent ≤ policy.governor.maxConnections
  cryptoOperations : policy.governor.maxCryptoOperations ≤ policy.governor.maxHandshakes
  spliceRelays : policy.relay.maxSpliceRelays ≤ policy.governor.maxConnections
  warm : policy.warmConnections.minReady ≤ policy.warmConnections.maxReady
  warmReady : policy.warmConnections.maxReady ≤ policy.governor.maxConnections
  hello : policy.governor.clientHelloTimeoutMs ≤ policy.governor.handshakeTimeoutMs
  connect : policy.governor.connectTimeoutMs ≤ policy.governor.fallbackTimeoutMs

/-- Where one of two limits is pinned, it fits the other one as it is without a pin. -/
def PinFits (low high : Option Nat) (lowest highest : Nat) : Prop :=
  (∀ value ∈ low, high = none → value ≤ highest) ∧ ∀ value ∈ high, low = none → lowest ≤ value

theorem getD_le_getD_iff {low high : Option Nat} {lowest highest : Nat} (hle : lowest ≤ highest)
    (h : ∀ value ∈ low, ∀ other ∈ high, value ≤ other) : low.getD lowest ≤ high.getD highest ↔ PinFits low high lowest highest := by
  unfold PinFits
  cases low with
  | none => cases high <;> simp [hle]
  | some value =>
    cases high with
    | none => simp
    | some other => simpa using h value rfl other rfl

theorem le_getD_iff {pin : Option Nat} {value derived : Nat} (hle : value ≤ derived) :
    value ≤ pin.getD derived ↔ ∀ pinned ∈ pin, value ≤ pinned := by
  cases pin <;> simp [hle]

/-- Without a pin, only latency leaves more warm sockets than connections: it halves the latter alone. -/
theorem warm_le_getD_iff {pin : Option Nat} : (balancedFigures capabilities mode listenerCount).warmReady ≤
      pin.getD ((balancedFigures capabilities mode listenerCount).scale objective).connections ↔
    (objective = .latency → pin = none → min (32 * max capabilities.effectiveCpus 1) 4096 ≤
      max 64 (connectionShare capabilities mode listenerCount / 2) ∨ connectionShare capabilities mode listenerCount = 64) ∧
    ∀ pinned ∈ pin, (balancedFigures capabilities mode listenerCount).warmReady ≤ pinned := by
  have hbounds := connectionShare_bounds capabilities mode listenerCount
  cases pin with
  | some pinned => simp
  | none => cases objective <;> simp [balancedFigures, Figures.scale] <;> omega

variable {overrides}

/-- The effective policy keeps its relations exactly if latency does not halve the connections of a machine below the
warm sockets of its processors, and every pin fits what it stands beside: the figures of the machine under the
objective, and the default timeouts. -/
theorem relations_kept_iff (hv : overrides.Accepted) :
    let figures := (balancedFigures capabilities mode listenerCount).scale objective
    ∃ resolution, resolvePolicy overrides objective capabilities mode listenerCount linux = some resolution ∧
      (Keeps resolution.policy ↔
        (objective = .latency → overrides.maxConnections = none → min (32 * max capabilities.effectiveCpus 1) 4096 ≤
          max 64 (connectionShare capabilities mode listenerCount / 2) ∨ connectionShare capabilities mode listenerCount = 64) ∧
        (∀ connections ∈ overrides.maxConnections, figures.warmReady ≤ connections ∧ figures.fallbacks ≤ connections ∧
          figures.dnsLookups ≤ connections ∧ figures.directDials ≤ connections ∧ figures.spliceRelays ≤ connections) ∧
        (∀ handshakes ∈ overrides.maxHandshakes, figures.cryptoOperations ≤ handshakes) ∧
        PinFits overrides.maxHandshakes overrides.maxConnections figures.handshakes figures.connections ∧
        PinFits overrides.clientHelloTimeoutMs overrides.handshakeTimeoutMs 3000 10000 ∧
        PinFits overrides.connectTimeoutMs overrides.fallbackTimeoutMs 10000 120000) := by
  intro figures
  obtain ⟨resolution, hresolve, hpolicy, hfigures, hwarm, -⟩ :=
    resolvePolicy_spec overrides objective capabilities mode listenerCount linux
  have hrelated : figures.Related := (balancedFigures_ordered capabilities mode listenerCount).scale objective
  have hready : figures.warmReady = (balancedFigures capabilities mode listenerCount).warmReady := by cases objective <;> rfl
  refine ⟨resolution, hresolve, ?_⟩
  generalize resolution.plan.policy = plan at hpolicy hfigures hwarm
  have hdropped : Keeps resolution.policy ↔ Keeps (overrides.apply plan) := by
    rw [hpolicy, EffectivePolicy.dropUnusedPool]
    split_ifs
    · rfl
    · exact ⟨fun h => { h with }, fun h => { h with }⟩
  rw [hdropped, ← getD_le_getD_iff hrelated.handshakes hv.handshakes, ← getD_le_getD_iff (show 3000 ≤ 10000 by decide) hv.hello,
    ← getD_le_getD_iff (show 10000 ≤ 120000 by decide) hv.connect, ← le_getD_iff hrelated.cryptoOperations]
  simp only [forall₂_and, ← le_getD_iff hrelated.fallbacks, ← le_getD_iff hrelated.dnsLookups,
    ← le_getD_iff hrelated.directDials, ← le_getD_iff hrelated.spliceRelays]
  have hwarmReady := @warm_le_getD_iff objective capabilities mode listenerCount overrides.maxConnections
  rw [← hready] at hwarmReady
  rw [and_assoc, ← and_assoc, ← hwarmReady, ← hfigures, show figures = plan.figures from hfigures.symm]
  constructor
  · intro h
    exact ⟨h.warmReady, ⟨h.fallbacks, h.dnsLookups, h.directDials, h.spliceRelays⟩, h.cryptoOperations, h.handshakes, h.hello, h.connect⟩
  · rintro ⟨hw, ⟨hf, hd, hdd, hs⟩, hc, hh, he, hco⟩
    exact ⟨hh, hf, hd, hdd, hc, hs, hwarm, hw, he, hco⟩

theorem accepted_none : ({} : LimitOverrides).Accepted := ⟨⟨nofun, nofun⟩, by simp, nofun, nofun, nofun, nofun⟩

theorem relations_kept_without_pins : ∃ resolution,
    resolvePolicy {} .latency ⟨4, 65536, 65536, 0⟩ .standard 1 true = some resolution ∧ Keeps resolution.policy := by
  obtain ⟨resolution, hresolve, h⟩ := relations_kept_iff .latency ⟨4, 65536, 65536, 0⟩ .standard 1 true accepted_none
  refine ⟨resolution, hresolve, h.2 ⟨fun _ _ => by decide, ?_⟩⟩
  refine ⟨?_, ?_, ⟨?_, ?_⟩, ⟨?_, ?_⟩, ?_, ?_⟩ <;> rintro _ ⟨⟩

/-- The latency objective halves the connections of a machine with many processors and little memory, and leaves the
warm sockets as they were. -/
theorem latency_outgrows_warm_sockets : ({} : LimitOverrides).Accepted ∧ ∃ resolution,
    resolvePolicy {} .latency ⟨64, 65536, 65536, 128 * mebibyte⟩ .standard 1 true = some resolution ∧
      resolution.policy.governor.maxConnections = 384 ∧ resolution.policy.warmConnections.maxReady = 768 :=
  ⟨accepted_none, _, rfl, rfl, rfl⟩

end Resolve

end RustReality.Runtime
