import Mathlib

/-!
# The startup plan

`StartupPlan::derive` turns what a machine offers into the effective policy. The balanced derivation runs
first, the objective then scales its outputs, caps bound the result and floors come last. What could panic
or wrap on the way (a clamp with crossed bounds, a product, a division, an index) is a step that may fail.
-/

namespace RustReality.Runtime

def u64Max : Nat := 2 ^ 64 - 1

def saturatingAdd (a b : Nat) : Nat := min (a + b) u64Max

def saturatingMul (a b : Nat) : Nat := min (a * b) u64Max

inductive ResourceMode
  | standard
  | dedicated

inductive Objective
  | latency
  | balanced
  | throughput
  deriving DecidableEq

structure MachineCapabilities where
  effectiveCpus : Nat
  fdSoftLimit : Nat
  fdHardLimit : Nat
  /-- Zero when it is not known. -/
  memoryTotalBytes : Nat

/-- What the configuration pins. -/
structure LimitOverrides where
  maxConnections : Option Nat := none
  maxHandshakes : Option Nat := none
  clientHelloTimeoutMs : Option Nat := none
  handshakeTimeoutMs : Option Nat := none
  connectTimeoutMs : Option Nat := none
  fallbackTimeoutMs : Option Nat := none
  splice : Option Bool := none
  pipePool : Option Bool := none

structure SafetyLimits where
  maxPlannedFds : Nat := 1048576
  maxConnections : Nat := 262144
  maxSpliceRelays : Nat := 8192
  maxPooledBuffers : Nat := 65536
  plannedConnectionBytes : Nat := 64 * 1024
  pipePairMemoryBytes : Nat := 2 * 512 * 1024

structure ResourceGovernorPolicy where
  maxConnections : Nat := 16384
  maxHandshakes : Nat := 1024
  maxPreAuthIdleConnections : Nat := 1024
  maxFallbacks : Nat := 512
  maxCryptoOperations : Nat := 128
  maxReplayEntries : Nat := 65536
  maxDnsLookups : Nat := 64
  replayRetentionMs : Nat := 120000
  clientHelloTimeoutMs : Nat := 3000
  handshakeTimeoutMs : Nat := 10000
  connectTimeoutMs : Nat := 10000
  fallbackTimeoutMs : Nat := 120000

structure DirectBarrierPolicy where
  maxConcurrent : Nat := 2048
  maxPerSecond : Nat := 4096

structure RelayPolicy where
  bufferBytes : Nat := 32 * 1024
  maxPooledBuffers : Nat := 4096
  maxSpliceRelays : Nat := 256
  maxRelayMemoryBytes : Nat := 536870912
  splice : Bool := true
  pipePool : Bool := true
  maxPooledPipes : Nat := 256

structure WarmConnectionPolicy where
  minReady : Nat := 4
  maxReady : Nat := 256
  maxConnecting : Nat := 64
  refillBatch : Nat := 16
  idleTimeoutMs : Nat := 30000
  maxLifetimeMs : Nat := 300000
  shrinkDelayMs : Nat := 30000

structure EffectivePolicy where
  governor : ResourceGovernorPolicy := {}
  directBarrier : DirectBarrierPolicy := {}
  relay : RelayPolicy := {}
  warmConnections : WarmConnectionPolicy := {}

structure PlannedPolicy where
  policy : EffectivePolicy
  hardBounds : EffectivePolicy

/-! ### Arithmetic -/

/-- `Ord::clamp`, which panics when the bounds cross. -/
def clamp (value low high : Nat) : Option Nat := if low ≤ high then some (max low (min value high)) else none

def checkedMul (a b : Nat) : Option Nat := if a * b ≤ u64Max then some (a * b) else none

def checkedDiv (a b : Nat) : Option Nat := if b = 0 then none else some (a / b)

def u32Max : Nat := 2 ^ 32 - 1

def toU32 (value : Nat) : Nat := min value u32Max

def mebibyte : Nat := 1024 * 1024

namespace SafetyLimits

variable (limits : SafetyLimits)

def headroomDivisor (_ : SafetyLimits) : ResourceMode → Nat
  | .standard => 16
  | .dedicated => 10

def relayMemoryBudget (_ : SafetyLimits) (memoryTotalBytes : Nat) : Option Nat :=
  if memoryTotalBytes = 0 then some (256 * mebibyte)
  else clamp (memoryTotalBytes / 8) (16 * mebibyte) (2 * 1024 * mebibyte)

def connectionMemoryLimit (memoryTotalBytes : Nat) (mode : ResourceMode) : Option Nat := do
  if memoryTotalBytes = 0 then return limits.maxConnections
  let budget := match mode with
    | .standard => saturatingMul memoryTotalBytes 3 / 8
    | .dedicated => memoryTotalBytes / 2
  return max (← checkedDiv budget limits.plannedConnectionBytes) 64

end SafetyLimits

/-! ### The objective -/

structure ObjectiveMultipliers where
  connections : Nat × Nat
  fallbacks : Nat × Nat
  directConcurrent : Nat × Nat
  directPerSecond : Nat × Nat
  pooledBuffers : Nat × Nat
  spliceRelays : Nat × Nat
  relayMemory : Nat × Nat
  bufferTierShift : Int

def multipliers : Objective → ObjectiveMultipliers
  | .latency => ⟨(1, 2), (1, 2), (1, 2), (1, 2), (1, 2), (1, 1), (3, 4), -1⟩
  | .balanced => ⟨(1, 1), (1, 1), (1, 1), (1, 1), (1, 1), (1, 1), (1, 1), 0⟩
  | .throughput => ⟨(3, 2), (1, 1), (3, 2), (2, 1), (2, 1), (2, 1), (3, 2), 1⟩

def scale (value : Nat) (ratio : Nat × Nat) : Nat := saturatingMul value ratio.1 / ratio.2

def tiers : List Nat := [16 * 1024, 32 * 1024, 64 * 1024]

def shiftBufferTier (bufferBytes : Nat) (shift : Int) : Option Nat :=
  let index : Int := (tiers.findIdx? fun tier => bufferBytes ≤ tier).getD (tiers.length - 1)
  tiers[(max 0 (min (index + shift) (tiers.length - 1))).toNat]?

/-- The relay memory and the pooled buffers once the memory ceiling has won over the scaled budget. -/
def refit (limits : SafetyLimits) (capabilities : MachineCapabilities)
    (maxConnections bufferBytes pipeMemory relayMemory maxPooledBuffers : Nat) : Option (Nat × Nat) :=
  let memoryCap := capabilities.memoryTotalBytes / 4
  if 0 < capabilities.memoryTotalBytes ∧ memoryCap < relayMemory then do
    let relayMemory := max memoryCap (saturatingAdd pipeMemory (← checkedMul 2 bufferBytes))
    let pooledBuffers ← clamp (← checkedDiv (relayMemory - pipeMemory) bufferBytes) 2 limits.maxPooledBuffers
    let maxPooledBuffers := min pooledBuffers (saturatingMul maxConnections 2)
    return (max relayMemory (saturatingAdd pipeMemory (saturatingMul maxPooledBuffers bufferBytes)), maxPooledBuffers)
  else some (relayMemory, maxPooledBuffers)

/-- Apply the objective to the balanced derivation. -/
def scaleForObjective (balanced : EffectivePolicy) (objective : Objective) (limits : SafetyLimits)
    (capabilities : MachineCapabilities) : Option EffectivePolicy := do
  if objective = .balanced then return balanced
  let multipliers := multipliers objective
  let governor := balanced.governor
  let maxConnections ← clamp (scale governor.maxConnections multipliers.connections) 64 limits.maxConnections
  let maxHandshakes := max (min governor.maxHandshakes maxConnections) 1
  let maxPreAuthIdleConnections := max (min governor.maxPreAuthIdleConnections maxConnections) 1
  let maxCryptoOperations := max (min governor.maxCryptoOperations maxHandshakes) 1
  let maxFallbacks := max (min (scale governor.maxFallbacks multipliers.fallbacks) maxConnections) 1
  let maxDnsLookups := max (min governor.maxDnsLookups maxConnections) 1
  let maxReplayEntries ← clamp (saturatingMul maxConnections 4) 1024 1000000
  let maxDirectConcurrent :=
    max (min (scale balanced.directBarrier.maxConcurrent multipliers.directConcurrent) maxConnections) 1
  let maxDirectPerSecond ← clamp (scale balanced.directBarrier.maxPerSecond multipliers.directPerSecond) 64 u32Max
  let bufferBytes ← shiftBufferTier balanced.relay.bufferBytes multipliers.bufferTierShift
  let spliceRelays ← clamp (scale balanced.relay.maxSpliceRelays multipliers.spliceRelays) 1 limits.maxSpliceRelays
  let maxSpliceRelays := min spliceRelays maxConnections
  let maxPooledPipes := if balanced.relay.maxPooledPipes = 0 then 0 else saturatingMul maxSpliceRelays 2
  let pooledBuffers ← clamp (scale balanced.relay.maxPooledBuffers multipliers.pooledBuffers) 2 limits.maxPooledBuffers
  let maxPooledBuffers := min pooledBuffers (saturatingMul maxConnections 2)
  let pipeMemory := saturatingMul maxPooledPipes limits.pipePairMemoryBytes
  let requiredMemory := saturatingAdd pipeMemory (saturatingMul maxPooledBuffers bufferBytes)
  let relayMemory := max (scale balanced.relay.maxRelayMemoryBytes multipliers.relayMemory) requiredMemory
  let (relayMemory, maxPooledBuffers) ← refit limits capabilities maxConnections bufferBytes pipeMemory relayMemory maxPooledBuffers
  return {
    governor := { governor with
      maxConnections := toU32 maxConnections
      maxHandshakes := toU32 maxHandshakes
      maxPreAuthIdleConnections := toU32 maxPreAuthIdleConnections
      maxFallbacks := toU32 maxFallbacks
      maxCryptoOperations := toU32 maxCryptoOperations
      maxReplayEntries := toU32 maxReplayEntries
      maxDnsLookups := toU32 maxDnsLookups }
    directBarrier := ⟨toU32 maxDirectConcurrent, toU32 maxDirectPerSecond⟩
    relay := { balanced.relay with
      bufferBytes, maxPooledBuffers
      maxSpliceRelays := toU32 maxSpliceRelays
      maxRelayMemoryBytes := relayMemory
      maxPooledPipes := toU32 maxPooledPipes }
    warmConnections := balanced.warmConnections }

/-! ### The derivation -/

section Derive

variable (capabilities : MachineCapabilities) (limits : SafetyLimits) (mode : ResourceMode) (listenerCount : Nat)

/-- The descriptors left after headroom and fixed reserve. -/
def remainingFds : Nat :=
  let selectedLimit := min (match mode with
    | .standard => capabilities.fdSoftLimit
    | .dedicated => capabilities.fdHardLimit) limits.maxPlannedFds
  let headroom := max (selectedLimit / limits.headroomDivisor mode) 64
  let fixed := saturatingAdd (saturatingMul listenerCount 2) (3 + 1 + 16 + 32)
  selectedLimit - headroom - fixed

def spliceRelays (cpus dynamicFds relayBudget : Nat) : Option Nat := do
  let desiredSplice ← clamp (saturatingMul cpus 256) 1 limits.maxSpliceRelays
  let memorySplice := max (← checkedDiv (relayBudget / 2) (← checkedMul 2 limits.pipePairMemoryBytes)) 1
  return max (min (min desiredSplice (dynamicFds / 12)) memorySplice) 1

def connections (dynamicFds maxSpliceRelays maxPooledPipes : Nat) : Option Nat := do
  let acceleratorFds := saturatingAdd (saturatingMul maxSpliceRelays 4) (saturatingMul maxPooledPipes 2)
  let fdConnectionLimit := (dynamicFds - acceleratorFds) / 2
  let memoryConnectionLimit ← limits.connectionMemoryLimit capabilities.memoryTotalBytes mode
  clamp (min fdConnectionLimit memoryConnectionLimit) 64 limits.maxConnections

/-- The pooled buffers and the relay memory. -/
def pooledBuffers (relayBudget maxPooledPipes maxConnections bufferBytes : Nat) : Option (Nat × Nat) := do
  let pipeMemory := saturatingMul maxPooledPipes limits.pipePairMemoryBytes
  let bufferMemory := max (relayBudget - pipeMemory) (← checkedMul 2 bufferBytes)
  let pooledBuffers ← clamp (← checkedDiv bufferMemory bufferBytes) 2 limits.maxPooledBuffers
  let maxPooledBuffers := min pooledBuffers (saturatingMul maxConnections 2)
  return (maxPooledBuffers, saturatingAdd pipeMemory (saturatingMul maxPooledBuffers bufferBytes))

/-- The balanced derivation. -/
def deriveBalanced (linux : Bool) (overrides : LimitOverrides) : Option EffectivePolicy := do
  let timeouts : ResourceGovernorPolicy := {}
  let cpus := max capabilities.effectiveCpus 1
  let dynamicFds := max (remainingFds capabilities limits mode listenerCount) 64
  let relayBudget ← limits.relayMemoryBudget capabilities.memoryTotalBytes
  let maxSpliceRelays ← spliceRelays limits cpus dynamicFds relayBudget
  let maxPooledPipes := saturatingMul maxSpliceRelays 2
  let maxConnections ← connections capabilities limits mode dynamicFds maxSpliceRelays maxPooledPipes
  let bufferBytes := 32 * 1024
  let (maxPooledBuffers, relayMemory) ← pooledBuffers limits relayBudget maxPooledPipes maxConnections bufferBytes
  let maxHandshakes := max (min (saturatingMul cpus 128) maxConnections) 1
  let maxCryptoOperations := max (min (saturatingMul cpus 32) maxHandshakes) 1
  let maxFallbacks := min maxConnections (max (saturatingMul cpus 128) 64)
  let maxDnsLookups := min maxConnections (max (saturatingMul cpus 32) 16)
  let maxReplayEntries ← clamp (saturatingMul maxConnections 4) 1024 1000000
  let maxDirectConcurrent := min maxConnections (max (saturatingMul cpus 512) 64)
  let maxDirectPerSecond ← clamp (saturatingMul cpus 2048) 64 u32Max
  let warmMaxReady := min (← clamp (saturatingMul cpus 32) 1 4096) maxConnections
  let warmMaxConnecting := min (← clamp (saturatingMul cpus 8) 1 1024) warmMaxReady
  let warmDefaults : WarmConnectionPolicy := {}
  return {
    governor := {
      maxConnections := toU32 maxConnections
      maxHandshakes := toU32 maxHandshakes
      maxPreAuthIdleConnections := toU32 (min maxHandshakes maxConnections)
      maxFallbacks := toU32 maxFallbacks
      maxCryptoOperations := toU32 maxCryptoOperations
      maxReplayEntries := toU32 maxReplayEntries
      maxDnsLookups := toU32 maxDnsLookups
      clientHelloTimeoutMs := overrides.clientHelloTimeoutMs.getD timeouts.clientHelloTimeoutMs
      handshakeTimeoutMs := overrides.handshakeTimeoutMs.getD timeouts.handshakeTimeoutMs
      connectTimeoutMs := overrides.connectTimeoutMs.getD timeouts.connectTimeoutMs
      fallbackTimeoutMs := overrides.fallbackTimeoutMs.getD timeouts.fallbackTimeoutMs }
    directBarrier := ⟨toU32 maxDirectConcurrent, toU32 maxDirectPerSecond⟩
    relay := {
      bufferBytes, maxPooledBuffers
      maxSpliceRelays := toU32 (min maxSpliceRelays maxConnections)
      maxRelayMemoryBytes := relayMemory
      splice := linux
      pipePool := linux
      maxPooledPipes := if linux then toU32 maxPooledPipes else 0 }
    warmConnections := { warmDefaults with
      minReady := min warmDefaults.minReady (toU32 warmMaxReady)
      maxReady := toU32 warmMaxReady
      maxConnecting := toU32 warmMaxConnecting
      refillBatch := min warmDefaults.refillBatch (toU32 warmMaxConnecting) } }

def derive (linux : Bool) (objective : Objective) (overrides : LimitOverrides) : Option PlannedPolicy := do
  let policy ← deriveBalanced capabilities limits mode listenerCount linux overrides
  return ⟨← scaleForObjective policy objective limits capabilities, policy⟩

end Derive

/-! ### What is planned -/

/-- What the planned pipes and buffers take. -/
def RelayPolicy.poolMemory (relay : RelayPolicy) : Nat :=
  relay.maxPooledPipes * mebibyte + relay.maxPooledBuffers * relay.bufferBytes

/-- Two for a connection, four for a splice relay, two for a pooled pipe. -/
def EffectivePolicy.descriptors (policy : EffectivePolicy) : Nat :=
  2 * policy.governor.maxConnections + 4 * policy.relay.maxSpliceRelays + 2 * policy.relay.maxPooledPipes

variable {machine : MachineCapabilities} {mode : ResourceMode} {listeners : Nat} {linux : Bool} {objective : Objective}
  {overrides : LimitOverrides}

variable (machine mode) in
/-- The connections the memory allows. -/
def memoryConnections : Nat :=
  if machine.memoryTotalBytes = 0 then 262144
  else match mode with
    | .standard => max (min (3 * machine.memoryTotalBytes) u64Max / 8 / 65536) 64
    | .dedicated => max (machine.memoryTotalBytes / 2 / 65536) 64

variable (machine) in
/-- The memory for relays: an eighth of what is known, within 16 MiB and 2 GiB. -/
def relayBudget : Nat :=
  if machine.memoryTotalBytes = 0 then 256 * mebibyte
  else max (16 * mebibyte) (min (machine.memoryTotalBytes / 8) (2 * 1024 * mebibyte))

section Shares

variable (machine mode listeners)

/-- The splice relays of the machine: 256 for a processor, one for 12 descriptors, one for 4 MiB of the budget. -/
def spliceShare : Nat :=
  max (min (min (256 * max machine.effectiveCpus 1) (max (remainingFds machine {} mode listeners) 64 / 12))
    (relayBudget machine / (4 * mebibyte))) 1

/-- The connections of the machine: what memory allows, and half of the descriptors the splice relays leave. -/
def connectionShare : Nat :=
  max 64 (min (min ((max (remainingFds machine {} mode listeners) 64 - 8 * spliceShare machine mode listeners) / 2)
    (memoryConnections machine mode)) 262144)

theorem relayMemoryBudget_eq : SafetyLimits.relayMemoryBudget {} machine.memoryTotalBytes = some (relayBudget machine) := by
  unfold SafetyLimits.relayMemoryBudget relayBudget
  split_ifs
  · rfl
  · exact if_pos (by decide)

theorem connectionMemoryLimit_eq :
    SafetyLimits.connectionMemoryLimit {} machine.memoryTotalBytes mode = some (memoryConnections machine mode) := by
  unfold SafetyLimits.connectionMemoryLimit memoryConnections
  split_ifs
  · rfl
  · cases mode with
    | standard => rw [Nat.mul_comm 3]; rfl
    | dedicated => rfl

theorem le_relayBudget : 16 * mebibyte ≤ relayBudget machine ∧ relayBudget machine ≤ 2 * 1024 * mebibyte := by
  unfold relayBudget
  simp only [mebibyte]
  split_ifs <;> omega

theorem spliceRelays_eq : spliceRelays {} (max machine.effectiveCpus 1) (max (remainingFds machine {} mode listeners) 64)
    (relayBudget machine) = some (spliceShare machine mode listeners) := by
  obtain ⟨hlow, hhigh⟩ := le_relayBudget machine
  unfold spliceShare
  generalize relayBudget machine = budget at *
  generalize remainingFds machine {} mode listeners = fds
  show some (max (min (min (max 1 (min (saturatingMul (max machine.effectiveCpus 1) 256) 8192)) (max fds 64 / 12))
    (max (budget / 2 / (2 * (2 * 512 * 1024))) 1)) 1) = _
  simp only [saturatingMul, u64Max, mebibyte, Option.some.injEq] at *
  omega

theorem spliceShare_bounds : 1 ≤ spliceShare machine mode listeners ∧
    4 * (spliceShare machine mode listeners * mebibyte) ≤ relayBudget machine := by
  have hlow := (le_relayBudget machine).1
  unfold spliceShare
  generalize relayBudget machine = budget at *
  simp only [mebibyte] at *
  omega

theorem connections_eq : connections machine {} mode (max (remainingFds machine {} mode listeners) 64)
    (spliceShare machine mode listeners) (saturatingMul (spliceShare machine mode listeners) 2) =
      some (connectionShare machine mode listeners) := by
  have hsplice := spliceShare_bounds machine mode listeners
  have hbudget := (le_relayBudget machine).2
  unfold connectionShare
  generalize spliceShare machine mode listeners = splice at *
  have hfds : saturatingAdd (saturatingMul splice 4) (saturatingMul (saturatingMul splice 2) 2) = 8 * splice := by
    simp only [saturatingAdd, saturatingMul, u64Max, mebibyte] at *
    omega
  simp only [connections, connectionMemoryLimit_eq, hfds]
  rfl

/-- The memory for relays allows far fewer splice relays than the memory for connections. -/
theorem spliceShare_le_memory : 2 * spliceShare machine mode listeners ≤ memoryConnections machine mode := by
  have hsplice : spliceShare machine mode listeners ≤ max (relayBudget machine / (4 * mebibyte)) 1 := by
    unfold spliceShare
    omega
  refine (Nat.mul_le_mul_left 2 hsplice).trans ?_
  simp only [relayBudget, memoryConnections, u64Max, mebibyte]
  cases mode <;> dsimp only <;> split_ifs <;> omega

end Shares

theorem toU32_eq {value : Nat} (h : value ≤ 262144) : toU32 value = value := Nat.min_eq_left (h.trans (by decide))

/-- The limits of a policy that are related to each other. -/
structure Figures where
  connections : Nat
  handshakes : Nat
  cryptoOperations : Nat
  fallbacks : Nat
  dnsLookups : Nat
  directDials : Nat
  spliceRelays : Nat
  warmReady : Nat

def EffectivePolicy.figures (policy : EffectivePolicy) : Figures :=
  ⟨policy.governor.maxConnections, policy.governor.maxHandshakes, policy.governor.maxCryptoOperations, policy.governor.maxFallbacks,
    policy.governor.maxDnsLookups, policy.directBarrier.maxConcurrent, policy.relay.maxSpliceRelays, policy.warmConnections.maxReady⟩

/-- What an objective makes of the balanced figures. -/
def Figures.scale (self : Figures) : Objective → Figures
  | .balanced => self
  | .latency =>
    let connections := max 64 (self.connections / 2)
    { self with
      connections
      handshakes := min self.handshakes connections
      cryptoOperations := min self.cryptoOperations connections
      fallbacks := self.fallbacks / 2
      dnsLookups := min self.dnsLookups connections
      directDials := self.directDials / 2 }
  | .throughput =>
    let connections := min (self.connections * 3 / 2) 262144
    { self with
      connections
      directDials := min (self.directDials * 3 / 2) connections
      spliceRelays := 2 * self.spliceRelays }

variable (machine mode listeners) in
def balancedFigures : Figures :=
  let cpus := max machine.effectiveCpus 1
  let connections := connectionShare machine mode listeners
  { connections
    handshakes := min (128 * cpus) connections
    cryptoOperations := min (32 * cpus) connections
    fallbacks := min connections (max (128 * cpus) 64)
    dnsLookups := min connections (max (32 * cpus) 16)
    directDials := min connections (max (512 * cpus) 64)
    spliceRelays := spliceShare machine mode listeners
    warmReady := min (min (32 * cpus) 4096) connections }

variable (machine mode listeners) in
theorem connectionShare_bounds : 64 ≤ connectionShare machine mode listeners ∧
    connectionShare machine mode listeners ≤ 262144 ∧
    2 * spliceShare machine mode listeners ≤ connectionShare machine mode listeners ∧
    spliceShare machine mode listeners ≤ 512 := by
  have hsplice := spliceShare_bounds machine mode listeners
  have hmemory := spliceShare_le_memory machine mode listeners
  have hbudget := (le_relayBudget machine).2
  have hfds : spliceShare machine mode listeners ≤ max (max (remainingFds machine {} mode listeners) 64 / 12) 1 := by
    unfold spliceShare
    omega
  unfold connectionShare
  generalize spliceShare machine mode listeners = splice at *
  simp only [mebibyte] at *
  omega

variable (machine mode listeners) in
/-- Either memory bounds the connections, or the descriptors do. -/
theorem connectionShare_cases : connectionShare machine mode listeners = memoryConnections machine mode ∨
    connectionShare machine mode listeners = 262144 ∧ 262144 ≤ memoryConnections machine mode ∨
    connectionShare machine mode listeners < 262144 ∧
      connectionShare machine mode listeners ≤ memoryConnections machine mode ∧
      remainingFds machine {} mode listeners ≤
        2 * connectionShare machine mode listeners + 8 * spliceShare machine mode listeners + 1 := by
  have hmemory : 64 ≤ memoryConnections machine mode := by
    unfold memoryConnections
    cases mode <;> dsimp only <;> split_ifs <;> omega
  unfold connectionShare
  generalize spliceShare machine mode listeners = splice at *
  omega

variable (machine mode listeners) in
theorem connectionShare_fits : connectionShare machine mode listeners = 64 ∨
    2 * connectionShare machine mode listeners + 8 * spliceShare machine mode listeners ≤
      remainingFds machine {} mode listeners := by
  unfold connectionShare
  generalize spliceShare machine mode listeners = splice at *
  omega

/-- The order of the balanced figures. -/
structure Figures.Ordered (figures : Figures) : Prop where
  connections : 64 ≤ figures.connections ∧ figures.connections ≤ 262144
  handshakes : 1 ≤ figures.handshakes ∧ figures.handshakes ≤ figures.connections
  cryptoOperations : 1 ≤ figures.cryptoOperations ∧ figures.cryptoOperations ≤ figures.handshakes
  fallbacks : 64 ≤ figures.fallbacks ∧ figures.fallbacks ≤ figures.connections
  dnsLookups : 1 ≤ figures.dnsLookups ∧ figures.dnsLookups ≤ figures.connections
  directDials : 64 ≤ figures.directDials ∧ figures.directDials ≤ figures.connections
  spliceRelays : 1 ≤ figures.spliceRelays ∧ figures.spliceRelays ≤ 512 ∧ 2 * figures.spliceRelays ≤ figures.connections

variable (machine mode listeners) in
theorem balancedFigures_ordered : (balancedFigures machine mode listeners).Ordered := by
  obtain ⟨hfloor, hcap, hsplice, hsmall⟩ := connectionShare_bounds machine mode listeners
  have hone := (spliceShare_bounds machine mode listeners).1
  unfold balancedFigures
  constructor <;> dsimp only <;> omega

/-- The relations the scaled figures keep. -/
structure Figures.Related (figures : Figures) : Prop where
  handshakes : figures.handshakes ≤ figures.connections
  cryptoOperations : figures.cryptoOperations ≤ figures.handshakes
  fallbacks : figures.fallbacks ≤ figures.connections
  dnsLookups : figures.dnsLookups ≤ figures.connections
  directDials : figures.directDials ≤ figures.connections
  spliceRelays : figures.spliceRelays ≤ figures.connections

theorem Figures.Ordered.scale {self : Figures} (h : self.Ordered) (objective : Objective) : (self.scale objective).Related := by
  obtain ⟨hconnections, hhandshakes, hcrypto, hfallbacks, hlookups, hdials, hrelays⟩ := h
  cases objective <;> constructor <;> dsimp only [Figures.scale] <;> omega

variable (machine mode listeners linux) in
/-- What the balanced derivation keeps under the default limits. -/
structure Balanced (policy : EffectivePolicy) : Prop where
  figures : policy.figures = balancedFigures machine mode listeners
  warm : policy.warmConnections.minReady ≤ policy.warmConnections.maxReady
  platform : policy.relay.splice = linux ∧ policy.relay.pipePool = linux
  pipes : policy.relay.maxPooledPipes = if linux then 2 * spliceShare machine mode listeners else 0
  buffers : 2 ≤ policy.relay.maxPooledBuffers ∧ policy.relay.bufferBytes = 32 * 1024
  covered : policy.relay.poolMemory ≤ policy.relay.maxRelayMemoryBytes
  budget : policy.relay.maxRelayMemoryBytes ≤ relayBudget machine

theorem pooledBuffers_spec {budget pipes connections : Nat} (hb : 16 * mebibyte ≤ budget) (hm : budget ≤ 2 * 1024 * mebibyte)
    (hpipes : 2 * (pipes * mebibyte) ≤ budget) (hc : 64 ≤ connections) :
    ∃ buffers memory, pooledBuffers {} budget pipes connections (32 * 1024) = some (buffers, memory) ∧ 2 ≤ buffers ∧
      memory = pipes * mebibyte + buffers * (32 * 1024) ∧ memory ≤ budget := by
  have hp : saturatingMul pipes (2 * 512 * 1024) = pipes * mebibyte := by
    simp only [saturatingMul, u64Max, mebibyte] at *
    omega
  refine ⟨min (max 2 (min (max (budget - pipes * mebibyte) (2 * (32 * 1024)) / (32 * 1024)) 65536)) (saturatingMul connections 2),
    _, by simp only [pooledBuffers, hp]; rfl, ?_⟩
  generalize pipes * mebibyte = memory at *
  simp only [saturatingAdd, saturatingMul, u64Max, mebibyte] at *
  omega

variable (machine mode listeners linux overrides) in
theorem deriveBalanced_spec : ∃ policy, deriveBalanced machine {} mode listeners linux overrides = some policy ∧
    Balanced machine mode listeners linux policy := by
  obtain ⟨hlow, hhigh⟩ := le_relayBudget machine
  obtain ⟨hone, hmemory⟩ := spliceShare_bounds machine mode listeners
  obtain ⟨hfloor, hcap, hsplice, hsmall⟩ := connectionShare_bounds machine mode listeners
  have hpipes : saturatingMul (spliceShare machine mode listeners) 2 = 2 * spliceShare machine mode listeners := by
    simp only [saturatingMul, u64Max]
    omega
  obtain ⟨buffers, memory, hpooled, htwo, hcovered, hle⟩ := pooledBuffers_spec hlow hhigh
    (show 2 * (saturatingMul (spliceShare machine mode listeners) 2 * mebibyte) ≤ relayBudget machine by
      rw [hpipes, Nat.mul_assoc]
      omega) hfloor
  refine ⟨_, Option.bind_eq_some_iff.2 ⟨_, relayMemoryBudget_eq machine, Option.bind_eq_some_iff.2
    ⟨_, spliceRelays_eq machine mode listeners, Option.bind_eq_some_iff.2 ⟨_, connections_eq machine mode listeners,
    Option.bind_eq_some_iff.2 ⟨_, hpooled, rfl⟩⟩⟩⟩, ?_⟩
  simp only [hpipes] at *
  constructor
  · simp only [EffectivePolicy.figures, balancedFigures, Figures.mk.injEq, toU32, u32Max, saturatingMul, u64Max]
    omega
  · exact Nat.min_le_right _ _
  · exact ⟨rfl, rfl⟩
  · dsimp only
    rw [toU32_eq (by omega)]
  · exact ⟨htwo, rfl⟩
  · simp only [RelayPolicy.poolMemory]
    rw [hcovered, toU32_eq (by omega)]
    split_ifs <;> omega
  · exact hle

theorem refit_spec {connections bufferBytes pipeMemory relayMemory buffers : Nat}
    (hconns : 64 ≤ connections) (hb : 0 < bufferBytes ∧ bufferBytes ≤ 65536) (hpipes : pipeMemory ≤ 16384 * mebibyte)
    (ht : 2 ≤ buffers) (hc : pipeMemory + buffers * bufferBytes ≤ relayMemory) :
    ∃ memory buffers', refit {} machine connections bufferBytes pipeMemory relayMemory buffers = some (memory, buffers') ∧
      2 ≤ buffers' ∧ pipeMemory + buffers' * bufferBytes ≤ memory ∧
      (0 < machine.memoryTotalBytes → memory ≤ max (machine.memoryTotalBytes / 4) (pipeMemory + 2 * bufferBytes)) := by
  unfold refit
  dsimp only
  split_ifs with ho
  · have hm : checkedMul 2 bufferBytes = some (2 * bufferBytes) := if_pos (by simp only [u64Max]; omega)
    have hs : saturatingAdd pipeMemory (2 * bufferBytes) = pipeMemory + 2 * bufferBytes :=
      Nat.min_eq_left (by simp only [u64Max, mebibyte] at *; omega)
    have hd (value : Nat) : checkedDiv value bufferBytes = some (value / bufferBytes) := if_neg hb.1.ne'
    simp only [hm, hs, hd, Option.bind_eq_bind, Option.bind_some]
    generalize hmm : max (machine.memoryTotalBytes / 4) (pipeMemory + 2 * bufferBytes) = memory
    have hr := Nat.div_mul_le_self (memory - pipeMemory) bufferBytes
    have hl : 2 ≤ (memory - pipeMemory) / bufferBytes := (Nat.le_div_iff_mul_le hb.1).2 (by omega)
    generalize (memory - pipeMemory) / bufferBytes = fitting at *
    -- the refitted buffers take what the pipes leave, so the memory stays as it is
    have hf : min (max 2 (min fitting 65536)) (saturatingMul connections 2) ≤ fitting := by
      omega
    have hk : pipeMemory + min (max 2 (min fitting 65536)) (saturatingMul connections 2) * bufferBytes ≤ memory := by
      have := Nat.mul_le_mul_right bufferBytes hf
      omega
    refine ⟨_, _, rfl, ?_, ?_, fun _ => ?_⟩
    · simp only [saturatingMul, u64Max]
      omega
    · exact hk.trans (Nat.le_max_left _ _)
    · refine Nat.max_le.2 ⟨le_rfl, ?_⟩
      exact (Nat.min_le_left _ _).trans ((Nat.add_le_add_left (Nat.min_le_left _ _) _).trans hk)
  · exact ⟨relayMemory, buffers, rfl, ht, hc, fun hp => by omega⟩

variable (machine objective) in
/-- What the objective makes of the balanced derivation. -/
structure Scaled (balanced policy : EffectivePolicy) : Prop where
  figures : policy.figures = balanced.figures.scale objective
  warm : policy.warmConnections = balanced.warmConnections
  platform : policy.relay.splice = balanced.relay.splice ∧ policy.relay.pipePool = balanced.relay.pipePool
  pipes : policy.relay.maxPooledPipes = if balanced.relay.maxPooledPipes = 0 then 0 else 2 * policy.relay.maxSpliceRelays
  buffers : 2 ≤ policy.relay.maxPooledBuffers
  covered : policy.relay.poolMemory ≤ policy.relay.maxRelayMemoryBytes
  quarter : 0 < machine.memoryTotalBytes → policy.relay.maxRelayMemoryBytes ≤
    max (machine.memoryTotalBytes / 4) (policy.relay.maxPooledPipes * mebibyte + 2 * policy.relay.bufferBytes)

theorem clamp_spec {low high : Nat} (h : low ≤ high) (value : Nat) :
    ∃ x, clamp value low high = some x ∧ x = max low (min value high) := ⟨_, if_pos h, rfl⟩

theorem scale_eq {value : Nat} (h : value ≤ 262144) {ratio : Nat × Nat} (hr : ratio.1 ≤ 3) :
    scale value ratio = value * ratio.1 / ratio.2 := by
  rw [scale, saturatingMul, Nat.min_eq_left ((Nat.mul_le_mul h hr).trans (by decide))]

theorem toU32_least {value bound : Nat} (h : bound ≤ 262144) : toU32 (max (min value bound) 1) = max (min value bound) 1 := by
  refine toU32_eq ?_
  omega

/-- The derivation's own way to the scaled figures, with its bounds and floors. -/
theorem scaled_figures {figures : Figures} (h : figures.Ordered) (ho : objective ≠ .balanced) {count splice : Nat}
    (hcount : count = max 64 (min (scale figures.connections (multipliers objective).connections) 262144))
    (hsplice : splice = max 1 (min (scale figures.spliceRelays (multipliers objective).spliceRelays) 8192)) :
    (⟨toU32 count, toU32 (max (min figures.handshakes count) 1),
      toU32 (max (min figures.cryptoOperations (max (min figures.handshakes count) 1)) 1),
      toU32 (max (min (scale figures.fallbacks (multipliers objective).fallbacks) count) 1),
      toU32 (max (min figures.dnsLookups count) 1),
      toU32 (max (min (scale figures.directDials (multipliers objective).directConcurrent) count) 1),
      toU32 (min splice count), figures.warmReady⟩ : Figures) = figures.scale objective := by
  obtain ⟨hconnections, hhandshakes, hcrypto, hfallbacks, hlookups, hdials, hrelays⟩ := h
  have hcap : count ≤ 262144 := by omega
  rw [toU32_eq hcap, toU32_least hcap, toU32_least (show max (min figures.handshakes count) 1 ≤ 262144 by omega), toU32_least hcap,
    toU32_least hcap, toU32_least hcap, toU32_eq ((Nat.min_le_right _ _).trans hcap)]
  cases objective with
  | balanced => exact absurd rfl ho
  | latency =>
    rw [scale_eq hconnections.2 (by decide)] at hcount
    rw [scale_eq (by omega) (by decide)] at hsplice
    rw [scale_eq (by omega) (by decide), scale_eq (by omega) (by decide)]
    simp only [multipliers, Figures.scale, Figures.mk.injEq] at *
    obtain rfl : count = max 64 (figures.connections / 2) := by omega
    clear hcount
    refine ⟨rfl, ?_, ?_, ?_, ?_, ?_, ?_, trivial⟩ <;> omega
  | throughput =>
    rw [scale_eq hconnections.2 (by decide)] at hcount
    rw [scale_eq (by omega) (by decide)] at hsplice
    rw [scale_eq (by omega) (by decide), scale_eq (by omega) (by decide)]
    simp only [multipliers, Figures.scale, Figures.mk.injEq] at *
    obtain rfl : count = min (figures.connections * 3 / 2) 262144 := by omega
    clear hcount
    refine ⟨rfl, ?_, ?_, ?_, ?_, ?_, ?_, trivial⟩ <;> omega

theorem scaleForObjective_spec {balanced : EffectivePolicy} (h : Balanced machine mode listeners linux balanced)
    (ho : objective ≠ .balanced) : ∃ policy, scaleForObjective balanced objective {} machine = some policy ∧
      Scaled machine objective balanced policy := by
  obtain ⟨bytes, htier, hbounds⟩ : ∃ bytes, shiftBufferTier balanced.relay.bufferBytes (multipliers objective).bufferTierShift =
      some bytes ∧ 0 < bytes ∧ bytes ≤ 65536 := by
    rw [h.buffers.2]
    cases objective with
    | balanced => exact absurd rfl ho
    | latency => exact ⟨16 * 1024, by decide, by decide⟩
    | throughput => exact ⟨64 * 1024, by decide, by decide⟩
  obtain ⟨count, hclamp, hcount⟩ := clamp_spec (show 64 ≤ 262144 by decide)
    (scale balanced.governor.maxConnections (multipliers objective).connections)
  obtain ⟨splice, hclampSplice, hsplices⟩ := clamp_spec (show 1 ≤ 8192 by decide)
    (scale balanced.relay.maxSpliceRelays (multipliers objective).spliceRelays)
  obtain ⟨buffers, hclampBuffers, hbuffers⟩ := clamp_spec (show 2 ≤ 65536 by decide)
    (scale balanced.relay.maxPooledBuffers (multipliers objective).pooledBuffers)
  have hdouble (value : Nat) (h : value ≤ 262144) : saturatingMul value 2 = 2 * value := by
    simp only [saturatingMul, u64Max]
    omega
  obtain ⟨pipes, hpiped⟩ : ∃ pipes, pipes = if balanced.relay.maxPooledPipes = 0 then 0 else 2 * min splice count := ⟨_, rfl⟩
  have hpipes : pipes ≤ 16384 := by
    rw [hpiped]
    split_ifs <;> omega
  have hpm : pipes * mebibyte ≤ 16384 * mebibyte := Nat.mul_le_mul_right _ hpipes
  have hmemory : saturatingMul pipes (2 * 512 * 1024) = pipes * mebibyte := Nat.min_eq_left (hpm.trans (by decide))
  have hneeded : saturatingAdd (pipes * mebibyte) (saturatingMul (min buffers (2 * count)) bytes) =
      pipes * mebibyte + min buffers (2 * count) * bytes := by
    have hbytes : min buffers (2 * count) * bytes ≤ 65536 * 65536 := Nat.mul_le_mul (by omega) hbounds.2
    rw [saturatingMul, Nat.min_eq_left (hbytes.trans (by decide))]
    exact Nat.min_eq_left ((Nat.add_le_add hpm hbytes).trans (by decide))
  obtain ⟨memory, fitted, hrefit, htwo, hcovered, hquarter⟩ := @refit_spec machine count bytes (pipes * mebibyte)
    (max (scale balanced.relay.maxRelayMemoryBytes (multipliers objective).relayMemory)
      (pipes * mebibyte + min buffers (2 * count) * bytes)) (min buffers (2 * count))
    (by omega) hbounds hpm (by omega) (Nat.le_max_right _ _)
  refine ⟨_, (if_neg ho).trans (Option.bind_eq_some_iff.2 ⟨_, hclamp, Option.bind_eq_some_iff.2 ⟨_, if_pos (by decide), Option.bind_eq_some_iff.2
    ⟨_, if_pos (by decide), Option.bind_eq_some_iff.2 ⟨_, htier, Option.bind_eq_some_iff.2 ⟨_, hclampSplice, Option.bind_eq_some_iff.2 ⟨_, hclampBuffers,
    Option.bind_eq_some_iff.2 ⟨(memory, fitted), ?_, rfl⟩⟩⟩⟩⟩⟩⟩), ?_⟩
  · simp only [hdouble count (by omega), hdouble (min splice count) (by omega), ← hpiped, hmemory, hneeded, hrefit]
  constructor
  · exact scaled_figures (h.figures ▸ balancedFigures_ordered machine mode listeners) ho hcount hsplices
  · rfl
  · exact ⟨rfl, rfl⟩
  · dsimp only
    rw [hdouble (min splice count) (by omega), ← hpiped, toU32_eq (show min splice count ≤ 262144 by omega), toU32_eq (by omega), hpiped]
  · exact htwo
  · simp only [RelayPolicy.poolMemory]
    rwa [hdouble (min splice count) (by omega), ← hpiped, toU32_eq (by omega)]
  · dsimp only
    rwa [hdouble (min splice count) (by omega), ← hpiped, toU32_eq (by omega)]

variable (machine mode listeners linux objective overrides)

theorem derive_spec : ∃ policy balanced, derive machine {} mode listeners linux objective overrides = some ⟨policy, balanced⟩ ∧
    Balanced machine mode listeners linux balanced ∧
    (objective = .balanced ∧ policy = balanced ∨ objective ≠ .balanced ∧ Scaled machine objective balanced policy) := by
  obtain ⟨balanced, hbalanced, h⟩ := deriveBalanced_spec machine mode listeners linux overrides
  by_cases ho : objective = .balanced
  · refine ⟨balanced, balanced, ?_, h, .inl ⟨ho, rfl⟩⟩
    simp only [derive, hbalanced, scaleForObjective, if_pos ho]
    rfl
  · obtain ⟨policy, hscaled, hs⟩ := scaleForObjective_spec h ho
    refine ⟨policy, balanced, ?_, h, .inr ⟨ho, hs⟩⟩
    simp only [derive, hbalanced, hscaled, Option.bind_eq_bind, Option.bind_some]
    rfl

/-- The figures of every plan are a function of the machine, the mode, the listeners and the objective. -/
theorem derive_figures : ∃ plan, derive machine {} mode listeners linux objective overrides = some plan ∧
    plan.policy.figures = (balancedFigures machine mode listeners).scale objective ∧
    plan.policy.relay.maxPooledPipes = (if linux then 2 * plan.policy.relay.maxSpliceRelays else 0) ∧
    plan.policy.warmConnections.minReady ≤ plan.policy.warmConnections.maxReady ∧
    plan.policy.relay.splice = linux ∧ plan.policy.relay.pipePool = linux := by
  obtain ⟨policy, balanced, hderive, h, hcases⟩ := derive_spec machine mode listeners linux objective overrides
  have hone := (spliceShare_bounds machine mode listeners).1
  refine ⟨⟨policy, balanced⟩, hderive, ?_⟩
  rcases hcases with ⟨rfl, rfl⟩ | ⟨-, hs⟩
  · refine ⟨h.figures, ?_, h.warm, h.platform⟩
    rw [show policy.relay.maxSpliceRelays = spliceShare machine mode listeners from congrArg Figures.spliceRelays h.figures]
    exact h.pipes
  · refine ⟨h.figures ▸ hs.figures, ?_, hs.warm ▸ h.warm, hs.platform.1.trans h.platform.1, hs.platform.2.trans h.platform.2⟩
    dsimp only
    rw [hs.pipes, h.pipes]
    cases linux
    · rfl
    · exact if_neg (by simp; omega)

/-- For every machine, mode, objective and number of listeners the plan is derived: nothing panics or wraps.
The planned memory covers the planned pipes and buffers; under the balanced objective it keeps to the relay
budget, under the others to a quarter of a known memory or what the pipes and two buffers need. -/
theorem relay_memory_planned :
    ∃ plan budget, derive machine {} mode listeners linux objective overrides = some plan ∧
      SafetyLimits.relayMemoryBudget {} machine.memoryTotalBytes = some budget ∧
      let relay := plan.policy.relay
      relay.poolMemory ≤ relay.maxRelayMemoryBytes ∧ (objective = .balanced → relay.maxRelayMemoryBytes ≤ budget) ∧
      (objective ≠ .balanced → 0 < machine.memoryTotalBytes → relay.maxRelayMemoryBytes ≤
        max (machine.memoryTotalBytes / 4) (relay.maxPooledPipes * mebibyte + 2 * relay.bufferBytes)) ∧
      2 ≤ relay.maxPooledBuffers ∧ 1 ≤ relay.maxSpliceRelays := by
  obtain ⟨policy, balanced, hderive, h, hcases⟩ := derive_spec machine mode listeners linux objective overrides
  have hone := (spliceShare_bounds machine mode listeners).1
  refine ⟨⟨policy, balanced⟩, relayBudget machine, hderive, relayMemoryBudget_eq machine, ?_⟩
  rcases hcases with ⟨ho, rfl⟩ | ⟨ho, hs⟩
  · refine ⟨h.covered, fun _ => h.budget, absurd ho, h.buffers.1, ?_⟩
    exact hone.trans_eq (congrArg Figures.spliceRelays h.figures).symm
  · refine ⟨hs.covered, fun heq => absurd heq ho, fun _ => hs.quarter, hs.buffers, ?_⟩
    refine le_of_le_of_eq ?_ (congrArg Figures.spliceRelays (h.figures ▸ hs.figures)).symm
    cases objective <;> simp only [Figures.scale, balancedFigures] <;> omega

/-- Where the connections are above their floor, they fit into the remaining descriptors together with the splice
relays and the pipes, unless throughput scales them: then they fit exactly if the descriptors would do for half
as many connections again as the memory allows, and for twice the machine's splice relays. -/
theorem descriptors_fit_iff :
    ∃ plan, derive machine {} mode listeners linux objective overrides = some plan ∧
      (64 < plan.policy.governor.maxConnections →
        (plan.policy.descriptors ≤ remainingFds machine {} mode listeners ↔ (objective = .throughput →
          2 * min (memoryConnections machine mode * 3 / 2) 262144 +
            (if linux then 16 else 8) * spliceShare machine mode listeners ≤ remainingFds machine {} mode listeners))) := by
  obtain ⟨plan, hderive, hfigures, hpipes, -⟩ := derive_figures machine mode listeners linux objective overrides
  refine ⟨plan, hderive, fun hfloor => ?_⟩
  have hbounds := connectionShare_bounds machine mode listeners
  have hfits := connectionShare_fits machine mode listeners
  have hcases := connectionShare_cases machine mode listeners
  have hconnections : plan.policy.governor.maxConnections = _ := congrArg Figures.connections hfigures
  have hsplice : plan.policy.relay.maxSpliceRelays = _ := congrArg Figures.spliceRelays hfigures
  rw [EffectivePolicy.descriptors, hpipes, hsplice, hconnections]
  rw [hconnections] at hfloor
  cases objective with
  | balanced =>
    refine iff_of_true ?_ (by rintro ⟨⟩)
    simp only [Figures.scale, balancedFigures] at hfloor ⊢
    split_ifs <;> omega
  | latency =>
    refine iff_of_true ?_ (by rintro ⟨⟩)
    simp only [Figures.scale, balancedFigures] at hfloor ⊢
    split_ifs <;> omega
  | throughput =>
    simp only [Figures.scale, balancedFigures, forall_const]
    split_ifs <;> omega

/-- Four processors, 65536 descriptors and plenty of memory under throughput. -/
theorem throughput_exceeds_descriptors :
    ∃ plan, derive ⟨4, 65536, 65536, 0⟩ {} .standard 1 true .throughput {} = some plan ∧
      64 < plan.policy.governor.maxConnections ∧ remainingFds ⟨4, 65536, 65536, 0⟩ {} .standard 1 < plan.policy.descriptors :=
  ⟨_, rfl, by decide, by decide⟩

end RustReality.Runtime
