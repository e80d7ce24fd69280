import RustReality.Replay.NonceCache

/-!
# What a reload leaves bound

`ensure_hot_compatible` accepts a new configuration for a running process if its listeners have the same
topology: the same addresses, each with the same role and family mode. The native UDP channel of a Handoff
landing is bound beside every listener address and has a port of its own, which the topology does not hold.
-/

namespace RustReality.Production
open Vless Replay

abbrev SocketAddr := IpAddr × UInt16

inductive ListenFamily
  | auto
  | dualStack
  | ipv4Only
  | ipv6Only
  deriving DecidableEq

structure ListenerConfig where
  port : UInt16
  ip : Option ListenFamily
  ipv4 : Option (BitVec 32)
  ipv6 : Option (BitVec 128)

namespace ListenerConfig

variable (self : ListenerConfig)

def family : ListenFamily := self.ip.getD .auto

def bindAddresses : List SocketAddr :=
  (if self.family ≠ .ipv6Only then [(.v4 (self.ipv4.getD 0), self.port)] else []) ++
    if self.family ≠ .ipv4Only then [(.v6 (self.ipv6.getD 0), self.port)] else []

end ListenerConfig

inductive LandingProtocol
  | handoff (maxTimeDifferenceSeconds : Nat) (nonceRetentionSeconds : Option Nat) (udpPort : Option UInt16)
  | nxr (maxTimeDifferenceSeconds : Nat)

inductive NodeRole
  | entry
  | landing (protocol : LandingProtocol)
  | client

/-- A configuration; of its network, resolver and runtime sections only equality matters here. -/
structure NodeConfig (ν δ ρ : Type) where
  role : NodeRole
  listeners : List ListenerConfig
  network : ν
  dns : δ
  runtime : ρ

inductive ListenerRole
  | entry
  | nxr
  | handoff
  deriving DecidableEq

structure ListenerTopology where
  protocol : ListenerRole
  mode : ListenFamily
  deriving DecidableEq

inductive RuntimeUpdateError
  | listenerTopologyChanged
  | networkDialPolicyChanged
  | dnsPolicyChanged
  | replayPolicyChanged
  | resourceModeChanged

def NodeRole.protocol : NodeRole → ListenerRole
  | .landing (.nxr ..) => .nxr
  | .landing (.handoff ..) => .handoff
  | .entry | .client => .entry

def NodeRole.replayRetention : NodeRole → Option Nat
  | .landing (.handoff difference retention _) => some (retention.getD (replayRetentionSeconds difference))
  | .landing (.nxr difference) => some (replayRetentionSeconds difference)
  | .entry | .client => none

inductive Transport
  | tcp
  | udp
  deriving DecidableEq

structure Socket where
  transport : Transport
  protocol : ListenerRole
  address : SocketAddr
  deriving DecidableEq

namespace NodeConfig

variable {ν δ ρ : Type} (self : NodeConfig ν δ ρ)

/-! ### The compatibility check -/

def listenerTopology : List (SocketAddr × ListenerTopology) :=
  self.listeners.flatMap fun listener => listener.bindAddresses.map (·, ⟨self.role.protocol, listener.family⟩)

/-- The entry of the map that `collect` makes of the list: the last one wins. -/
def topologyAt (address : SocketAddr) : Option ListenerTopology := self.listenerTopology.reverse.lookup address

def ensureHotCompatible [DecidableEq ν] [DecidableEq δ] [DecidableEq ρ] (current candidate : NodeConfig ν δ ρ) :
    Except RuntimeUpdateError (NodeConfig ν δ ρ) :=
  if ¬∀ entry ∈ candidate.listenerTopology ++ current.listenerTopology, candidate.topologyAt entry.1 = current.topologyAt entry.1 then
    .error .listenerTopologyChanged
  else if candidate.network ≠ current.network then .error .networkDialPolicyChanged
  else if candidate.dns ≠ current.dns then .error .dnsPolicyChanged
  else if candidate.role.replayRetention ≠ current.role.replayRetention then .error .replayPolicyChanged
  else if candidate.runtime ≠ current.runtime then .error .resourceModeChanged
  else .ok candidate

/-! ### Startup -/

def addresses : List SocketAddr := self.listeners.flatMap ListenerConfig.bindAddresses

/-- The port of the native UDP channel beside a listener. -/
def udpPort (port : UInt16) : Option UInt16 :=
  match self.role with
  | .landing (.handoff _ _ udpPort) => some (udpPort.getD port)
  | _ => none

variable (available : SocketAddr → Bool)

/-- The addresses a start binds on a host where these are available. -/
def bound : List SocketAddr := self.addresses.filter available

def channels : List SocketAddr := (self.bound available).filterMap fun address => (self.udpPort address.2).map (address.1, ·)

/-- The sockets of a start that succeeds; the family mode decides which addresses it can do without. -/
def sockets : List Socket :=
  (self.bound available).map (⟨.tcp, self.role.protocol, ·⟩) ++ (self.channels available).map (⟨.udp, self.role.protocol, ·⟩)

variable {first second : NodeConfig ν δ ρ} {available : SocketAddr → Bool} {address : SocketAddr} {self}

theorem mem_channels : address ∈ self.channels available ↔
    ∃ port, (address.1, port) ∈ self.bound available ∧ self.udpPort port = some address.2 := by
  simp only [channels, List.mem_filterMap, Option.map_eq_some_iff]
  constructor
  · rintro ⟨⟨ip, port⟩, hm, _, hp, rfl⟩
    exact ⟨port, hm, hp⟩
  · rintro ⟨port, hm, hp⟩
    exact ⟨_, hm, _, hp, rfl⟩

theorem udpPort_cases (self : NodeConfig ν δ ρ) :
    (self.role.protocol = .handoff ∧ ∃ fixed : Option UInt16, ∀ port, self.udpPort port = some (fixed.getD port)) ∨
      self.role.protocol ≠ .handoff ∧ ∀ port, self.udpPort port = none := by
  unfold udpPort
  rcases self.role with _ | ⟨⟨_, _, udpPort⟩ | _⟩ | _
  · exact .inr ⟨nofun, fun _ => rfl⟩
  · exact .inl ⟨rfl, udpPort, fun _ => rfl⟩
  · exact .inr ⟨nofun, fun _ => rfl⟩
  · exact .inr ⟨nofun, fun _ => rfl⟩

theorem map_fst_listenerTopology : self.listenerTopology.map Prod.fst = self.addresses := by
  simp [listenerTopology, addresses, List.map_flatMap, Function.comp_def]

theorem mem_addresses : address ∈ self.addresses ↔ ∃ topology, self.topologyAt address = some topology := by
  rw [← map_fst_listenerTopology, topologyAt, ← Option.isSome_iff_exists, List.lookup_isSome_iff]
  simp only [List.mem_map, List.mem_reverse, beq_iff_eq, @eq_comm _ address]

theorem protocol_of_topologyAt {topology : ListenerTopology} (h : self.topologyAt address = some topology) :
    topology.protocol = self.role.protocol := by
  obtain ⟨_, _, hl, -⟩ := List.lookup_eq_some_iff.1 h
  have hm : (address, topology) ∈ self.listenerTopology := List.mem_reverse.1 (hl ▸ by simp)
  simp only [listenerTopology, List.mem_flatMap, List.mem_map, Prod.mk.injEq] at hm
  obtain ⟨_, _, _, _, _, rfl⟩ := hm
  rfl

section Compatible

variable [DecidableEq ν] [DecidableEq δ] [DecidableEq ρ] (hc : ensureHotCompatible first second = .ok second)
include hc

theorem topologyAt_of_compatible (ha : address ∈ second.addresses ∨ address ∈ first.addresses) :
    second.topologyAt address = first.topologyAt address := by
  unfold ensureHotCompatible at hc
  split_ifs at hc with ht
  rw [← map_fst_listenerTopology, ← map_fst_listenerTopology, ← List.mem_append, ← List.map_append] at ha
  obtain ⟨entry, he, rfl⟩ := List.mem_map.1 ha
  exact ht entry he

theorem mem_bound_of_compatible : address ∈ second.bound available ↔ address ∈ first.bound available := by
  rw [bound, bound, List.mem_filter, List.mem_filter]
  refine and_congr_left fun _ => ⟨fun h => ?_, fun h => ?_⟩
  · rw [mem_addresses, ← topologyAt_of_compatible hc (.inl h)]
    exact mem_addresses.1 h
  · rw [mem_addresses, topologyAt_of_compatible hc (.inr h)]
    exact mem_addresses.1 h

theorem protocol_of_compatible (ha : address ∈ second.bound available) : second.role.protocol = first.role.protocol := by
  have hm := (List.mem_filter.1 ha).1
  obtain ⟨topology, ht⟩ := mem_addresses.1 hm
  rw [← protocol_of_topologyAt ht]
  rw [topologyAt_of_compatible hc (.inl hm)] at ht
  exact protocol_of_topologyAt ht

/-- The channels are the same only if every listener has its channel on the same port. -/
theorem udpPort_of_channels (h : ∀ address, address ∈ second.channels available ↔ address ∈ first.channels available)
    (ha : address ∈ second.bound available) : second.udpPort address.2 = first.udpPort address.2 := by
  have hp := protocol_of_compatible hc ha
  have hm := (mem_bound_of_compatible hc).1 ha
  rcases udpPort_cases second with ⟨hr, fixed, hu⟩ | ⟨hr, hu⟩ <;> rcases udpPort_cases first with ⟨hr', fixed', hu'⟩ | ⟨hr', hu'⟩
  · obtain ⟨new, -, hn⟩ := mem_channels.1 ((h (address.1, fixed.getD address.2)).1 (mem_channels.2 ⟨address.2, ha, hu _⟩))
    obtain ⟨old, -, ho⟩ := mem_channels.1 ((h (address.1, fixed'.getD address.2)).2 (mem_channels.2 ⟨address.2, hm, hu' _⟩))
    rw [hu'] at hn
    rw [hu] at ho
    rw [hu, hu']
    -- one of the two ports is fixed, or both are the listener's own
    cases fixed with
    | none =>
      cases fixed' with
      | none => rfl
      | some => exact hn.symm
    | some =>
      cases fixed' with
      | none => exact ho
      | some => exact hn.symm
  · exact absurd (hp.symm.trans hr) hr'
  · exact absurd (hp.trans hr') hr
  · rw [hu, hu']

/-- After an accepted reload a fresh start would bind what the process has bound exactly if the native UDP channel
beside every bound address has the same port. -/
theorem sockets_kept_iff : (∀ socket, socket ∈ second.sockets available ↔ socket ∈ first.sockets available) ↔
    ∀ address ∈ second.bound available, second.udpPort address.2 = first.udpPort address.2 := by
  constructor
  · intro h address ha
    have hp := protocol_of_compatible hc ha
    refine udpPort_of_channels hc (fun other => ?_) ha
    simpa [sockets, hp] using h ⟨.udp, first.role.protocol, other⟩
  · intro h
    have hch (address : SocketAddr) : address ∈ second.channels available ↔ address ∈ first.channels available := by
      rw [mem_channels, mem_channels]
      refine exists_congr fun port => ?_
      rw [mem_bound_of_compatible hc]
      exact and_congr_right fun hm => by rw [h _ ((mem_bound_of_compatible hc).2 hm)]
    intro socket
    rw [sockets, sockets, List.mem_append, List.mem_append, List.mem_map, List.mem_map, List.mem_map, List.mem_map]
    refine or_congr (exists_congr fun address => ?_) (exists_congr fun address => ?_)
    · rw [mem_bound_of_compatible hc]
      exact and_congr_right fun hm => by rw [protocol_of_compatible hc ((mem_bound_of_compatible hc).2 hm)]
    · rw [hch]
      refine and_congr_right fun hm => ?_
      obtain ⟨port, hb, -⟩ := mem_channels.1 hm
      rw [protocol_of_compatible hc ((mem_bound_of_compatible hc).2 hb)]

end Compatible

theorem explicit_udp_port_keeps_sockets :
    let node (udpPort : Option UInt16) : NodeConfig Unit Unit Unit :=
      ⟨.landing (.handoff 30 none udpPort), [⟨8443, none, none, none⟩], (), (), ()⟩
    ∀ socket, socket ∈ (node (some 8443)).sockets (fun _ => true) ↔ socket ∈ (node none).sockets (fun _ => true) :=
  (sockets_kept_iff rfl).2 (by decide)

/-- A Handoff landing whose UDP port was left to its listener is given another one. -/
theorem udp_port_moves :
    let node (udpPort : Option UInt16) : NodeConfig Unit Unit Unit :=
      ⟨.landing (.handoff 30 none udpPort), [⟨8443, some .ipv4Only, none, none⟩], (), (), ()⟩
    ensureHotCompatible (node none) (node (some 9000)) = .ok (node (some 9000)) ∧
      (node none).sockets (fun _ => true) = [⟨.tcp, .handoff, (.v4 0, 8443)⟩, ⟨.udp, .handoff, (.v4 0, 8443)⟩] ∧
      (node (some 9000)).sockets (fun _ => true) = [⟨.tcp, .handoff, (.v4 0, 8443)⟩, ⟨.udp, .handoff, (.v4 0, 9000)⟩] :=
  ⟨rfl, rfl, rfl⟩

end NodeConfig

end RustReality.Production
