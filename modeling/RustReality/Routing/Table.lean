import RustReality.Routing.Index

/-!
# The routing table

Global rules come first, then the rules of the user's policy, then the default of that policy. A
domain is resolved only when an address condition needs it: under the resolve-if-no-match strategy a
first pass leaves the address conditions out, and the rules that wait for addresses are checked in
order once DNS has answered. The resolver is a script of answers.
-/

namespace RustReality.Routing
open Vless

inductive RouteScope
  | global
  | policy
  | defaultOutbound
  deriving DecidableEq, Repr

structure RouteDecision where
  outbound : String
  ruleName : String
  scope : RouteScope
  deriving DecidableEq, Repr

inductive DomainStrategy
  | asIs
  | resolveIfNoMatch
  | resolveOnDemand
  deriving DecidableEq, Repr

inductive RouteResolutionError
  | unknownUser
  | dnsTimeout
  | dnsLimit
  | dns
  | noAddresses
  | tooManyAddresses
  | allocation
  deriving DecidableEq, Repr

/-! ### DNS -/

def maxResolvedIps : Nat := 64

/-- What the resolver answers to one lookup after the other: addresses, or the refusal, timeout or
failure that kept it from answering. -/
abbrev Lookups := List (Except RouteResolutionError (List IpAddr))

/-- Keep the first occurrence of every address, at most `maxResolvedIps` of them. -/
def collectIps : List IpAddr → List IpAddr → Except RouteResolutionError (List IpAddr)
  | [], resolved => if resolved = [] then .error .noAddresses else .ok resolved
  | ip :: addresses, resolved =>
    if ip ∈ resolved then collectIps addresses resolved
    else if resolved.length = maxResolvedIps then .error .tooManyAddresses
    else collectIps addresses (resolved ++ [ip])

def resolveDomain (parseIp : Bytes → Option IpAddr) (destination : Destination) (lookups : Lookups) :
    Lookups × Except RouteResolutionError (List IpAddr) :=
  match destination.address with
  | .ipv4 _ => (lookups, .ok [])
  | .ipv6 _ => (lookups, .ok [])
  | .domain domain =>
    match parseIp domain.bytes with
    | some ip => (lookups, .ok [ip])
    | none =>
      match lookups with
      | [] => ([], .error .dnsTimeout)
      | .error error :: lookups => (lookups, .error error)
      | .ok addresses :: lookups => (lookups, collectIps addresses [])

/-! ### Rules without their address conditions -/

namespace CompiledRule

variable (self : CompiledRule)

def matchesBesidesIp (context : RouteContext) (domain : Option Bytes) (assets : AssetMatcher) : Bool :=
  self.domainGroupMatches domain assets && self.staticGroupsMatch context

def matchesBesidesIpIndexed (hit : Bool) (context : RouteContext) (domain : Option Bytes)
    (assets : AssetMatcher) : Bool :=
  self.indexedDomainMatches hit domain assets && self.staticGroupsMatch context

def decision (scope : RouteScope) : RouteDecision := ⟨self.outbound, self.name, scope⟩

end CompiledRule

/-- The first rule without address conditions decides; the rules in front of it wait for addresses. -/
def firstBesidesIp : List CompiledRule → List CompiledRule × Option CompiledRule
  | [] => ([], none)
  | rule :: rules =>
    if rule.ips.isEmpty then ([], some rule)
    else
      let (pending, found) := firstBesidesIp rules
      (rule :: pending, found)

def collectBesidesIp (aho : AhoCorasick) (rules : List CompiledRule) (index : Option RuleIndex) (context : RouteContext)
    (domain : Option Bytes) (assets : AssetMatcher) : List CompiledRule × Option CompiledRule :=
  match index with
  | none => firstBesidesIp (rules.filter fun rule => rule.matchesBesidesIp context domain assets)
  | some index =>
    firstBesidesIp ((index.orderedCandidates aho domain).toList.filterMap fun (position, hit) =>
      rules[position]?.filter fun rule => rule.matchesBesidesIpIndexed hit context domain assets)

/-! ### The table -/

structure CompiledUserPolicy where
  name : String
  defaultOutbound : String
  rules : List CompiledRule
  index : Option RuleIndex
  hasIpRules : Bool

def CompiledUserPolicy.defaultDecision (self : CompiledUserPolicy) : RouteDecision :=
  ⟨self.defaultOutbound, self.name, .defaultOutbound⟩

structure RoutingTable where
  globalRules : List CompiledRule
  globalIndex : Option RuleIndex
  users : UserId → Option CompiledUserPolicy
  assets : AssetMatcher
  globalHasIpRules : Bool

structure ResolvedRoute where
  decision : RouteDecision
  resolvedIps : List IpAddr
  deriving DecidableEq

namespace RoutingTable

variable (aho : AhoCorasick) (parseIp : Bytes → Option IpAddr) (self : RoutingTable)

def selectForUser (context : RouteContext) (domain : Option Bytes) (user : CompiledUserPolicy) : RouteDecision :=
  match selectFromRules aho self.globalRules self.globalIndex context domain self.assets with
  | some rule => rule.decision .global
  | none =>
    match selectFromRules aho user.rules user.index context domain self.assets with
    | some rule => rule.decision .policy
    | none => user.defaultDecision

/-- The first pass: the decision that needs no addresses, and the rules that wait for them. -/
def selectBesidesIp (context : RouteContext) (domain : Option Bytes) (user : CompiledUserPolicy) :
    List (CompiledRule × RouteScope) × Option (CompiledRule × RouteScope) :=
  match collectBesidesIp aho self.globalRules self.globalIndex context domain self.assets with
  | (pending, some rule) => (pending.map (·, .global), some (rule, .global))
  | (pending, none) =>
    match collectBesidesIp aho user.rules user.index context domain self.assets with
    | (more, found) => (pending.map (·, .global) ++ more.map (·, .policy), found.map (·, .policy))

def selectWithDns (userId : UserId) (destination : Destination) (strategy : DomainStrategy)
    (lookups : Lookups) : Lookups × Except RouteResolutionError ResolvedRoute :=
  match self.users userId with
  | none => (lookups, .error .unknownUser)
  | some user =>
    let needsIp := self.globalHasIpRules || user.hasIpRules
    let unresolved : RouteContext := ⟨userId, destination, []⟩
    let domain := normalizedDomain destination
    if domain.isNone ∨ strategy = .asIs ∨ needsIp = false then
      (lookups, .ok ⟨self.selectForUser aho unresolved domain user, []⟩)
    else if strategy = .resolveIfNoMatch then
      match self.selectBesidesIp aho unresolved domain user with
      | (_, some (rule, scope)) => (lookups, .ok ⟨rule.decision scope, []⟩)
      | (pending, none) =>
        match resolveDomain parseIp destination lookups with
        | (lookups, .error error) => (lookups, .error error)
        | (lookups, .ok resolvedIps) =>
          let resolved : RouteContext := ⟨userId, destination, resolvedIps⟩
          match pending.find? fun (rule, _) => rule.ipGroupMatches resolved self.assets with
          | some (rule, scope) => (lookups, .ok ⟨rule.decision scope, resolvedIps⟩)
          | none => (lookups, .ok ⟨user.defaultDecision, resolvedIps⟩)
    else
      match resolveDomain parseIp destination lookups with
      | (lookups, .error error) => (lookups, .error error)
      | (lookups, .ok resolvedIps) =>
        (lookups, .ok ⟨self.selectForUser aho ⟨userId, destination, resolvedIps⟩ domain user, resolvedIps⟩)

end RoutingTable

end RustReality.Routing
