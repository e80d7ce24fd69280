import RustReality.Vless.Types

/-!
# Compiled routing rules

Matchers and condition groups of a compiled rule, and the ordered scan that takes the first rule
whose groups all match. Regular expressions and asset sets are arbitrary predicates.
-/

namespace RustReality.Routing
open Vless

inductive AssetSource
  | geoSite
  | geoIp
  | external (file : Bytes)
  deriving DecidableEq, Repr

structure AssetMatcher where
  matchesDomain : AssetSource → Bytes → Bytes → Bool
  matchesIp : AssetSource → Bytes → IpAddr → Bool

structure RouteContext where
  userId : UserId
  destination : Destination
  resolvedIps : List IpAddr

def toAsciiLowercase (b : UInt8) : UInt8 := if 65 ≤ b ∧ b ≤ 90 then b + 32 else b

def normalizedDomain (destination : Destination) : Option Bytes :=
  match destination.address with
  | .domain name => some (name.bytes.map toAsciiLowercase)
  | .ipv4 _ => none
  | .ipv6 _ => none

/-! ### Domain matchers -/

/-- A compiled case-insensitive regular expression. -/
structure Regex where
  isMatch : Bytes → Bool

inductive DomainMatcher
  | full (value : Bytes)
  | suffix (value : Bytes)
  | keyword (value : Bytes)
  | regex (expression : Regex)
  | asset (source : AssetSource) (label : Bytes)

def dot : UInt8 := 46

def windows (n : Nat) (text : Bytes) : List Bytes :=
  (List.range (text.length + 1 - n)).map fun i => (text.drop i).take n

def keywordMatches (domain needle : Bytes) : Bool :=
  needle.isEmpty || (windows needle.length domain).any (· == needle)

def domainSuffixMatches (domain suffix : Bytes) : Bool :=
  domain == suffix ||
    (decide (domain.length > suffix.length) && suffix.isSuffixOf domain &&
      domain[domain.length - suffix.length - 1]? == some dot)

section
open List

theorem domainSuffixMatches_iff {domain suffix : Bytes} :
    domainSuffixMatches domain suffix = true ↔
      domain = suffix ∨ ∃ before, domain = before ++ dot :: suffix := by
  simp only [domainSuffixMatches, Bool.or_eq_true, beq_iff_eq, Bool.and_eq_true, decide_eq_true_eq,
    isSuffixOf_iff_suffix]
  refine or_congr_right ⟨?_, ?_⟩
  · rintro ⟨⟨hl, before, rfl⟩, hd⟩
    rw [length_append, Nat.add_sub_cancel] at hd
    obtain ⟨init, c, rfl⟩ := eq_nil_or_concat' before |>.resolve_left (by rintro rfl; simp at hl)
    have hc : c = dot := by simpa using hd
    exact ⟨init, by simp [hc]⟩
  · rintro ⟨before, rfl⟩
    refine ⟨⟨by simp; omega, before ++ [dot], by simp⟩, ?_⟩
    have hi : (before ++ dot :: suffix).length - suffix.length - 1 = before.length := by
      simp only [length_append, length_cons]
      omega
    rw [hi, getElem?_append_right (Nat.le_refl _), Nat.sub_self]
    rfl

theorem keywordMatches_iff {domain needle : Bytes} :
    keywordMatches domain needle = true ↔ ∃ before after, domain = before ++ needle ++ after := by
  rw [keywordMatches, Bool.or_eq_true, List.isEmpty_iff, List.any_eq_true]
  constructor
  · rintro (rfl | ⟨window, hm, heq⟩)
    · exact ⟨[], domain, rfl⟩
    · obtain ⟨i, -, rfl⟩ := mem_map.mp hm
      have hc : (domain.drop i).take needle.length = needle := beq_iff_eq.mp heq
      refine ⟨domain.take i, domain.drop (i + needle.length), ?_⟩
      calc domain = domain.take i ++ domain.drop i := (take_append_drop i domain).symm
        _ = domain.take i ++ ((domain.drop i).take needle.length ++ (domain.drop i).drop needle.length) :=
          congrArg _ (take_append_drop _ _).symm
        _ = domain.take i ++ needle ++ domain.drop (i + needle.length) := by
          rw [hc, drop_drop, append_assoc]
  · rintro ⟨before, after, rfl⟩
    refine .inr ⟨needle, mem_map.mpr ⟨before.length, mem_range.mpr ?_, ?_⟩, beq_self_eq_true needle⟩
    · simp only [length_append]
      omega
    · rw [append_assoc, drop_left, take_left]

end

namespace DomainMatcher

def isIndexable : DomainMatcher → Bool
  | .full _ => true
  | .suffix _ => true
  | .keyword value => !value.isEmpty
  | .regex _ => false
  | .asset _ _ => false

def «matches» (self : DomainMatcher) (domain : Bytes) (assets : AssetMatcher) : Bool :=
  match self with
  | .full value => domain == value
  | .suffix value => domainSuffixMatches domain value
  | .keyword value => keywordMatches domain value
  | .regex expression => expression.isMatch domain
  | .asset source label => assets.matchesDomain source label domain

end DomainMatcher

/-! ### Address and port matchers -/

def prefixMask (w n : Nat) : BitVec w :=
  if n = 0 then 0 else BitVec.allOnes w <<< (w - n)

inductive IpNetwork
  | v4 (network : BitVec 32) (length : Fin 33)
  | v6 (network : BitVec 128) (length : Fin 129)
  deriving DecidableEq, Repr

def IpNetwork.contains : IpNetwork → IpAddr → Bool
  | .v4 network length, .v4 address => (address &&& prefixMask 32 length) == network
  | .v6 network length, .v6 address => (address &&& prefixMask 128 length) == network
  | .v4 _ _, .v6 _ => false
  | .v6 _ _, .v4 _ => false

inductive IpMatcher
  | network (range : IpNetwork)
  | asset (source : AssetSource) (label : Bytes)
  deriving DecidableEq, Repr

def IpMatcher.matches (self : IpMatcher) (address : IpAddr) (assets : AssetMatcher) : Bool :=
  match self with
  | .network range => range.contains address
  | .asset source label => assets.matchesIp source label address

structure PortRange where
  start : UInt16
  stop : UInt16
  deriving DecidableEq, Repr

def PortRange.contains (self : PortRange) (port : UInt16) : Bool := self.start ≤ port && port ≤ self.stop

def destinationIps (context : RouteContext) : List IpAddr :=
  let immediate := match context.destination.address with
    | .ipv4 bits => [.v4 bits]
    | .ipv6 bits => [.v6 bits]
    | .domain _ => []
  immediate ++ context.resolvedIps

/-! ### Rules -/

structure CompiledRule where
  name : String
  outbound : String
  domains : List DomainMatcher
  residualDomains : List DomainMatcher
  ips : List IpMatcher
  ports : List PortRange
  residual_eq : residualDomains = domains.filter fun matcher => !matcher.isIndexable

namespace CompiledRule

/-- `CompiledRule::compile` after the matchers of each group are compiled. -/
def compile (name outbound : String) (domains : List DomainMatcher) (ips : List IpMatcher)
    (ports : List PortRange) : CompiledRule :=
  { name, outbound, domains
    residualDomains := domains.filter fun matcher => !matcher.isIndexable
    ips, ports
    residual_eq := rfl }

variable (self : CompiledRule)

def domainGroupMatches (domain : Option Bytes) (assets : AssetMatcher) : Bool :=
  if self.domains.isEmpty then true
  else
    match domain with
    | none => false
    | some domain => self.domains.any fun matcher => matcher.matches domain assets

/-- The domain group on the indexed path: an index hit settles it, otherwise only the matchers that
are not indexable are evaluated. -/
def indexedDomainMatches (hit : Bool) (domain : Option Bytes) (assets : AssetMatcher) : Bool :=
  if self.domains.isEmpty || hit then true
  else
    match domain with
    | none => false
    | some domain => self.residualDomains.any fun matcher => matcher.matches domain assets

variable (context : RouteContext)

def ipGroupMatches (assets : AssetMatcher) : Bool :=
  self.ips.isEmpty ||
    (destinationIps context).any fun address => self.ips.any fun matcher => matcher.matches address assets

def staticGroupsMatch : Bool :=
  self.ports.isEmpty || self.ports.any fun range => range.contains context.destination.port

def «matches» (domain : Option Bytes) (assets : AssetMatcher) : Bool :=
  self.domainGroupMatches domain assets && self.ipGroupMatches context assets &&
    self.staticGroupsMatch context

def matchesIndexed (hit : Bool) (context : RouteContext) (domain : Option Bytes) (assets : AssetMatcher) : Bool :=
  self.indexedDomainMatches hit domain assets && self.ipGroupMatches context assets &&
    self.staticGroupsMatch context

end CompiledRule

end RustReality.Routing
