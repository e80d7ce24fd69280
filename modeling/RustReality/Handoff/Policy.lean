import RustReality.Handoff.BlobRoundTrip
import RustReality.Routing.Rules

/-!
# What a handed-off policy authorizes

LANDING checks every UDP destination of a session against the sealed snapshot: the initial destination
is allowed, any other one only by the first rule that matches it or, where none does, by the default.
A snapshot authorizes nothing that its body does not carry: the body is the one spelling of its fields,
and what a rule covers is said condition by condition.
-/

namespace RustReality.Handoff
open HandoffPolicySnapshot Vless Cursor

namespace SealedDomainMatcher

def «matches» (self : SealedDomainMatcher) (domain : Bytes) : Bool :=
  let domain := domain.map Routing.toAsciiLowercase
  match self with
  | .full value => domain == value.bytes
  | .suffix value => Routing.domainSuffixMatches domain value.bytes
  | .keyword value => Routing.keywordMatches domain value.bytes

end SealedDomainMatcher

def SealedIpNetwork.contains : SealedIpNetwork → IpAddr → Bool
  | .v4 network prefixLen, .v4 address =>
    (address &&& Routing.prefixMask 32 prefixLen.toNat) == (network &&& Routing.prefixMask 32 prefixLen.toNat)
  | .v6 network prefixLen, .v6 address =>
    (address &&& Routing.prefixMask 128 prefixLen.toNat) == (network &&& Routing.prefixMask 128 prefixLen.toNat)
  | .v4 _ _, .v6 _ | .v6 _ _, .v4 _ => false

def SealedPortRange.contains (self : SealedPortRange) (port : UInt16) : Bool := self.start ≤ port && port ≤ self.stop

/-- All groups of a rule have to match; an empty group matches any destination. -/
def SealedHandoffRouteRule.matches (self : SealedHandoffRouteRule) (destination : Destination) : Bool :=
  let portOk := self.ports.isEmpty || self.ports.any (·.contains destination.port)
  let domainOk := self.domains.isEmpty ||
    match destination.address with
    | .domain domain => self.domains.any (·.matches domain.bytes)
    | .ipv4 _ | .ipv6 _ => false
  let ipOk := self.ips.isEmpty ||
    match destination.address with
    | .ipv4 bits => self.ips.any (·.contains (.v4 bits))
    | .ipv6 bits => self.ips.any (·.contains (.v6 bits))
    | .domain _ => false
  portOk && domainOk && ipOk

namespace HandoffPolicySnapshot

def authorizeRules (destination : Destination) (defaultAllow : Bool) :
    List SealedHandoffRouteRule → Except HandoffError Unit
  | [] => if defaultAllow then .ok () else .error .state
  | rule :: rules =>
    if rule.matches destination then if rule.allow then .ok () else .error .state
    else authorizeRules destination defaultAllow rules

def authorizeUdpDestination (self : HandoffPolicySnapshot) (destination : Destination) : Except HandoffError Unit :=
  if destination = self.initialDestination then .ok ()
  else if !self.allowDestinationRewrites then .error .state
  else authorizeRules destination self.defaultAllow self.rules

end HandoffPolicySnapshot

/-! ### What a rule covers -/

/-- A name is compared in lower case: whole, up to a dot before it, or anywhere. -/
def SealedDomainMatcher.Covers (self : SealedDomainMatcher) (domain : Bytes) : Prop :=
  let name := domain.map Routing.toAsciiLowercase
  match self with
  | .full value => name = value.bytes
  | .suffix value => name = value.bytes ∨ ∃ before, name = before ++ Routing.dot :: value.bytes
  | .keyword value => ∃ before after, name = before ++ value.bytes ++ after

/-- The address is of the family of the network and has its first `prefixLen` bits. -/
def SealedIpNetwork.Covers : SealedIpNetwork → Address → Prop
  | .v4 network prefixLen, .ipv4 address => address >>> (32 - prefixLen.toNat) = network >>> (32 - prefixLen.toNat)
  | .v6 network prefixLen, .ipv6 address => address >>> (128 - prefixLen.toNat) = network >>> (128 - prefixLen.toNat)
  | .v4 _ _, .domain _ | .v4 _ _, .ipv6 _ | .v6 _ _, .domain _ | .v6 _ _, .ipv4 _ => False

structure SealedHandoffRouteRule.Covers (rule : SealedHandoffRouteRule) (destination : Destination) : Prop where
  ports : rule.ports = [] ∨ ∃ range ∈ rule.ports, range.start ≤ destination.port ∧ destination.port ≤ range.stop
  domains : rule.domains = [] ∨
    ∃ name, destination.address = .domain name ∧ ∃ matcher ∈ rule.domains, matcher.Covers name.bytes
  ips : rule.ips = [] ∨ ∃ network ∈ rule.ips, network.Covers destination.address

theorem SealedDomainMatcher.matches_iff (self : SealedDomainMatcher) (domain : Bytes) :
    self.matches domain = true ↔ self.Covers domain := by
  cases self with
  | full value => exact beq_iff_eq
  | suffix value => exact Routing.domainSuffixMatches_iff
  | keyword value => exact Routing.keywordMatches_iff

theorem and_prefixMask_eq_iff {w : Nat} (n : Nat) (address network : BitVec w) :
    address &&& Routing.prefixMask w n = network &&& Routing.prefixMask w n ↔ address >>> (w - n) = network >>> (w - n) := by
  have hmask : Routing.prefixMask w n = BitVec.allOnes w <<< (w - n) := by
    unfold Routing.prefixMask
    split_ifs with hn
    · rw [hn]
      exact (BitVec.shiftLeft_eq_zero (Nat.le_refl w)).symm
    · rfl
  -- shifting the low bits out and back in clears them
  rw [hmask, ← BitVec.shiftLeft_ushiftRight, ← BitVec.shiftLeft_ushiftRight]
  refine ⟨fun h => ?_, fun h => by rw [h]⟩
  ext i hi
  have hbit := congrArg (fun bits => bits.getLsbD (w - n + i)) h
  by_cases hlt : w - n + i < w
  · simpa [hlt] using hbit
  · simp [BitVec.getLsbD_of_ge _ _ (Nat.le_of_not_lt hlt)]

theorem SealedIpNetwork.contains_iff (self : SealedIpNetwork) (ip : IpAddr) :
    self.contains ip = true ↔ self.Covers (match ip with | .v4 bits => .ipv4 bits | .v6 bits => .ipv6 bits) := by
  cases self <;> cases ip <;> simp [contains, Covers, and_prefixMask_eq_iff]

theorem SealedHandoffRouteRule.matches_iff (rule : SealedHandoffRouteRule) (destination : Destination) :
    rule.matches destination = true ↔ rule.Covers destination := by
  have hports : (rule.ports.any fun range => range.contains destination.port) = true ↔
      ∃ range ∈ rule.ports, range.start ≤ destination.port ∧ destination.port ≤ range.stop := by
    simp [SealedPortRange.contains]
  obtain ⟨address, port⟩ := destination
  constructor
  · intro h
    simp only [SealedHandoffRouteRule.matches, Bool.and_eq_true, Bool.or_eq_true, List.isEmpty_iff, hports] at h
    refine ⟨h.1.1, h.1.2.imp_right fun hd => ?_, h.2.imp_right fun hi => ?_⟩
    · cases address <;> simp_all [SealedDomainMatcher.matches_iff]
    · cases address <;> simp_all [SealedIpNetwork.contains_iff]
  · intro h
    simp only [SealedHandoffRouteRule.matches, Bool.and_eq_true, Bool.or_eq_true, List.isEmpty_iff, hports]
    refine ⟨⟨h.ports, h.domains.imp_right fun hd => ?_⟩, h.ips.imp_right fun hi => ?_⟩
    · obtain ⟨name, rfl, hd⟩ := hd
      simpa [SealedDomainMatcher.matches_iff] using hd
    · obtain ⟨network, hm, hc⟩ := hi
      cases address with
      | domain name => cases network <;> exact hc.elim
      | ipv4 bits => exact List.any_eq_true.mpr ⟨network, hm, (network.contains_iff _).mpr hc⟩
      | ipv6 bits => exact List.any_eq_true.mpr ⟨network, hm, (network.contains_iff _).mpr hc⟩

/-! ### The carried authority -/

structure RuleSection where
  rules : List SealedHandoffRouteRule
  defaultAllow : Bool

/-- The first rule that covers the destination decides, and the default where none does. -/
inductive RuleSection.Allows (destination : Destination) : RuleSection → Prop
  | first {rule : SealedHandoffRouteRule} (rules : List SealedHandoffRouteRule) (defaultAllow : Bool)
      (hcovers : rule.Covers destination) (hallow : rule.allow = true) : Allows destination ⟨rule :: rules, defaultAllow⟩
  | later {rule : SealedHandoffRouteRule} {rules : List SealedHandoffRouteRule} {defaultAllow : Bool}
      (hcovers : ¬rule.Covers destination) (hrest : Allows destination ⟨rules, defaultAllow⟩) :
      Allows destination ⟨rule :: rules, defaultAllow⟩
  | default : Allows destination ⟨[], true⟩

/-- What the body of a snapshot carries, field by field. A body of the old version and one whose flag
forbids rewrites carry no rule section. -/
inductive Carries : Bytes → Destination → Option RuleSection → Prop
  | old (flag : Bool) (initial : Destination) :
      Carries (handoffPolicySnapshotVersionV1 :: flagByte flag :: (encodeAddress initial ++ portBytes initial.port))
        initial none
  | sealed (flag defaultAllow : Bool) (initial : Destination) {rules : List SealedHandoffRouteRule} {ruleBytes : Bytes}
      (hrules : encodeCounted encodeSealedRule rules = .ok ruleBytes) :
      Carries (handoffPolicySnapshotVersion :: flagByte flag :: flagByte defaultAllow ::
        (encodeAddress initial ++ portBytes initial.port ++ ruleBytes))
        initial (if flag then some ⟨rules, defaultAllow⟩ else none)

theorem authorizeRules_ok_iff (destination : Destination) (carried : RuleSection) :
    authorizeRules destination carried.defaultAllow carried.rules = .ok () ↔ carried.Allows destination := by
  obtain ⟨rules, defaultAllow⟩ := carried
  induction rules with
  | nil =>
    cases defaultAllow with
    | false => constructor <;> intro h <;> cases h
    | true => exact ⟨fun _ => .default, fun _ => rfl⟩
  | cons rule rules ih =>
    show (if rule.matches destination then if rule.allow then _ else _ else _) = _ ↔ _
    by_cases hcovers : rule.Covers destination
    · rw [if_pos ((rule.matches_iff destination).mpr hcovers)]
      cases hallow : rule.allow with
      | false =>
        refine ⟨by rintro ⟨⟩, fun h => ?_⟩
        cases h with
        | first _ _ _ ha => rw [ha] at hallow; cases hallow
        | later hc _ => exact absurd hcovers hc
      | true => exact ⟨fun _ => .first rules defaultAllow hcovers hallow, fun _ => rfl⟩
    · rw [if_neg fun h => hcovers ((rule.matches_iff destination).mp h)]
      refine ih.trans ⟨.later hcovers, fun h => ?_⟩
      cases h with
      | first _ _ hc _ => exact absurd hc hcovers
      | later _ hrest => exact hrest

theorem RuleSection.Allows.derived {carried : RuleSection} {destination : Destination}
    (h : carried.Allows destination) : (carried.defaultAllow || carried.rules.any (·.allow)) = true := by
  induction h with
  | first _ _ _ hallow => simp [hallow]
  | later _ _ ih =>
    simp only [Bool.or_eq_true, List.any_cons] at ih ⊢
    exact ih.imp_right .inr
  | default => rfl

theorem authorize_xudpInitial_iff (initial destination : Destination) :
    (xudpInitial initial).authorizeUdpDestination destination = .ok () ↔ destination = initial := by
  by_cases heq : destination = initial <;>
    simp [authorizeUdpDestination, xudpInitial, heq]

theorem authorize_xudpWithSealedRules_iff (initial destination : Destination) (carried : RuleSection) :
    (xudpWithSealedRules initial carried.rules carried.defaultAllow).authorizeUdpDestination
      destination = .ok () ↔ destination = initial ∨ carried.Allows destination := by
  by_cases heq : destination = initial
  · simp [authorizeUdpDestination, xudpWithSealedRules, heq]
  · rw [← authorizeRules_ok_iff]
    cases hd : (carried.defaultAllow || carried.rules.any (·.allow)) with
    | true => simp [authorizeUdpDestination, xudpWithSealedRules, heq, hd]
    | false =>
      have hn : ¬ carried.Allows destination := fun h => by simp [h.derived] at hd
      rw [← authorizeRules_ok_iff] at hn
      simp [authorizeUdpDestination, xudpWithSealedRules, heq, hd, hn]

/-! ### What the body carries -/

theorem decodePolicyBody_ok {body after : Bytes} {policy : HandoffPolicySnapshot}
    (h : decodePolicyBody body = .ok (policy, after)) :
    ∃ initial carried, Carries body initial carried ∧ ∀ destination,
      policy.authorizeUdpDestination destination = .ok () ↔
        destination = initial ∨ ∃ rules ∈ carried, rules.Allows destination := by
  obtain ⟨version, fields, hversion, hfields⟩ := ok_of_bind_cursor h
  obtain ⟨_, rfl, rfl⟩ := spells_takeU8 _ _ _ hversion
  split_ifs at hfields with hold hnew
  · subst hold
    obtain ⟨flag, rest, hflag, hfields⟩ := ok_of_bind_cursor hfields
    obtain ⟨initial, rest', hinitial, hfields⟩ := ok_of_bind_cursor hfields
    obtain ⟨_, _, hfinish, hfields⟩ := ok_of_bind_cursor hfields
    cases finish_ok hfinish
    cases hfields
    obtain ⟨_, rfl, rfl⟩ := spells_decodeFlag _ _ _ hflag
    obtain ⟨_, rfl, rfl, -⟩ := spells_decodeDestination _ _ _ hinitial
    refine ⟨initial, none, ?_, fun destination => by simp [authorize_xudpInitial_iff]⟩
    rw [List.append_nil]
    exact .old flag initial
  · subst hnew
    obtain ⟨flag, rest, hflag, hfields⟩ := ok_of_bind_cursor hfields
    obtain ⟨defaultAllow, rest', hdefault, hfields⟩ := ok_of_bind_cursor hfields
    obtain ⟨initial, rest'', hinitial, hfields⟩ := ok_of_bind_cursor hfields
    obtain ⟨rules, _, hrules, hfields⟩ := ok_of_bind_cursor hfields
    obtain ⟨hspelled, rfl, -⟩ := decodeSealedRules_ok hrules
    cases hfields
    obtain ⟨_, rfl, rfl⟩ := spells_decodeFlag _ _ _ hflag
    obtain ⟨_, rfl, rfl⟩ := spells_decodeFlag _ _ _ hdefault
    obtain ⟨_, rfl, rfl, -⟩ := spells_decodeDestination _ _ _ hinitial
    refine ⟨initial, _, .sealed flag defaultAllow initial hspelled, fun destination => ?_⟩
    have hall := authorize_xudpWithSealedRules_iff initial destination ⟨rules, defaultAllow⟩
    unfold restrictPolicy
    cases flag with
    | true => simpa using hall
    | false =>
      by_cases hd : (defaultAllow || rules.any (·.allow)) = true
      · rw [if_pos ⟨fun h => Bool.noConfusion (hd.symm.trans h), rfl⟩]
        simp [authorize_xudpInitial_iff, xudpWithSealedRules]
      · rw [if_neg fun h => h.1 (Bool.eq_false_iff.2 hd)]
        have hn : ¬ (⟨rules, defaultAllow⟩ : RuleSection).Allows destination := fun h => hd h.derived
        simpa [hn] using hall
  · cases hfields

/-- A decoded snapshot authorizes the initial destination and what the rule section of its body allows;
where the body carries none, it authorizes the initial destination only. -/
theorem policy_never_widens {reserve : Nat → Bool} {input rest : Bytes} {policy : HandoffPolicySnapshot}
    (h : decodePolicySnapshot reserve input = .ok (policy, rest)) :
    ∃ body initial carried, input = beBytes 4 body.length ++ body ++ rest ∧ Carries body initial carried ∧
      ∀ destination, policy.authorizeUdpDestination destination = .ok () ↔
        destination = initial ∨ ∃ rules ∈ carried, rules.Allows destination := by
  obtain ⟨body, rest', hbody, hpolicy⟩ := ok_of_bind_cursor h
  unfold within at hpolicy
  cases hread : decodePolicyBody body with
  | error error => simp [hread] at hpolicy
  | ok decoded =>
    simp only [hread] at hpolicy
    cases hpolicy
    obtain ⟨initial, carried, hcarries, hauthorizes⟩ := decodePolicyBody_ok hread
    refine ⟨body, initial, carried, ?_, hcarries, hauthorizes⟩
    obtain ⟨length, after, hlength, hbody⟩ := ok_of_bind_cursor hbody
    split at hbody
    · cases hbody
    obtain ⟨bytes, rest', hbytes, hbody⟩ := ok_of_bind_cursor hbody
    split at hbody
    · cases hbody
    cases hbody
    obtain ⟨_, rfl, rfl, -⟩ := spells_number _ _ _ _ _ hlength
    obtain ⟨_, rfl, rfl, rfl⟩ := spells_take _ _ _ _ _ hbytes
    rw [List.append_assoc]

/-- Rewrites are allowed, by default everywhere, except to the network `192.168.0.0/16`. -/
def sealedPolicy : Bytes :=
  [0, 0, 0, 23, 2, 1, 1, 1, 0, 4, 10, 0, 0, 1, 1, 187, 1, 0, 0, 1, 4, 16, 192, 168, 0, 0, 0]

def sealedSnapshot : HandoffPolicySnapshot :=
  .xudpWithSealedRules ⟨.ipv4 (ipv4OfOctets [10, 0, 0, 1]), 443⟩
    [⟨false, [], [.v4 (ipv4OfOctets [192, 168, 0, 0]) 16], []⟩] true

theorem policy_never_widens_denied :
    decodePolicySnapshot (fun _ => true) sealedPolicy = .ok (sealedSnapshot, []) ∧
    sealedSnapshot.authorizeUdpDestination ⟨.ipv4 (ipv4OfOctets [192, 168, 7, 1]), 53⟩ = .error .state ∧
    sealedSnapshot.authorizeUdpDestination ⟨.ipv4 (ipv4OfOctets [192, 169, 7, 1]), 53⟩ = .ok () ∧
    ∃ body initial carried, sealedPolicy = beBytes 4 body.length ++ body ++ [] ∧ Carries body initial carried ∧
      ∀ destination, sealedSnapshot.authorizeUdpDestination destination = .ok () ↔
        destination = initial ∨ ∃ rules ∈ carried, rules.Allows destination :=
  have hdecoded : decodePolicySnapshot (fun _ => true) sealedPolicy = .ok (sealedSnapshot, []) := by decide +kernel
  ⟨hdecoded, by decide +kernel, by decide +kernel, policy_never_widens hdecoded⟩

end RustReality.Handoff
