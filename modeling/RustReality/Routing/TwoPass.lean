import RustReality.Routing.Table

/-!
# Deferred DNS resolution

Under the resolve-if-no-match strategy the table keeps the rules that wait for addresses and checks
only those once DNS has answered. It selects what two passes over all rules select: one without
addresses and, where it finds nothing and some rule depends on addresses, one with them.
-/

namespace RustReality.Routing
open Vless List

def dependsOnAddresses (rules : List CompiledRule) : Bool := rules.any fun rule => !rule.ips.isEmpty

/-- `CompiledUserPolicy::compile` after its rules are compiled. -/
def CompiledUserPolicy.compile (aho : AhoCorasick) (name defaultOutbound : String) (rules : List CompiledRule) :
    CompiledUserPolicy :=
  { name, defaultOutbound, rules, index := RuleIndex.build aho rules, hasIpRules := dependsOnAddresses rules }

namespace RoutingTable

/-- `RoutingTable::compile` after the rules and the policies are compiled. -/
def compile (aho : AhoCorasick) (globalRules : List CompiledRule) (users : UserId → Option CompiledUserPolicy)
    (assets : AssetMatcher) : RoutingTable :=
  { globalRules, globalIndex := RuleIndex.build aho globalRules, users, assets
    globalHasIpRules := dependsOnAddresses globalRules }

variable (aho : AhoCorasick) (parseIp : Bytes → Option IpAddr) (self : RoutingTable)

def firstMatch (context : RouteContext) (domain : Option Bytes) (user : CompiledUserPolicy) : Option RouteDecision :=
  match selectFromRules aho self.globalRules self.globalIndex context domain self.assets with
  | some rule => some (rule.decision .global)
  | none => (selectFromRules aho user.rules user.index context domain self.assets).map (·.decision .policy)

/-- Whether the second pass is made: the first one finds nothing and a rule depends on addresses. -/
def NeedsResolution (userId : UserId) (destination : Destination) (user : CompiledUserPolicy) : Prop :=
  self.firstMatch aho ⟨userId, destination, []⟩ (normalizedDomain destination) user = none ∧
    (dependsOnAddresses self.globalRules || dependsOnAddresses user.rules) = true

instance (userId : UserId) (destination : Destination) (user : CompiledUserPolicy) :
    Decidable (self.NeedsResolution aho userId destination user) := inferInstanceAs (Decidable (_ ∧ _))

def selectTwice (userId : UserId) (destination : Destination) (user : CompiledUserPolicy) (lookups : Lookups) :
    Lookups × Except RouteResolutionError ResolvedRoute :=
  let domain := normalizedDomain destination
  if self.NeedsResolution aho userId destination user then
    match resolveDomain parseIp destination lookups with
    | (lookups, .error error) => (lookups, .error error)
    | (lookups, .ok resolvedIps) =>
      (lookups, .ok ⟨self.selectForUser aho ⟨userId, destination, resolvedIps⟩ domain user, resolvedIps⟩)
  else (lookups, .ok ⟨self.selectForUser aho ⟨userId, destination, []⟩ domain user, []⟩)

end RoutingTable

/-! ### One rule list -/

variable {aho : AhoCorasick} {rules : List CompiledRule} {index : Option RuleIndex} {context : RouteContext}
  {domain : Option Bytes} {assets : AssetMatcher}

def passing (aho : AhoCorasick) (rules : List CompiledRule) (index : Option RuleIndex) (context : RouteContext)
    (domain : Option Bytes) (assets : AssetMatcher) : List CompiledRule :=
  match index with
  | none => rules.filter fun rule => rule.matchesBesidesIp context domain assets
  | some index => (index.orderedCandidates aho domain).toList.filterMap fun (position, hit) =>
      rules[position]?.filter fun rule => rule.matchesBesidesIpIndexed hit context domain assets

theorem find?_filterMap_filter {α β : Type} (candidates : List α) (g : α → Option β) (p : α → β → Bool) (q : β → Bool) :
    (candidates.filterMap fun candidate => (g candidate).filter (p candidate)).find? q =
      candidates.findSome? fun candidate => (g candidate).filter fun value => p candidate value && q value := by
  induction candidates with
  | nil => rfl
  | cons candidate candidates ih =>
    rw [filterMap_cons, findSome?_cons, ← ih]
    cases g candidate with
    | none => rfl
    | some value => cases hp : p candidate value <;> cases hq : q value <;> simp only [Option.filter, hp, hq] <;> simp [hq]

theorem selectFromRules_eq_find? : selectFromRules aho rules index context domain assets =
    (passing aho rules index context domain assets).find? fun rule => rule.ipGroupMatches context assets := by
  cases index with
  | none =>
    show rules.find? _ = (rules.filter _).find? _
    rw [find?_filter]
    refine congrArg (rules.find? ·) (funext fun rule => ?_)
    rw [Bool.eq_iff_iff]
    simp only [CompiledRule.matches, CompiledRule.matchesBesidesIp, Bool.and_eq_true, decide_eq_true_eq]
    tauto
  | some index =>
    refine Eq.trans ?_ (find?_filterMap_filter _ _ _ _).symm
    refine congrArg (List.findSome? · _) (funext fun candidate => congrArg (Option.filter · _) (funext fun rule => ?_))
    rw [Bool.eq_iff_iff]
    simp only [CompiledRule.matchesIndexed, CompiledRule.matchesBesidesIpIndexed, Bool.and_eq_true]
    tauto

theorem firstBesidesIp_eq (rules : List CompiledRule) :
    firstBesidesIp rules = (rules.takeWhile fun rule => !rule.ips.isEmpty, rules.find? fun rule => rule.ips.isEmpty) := by
  induction rules with
  | nil => rfl
  | cons rule rules ih => cases h : rule.ips.isEmpty <;> simp [firstBesidesIp, ih, h]

/-- Address conditions play no part in which rules pass. -/
theorem passing_congr (userId : UserId) (destination : Destination) (ips ips' : List IpAddr) :
    passing aho rules index ⟨userId, destination, ips⟩ domain assets =
      passing aho rules index ⟨userId, destination, ips'⟩ domain assets := rfl

theorem ipGroupMatches_unresolved {userId : UserId} {destination : Destination} {name : Text}
    (hd : destination.address = .domain name) (rule : CompiledRule) :
    rule.ipGroupMatches ⟨userId, destination, []⟩ assets = rule.ips.isEmpty := by
  simp [CompiledRule.ipGroupMatches, destinationIps, hd]

/-- The scan without addresses finds what the first pass selects. -/
theorem collectBesidesIp_eq {destination : Destination} {name : Text}
    (hd : destination.address = .domain name) (userId : UserId) (aho : AhoCorasick) (rules : List CompiledRule)
    (index : Option RuleIndex) (domain : Option Bytes) (assets : AssetMatcher) :
    (collectBesidesIp aho rules index ⟨userId, destination, []⟩ domain assets).2 =
        selectFromRules aho rules index ⟨userId, destination, []⟩ domain assets ∧
      (selectFromRules aho rules index ⟨userId, destination, []⟩ domain assets = none → ∀ ips,
        selectFromRules aho rules index ⟨userId, destination, ips⟩ domain assets =
          (collectBesidesIp aho rules index ⟨userId, destination, []⟩ domain assets).1.find?
            fun rule => rule.ipGroupMatches ⟨userId, destination, ips⟩ assets) := by
  have hc : collectBesidesIp aho rules index ⟨userId, destination, []⟩ domain assets =
      firstBesidesIp (passing aho rules index ⟨userId, destination, []⟩ domain assets) := by
    cases index <;> rfl
  rw [hc, firstBesidesIp_eq, selectFromRules_eq_find?, funext (ipGroupMatches_unresolved hd)]
  refine ⟨rfl, fun hn ips => ?_⟩
  rw [selectFromRules_eq_find?, passing_congr userId destination ips []]
  -- nothing was found, so every passing rule waits
  rw [find?_eq_none] at hn
  rw [takeWhile_eq_self_iff.2 fun rule hr => by simpa using hn rule hr]

namespace RoutingTable

variable {parseIp : Bytes → Option IpAddr} {self : RoutingTable} {user : CompiledUserPolicy} {userId : UserId}
  {destination : Destination} {name : Text}

theorem selectForUser_eq : self.selectForUser aho context domain user =
    (self.firstMatch aho context domain user).getD user.defaultDecision := by
  unfold selectForUser firstMatch
  cases selectFromRules aho self.globalRules self.globalIndex context domain self.assets with
  | some rule => rfl
  | none => cases selectFromRules aho user.rules user.index context domain self.assets <;> rfl

/-- The first pass decides as the rules without addresses do, and where it does not, the waiting rules
decide as all rules with addresses do. -/
theorem selectBesidesIp_eq (hd : destination.address = .domain name) (self : RoutingTable) (aho : AhoCorasick)
    (userId : UserId) (domain : Option Bytes) (user : CompiledUserPolicy) :
    ((self.selectBesidesIp aho ⟨userId, destination, []⟩ domain user).2.map fun (rule, scope) => rule.decision scope) =
        self.firstMatch aho ⟨userId, destination, []⟩ domain user ∧
      (self.firstMatch aho ⟨userId, destination, []⟩ domain user = none → ∀ ips,
        ((self.selectBesidesIp aho ⟨userId, destination, []⟩ domain user).1.find?
            fun (rule, _) => rule.ipGroupMatches ⟨userId, destination, ips⟩ self.assets).map
          (fun (rule, scope) => rule.decision scope) =
        self.firstMatch aho ⟨userId, destination, ips⟩ domain user) := by
  have hg := collectBesidesIp_eq hd userId aho self.globalRules self.globalIndex domain self.assets
  have hu := collectBesidesIp_eq hd userId aho user.rules user.index domain self.assets
  unfold selectBesidesIp firstMatch
  generalize collectBesidesIp aho self.globalRules self.globalIndex _ _ _ = first at hg ⊢
  generalize collectBesidesIp aho user.rules user.index _ _ _ = second at hu ⊢
  obtain ⟨pending, found⟩ := first
  obtain ⟨more, found'⟩ := second
  rw [← hg.1, ← hu.1] at *
  rcases found with _ | rule
  · rcases found' with _ | rule
    · refine ⟨rfl, fun _ ips => ?_⟩
      rw [hg.2 rfl, hu.2 rfl]
      simp only [find?_append, find?_map, Function.comp_def]
      cases pending.find? fun rule => rule.ipGroupMatches ⟨userId, destination, ips⟩ self.assets <;>
        simp [Function.comp_def]
    · simp
  · simp

theorem resolveDomain_lookups (hd : destination.address = .domain name) (parseIp : Bytes → Option IpAddr)
    (lookups : Lookups) :
    (resolveDomain parseIp destination lookups).1 = if (parseIp name.bytes).isNone then lookups.tail else lookups := by
  unfold resolveDomain
  rw [hd]
  cases hip : parseIp name.bytes with
  | some ip => simp [hip]
  | none => rcases lookups with _ | ⟨_ | addresses, lookups⟩ <;> simp [hip]

theorem selectWithDns_eq_selectTwice (hd : destination.address = .domain name)
    (hu : self.users userId = some user) (hg : self.globalHasIpRules = dependsOnAddresses self.globalRules)
    (hp : user.hasIpRules = dependsOnAddresses user.rules) (lookups : Lookups) :
    self.selectWithDns aho parseIp userId destination .resolveIfNoMatch lookups =
      self.selectTwice aho parseIp userId destination user lookups := by
  obtain ⟨hf, hs⟩ := selectBesidesIp_eq hd self aho userId (normalizedDomain destination) user
  have hsm : (normalizedDomain destination).isNone = false := by simp [normalizedDomain, hd]
  unfold selectWithDns selectTwice NeedsResolution
  simp only [hu, hg, hp, hsm, selectForUser_eq]
  by_cases hn : (dependsOnAddresses self.globalRules || dependsOnAddresses user.rules) = true
  · rw [if_neg (by simp [hn]), if_pos trivial]
    generalize self.selectBesidesIp aho _ _ user = pass at hf hs ⊢
    rcases pass with ⟨pending, _ | ⟨rule, scope⟩⟩
    · -- nothing was selected without addresses
      rw [← hf] at hs ⊢
      rw [if_pos ⟨rfl, hn⟩]
      rcases resolveDomain parseIp destination lookups with ⟨lookups, error | resolvedIps⟩
      · rfl
      · simp only [← hs rfl resolvedIps]
        cases pending.find? _ <;> rfl
    · rw [if_neg (by simp [← hf]), ← hf]
      rfl
  · rw [if_pos (by simp [hn]), if_neg (by simp [hn])]

/-- Deferred resolution selects what the two passes select, and a lookup is made exactly when the
second pass is and the name is no literal address. -/
theorem select_with_dns_two_passes (aho : AhoCorasick) (parseIp : Bytes → Option IpAddr)
    (globalRules rules : List CompiledRule) (policy outbound : String) (users : UserId → Option CompiledUserPolicy)
    (assets : AssetMatcher) (userId : UserId) (destination : Destination) (name : Text) (lookups : Lookups)
    (huser : users userId = some (.compile aho policy outbound rules))
    (hdomain : destination.address = .domain name) :
    let table := compile aho globalRules users assets
    let user := CompiledUserPolicy.compile aho policy outbound rules
    table.selectWithDns aho parseIp userId destination .resolveIfNoMatch lookups =
        table.selectTwice aho parseIp userId destination user lookups ∧
      (table.selectWithDns aho parseIp userId destination .resolveIfNoMatch lookups).1 =
        if table.NeedsResolution aho userId destination user ∧ parseIp name.bytes = none then lookups.tail
        else lookups := by
  intro table user
  have ht : table.selectWithDns aho parseIp userId destination .resolveIfNoMatch lookups =
      table.selectTwice aho parseIp userId destination user lookups :=
    selectWithDns_eq_selectTwice hdomain huser rfl rfl lookups
  refine ⟨ht, ?_⟩
  rw [ht, selectTwice]
  by_cases hn : table.NeedsResolution aho userId destination user
  · have hl := resolveDomain_lookups hdomain parseIp lookups
    simp only [hn, if_true, true_and]
    generalize resolveDomain parseIp destination lookups = answer at hl ⊢
    rcases answer with ⟨rest, error | resolvedIps⟩ <;> simpa using hl
  · simp [hn]

/-! ### A lookup no rule waits for -/

section Idle

def scanning : AhoCorasick := ⟨fun _ => true, MultiPattern.scan⟩

def noAssets : AssetMatcher := ⟨fun _ _ _ => false, fun _ _ _ => false⟩

/-- Every IPv4 address of the name `f` goes to the outbound `far`. -/
def farRule : CompiledRule := .compile "far" "far" [.full [102]] [.network (.v4 0 0)] []

def farPolicies (_ : UserId) : Option CompiledUserPolicy := some (.compile scanning "policy" "near" [farRule])

/-- A request for the name `n`. -/
def nearRequest : Destination := ⟨.domain ⟨[110], by decide⟩, 443⟩

/-- A request for the name `f`. -/
def farRequest : Destination := ⟨.domain ⟨[102], by decide⟩, 443⟩

theorem select_with_dns_two_passes_near :
    let table := compile scanning [] farPolicies noAssets
    let user := CompiledUserPolicy.compile scanning "policy" "near" [farRule]
    let userId : UserId := Vector.replicate 16 0
    table.NeedsResolution scanning userId nearRequest user ∧
      (table.selectWithDns scanning (fun _ => none) userId nearRequest .resolveIfNoMatch [.ok [.v4 1]]).1 = [] := by
  have h := (select_with_dns_two_passes scanning (fun _ => none) [] [farRule] "policy" "near" farPolicies noAssets
    (Vector.replicate 16 0) nearRequest ⟨[110], by decide⟩ [.ok [.v4 1]] rfl rfl).2
  have hn : (compile scanning [] farPolicies noAssets).NeedsResolution scanning (Vector.replicate 16 0) nearRequest
      (.compile scanning "policy" "near" [farRule]) := ⟨rfl, rfl⟩
  exact ⟨hn, h⟩

/-- No rule waits for the addresses of `n`, as the one rule is about another name, yet they are looked up.
The rule waits for those of `f`, yet nothing is looked up if `f` spells an address. -/
theorem lookup_without_pending_rule :
    let table := compile scanning [] farPolicies noAssets
    let user := CompiledUserPolicy.compile scanning "policy" "near" [farRule]
    let userId : UserId := Vector.replicate 16 0
    table.selectBesidesIp scanning ⟨userId, nearRequest, []⟩ (normalizedDomain nearRequest) user = ([], none) ∧
      table.selectWithDns scanning (fun _ => none) userId nearRequest .resolveIfNoMatch [.ok [.v4 1]] =
        ([], .ok ⟨⟨"near", "policy", .defaultOutbound⟩, [.v4 1]⟩) ∧
    table.selectBesidesIp scanning ⟨userId, farRequest, []⟩ (normalizedDomain farRequest) user = ([(farRule, .policy)], none) ∧
      table.selectWithDns scanning (fun _ => some (.v4 2)) userId farRequest .resolveIfNoMatch [.ok [.v4 1]] =
        ([.ok [.v4 1]], .ok ⟨⟨"far", "far", .policy⟩, [.v4 2]⟩) :=
  ⟨rfl, rfl, rfl, rfl⟩

end Idle

end RoutingTable

end RustReality.Routing
