import RustReality.Routing.IndexTables

/-!
# Indexed selection against the ordered scan

The index visits the rules one of whose matchers it reports, and those it does not cover
(`selectFromRules_index`). Exact and suffix matchers are reported exactly when they match. A keyword
is reported when the automaton reports an occurrence, and the automaton skips occurrences that overlap
an earlier match. So the index agrees with the scan exactly when the rule the scan takes is reached.
-/

namespace RustReality.Routing
open Vless MultiPattern CompiledRule DomainMatcher List

/-! ### The matchers on bytes -/

variable {domain : Bytes} {rules : List CompiledRule} {index : RuleIndex}

theorem mem_labelTails {tail : Bytes} :
    tail ∈ RuleIndex.labelTails domain ↔ ∃ before, domain = before ++ dot :: tail := by
  induction domain with
  | nil => simp [RuleIndex.labelTails]
  | cons b domain ih =>
    have hs : (∃ before, b :: domain = before ++ dot :: tail) ↔
        (b = dot ∧ domain = tail) ∨ ∃ before, domain = before ++ dot :: tail := by
      constructor
      · rintro ⟨before, heq⟩
        cases before with
        | nil =>
          cases heq
          exact .inl ⟨rfl, rfl⟩
        | cons c before =>
          cases heq
          exact .inr ⟨before, rfl⟩
      · rintro (⟨rfl, rfl⟩ | ⟨before, rfl⟩)
        · exact ⟨[], rfl⟩
        · exact ⟨b :: before, rfl⟩
    rw [hs, ← ih, RuleIndex.labelTails]
    split_ifs with hb
    · simp [hb, eq_comm]
    · simp [hb]

/-! ### What the index reports -/

/-- The index reports a matcher for a domain: exact and suffix matchers by lookup, keywords by the
matches of the automaton over `patterns`. -/
def DomainMatcher.reported (aho : AhoCorasick) (patterns : List Bytes) (domain : Bytes) :
    DomainMatcher → Bool
  | .full value => domain == value
  | .suffix value => domainSuffixMatches domain value
  | .keyword value => (findIter aho.searcher patterns domain).any fun m => patterns[m.pattern]? == some value
  | .regex _ => false
  | .asset _ _ => false

namespace CompiledRule

def hit (aho : AhoCorasick) (patterns : List Bytes) (rule : CompiledRule) : Option Bytes → Bool
  | none => false
  | some domain => rule.domains.any fun matcher => matcher.reported aho patterns domain

def residualMatches (rule : CompiledRule) (assets : AssetMatcher) : Option Bytes → Bool
  | none => false
  | some domain => rule.residualDomains.any fun matcher => matcher.matches domain assets

/-- A rule is reached: it has no domain conditions, or one of its matchers is reported, or one that
is not indexable matches. -/
def reached (aho : AhoCorasick) (patterns : List Bytes) (rule : CompiledRule) (domain : Option Bytes)
    (assets : AssetMatcher) : Bool :=
  rule.domains.isEmpty || rule.hit aho patterns domain || rule.residualMatches assets domain

end CompiledRule

def RuleIndex.patterns (index : RuleIndex) : List Bytes := index.keywords.getD []

variable {aho : AhoCorasick} {patterns : List Bytes}

theorem occurs_keyword {m : Found} {value : Bytes} (hm : m ∈ findIter aho.searcher patterns domain)
    (hv : patterns[m.pattern]? = some value) : keywordMatches domain value = true := by
  obtain ⟨before, p, after, hp, rfl, -, -⟩ := occurs_of_mem_findIter hm
  rw [hv] at hp
  cases hp
  exact keywordMatches_iff.mpr ⟨before, after, rfl⟩

theorem DomainMatcher.matches_of_reported {matcher : DomainMatcher}
    (h : matcher.reported aho patterns domain = true) (assets : AssetMatcher) :
    matcher.matches domain assets = true := by
  cases matcher with
  | full value => exact h
  | suffix value => exact h
  | keyword value =>
    obtain ⟨m, hm, hv⟩ := any_eq_true.mp h
    exact occurs_keyword hm (beq_iff_eq.mp hv)
  | regex _ => cases h
  | asset _ _ => cases h

variable {rule : CompiledRule}

theorem CompiledRule.matches_of_reached {domain : Option Bytes} {assets : AssetMatcher}
    (h : rule.reached aho patterns domain assets = true) : rule.domainGroupMatches domain assets = true := by
  simp only [reached, Bool.or_eq_true] at h
  unfold domainGroupMatches
  split_ifs with he
  · rfl
  · cases domain with
    | none => simp [he, hit, residualMatches] at h
    | some domain =>
      rcases h with (h | hr) | hrs
      · exact absurd h he
      · obtain ⟨m, hm, hrp⟩ := any_eq_true.mp hr
        exact any_eq_true.mpr ⟨m, hm, matches_of_reported hrp assets⟩
      · obtain ⟨m, hm, hmt⟩ := any_eq_true.mp hrs
        rw [rule.residual_eq] at hm
        exact any_eq_true.mpr ⟨m, (mem_filter.mp hm).1, hmt⟩

/-! ### A built index -/

def RuleHas (rules : List CompiledRule) (p : Nat) (m : DomainMatcher) : Prop :=
  ∃ rule, rules[p]? = some rule ∧ m ∈ rule.domains

/-- The index of a rule list: its tables hold every indexable matcher of every rule. -/
structure RuleIndex.Holds (index : RuleIndex) (rules : List CompiledRule) : Prop where
  full : ∀ v p, p ∈ (index.full.get v).getD [] ↔ RuleHas rules p (.full v)
  suffix : ∀ v p, p ∈ (index.suffix.get v).getD [] ↔ RuleHas rules p (.suffix v)
  keyword : ∀ i v p, index.patterns[i]? = some v →
    (p ∈ index.keywordRules.getD i [] ↔ RuleHas rules p (.keyword v))
  known : ∀ p v, v ≠ [] → RuleHas rules p (.keyword v) → v ∈ index.patterns
  nonempty : [] ∉ index.patterns
  always : index.always = ((rules.zipIdx).filter fun r => r.1.needsDirect).map Prod.snd

theorem RuleIndex.holds_of_build (h : build aho rules = some index) : index.Holds rules := by
  unfold build at h
  split_ifs at h with hl
  obtain ⟨tables, had, hr⟩ := Option.bind_eq_some_iff.mp h
  obtain ⟨hta, ha⟩ := Builder.Tables.empty.addRules had
  have hE : ∀ p m, (False ∨ Builder.entries 0 rules p m) ↔ RuleHas rules p m := by
    intro p m
    simp [Builder.entries, RuleHas]
  have hta := hta.congr hE
  have hh : ∀ keywords : Option (List Bytes), keywords.getD [] = tables.keywordPatterns →
      (⟨tables.full, tables.suffix, keywords, tables.keywordRules, tables.always⟩ : RuleIndex).Holds rules := by
    intro keywords hk
    exact ⟨hta.full, hta.suffix, fun i v p hi => hta.keyword i v p (hk ▸ hi),
      fun p v hne hp => by
        rw [patterns, hk]
        exact hta.known p v hne hp, by
        rw [patterns, hk]
        exact hta.nonempty, ha⟩
  split_ifs at hr with hn hb
  · cases hr
    exact hh none hn.symm
  · cases hr
    exact hh _ rfl

variable {p : Nat}

theorem RuleIndex.Holds.mem_suffixHits (h : index.Holds rules) :
    p ∈ index.suffixHits domain ↔
      ∃ v, domainSuffixMatches domain v = true ∧ RuleHas rules p (.suffix v) := by
  rw [suffixHits, mem_append, h.suffix, mem_flatMap]
  constructor
  · rintro (hp | ⟨tail, ht, hp⟩)
    · exact ⟨domain, domainSuffixMatches_iff.mpr (.inl rfl), hp⟩
    · exact ⟨tail, domainSuffixMatches_iff.mpr (.inr (mem_labelTails.mp ht)), (h.suffix tail p).mp hp⟩
  · rintro ⟨v, hv, hp⟩
    rcases domainSuffixMatches_iff.mp hv with rfl | ht
    · exact .inl hp
    · exact .inr ⟨v, mem_labelTails.mpr ht, (h.suffix v p).mpr hp⟩

theorem RuleIndex.mem_keywordHits :
    p ∈ index.keywordHits aho domain ↔
      ∃ m ∈ findIter aho.searcher index.patterns domain, p ∈ index.keywordRules.getD m.pattern [] := by
  unfold keywordHits RuleIndex.patterns
  cases index.keywords with
  | none =>
    refine ⟨fun hp => (by cases hp), ?_⟩
    rintro ⟨m, hm, -⟩
    obtain ⟨_, _, _, hg, -⟩ := occurs_of_mem_findIter hm
    simp at hg
  | some patterns => exact mem_flatMap

theorem RuleIndex.Holds.mem_keywordHits (h : index.Holds rules) :
    p ∈ index.keywordHits aho domain ↔
      ∃ v, reported aho index.patterns domain (.keyword v) = true ∧
        RuleHas rules p (.keyword v) := by
  rw [RuleIndex.mem_keywordHits]
  constructor
  · rintro ⟨m, hm, hp⟩
    obtain ⟨_, v, _, hg, -⟩ := occurs_of_mem_findIter hm
    exact ⟨v, any_eq_true.mpr ⟨m, hm, beq_iff_eq.mpr hg⟩, (h.keyword _ v p hg).mp hp⟩
  · rintro ⟨v, hv, hp⟩
    obtain ⟨m, hm, hg⟩ := any_eq_true.mp hv
    exact ⟨m, hm, (h.keyword _ v p (beq_iff_eq.mp hg)).mpr hp⟩

theorem RuleIndex.Holds.mem_hits (h : index.Holds rules) :
    p ∈ index.hits aho domain ↔
      ∃ m, m.reported aho index.patterns domain = true ∧ RuleHas rules p m := by
  rw [hits, mem_append, mem_append, h.full, h.mem_suffixHits, h.mem_keywordHits]
  constructor
  · rintro ((hp | ⟨v, hv, hp⟩) | ⟨v, hv, hp⟩)
    · exact ⟨.full domain, beq_self_eq_true domain, hp⟩
    · exact ⟨.suffix v, hv, hp⟩
    · exact ⟨.keyword v, hv, hp⟩
  · rintro ⟨m, hm, hp⟩
    cases m with
    | full v =>
      cases beq_iff_eq.mp hm
      exact .inl (.inl hp)
    | suffix v => exact .inl (.inr ⟨v, hm, hp⟩)
    | keyword v => exact .inr ⟨v, hm, hp⟩
    | regex _ => cases hm
    | asset _ _ => cases hm

/-! ### The candidates in order -/

namespace OrderedCandidates

structure Sorted (self : OrderedCandidates) : Prop where
  always : self.always.Pairwise (· < ·)
  hits : self.hits.Pairwise (· < ·)

def Visits (s : OrderedCandidates) (p : Nat) (tag : Bool) : Prop :=
  (p ∈ s.always ∨ p ∈ s.hits) ∧ tag = decide (p ∈ s.hits)

theorem next_some {s s' : OrderedCandidates} {c : Nat × Bool} (hs : Sorted s) (h : s.next = some (c, s')) :
    Sorted s' ∧ (∀ p tag, Visits s p tag ↔ (p, tag) = c ∨ Visits s' p tag) ∧
      (∀ p tag, Visits s' p tag → c.1 < p) ∧
      s'.always.length + s'.hits.length < s.always.length + s.hits.length := by
  obtain ⟨always, hits⟩ := s
  obtain ⟨ha, hh⟩ := hs
  cases always with
  | nil =>
    cases hits with
    | nil => cases h
    | cons b hits =>
      cases h
      obtain ⟨hb, hh⟩ := pairwise_cons.mp hh
      refine ⟨⟨.nil, hh⟩, fun p tag => ?_, fun p tag hv => ?_, by simp⟩
      · simp only [Visits, not_mem_nil, false_or, mem_cons, Prod.mk.injEq]
        grind
      · exact hb p (hv.1.resolve_left not_mem_nil)
  | cons a always =>
    obtain ⟨ha', ht⟩ := pairwise_cons.mp ha
    cases hits with
    | nil =>
      cases h
      refine ⟨⟨ht, .nil⟩, fun p tag => ?_, fun p tag hv => ?_, by simp⟩
      · simp only [Visits, not_mem_nil, or_false, mem_cons, Prod.mk.injEq]
        grind
      · exact ha' p (hv.1.resolve_right not_mem_nil)
    | cons b hits =>
      obtain ⟨hb, hh'⟩ := pairwise_cons.mp hh
      simp only [next] at h
      split_ifs at h with hlt hgt
      · cases h
        refine ⟨⟨ht, hh⟩, fun p tag => ?_, fun p tag hv => ?_, by simp⟩
        · simp only [Visits, mem_cons, Prod.mk.injEq]
          grind
        · simp only [Visits, mem_cons] at hv
          grind
      · cases h
        refine ⟨⟨ha, hh'⟩, fun p tag => ?_, fun p tag hv => ?_, by simp⟩
        · simp only [Visits, mem_cons, Prod.mk.injEq]
          grind
        · simp only [Visits, mem_cons] at hv
          grind
      · cases h
        obtain rfl : a = b := by omega
        refine ⟨⟨ht, hh'⟩, fun p tag => ?_, fun p tag hv => ?_, by simp; omega⟩
        · simp only [Visits, mem_cons, Prod.mk.injEq]
          grind
        · simp only [Visits] at hv
          grind

theorem next_none {s : OrderedCandidates} (h : s.next = none) (p : Nat) (tag : Bool) : ¬Visits s p tag := by
  obtain ⟨always, hits⟩ := s
  cases always with
  | nil =>
    cases hits with
    | nil => simp [Visits]
    | cons b hits => cases h
  | cons a always =>
    cases hits with
    | nil => cases h
    | cons b hits =>
      simp only [next] at h
      split_ifs at h

theorem takeAll_spec {fuel : Nat} {s : OrderedCandidates} (hs : Sorted s)
    (hf : s.always.length + s.hits.length ≤ fuel) :
    ((takeAll fuel s).map Prod.fst).Pairwise (· < ·) ∧
      ∀ p tag, (p, tag) ∈ takeAll fuel s ↔ Visits s p tag := by
  induction fuel generalizing s with
  | zero =>
    obtain ⟨always, hits⟩ := s
    have hnl : always = [] ∧ hits = [] := by simpa using hf
    obtain ⟨rfl, rfl⟩ := hnl
    exact ⟨.nil, by simp [takeAll, Visits]⟩
  | succ fuel ih =>
    rw [takeAll]
    cases hn : s.next with
    | none => exact ⟨.nil, fun p tag => by simp [next_none hn p tag]⟩
    | some step =>
      obtain ⟨c, s'⟩ := step
      obtain ⟨hs', hv, hl, hln⟩ := next_some hs hn
      obtain ⟨hsr, hm⟩ := ih hs' (by omega)
      refine ⟨pairwise_cons.mpr ⟨fun p hp => ?_, hsr⟩, fun p tag => ?_⟩
      · obtain ⟨⟨q, tag⟩, hq, rfl⟩ := mem_map.mp hp
        exact hl q tag ((hm q tag).mp hq)
      · rw [mem_cons, hm, hv]

end OrderedCandidates

/-! ### Selection -/

section Selection
variable {rules : List CompiledRule} {index : RuleIndex}

theorem RuleIndex.Holds.pairwise_always (h : index.Holds rules) : index.always.Pairwise (· < ·) := by
  rw [h.always]
  have hs : (((rules.zipIdx).filter fun r => r.1.needsDirect).map Prod.snd).Sublist
      ((rules.zipIdx).map Prod.snd) := filter_sublist.map _
  refine List.Pairwise.sublist hs ?_
  rw [zipIdx_map_snd]
  exact pairwise_lt_range'

theorem RuleIndex.Holds.mem_always (h : index.Holds rules) :
    p ∈ index.always ↔ ∃ rule, rules[p]? = some rule ∧ rule.needsDirect = true := by
  rw [h.always, mem_map]
  constructor
  · rintro ⟨⟨rule, q⟩, hm, rfl⟩
    obtain ⟨hm, hn⟩ := mem_filter.mp hm
    exact ⟨rule, mem_zipIdx_iff_getElem?.mp hm, hn⟩
  · rintro ⟨rule, hg, hn⟩
    exact ⟨(rule, p), mem_filter.mpr ⟨mem_zipIdx_iff_getElem?.mpr hg, hn⟩, rfl⟩

def RuleIndex.hitSet (aho : AhoCorasick) (index : RuleIndex) : Option Bytes → List Nat
  | none => []
  | some domain => index.hits aho domain

theorem RuleIndex.Holds.candidates (h : index.Holds rules) (aho : AhoCorasick) (domain : Option Bytes) :
    let cs := (index.orderedCandidates aho domain).toList
    (cs.map Prod.fst).Pairwise (· < ·) ∧
      ∀ p tag, (p, tag) ∈ cs ↔
        (p ∈ index.always ∨ p ∈ index.hitSet aho domain) ∧ tag = decide (p ∈ index.hitSet aho domain) := by
  intro cs
  have hm : ∀ p, p ∈ (index.orderedCandidates aho domain).hits ↔ p ∈ index.hitSet aho domain := by
    intro p
    unfold RuleIndex.orderedCandidates RuleIndex.hitSet
    cases domain <;> simp
  have hs : (index.orderedCandidates aho domain).Sorted :=
    ⟨h.pairwise_always, Vec.pairwise_lt_dedup (pairwise_insertionSort _ _)⟩
  obtain ⟨hp, hv⟩ := OrderedCandidates.takeAll_spec hs (Nat.le_refl _)
  refine ⟨hp, fun p tag => (hv p tag).trans ?_⟩
  simp only [OrderedCandidates.Visits, hm]
  rfl

/-- The indexed domain group, at the tag of a candidate, says whether the rule is reached. -/
theorem indexedDomainMatches_hit (rule : CompiledRule) (domain : Option Bytes) (assets : AssetMatcher) :
    rule.indexedDomainMatches (rule.hit aho patterns domain) domain assets =
      rule.reached aho patterns domain assets := by
  unfold indexedDomainMatches reached residualMatches
  cases rule.domains.isEmpty with
  | true => rfl
  | false =>
    cases rule.hit aho patterns domain with
    | true => rfl
    | false => cases domain <;> rfl

theorem RuleIndex.Holds.mem_hitSet (h : index.Holds rules)
    (hg : rules[p]? = some rule) (aho : AhoCorasick) (domain : Option Bytes) :
    decide (p ∈ index.hitSet aho domain) = rule.hit aho index.patterns domain := by
  cases domain with
  | none => rfl
  | some domain =>
    rw [Bool.eq_iff_iff, decide_eq_true_iff, hitSet, h.mem_hits, hit, any_eq_true]
    constructor
    · rintro ⟨m, hm, r, hr, hmm⟩
      cases hg.symm.trans hr
      exact ⟨m, hmm, hm⟩
    · rintro ⟨m, hmm, hm⟩
      exact ⟨m, hm, rule, hg, hmm⟩

theorem RuleIndex.Holds.candidate_of_reached (h : index.Holds rules)
    (hg : rules[p]? = some rule) {domain : Option Bytes} {assets : AssetMatcher}
    (hreach : rule.reached aho index.patterns domain assets = true) :
    p ∈ index.always ∨ p ∈ index.hitSet aho domain := by
  have hht := h.mem_hitSet hg aho domain
  simp only [reached, Bool.or_eq_true] at hreach
  rcases hreach with (he | hh) | hr
  · refine .inl (h.mem_always.mpr ⟨rule, hg, ?_⟩)
    simp [needsDirect, isEmpty_iff.mp he]
  · exact .inr (of_decide_eq_true (hht.trans hh))
  · refine .inl (h.mem_always.mpr ⟨rule, hg, ?_⟩)
    cases domain with
    | none => cases hr
    | some domain =>
      obtain ⟨m, hm, -⟩ := any_eq_true.mp hr
      simp [needsDirect, ne_nil_of_mem hm]

/-- With an index, the first rule is taken that is reached and whose other groups match. -/
theorem selectFromRules_index (h : index.Holds rules) (context : RouteContext) (domain : Option Bytes)
    (assets : AssetMatcher) :
    selectFromRules aho rules (some index) context domain assets =
      rules.find? fun rule => rule.reached aho index.patterns domain assets &&
        rule.ipGroupMatches context assets && rule.staticGroupsMatch context := by
  obtain ⟨hs, hm⟩ := h.candidates aho domain
  refine Vec.findSome?_candidates (fun hit (rule : CompiledRule) => rule.matchesIndexed hit context domain assets)
    hs ?_ ?_
  · rintro ⟨p, hit⟩ hc rule hg
    obtain ⟨-, hh⟩ := (hm p hit).mp hc
    rw [hh, h.mem_hitSet hg, matchesIndexed, indexedDomainMatches_hit]
  · intro p rule hg hmt
    simp only [Bool.and_eq_true] at hmt
    exact ⟨_, (hm p _).mpr ⟨h.candidate_of_reached hg hmt.1.1, rfl⟩⟩

end Selection

/-- Two searches of a list, the second with the stronger condition, agree exactly when the element the
first one takes satisfies the stronger condition. -/
theorem find?_eq_find?_iff {α : Type} {l : List α} {p q : α → Bool} (hle : ∀ a, q a = true → p a = true) :
    l.find? q = l.find? p ↔ ∀ a, l.find? p = some a → q a = true := by
  induction l with
  | nil => simp
  | cons a l ih =>
    by_cases hp : p a = true
    · by_cases hq : q a = true
      · simp [hp, hq]
      · rw [find?_cons_of_neg hq, find?_cons_of_pos hp]
        refine ⟨fun h => ?_, fun h => absurd (h a rfl) hq⟩
        exact absurd (find?_some h) hq
    · rw [find?_cons_of_neg hp, find?_cons_of_neg fun hq => hp (hle a hq), ih]

/-- With an index, selection agrees with the ordered scan exactly when the rule the scan takes is
reached. -/
theorem selectFromRules_eq_find?_iff (h : index.Holds rules) (context : RouteContext) (domain : Option Bytes)
    (assets : AssetMatcher) :
    selectFromRules aho rules (some index) context domain assets =
        (rules.find? fun rule => rule.matches context domain assets) ↔
      ∀ rule, (rules.find? fun rule => rule.matches context domain assets) = some rule →
        rule.reached aho index.patterns domain assets = true := by
  rw [selectFromRules_index h, find?_eq_find?_iff]
  · refine forall_congr' fun rule => forall_congr' fun hf => ?_
    have hm := find?_some hf
    simp only [CompiledRule.matches, Bool.and_eq_true] at hm
    simp only [Bool.and_eq_true]
    exact ⟨fun hr => hr.1.1, fun hr => ⟨⟨hr, hm.1.2⟩, hm.2⟩⟩
  · intro rule hrl
    simp only [Bool.and_eq_true] at hrl
    simp only [CompiledRule.matches, Bool.and_eq_true]
    exact ⟨⟨CompiledRule.matches_of_reached hrl.1.1, hrl.1.2⟩, hrl.2⟩

/-! ### When the index is transparent -/

/-- The index built from a rule list selects what the ordered scan selects exactly when the index
reaches the rule the scan takes, whatever the automaton. -/
theorem index_agrees_iff_reached (aho : AhoCorasick) (rules : List CompiledRule) (context : RouteContext)
    (domain : Option Bytes) (assets : AssetMatcher) :
    selectFromRules aho rules (RuleIndex.build aho rules) context domain assets =
        (rules.find? fun rule => rule.matches context domain assets) ↔
      ∀ index, RuleIndex.build aho rules = some index →
        ∀ rule, (rules.find? fun rule => rule.matches context domain assets) = some rule →
          rule.reached aho index.patterns domain assets = true := by
  cases hb : RuleIndex.build aho rules with
  | none => simp [selectFromRules]
  | some index =>
    rw [selectFromRules_eq_find?_iff (RuleIndex.holds_of_build hb)]
    simp only [Option.some.injEq, forall_eq']

theorem DomainMatcher.reported_of_disjoint (hne : [] ∉ patterns) {value : Bytes}
    (hd : Disjoint patterns domain) (hm : value ∈ patterns)
    (hmatch : keywordMatches domain value = true) :
    reported aho patterns domain (.keyword value) = true := by
  obtain ⟨before, after, rfl⟩ := keywordMatches_iff.mp hmatch
  obtain ⟨i, hi⟩ := mem_iff_getElem?.mp hm
  have ho : Occurs patterns (before ++ value ++ after) ⟨i, before.length, before.length + value.length⟩ :=
    ⟨before, value, after, hi, rfl, rfl, rfl⟩
  exact any_eq_true.mpr ⟨_, mem_findIter_of_disjoint hd hne ho, beq_iff_eq.mpr hi⟩

/-- The index is transparent for every domain in which no two keyword occurrences overlap. -/
theorem index_agrees_of_disjoint (hb : RuleIndex.build aho rules = some index) (context : RouteContext)
    {domain : Option Bytes} (hd : ∀ d, domain = some d → Disjoint index.patterns d) (assets : AssetMatcher) :
    selectFromRules aho rules (some index) context domain assets =
      rules.find? fun rule => rule.matches context domain assets := by
  have h := RuleIndex.holds_of_build hb
  refine (selectFromRules_eq_find?_iff h context domain assets).mpr fun rule hf => ?_
  have hmc := find?_some hf
  simp only [CompiledRule.matches, Bool.and_eq_true] at hmc
  have hg := hmc.1.1
  unfold CompiledRule.domainGroupMatches at hg
  simp only [CompiledRule.reached, Bool.or_eq_true]
  split_ifs at hg with he
  · exact .inl (.inl he)
  · cases domain with
    | none => cases hg
    | some d =>
      obtain ⟨m, hm, hmt⟩ := any_eq_true.mp hg
      -- a matcher the index does not hold is a residual one
      have hr : m.isIndexable = false → rule.residualMatches assets (some d) = true := fun hno => by
        refine any_eq_true.mpr ⟨m, ?_, hmt⟩
        rw [rule.residual_eq]
        exact mem_filter.mpr ⟨hm, by simp [hno]⟩
      have hh : m.reported aho index.patterns d = true → rule.hit aho index.patterns (some d) = true :=
        fun hrp => any_eq_true.mpr ⟨m, hm, hrp⟩
      cases m with
      | full v => exact .inl (.inr (hh hmt))
      | suffix v => exact .inl (.inr (hh hmt))
      | keyword v =>
        by_cases hv : v = []
        · exact .inr (hr (by simp [isIndexable, hv]))
        · obtain ⟨p, hp⟩ := mem_iff_getElem?.mp (mem_of_find?_eq_some hf)
          have hk := h.known p v hv ⟨rule, hp, hm⟩
          exact .inl (.inr (hh (reported_of_disjoint h.nonempty (hd d rfl) hk hmt)))
      | regex _ => exact .inr (hr rfl)
      | asset _ _ => exact .inr (hr rfl)

/-! ### Keywords that overlap -/

section Overlap

def keywordRule (outbound : String) (value : Bytes) : CompiledRule :=
  .compile outbound outbound [.keyword value] [] []

/-- Keyword `abcd` to the first outbound, keyword `b` to the second, and sixty-two rules about
something else. -/
def overlappingRules : List CompiledRule :=
  keywordRule "first" [97, 98, 99, 100] :: keywordRule "second" [98] ::
    List.replicate 62 (keywordRule "other" [120, 121, 122])

/-- A request for `abcd.test`. -/
def overlappingRequest : RouteContext :=
  ⟨Vector.replicate 16 0, ⟨.domain ⟨[97, 98, 99, 100, 46, 116, 101, 115, 116], by decide⟩, 443⟩, []⟩

/-- The automaton reports `b`, restarts behind it and never sees `abcd`: the index takes the second
rule although the first one matches. -/
theorem overlapping_keyword_missed :
    let aho : AhoCorasick := ⟨fun _ => true, scan⟩
    let assets : AssetMatcher := ⟨fun _ _ _ => false, fun _ _ _ => false⟩
    let domain := normalizedDomain overlappingRequest.destination
    selectFromRules aho overlappingRules (RuleIndex.build aho overlappingRules) overlappingRequest domain assets =
        some (keywordRule "second" [98]) ∧
      (overlappingRules.find? fun rule => rule.matches overlappingRequest domain assets) =
        some (keywordRule "first" [97, 98, 99, 100]) ∧
      (keywordRule "second" [98]).outbound ≠ (keywordRule "first" [97, 98, 99, 100]).outbound :=
  ⟨rfl, rfl, by decide⟩

/-- In the domain `b.b` one keyword occurs twice, apart from itself. -/
theorem index_agrees_on_apart :
    let aho : AhoCorasick := ⟨fun _ => true, scan⟩
    ∃ index, RuleIndex.build aho overlappingRules = some index ∧
      selectFromRules aho overlappingRules (some index) overlappingRequest (some [98, 46, 98])
        ⟨fun _ _ _ => false, fun _ _ _ => false⟩ = some (keywordRule "second" [98]) := by
  refine ⟨_, rfl, (index_agrees_of_disjoint rfl _ ?_ _).trans rfl⟩
  have hu : ∀ m, Occurs [[97, 98, 99, 100], [98], [120, 121, 122]] ([98, 46, 98] : Bytes) m →
      m = ⟨1, 0, 1⟩ ∨ m = ⟨1, 2, 3⟩ := by
    rintro ⟨_ | _ | _ | i, start, stop⟩ ⟨before, p, after, hp, ht, hs, he⟩ <;> cases hp <;>
      rcases before with _ | ⟨a, _ | ⟨b, _ | ⟨c, before⟩⟩⟩ <;> simp_all
  rintro _ ⟨⟩ m m' h h'
  rcases hu m h with rfl | rfl <;> rcases hu m' h' with rfl | rfl <;> decide

end Overlap

end RustReality.Routing
