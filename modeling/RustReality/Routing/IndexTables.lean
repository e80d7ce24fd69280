import RustReality.Routing.Index

/-!
# What the index tables hold

`Tables b E` says that the tables of a builder hold exactly the matchers `E` entered so far. Each
matcher, rule and list of rules adds its own entries (`Tables.addMatcher`, `Tables.addRules`), so a
built index holds the indexable matchers of every rule (`build_tables`).
-/

namespace RustReality.Routing
open MultiPattern List Option

namespace PositionMap

theorem mem_get_push {map : PositionMap} {key k : Bytes} {position p : Nat} :
    p ∈ ((map.push key position).get k).getD [] ↔
      p ∈ (map.get k).getD [] ∨ (k = key ∧ p = position) := by
  induction map with
  | nil =>
    by_cases hk : k = key
    · simp [push, get, hk]
    · have : (k == key) = false := by simpa using hk
      simp [push, get, List.lookup, this, hk]
  | cons entry map ih =>
    obtain ⟨k', positions⟩ := entry
    rw [push]
    by_cases hky : key = k'
    · subst hky
      by_cases hk : k = key
      · simp [get, hk]
      · have : (k == key) = false := by simpa using hk
        simp [get, List.lookup, this, hk]
    · rw [if_neg hky]
      by_cases hk : k = k'
      · subst hk
        simp [get, Ne.symm hky]
      · have : (k == k') = false := by simpa using hk
        simpa [get, List.lookup, this] using ih

end PositionMap

variable {position : Nat}

namespace Builder

/-- The tables hold the matchers `E position matcher`, and each keyword pattern has one id. -/
structure Tables (b : Builder) (E : Nat → DomainMatcher → Prop) : Prop where
  full : ∀ v p, p ∈ (b.full.get v).getD [] ↔ E p (.full v)
  suffix : ∀ v p, p ∈ (b.suffix.get v).getD [] ↔ E p (.suffix v)
  ids : ∀ v i, List.lookup v b.keywordIds = some i ↔ b.keywordPatterns[i]? = some v
  length : b.keywordRules.length = b.keywordPatterns.length
  keyword : ∀ i v p, b.keywordPatterns[i]? = some v → (p ∈ b.keywordRules.getD i [] ↔ E p (.keyword v))
  known : ∀ p v, v ≠ [] → E p (.keyword v) → v ∈ b.keywordPatterns
  nonempty : [] ∉ b.keywordPatterns

/-- The entries `E` and those of the matchers of one rule. -/
def enter (E : Nat → DomainMatcher → Prop) (position : Nat) (matchers : List DomainMatcher) :
    Nat → DomainMatcher → Prop :=
  fun p m => E p m ∨ (p = position ∧ m ∈ matchers)

theorem Tables.empty : Tables .empty fun _ _ => False :=
  ⟨by simp [Builder.empty, PositionMap.get], by simp [Builder.empty, PositionMap.get],
    by simp [Builder.empty], rfl, by simp [Builder.empty], by simp, by simp [Builder.empty]⟩

theorem Tables.congr {b : Builder} {E E' : Nat → DomainMatcher → Prop} (h : Tables b E)
    (heq : ∀ p m, E p m ↔ E' p m) : Tables b E' := by
  have : E = E' := by
    funext p m
    exact propext (heq p m)
  exact this ▸ h

variable {b b' : Builder} {E : Nat → DomainMatcher → Prop}

theorem mem_getD_modify {l : List (List Nat)} {i j p q : Nat} :
    p ∈ (l.modify i (· ++ [q])).getD j [] ↔ p ∈ l.getD j [] ∨ (i = j ∧ j < l.length ∧ p = q) := by
  by_cases hj : j < l.length
  · by_cases hij : i = j <;> simp [hj, hij]
  · simp [hj]

variable {value : Bytes}

theorem Tables.addKnownKeyword (h : Tables b E) {position i : Nat} (hi : b.keywordPatterns[i]? = some value) :
    Tables { b with keywordRules := b.keywordRules.modify i (· ++ [position]) }
      (enter E position [.keyword value]) := by
  refine ⟨by simp [enter, h.full], by simp [enter, h.suffix], h.ids, by simp [h.length], ?_, ?_, h.nonempty⟩
  · intro j v p hj
    have hs : i = j ↔ v = value := by
      constructor
      · rintro rfl
        exact Option.some.inj (hj.symm.trans hi)
      · rintro rfl
        have h1 := (h.ids v i).mpr hi
        have h2 := (h.ids v j).mpr hj
        exact Option.some.inj (h1.symm.trans h2)
    have hj' : j < b.keywordRules.length := h.length ▸ (List.getElem?_eq_some_iff.mp hj).1
    rw [mem_getD_modify, h.keyword j v p hj, hs]
    simp [enter, hj', and_comm]
  · rintro p v hne (hE | ⟨-, hv⟩)
    · exact h.known p v hne hE
    · cases mem_singleton.mp hv
      exact mem_of_getElem? hi

theorem getElem?_append_singleton' (l : List Bytes) (a : Bytes) (i : Nat) :
    (l ++ [a])[i]? = if i < l.length then l[i]? else if i = l.length then some a else none := by
  grind

theorem Tables.addNewKeyword (h : Tables b E) (hn : List.lookup value b.keywordIds = none) (hne : value ≠ []) :
    Tables { b with
        keywordPatterns := b.keywordPatterns ++ [value]
        keywordIds := b.keywordIds ++ [(value, b.keywordPatterns.length)]
        keywordRules := (b.keywordRules ++ [[]]).modify b.keywordPatterns.length (· ++ [position]) }
      (enter E position [.keyword value]) := by
  have hf : value ∉ b.keywordPatterns := by
    intro hm
    obtain ⟨i, hi⟩ := mem_iff_getElem?.mp hm
    rw [(h.ids value i).mpr hi] at hn
    cases hn
  -- the tables before, with the new pattern listed for no rule yet
  have hl : Tables { b with
      keywordPatterns := b.keywordPatterns ++ [value]
      keywordIds := b.keywordIds ++ [(value, b.keywordPatterns.length)]
      keywordRules := b.keywordRules ++ [[]] } E := by
    refine ⟨h.full, h.suffix, ?_, by simp [h.length], ?_, fun p v hv hE => ?_, ?_⟩
    · intro v i
      rw [lookup_append, getElem?_append_singleton']
      by_cases hv : v = value
      · subst hv
        have hi : i < b.keywordPatterns.length → b.keywordPatterns[i]? ≠ some v := fun _ hg =>
          hf (mem_of_getElem? hg)
        rw [hn]
        split_ifs with hlt heq
        · simp [hi hlt, Nat.ne_of_gt hlt]
        · simp [heq]
        · simp [Ne.symm heq]
      · have hs : List.lookup v [(value, b.keywordPatterns.length)] = none := by
          have : (v == value) = false := by simpa using hv
          simp [List.lookup, this]
        rw [hs, or_none, h.ids]
        split_ifs with hlt heq
        · rfl
        · simp [heq, Ne.symm hv]
        · simp only [iff_false]
          intro hg
          have := (List.getElem?_eq_some_iff.mp hg).1
          omega
    · intro i v p hi
      rw [getElem?_append_singleton'] at hi
      split_ifs at hi with hlt heq
      · rw [← h.keyword i v p hi, getD_eq_getElem?_getD, getElem?_append_left (h.length ▸ hlt),
          getD_eq_getElem?_getD]
      · cases hi
        have hE : ¬E p (.keyword value) := fun hE => hf (h.known p value hne hE)
        simp [getD_eq_getElem?_getD, heq, ← h.length, hE]
    · exact mem_append_left _ (h.known p v hv hE)
    · simp [h.nonempty, Ne.symm hne]
  exact hl.addKnownKeyword (by simp)

theorem Tables.addKeyword (h : Tables b E) (hne : value ≠ []) (ha : b.addKeyword position value = some b') :
    Tables b' (enter E position [.keyword value]) ∧ b'.always = b.always := by
  unfold Builder.addKeyword at ha
  simp only at ha
  split_ifs at ha
  cases hl : List.lookup value b.keywordIds with
  | some i =>
    simp only [hl, Option.some.injEq] at ha
    subst ha
    exact ⟨h.addKnownKeyword ((h.ids value i).mp hl), rfl⟩
  | none =>
    simp only [hl, Option.some.injEq] at ha
    subst ha
    exact ⟨h.addNewKeyword hl hne, rfl⟩

theorem Tables.addMatcher (h : Tables b E) {m : DomainMatcher} {hit : Bool}
    (ha : b.addMatcher position m = some (b', hit)) :
    Tables b' (enter E position [m]) ∧ hit = m.isIndexable ∧ b'.always = b.always := by
  -- a matcher of another kind leaves every table as it is
  have hs : (∀ v, m ≠ .full v) → (∀ v, m ≠ .suffix v) → (∀ v, v ≠ [] → m ≠ .keyword v) →
      Tables b (enter E position [m]) := by
    intro hf hsf hk
    refine ⟨fun v p => ?_, fun v p => ?_, h.ids, h.length, fun i v p hi => ?_, fun p v hv hE => ?_, h.nonempty⟩
    · simp [h.full, enter, Ne.symm (hf v)]
    · simp [h.suffix, enter, Ne.symm (hsf v)]
    · have hv : v ≠ [] := fun hn => h.nonempty (hn ▸ mem_of_getElem? hi)
      exact (h.keyword i v p hi).trans (by simp [enter, Ne.symm (hk v hv)])
    · rcases hE with hE | ⟨-, hm⟩
      · exact h.known p v hv hE
      · exact absurd (mem_singleton.mp hm).symm (hk v hv)
  cases m with
  | full value =>
    cases ha
    refine ⟨⟨fun v p => ?_, fun v p => ?_, h.ids, h.length, fun i v p hi => ?_, fun p v hv hE => ?_,
      h.nonempty⟩, rfl, rfl⟩
    · rw [PositionMap.mem_get_push, h.full]
      simp [enter, and_comm]
    · simp [h.suffix, enter]
    · exact (h.keyword i v p hi).trans (by simp [enter])
    · exact h.known p v hv (by simpa [enter] using hE)
  | suffix value =>
    cases ha
    refine ⟨⟨fun v p => ?_, fun v p => ?_, h.ids, h.length, fun i v p hi => ?_, fun p v hv hE => ?_,
      h.nonempty⟩, rfl, rfl⟩
    · simp [h.full, enter]
    · rw [PositionMap.mem_get_push, h.suffix]
      simp [enter, and_comm]
    · exact (h.keyword i v p hi).trans (by simp [enter])
    · exact h.known p v hv (by simpa [enter] using hE)
  | keyword value =>
    cases value with
    | nil =>
      cases ha
      exact ⟨hs (by simp) (by simp) (by simp), rfl, rfl⟩
    | cons c value =>
      obtain ⟨b'', hk, heq⟩ := map_eq_some_iff.mp ha
      cases heq
      obtain ⟨ht, hal⟩ := h.addKeyword (cons_ne_nil c value) hk
      exact ⟨ht, rfl, hal⟩
  | regex _ =>
    cases ha
    exact ⟨hs (by simp) (by simp) (by simp), rfl, rfl⟩
  | asset _ _ =>
    cases ha
    exact ⟨hs (by simp) (by simp) (by simp), rfl, rfl⟩

theorem Tables.addMatchers {matchers : List DomainMatcher} (h : Tables b E)
    {indexed indexed' : Bool} (hadd : b.addMatchers position indexed matchers = some (b', indexed')) :
    Tables b' (enter E position matchers) ∧ indexed' = (indexed || matchers.any DomainMatcher.isIndexable) ∧
      b'.always = b.always := by
  induction matchers generalizing b E indexed with
  | nil =>
    cases hadd
    exact ⟨h.congr (by simp [enter]), by simp, rfl⟩
  | cons m matchers ih =>
    obtain ⟨⟨b₁, hit⟩, hf, hr⟩ := bind_eq_some_iff.mp hadd
    obtain ⟨ht, rfl, ha⟩ := h.addMatcher hf
    obtain ⟨ht', rfl, ha'⟩ := ih ht hr
    refine ⟨ht'.congr fun p m' => ?_, by simp [Bool.or_assoc], ha'.trans ha⟩
    simp only [enter, mem_cons]
    tauto

end Builder

/-- A rule that is evaluated on every request: the index does not cover its domain group. -/
def CompiledRule.needsDirect (rule : CompiledRule) : Bool :=
  !rule.domains.any DomainMatcher.isIndexable || !rule.residualDomains.isEmpty

namespace Builder

variable {b b' : Builder} {E : Nat → DomainMatcher → Prop}

theorem Tables.addRule (h : Tables b E) {rule : CompiledRule} (hadd : b.addRule position rule = some b') :
    Tables b' (enter E position rule.domains) ∧
      b'.always = b.always ++ if rule.needsDirect then [position] else [] := by
  obtain ⟨⟨b₁, indexed⟩, hm, hr⟩ := bind_eq_some_iff.mp hadd
  obtain ⟨hta, rfl, ha⟩ := h.addMatchers hm
  have hn : (!(false || rule.domains.any DomainMatcher.isIndexable) || !rule.residualDomains.isEmpty) =
      rule.needsDirect := by rw [Bool.false_or, CompiledRule.needsDirect]
  simp only [hn] at hr
  by_cases hd : rule.needsDirect = true
  · rw [if_pos hd] at hr ⊢
    cases hr
    exact ⟨⟨hta.full, hta.suffix, hta.ids, hta.length, hta.keyword, hta.known,
      hta.nonempty⟩, by rw [ha]⟩
  · rw [if_neg hd] at hr ⊢
    cases hr
    exact ⟨hta, by rw [ha, append_nil]⟩

/-- The entries of a list of rules whose positions start at `position`. -/
def entries (position : Nat) (rules : List CompiledRule) (p : Nat) (m : DomainMatcher) : Prop :=
  ∃ i rule, p = position + i ∧ rules[i]? = some rule ∧ m ∈ rule.domains

theorem entries_cons {rule : CompiledRule} {rules : List CompiledRule} {p : Nat} {m : DomainMatcher} :
    entries position (rule :: rules) p m ↔
      (p = position ∧ m ∈ rule.domains) ∨ entries (position + 1) rules p m := by
  constructor
  · rintro ⟨i, r, rfl, hg, hm⟩
    cases i with
    | zero =>
      cases hg
      exact .inl ⟨rfl, hm⟩
    | succ i => exact .inr ⟨i, r, by omega, hg, hm⟩
  · rintro (⟨rfl, hm⟩ | ⟨i, r, rfl, hg, hm⟩)
    · exact ⟨0, rule, rfl, rfl, hm⟩
    · exact ⟨i + 1, r, by omega, hg, hm⟩

theorem Tables.addRules {rules : List CompiledRule} (h : Tables b E) (hadd : b.addRules position rules = some b') :
    Tables b' (fun p m => E p m ∨ entries position rules p m) ∧
      b'.always = b.always ++
        ((rules.zipIdx position).filter fun r => r.1.needsDirect).map Prod.snd := by
  induction rules generalizing b E position with
  | nil =>
    cases hadd
    exact ⟨h.congr (by simp [entries]), by simp⟩
  | cons rule rules ih =>
    obtain ⟨b₁, hf, hr⟩ := bind_eq_some_iff.mp hadd
    obtain ⟨ht, ha⟩ := h.addRule hf
    obtain ⟨ht', ha'⟩ := ih ht hr
    refine ⟨ht'.congr fun p m => ?_, ?_⟩
    · rw [entries_cons, enter]
      tauto
    · rw [ha', ha, zipIdx_cons, filter_cons]
      cases rule.needsDirect <;> simp

end Builder

end RustReality.Routing
