import RustReality.Routing.Rules
import RustReality.Lib.MultiPattern
import RustReality.Lib.Vec

/-!
# The candidate index

For a list of at least `indexedRuleLimit` rules the index maps matcher values to rule positions.
A request visits the rules it hits and the rules that always need direct evaluation, in rule order.
The keyword automaton is a parameter (`AhoCorasick`) of which only its documented search semantics
and the possibility that it cannot be built are known.
-/

namespace RustReality.Routing
open Vless MultiPattern

def indexedRuleLimit : Nat := 64

/-- The keyword automaton: which pattern lists it can be built for, and its searches. -/
structure AhoCorasick where
  builds : List Bytes → Bool
  searcher : Searcher UInt8

/-! ### Building -/

/-- A map from matcher values to rule positions, at most one entry for each value. -/
abbrev PositionMap := List (Bytes × List Nat)

namespace PositionMap

def get (map : PositionMap) (key : Bytes) : Option (List Nat) := List.lookup key map

/-- `entry(key).or_default().push(position)` -/
def push (key : Bytes) (position : Nat) : PositionMap → PositionMap
  | [] => [(key, [position])]
  | (k, positions) :: map =>
    if key = k then (k, positions ++ [position]) :: map else (k, positions) :: push key position map

end PositionMap

/-- The tables `RuleIndex::build` fills. -/
structure Builder where
  full : PositionMap
  suffix : PositionMap
  keywordPatterns : List Bytes
  keywordIds : List (Bytes × Nat)
  keywordRules : List (List Nat)
  always : List Nat

namespace Builder

def empty : Builder := ⟨[], [], [], [], [], []⟩

variable (self : Builder) (position : Nat)

/-- Enter a keyword: its pattern id is the one it has, or the next one. -/
def addKeyword (value : Bytes) : Option Builder :=
  let next := self.keywordPatterns.length
  if next ≥ 2 ^ 32 then none
  else
    match List.lookup value self.keywordIds with
    | some pattern =>
      some { self with keywordRules := self.keywordRules.modify pattern (· ++ [position]) }
    | none =>
      some { self with
        keywordPatterns := self.keywordPatterns ++ [value]
        keywordIds := self.keywordIds ++ [(value, next)]
        keywordRules := (self.keywordRules ++ [[]]).modify next (· ++ [position]) }

/-- Enter one matcher of the rule at a position; the flag says whether it was indexed. -/
def addMatcher : DomainMatcher → Option (Builder × Bool)
  | .full value => some ({ self with full := self.full.push value position }, true)
  | .suffix value => some ({ self with suffix := self.suffix.push value position }, true)
  | .keyword value =>
    if value.isEmpty then some (self, false)
    else (self.addKeyword position value).map fun self => (self, true)
  | .regex _ => some (self, false)
  | .asset _ _ => some (self, false)

def addMatchers (self : Builder) (position : Nat) (indexed : Bool) :
    List DomainMatcher → Option (Builder × Bool)
  | [] => some (self, indexed)
  | matcher :: matchers => do
    let (self, hit) ← self.addMatcher position matcher
    self.addMatchers position (indexed || hit) matchers

def addRule (rule : CompiledRule) : Option Builder := do
  let (self, indexed) ← self.addMatchers position false rule.domains
  if !indexed || !rule.residualDomains.isEmpty then
    return { self with always := self.always ++ [position] }
  return self

def addRules (self : Builder) (position : Nat) : List CompiledRule → Option Builder
  | [] => some self
  | rule :: rules => do
    let self ← self.addRule position rule
    self.addRules (position + 1) rules

end Builder

structure RuleIndex where
  full : PositionMap
  suffix : PositionMap
  /-- The patterns of the automaton, if there is one. -/
  keywords : Option (List Bytes)
  keywordRules : List (List Nat)
  always : List Nat

namespace RuleIndex

variable (aho : AhoCorasick)

def build (rules : List CompiledRule) : Option RuleIndex :=
  if rules.length < indexedRuleLimit ∨ rules.length ≥ 2 ^ 32 then none
  else do
    let tables ← Builder.empty.addRules 0 rules
    if tables.keywordPatterns = [] then
      return ⟨tables.full, tables.suffix, none, tables.keywordRules, tables.always⟩
    else if aho.builds tables.keywordPatterns then
      return ⟨tables.full, tables.suffix, some tables.keywordPatterns, tables.keywordRules, tables.always⟩
    else none

/-! ### Looking up -/

def labelTails : Bytes → List Bytes
  | [] => []
  | b :: rest => if b = dot then rest :: labelTails rest else labelTails rest

variable (self : RuleIndex) (domain : Bytes)

/-- Positions of suffix matchers: the domain itself, then what follows each of its dots. -/
def suffixHits : List Nat :=
  (self.suffix.get domain).getD [] ++
    (labelTails domain).flatMap fun tail => (self.suffix.get tail).getD []

def keywordHits : List Nat :=
  match self.keywords with
  | none => []
  | some patterns =>
    (findIter aho.searcher patterns domain).flatMap fun found => self.keywordRules.getD found.pattern []

/-- Positions the index tables hold for a domain, in the order they are read. -/
def hits : List Nat :=
  (self.full.get domain).getD [] ++ self.suffixHits domain ++ self.keywordHits aho domain

end RuleIndex

structure OrderedCandidates where
  always : List Nat
  hits : List Nat

namespace OrderedCandidates

def next : OrderedCandidates → Option ((Nat × Bool) × OrderedCandidates)
  | ⟨a :: always, h :: hits⟩ =>
    if a < h then some ((a, false), ⟨always, h :: hits⟩)
    else if h < a then some ((h, true), ⟨a :: always, hits⟩)
    else some ((a, true), ⟨always, hits⟩)
  | ⟨a :: always, []⟩ => some ((a, false), ⟨always, []⟩)
  | ⟨[], h :: hits⟩ => some ((h, true), ⟨[], hits⟩)
  | ⟨[], []⟩ => none

def takeAll : Nat → OrderedCandidates → List (Nat × Bool)
  | 0, _ => []
  | fuel + 1, self =>
    match self.next with
    | none => []
    | some (candidate, self) => candidate :: takeAll fuel self

def toList (self : OrderedCandidates) : List (Nat × Bool) :=
  takeAll (self.always.length + self.hits.length) self

end OrderedCandidates

def RuleIndex.orderedCandidates (aho : AhoCorasick) (self : RuleIndex) (domain : Option Bytes) :
    OrderedCandidates :=
  let hits := match domain with
    | none => []
    | some domain => self.hits aho domain
  ⟨self.always, Vec.dedup (hits.insertionSort (· ≤ ·))⟩

/-- The first rule whose condition groups all match: an ordered scan without an index, a visit of the
candidates in order with one. -/
def selectFromRules (aho : AhoCorasick) (rules : List CompiledRule) (index : Option RuleIndex)
    (context : RouteContext) (domain : Option Bytes) (assets : AssetMatcher) : Option CompiledRule :=
  match index with
  | none => rules.find? fun rule => rule.matches context domain assets
  | some index =>
    (index.orderedCandidates aho domain).toList.findSome? fun (position, hit) =>
      rules[position]?.filter fun rule => rule.matchesIndexed hit context domain assets

end RustReality.Routing
