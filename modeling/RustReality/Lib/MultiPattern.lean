import Mathlib

/-!
# Searching a text for several patterns

The standard match semantics of a multi-pattern automaton: a search from a position reports the
occurrence that ends first, and the iterator restarts where the last match ended. Matches never
overlap, so an occurrence is lost when one that ends earlier overlaps it, and none is lost when
occurrences are pairwise disjoint (`mem_findIter_of_disjoint`).
-/

namespace RustReality.MultiPattern
open List

variable {α : Type}

structure Found where
  pattern : Nat
  start : Nat
  stop : Nat
  deriving DecidableEq, Repr

def Occurs (patterns : List (List α)) (text : List α) (m : Found) : Prop :=
  ∃ before p after, patterns[m.pattern]? = some p ∧ text = before ++ p ++ after ∧
    m.start = before.length ∧ m.stop = before.length + p.length

/-- A search for the occurrence that ends first among those that start at a position or later. Which
one it reports among several that end at the same place is not specified. -/
structure Searcher (α : Type) where
  findAt : List (List α) → List α → Nat → Option Found
  sound : ∀ {patterns text position m}, findAt patterns text position = some m →
    Occurs patterns text m ∧ position ≤ m.start
  earliest : ∀ {patterns text position m m'}, findAt patterns text position = some m →
    Occurs patterns text m' → position ≤ m'.start → m.stop ≤ m'.stop
  complete : ∀ {patterns text position m}, findAt patterns text position = none →
    Occurs patterns text m → m.start < position

/-- The matches from a position on, each search starting where the last match stopped. -/
def findFrom (s : Searcher α) (patterns : List (List α)) (text : List α) : Nat → Nat → List Found
  | 0, _ => []
  | fuel + 1, position =>
    match s.findAt patterns text position with
    | none => []
    | some m => m :: findFrom s patterns text fuel m.stop

def findIter (s : Searcher α) (patterns : List (List α)) (text : List α) : List Found :=
  findFrom s patterns text (text.length + 1) 0

variable {s : Searcher α} {patterns : List (List α)} {text : List α} {m : Found}

theorem occurs_of_mem_findFrom {fuel position : Nat} (h : m ∈ findFrom s patterns text fuel position) :
    Occurs patterns text m := by
  induction fuel generalizing position with
  | zero => cases h
  | succ fuel ih =>
    rw [findFrom] at h
    cases hf : s.findAt patterns text position with
    | none =>
      rw [hf] at h
      cases h
    | some m' =>
      rw [hf] at h
      rcases mem_cons.mp h with rfl | h
      · exact (s.sound hf).1
      · exact ih h

theorem occurs_of_mem_findIter (h : m ∈ findIter s patterns text) : Occurs patterns text m :=
  occurs_of_mem_findFrom h

theorem Occurs.stop_le (h : Occurs patterns text m) :
    m.stop ≤ text.length := by
  obtain ⟨before, p, after, -, rfl, -, hs⟩ := h
  simp only [hs, length_append]
  omega

theorem Occurs.start_lt (h : Occurs patterns text m) (hne : [] ∉ patterns) : m.start < m.stop := by
  obtain ⟨before, p, after, hp, -, hst, hs⟩ := h
  have : 0 < p.length := length_pos_of_ne_nil fun hn => hne (hn ▸ mem_of_getElem? hp)
  omega

def Disjoint (patterns : List (List α)) (text : List α) : Prop :=
  ∀ m m', Occurs patterns text m → Occurs patterns text m' → m = m' ∨ m.stop ≤ m'.start ∨ m'.stop ≤ m.start

theorem mem_findFrom_of_disjoint
    (hd : Disjoint patterns text) (hne : [] ∉ patterns) (hm : Occurs patterns text m)
    {fuel position : Nat} (hfuel : text.length < fuel + position) (hp : position ≤ m.start) :
    m ∈ findFrom s patterns text fuel position := by
  induction fuel generalizing position with
  | zero =>
    have h1 := hm.stop_le
    have h2 := hm.start_lt hne
    omega
  | succ fuel ih =>
    rw [findFrom]
    cases hf : s.findAt patterns text position with
    | none =>
      have := s.complete hf hm
      omega
    | some m' =>
      obtain ⟨hm', hp'⟩ := s.sound hf
      have hlt := hm'.start_lt hne
      -- the match found ends first, so a different occurrence lies behind it
      rcases hd m m' hm hm' with rfl | hbf | hb
      · exact mem_cons_self
      · have := s.earliest hf hm hp
        omega
      · exact mem_cons_of_mem _ (ih (by omega) hb)

/-- When occurrences are pairwise disjoint the iterator reports all of them. -/
theorem mem_findIter_of_disjoint
    (hd : Disjoint patterns text) (hne : [] ∉ patterns) (hm : Occurs patterns text m) :
    m ∈ findIter s patterns text :=
  mem_findFrom_of_disjoint hd hne hm (by omega) (Nat.zero_le _)

/-! ### A searcher by exhaustive search -/

section Scan
variable [DecidableEq α]

/-- The pattern that ends at `stop` and starts at `position` or later, the one listed first if there
are several. -/
def endingAt (patterns : List (List α)) (text : List α) (position stop : Nat) : Option Found :=
  patterns.zipIdx.findSome? fun (p, i) =>
    if position + p.length ≤ stop ∧ (text.drop (stop - p.length)).take p.length = p then
      some ⟨i, stop - p.length, stop⟩
    else none

def scanAt (patterns : List (List α)) (text : List α) (position : Nat) : Option Found :=
  (List.range (text.length + 1)).findSome? (endingAt patterns text position)

theorem endingAt_some {position stop : Nat}
    (h : endingAt patterns text position stop = some m) (hstop : stop ≤ text.length) :
    Occurs patterns text m ∧ position ≤ m.start ∧ m.stop = stop := by
  obtain ⟨⟨p, i⟩, hm, ht⟩ := exists_of_findSome?_eq_some h
  simp only [Option.ite_none_right_eq_some, Option.some.injEq] at ht
  obtain ⟨⟨hl, htk⟩, rfl⟩ := ht
  refine ⟨⟨text.take (stop - p.length), p, text.drop stop, mem_zipIdx_iff_getElem?.mp hm, ?_, ?_, ?_⟩,
    by simp only; omega, rfl⟩
  · have hs : text.drop (stop - p.length) = p ++ text.drop stop := by
      conv_lhs => rw [← take_append_drop p.length (text.drop (stop - p.length))]
      rw [htk, drop_drop, Nat.sub_add_cancel (by omega)]
    rw [append_assoc, ← hs, take_append_drop]
  · simp only [length_take]
    omega
  · simp only [length_take]
    omega

theorem endingAt_isSome {position : Nat} (h : Occurs patterns text m) (hpos : position ≤ m.start) :
    (endingAt patterns text position m.stop).isSome := by
  obtain ⟨before, p, after, hp, rfl, hst, hs⟩ := h
  rw [endingAt, findSome?_isSome_iff]
  refine ⟨(p, m.pattern), mem_zipIdx_iff_getElem?.mpr hp, ?_⟩
  have hc : m.stop - p.length = before.length := by omega
  have ht : position + p.length ≤ m.stop ∧
      ((before ++ p ++ after).drop (m.stop - p.length)).take p.length = p :=
    ⟨by omega, by rw [hc, append_assoc, drop_left, take_left]⟩
  simp only [if_pos ht, Option.isSome_some]

def scan : Searcher α where
  findAt := scanAt
  sound h := by
    obtain ⟨stop, hmem, hend⟩ := exists_of_findSome?_eq_some h
    obtain ⟨hoccurs, hpos, -⟩ := endingAt_some hend (Nat.le_of_lt_succ (mem_range.mp hmem))
    exact ⟨hoccurs, hpos⟩
  earliest {patterns text position m m'} h hm' hpos := by
    obtain ⟨before, stop, after, hsplit, hend, hnone⟩ := findSome?_eq_some_iff.mp h
    have hsorted := hsplit ▸ pairwise_lt_range
    have hmem : m'.stop ∈ before ++ stop :: after := by
      rw [← hsplit]
      exact mem_range.mpr (Nat.lt_succ_of_le hm'.stop_le)
    have hle : stop ≤ text.length := by
      have : stop ∈ List.range (text.length + 1) := by simp [hsplit]
      exact Nat.le_of_lt_succ (mem_range.mp this)
    rw [(endingAt_some hend hle).2.2]
    rcases mem_append.mp hmem with hbefore | hafter
    · have hsome := endingAt_isSome hm' hpos
      simp [hnone _ hbefore] at hsome
    · rcases mem_cons.mp hafter with heq | hafter
      · omega
      · have := (pairwise_cons.mp (pairwise_append.mp hsorted).2.1).1 _ hafter
        omega
  complete {patterns text position m} h hm := by
    by_contra hpos
    have hnone := findSome?_eq_none_iff.mp h m.stop (by simpa using Nat.lt_succ_of_le hm.stop_le)
    have hsome := endingAt_isSome hm (Nat.le_of_not_lt hpos)
    simp [hnone] at hsome

end Scan

end RustReality.MultiPattern
