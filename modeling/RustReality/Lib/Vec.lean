import Mathlib

/-!
# Growable-array operations on lists

`swapRemove` takes an element out by moving the last one into its place; what is left is the list
without that element, up to order. `chunks` cuts a list into consecutive pieces of one size.
`dedup` drops repetitions next to each other, which leaves a sorted list strictly sorted.
-/

namespace RustReality.Vec
open List

variable {α : Type*}

/-- Remove index `i` by moving the last element into it; `none` is the out-of-bounds panic. -/
def swapRemove (l : List α) (i : Nat) : Option (α × List α) :=
  match l[i]?, l.getLast? with
  | some a, some z => some (a, (l.set i z).dropLast)
  | _, _ => none

variable {l : List α}

theorem perm_cons_set {i : Nat} {a : α} (h : l[i]? = some a) (z : α) :
    (l ++ [z]).Perm (a :: l.set i z) := by
  obtain ⟨hi, rfl⟩ := List.getElem?_eq_some_iff.mp h
  have hs : l = l.take i ++ l[i] :: l.drop (i + 1) := by
    rw [← drop_eq_getElem_cons hi, take_append_drop]
  have hst : l.set i z = l.take i ++ z :: l.drop (i + 1) := set_eq_take_append_cons_drop.trans
    (if_pos hi)
  rw [hst]
  calc (l ++ [z]).Perm (z :: l) := perm_append_singleton z l
    _ = z :: (l.take i ++ l[i] :: l.drop (i + 1)) := congrArg (z :: ·) hs
    List.Perm _ (z :: l[i] :: (l.take i ++ l.drop (i + 1))) := perm_middle.cons z
    List.Perm _ (l[i] :: z :: (l.take i ++ l.drop (i + 1))) := List.Perm.swap _ _ _
    List.Perm _ (l[i] :: (l.take i ++ z :: l.drop (i + 1))) := (perm_middle.symm).cons _

theorem swapRemove_spec {i : Nat} (h : i < l.length) :
    ∃ rest, swapRemove l i = some (l[i], rest) ∧ l.Perm (l[i] :: rest) := by
  obtain ⟨init, z, rfl⟩ := eq_nil_or_concat' l |>.resolve_left (by rintro rfl; simp at h)
  have hg : (init ++ [z])[i]? = some (init ++ [z])[i] := getElem?_eq_getElem h
  refine ⟨((init ++ [z]).set i z).dropLast, by simp [swapRemove, hg], ?_⟩
  by_cases hi : i < init.length
  · have ha : init[i]? = some (init ++ [z])[i] := by
      rw [← hg, getElem?_append_left hi]
    rw [set_append_left _ _ hi, dropLast_concat]
    exact perm_cons_set ha z
  · have hl : i = init.length := by
      simp only [length_append, length_singleton] at h
      omega
    subst hl
    simp

/-- Consecutive pieces of `n` elements, the last one possibly shorter. -/
def chunks (n : Nat) (l : List α) : List (List α) :=
  (List.range ((l.length + (n - 1)) / n)).map fun i => (l.drop (i * n)).take n

@[simp] theorem length_chunks (n : Nat) (l : List α) :
    (chunks n l).length = (l.length + (n - 1)) / n := by
  simp [chunks]

theorem flatten_pieces (n : Nat) (l : List α) (k : Nat) :
    ((List.range k).map fun i => (l.drop (i * n)).take n).flatten = l.take (k * n) := by
  induction k with
  | zero => simp
  | succ k ih =>
    rw [range_succ, map_append, flatten_append, ih, Nat.succ_mul, take_add]
    simp

theorem flatten_chunks {n : Nat} (hn : 0 < n) (l : List α) : (chunks n l).flatten = l := by
  rw [chunks, flatten_pieces]
  apply take_of_length_le
  have hd : _ < (l.length + (n - 1)) / n * n + n := Nat.lt_div_mul_add hn
  omega

theorem chunks_pos {n : Nat} (hn : 0 < n) {i : Nat} {c : List α} (h : (chunks n l)[i]? = some c) : 0 < c.length := by
  obtain ⟨hi, rfl⟩ := List.getElem?_eq_some_iff.mp h
  rw [length_chunks, Nat.lt_iff_add_one_le, Nat.le_div_iff_mul_le hn, Nat.succ_mul] at hi
  simp only [chunks, getElem_map, getElem_range, length_take, length_drop]
  omega

theorem exists_perm_map {β : Type*} {f : α → β} {l l' : List β} (h : l.Perm l') {xs : List α}
    (hm : xs.map f = l') : ∃ ys : List α, ys.Perm xs ∧ ys.map f = l := by
  induction h generalizing xs with
  | nil => exact ⟨xs, .refl _, hm⟩
  | @cons b l l' _ ih =>
    obtain ⟨x, xs, rfl, rfl, hr⟩ := map_eq_cons_iff.1 hm
    obtain ⟨ys, hp, hys⟩ := ih hr
    exact ⟨x :: ys, hp.cons x, by rw [map_cons, hys]⟩
  | swap b c l =>
    obtain ⟨x, xs, rfl, rfl, hr⟩ := map_eq_cons_iff.1 hm
    obtain ⟨y, xs, rfl, rfl, rfl⟩ := map_eq_cons_iff.1 hr
    exact ⟨y :: x :: xs, .swap _ _ _, rfl⟩
  | trans _ _ ih ih' =>
    obtain ⟨ys, hp, hys⟩ := ih' hm
    obtain ⟨zs, hp', hzs⟩ := ih hys
    exact ⟨zs, hp'.trans hp, hzs⟩

/-! ### Removing repetitions -/

section Dedup
variable [DecidableEq α]

/-- Keep `last` and what follows it, dropping elements equal to the one before. -/
def dedupAfter (last : α) : List α → List α
  | [] => [last]
  | a :: l => if a = last then dedupAfter last l else last :: dedupAfter a l

def dedup : List α → List α
  | [] => []
  | a :: l => dedupAfter a l

theorem mem_dedupAfter {last a : α} : a ∈ dedupAfter last l ↔ a = last ∨ a ∈ l := by
  induction l generalizing last with
  | nil => simp [dedupAfter]
  | cons b l ih =>
    rw [dedupAfter]
    split_ifs with hb
    · subst hb
      rw [ih, mem_cons, or_self_left]
    · rw [mem_cons, ih, mem_cons]

@[simp] theorem mem_dedup {a : α} {l : List α} : a ∈ dedup l ↔ a ∈ l := by
  cases l with
  | nil => rfl
  | cons b l => rw [dedup, mem_dedupAfter, mem_cons]

theorem pairwise_lt_dedupAfter [PartialOrder α] {last : α}
    (h : (last :: l).Pairwise (· ≤ ·)) : (dedupAfter last l).Pairwise (· < ·) := by
  induction l generalizing last with
  | nil => simp [dedupAfter]
  | cons b l ih =>
    obtain ⟨hl, ht⟩ := pairwise_cons.mp h
    rw [dedupAfter]
    split_ifs with hb
    · subst hb
      exact ih ht
    · have hlt : last < b := lt_of_le_of_ne (hl b mem_cons_self) (Ne.symm hb)
      refine pairwise_cons.mpr ⟨fun a ha => ?_, ih ht⟩
      rcases mem_dedupAfter.mp ha with rfl | ha
      · exact hlt
      · exact lt_of_lt_of_le hlt ((pairwise_cons.mp ht).1 a ha)

theorem pairwise_lt_dedup [PartialOrder α] (h : l.Pairwise (· ≤ ·)) :
    (dedup l).Pairwise (· < ·) := by
  cases l with
  | nil => exact .nil
  | cons a l => exact pairwise_lt_dedupAfter h

end Dedup

/-! ### Visiting candidates only -/

/-- Visiting candidate positions in ascending order finds the first element that satisfies `q`, if
every such element is a candidate and each candidate is tested as `q` would. -/
theorem findSome?_candidates {β : Type*} {q : α → Bool} {cs : List (Nat × β)}
    (test : β → α → Bool) (hsr : (cs.map Prod.fst).Pairwise (· < ·))
    (hsb : ∀ c ∈ cs, ∀ a, l[c.1]? = some a → test c.2 a = q a)
    (hal : ∀ i a, l[i]? = some a → q a = true → ∃ tag, (i, tag) ∈ cs) :
    (cs.findSome? fun c => l[c.1]?.filter (test c.2)) = l.find? q := by
  have hsk : ∀ c ∈ cs, (∀ a, l[c.1]? = some a → q a = false) → l[c.1]?.filter (test c.2) = none := by
    intro c hc hno
    rw [Option.filter_eq_none_iff]
    intro a ha
    rw [hsb c hc a ha, hno a ha]
    simp
  cases hf : l.find? q with
  | none =>
    refine findSome?_eq_none_iff.mpr fun c hc => hsk c hc fun a ha => ?_
    simpa using find?_eq_none.mp hf a (mem_of_getElem? ha)
  | some a =>
    obtain ⟨hqa, i, hi, hg, hfr⟩ := find?_eq_some_iff_getElem.mp hf
    have hai : l[i]? = some a := by rw [getElem?_eq_getElem hi, hg]
    obtain ⟨tag, hm⟩ := hal i a hai hqa
    obtain ⟨before, after, hs⟩ := append_of_mem hm
    refine findSome?_eq_some_iff.mpr ⟨before, (i, tag), after, hs, ?_, fun c hc => ?_⟩
    · rw [hai, Option.filter_some, hsb (i, tag) hm a hai, if_pos hqa]
    · have hc' : c ∈ cs := by simp [hs, hc]
      have hlt : c.1 < i := by
        rw [hs, map_append, map_cons] at hsr
        exact (pairwise_append.mp hsr).2.2 c.1 (mem_map_of_mem hc) i mem_cons_self
      refine hsk c hc' fun b hb => ?_
      have hg : l[c.1] = b := by
        rw [getElem?_eq_getElem (by omega)] at hb
        exact Option.some.inj hb
      simpa [hg] using hfr c.1 hlt

end RustReality.Vec
