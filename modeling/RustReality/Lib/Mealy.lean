import Mathlib

/-!
# Deterministic machines with outputs

A component driven by a script of calls is a function `step : σ → ι → σ × ω`. This module runs such
a step function over a list of inputs and packages the two inductions every later module needs: an
invariant kept by one step is kept by a run, and a relation kept by one step with equal outputs
makes two machines indistinguishable.
-/

namespace RustReality.Mealy

variable {σ τ ι ω : Type*}

/-- Run a step function over a script of inputs, collecting the outputs in order. -/
def run (step : σ → ι → σ × ω) : σ → List ι → σ × List ω
  | s, [] => (s, [])
  | s, i :: is =>
    let r := step s i
    let rest := run step r.1 is
    (rest.1, r.2 :: rest.2)

variable {step : σ → ι → σ × ω}

@[simp] theorem run_nil (s : σ) : run step s [] = (s, []) := rfl

@[simp] theorem run_cons (s : σ) (i : ι) (is : List ι) :
    run step s (i :: is) =
      ((run step (step s i).1 is).1, (step s i).2 :: (run step (step s i).1 is).2) := rfl

theorem run_append (s : σ) (is js : List ι) :
    run step s (is ++ js) =
      ((run step (run step s is).1 js).1, (run step s is).2 ++ (run step (run step s is).1 js).2) := by
  induction is generalizing s with
  | nil => simp
  | cons i is ih => simp [ih]

theorem length_outputs (s : σ) (is : List ι) : (run step s is).2.length = is.length := by
  induction is generalizing s with
  | nil => rfl
  | cons i is ih => simp [ih]

theorem getElem?_outputs (s : σ) (is : List ι) (i : ι) (js : List ι) :
    (run step s (is ++ i :: js)).2[is.length]? = some (step (run step s is).1 i).2 := by
  simp only [run_append]
  rw [List.getElem?_append_right (Nat.le_of_eq (length_outputs s is)), length_outputs]
  simp

theorem run_invariant {Inv : σ → Prop} (hstep : ∀ s i, Inv s → Inv (step s i).1)
    {s : σ} (hs : Inv s) (is : List ι) : Inv (run step s is).1 := by
  induction is generalizing s with
  | nil => exact hs
  | cons i is ih => exact ih (hstep s i hs)

/-- The invariant rule for invariants that also speak about the calls made and the answers given. -/
theorem run_trace_invariant {Inv : σ → List (ι × ω) → Prop}
    (hstep : ∀ s trace i, Inv s trace → Inv (step s i).1 (trace ++ [(i, (step s i).2)]))
    {s : σ} {trace : List (ι × ω)} (hs : Inv s trace) (is : List ι) :
    Inv (run step s is).1 (trace ++ is.zip (run step s is).2) := by
  induction is generalizing s trace with
  | nil => simpa using hs
  | cons i is ih => simpa using ih (hstep s trace i hs)

/-- The simulation rule: related states that answer alike and stay related answer alike for ever. -/
theorem run_simulates {step' : τ → ι → τ × ω} {R : σ → τ → Prop}
    (hs : ∀ s t i, R s t → R (step s i).1 (step' t i).1 ∧ (step s i).2 = (step' t i).2)
    {s : σ} {t : τ} (h : R s t) (is : List ι) :
    R (run step s is).1 (run step' t is).1 ∧ (run step s is).2 = (run step' t is).2 := by
  induction is generalizing s t with
  | nil => exact ⟨h, rfl⟩
  | cons i is ih =>
    obtain ⟨hR, ho⟩ := hs s t i h
    obtain ⟨hR', ho'⟩ := ih hR
    exact ⟨hR', by simp [ho, ho']⟩

/-- The invariant rule for runs each step of which is allowed in the state it is taken in. -/
theorem foldl_invariant {step : σ → ι → σ} {init : σ} {Inv : σ → Prop} {Allowed : σ → ι → Prop} (hinit : Inv init)
    (hstep : ∀ s i, Inv s → Allowed s i → Inv (step s i)) {is : List ι}
    (hallowed : ∀ k (hk : k < is.length), Allowed ((is.take k).foldl step init) is[k]) (k : ℕ) :
    Inv ((is.take k).foldl step init) := by
  induction k with
  | zero => exact hinit
  | succ k ih =>
    by_cases hk : k < is.length
    · rw [List.take_add_one, List.getElem?_eq_getElem hk, List.foldl_append]
      exact hstep _ _ ih (hallowed k hk)
    · rwa [List.take_of_length_le (by omega), ← List.take_of_length_le (not_lt.1 hk)]

/-! ### Stream transducers

A machine that reads a stream element by element and emits a few elements for each of them. How the
stream is cut into pieces makes no difference to such a machine. -/

section Transduce

variable {α β : Type*}

/-- Feed a whole list to a transducer: the state it ends in and all it emitted. -/
def feedAll (feed : σ → α → σ × List β) : σ → List α → σ × List β
  | s, [] => (s, [])
  | s, a :: as =>
    let r := feed s a
    let rest := feedAll feed r.1 as
    (rest.1, r.2 ++ rest.2)

variable {feed : σ → α → σ × List β}

@[simp] theorem feedAll_nil (s : σ) : feedAll feed s [] = (s, []) := rfl

theorem feedAll_cons (s : σ) (a : α) (as : List α) :
    feedAll feed s (a :: as) =
      ((feedAll feed (feed s a).1 as).1, (feed s a).2 ++ (feedAll feed (feed s a).1 as).2) := rfl

theorem feedAll_append (s : σ) (as bs : List α) :
    feedAll feed s (as ++ bs) = ((feedAll feed (feedAll feed s as).1 bs).1,
      (feedAll feed s as).2 ++ (feedAll feed (feedAll feed s as).1 bs).2) := by
  induction as generalizing s with
  | nil => simp
  | cons a as ih => simp [feedAll_cons, ih]

end Transduce

/-! ### Steps that may fault -/

variable {ε : Type*}

def runE (step : σ → ι → Except ε (σ × ω)) : σ → List ι → Except ε (σ × List ω)
  | s, [] => .ok (s, [])
  | s, i :: is => do
    let (s, o) ← step s i
    let (s, os) ← runE step s is
    return (s, o :: os)

theorem runE_cons {step : σ → ι → Except ε (σ × ω)} {s s' s'' : σ} {i : ι} {is : List ι} {o : ω}
    {os : List ω} (hs : step s i = .ok (s', o)) (hr : runE step s' is = .ok (s'', os)) :
    runE step s (i :: is) = .ok (s'', o :: os) := by
  simp only [runE, hs]
  show (runE step s' is >>= fun r => pure (r.1, o :: r.2)) = _
  rw [hr]
  rfl

/-- The invariant rule with progress: if from every state with the invariant a step succeeds, keeps
the invariant and meets its postcondition, then every run succeeds and meets all of them. -/
theorem runE_invariant {step : σ → ι → Except ε (σ × ω)} {Inv : σ → Prop} {Post : ι → ω → Prop}
    (hstep : ∀ s i, Inv s → ∃ s' o, step s i = .ok (s', o) ∧ Inv s' ∧ Post i o)
    {s : σ} (hs : Inv s) (is : List ι) :
    ∃ s' os, runE step s is = .ok (s', os) ∧ Inv s' ∧ List.Forall₂ Post is os := by
  induction is generalizing s with
  | nil => exact ⟨s, [], rfl, hs, .nil⟩
  | cons i is ih =>
    obtain ⟨s', o, hs', hInv, hp⟩ := hstep s i hs
    obtain ⟨s'', os, hr, hInv', hps⟩ := ih hInv
    exact ⟨s'', o :: os, runE_cons hs' hr, hInv', .cons hp hps⟩

end RustReality.Mealy
