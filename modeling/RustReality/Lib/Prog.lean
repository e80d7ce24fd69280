import Mathlib

/-!
# Programs over a state that may fail

A program keeps its state when it fails: what a reader has taken off a socket is still there. `Meets`
gives a program a precondition and postconditions for both ends. `Simulates` compares it with a
specification over a state of its own: both return the same values, and a failure of the program is
one of the specification unless it is a fault of the machine the program runs on.
-/

namespace RustReality

def Prog (σ ε α : Type) := σ → σ × Except ε α

namespace Prog

variable {σ τ ε α β : Type}

instance : Monad (Prog σ ε) where
  pure value := fun s => (s, .ok value)
  bind first next := fun s =>
    match first s with
    | (s, .ok value) => next value s
    | (s, .error error) => (s, .error error)

def fail (error : ε) : Prog σ ε α := fun s => (s, .error error)

def asks (view : σ → α) : Prog σ ε α := fun s => (s, .ok (view s))

def modify (update : σ → σ) : Prog σ ε Unit := fun s => (update s, .ok ())

theorem bind_run (first : Prog σ ε α) (next : α → Prog σ ε β) (s : σ) :
    (first >>= next) s =
      match first s with
      | (s, .ok value) => next value s
      | (s, .error error) => (s, .error error) := rfl

def Ends (Q : α → σ → Prop) (E : ε → σ → Prop) : σ × Except ε α → Prop
  | (s, .ok value) => Q value s
  | (s, .error error) => E error s

/-- Started in `P`, the program ends in `Q` with a value or in `E` with an error. -/
def Meets (P : σ → Prop) (m : Prog σ ε α) (Q : α → σ → Prop) (E : ε → σ → Prop) : Prop := ∀ s, P s → Ends Q E (m s)

variable {m : Prog σ ε α}

namespace Meets

variable {P : σ → Prop} {Q : α → σ → Prop} {R : β → σ → Prop} {E : ε → σ → Prop}

theorem pure (value : α) (h : ∀ s, P s → Q value s) : Meets P (Pure.pure value : Prog σ ε α) Q E := h

theorem fail (error : ε) (h : ∀ s, P s → E error s) : Meets P (Prog.fail error : Prog σ ε α) Q E := h

theorem bind {next : α → Prog σ ε β} (hm : Meets P m Q E) (hn : ∀ value, Meets (Q value) (next value) R E) :
    Meets P (m >>= next) R E := by
  intro s hs
  have hf := hm s hs
  rw [bind_run]
  generalize m s = outcome at hf ⊢
  obtain ⟨mid, error | value⟩ := outcome
  · exact hf
  · exact hn value mid hf

theorem ite {c : Prop} [Decidable c] {m m' : Prog σ ε α} (ht : c → Meets P m Q E) (he : ¬c → Meets P m' Q E) :
    Meets P (if c then m else m') Q E := by
  split_ifs with h
  · exact ht h
  · exact he h

end Meets

/-- The program does what the specification does. A failure leaves it in `Stop`, and `fault` says which
failures are its own. -/
def Simulates (I : τ → σ → Prop) (m : Prog σ ε α) (spec : Prog τ ε α) (J : α → τ → σ → Prop)
    (Stop : σ → Prop) (fault : ε → Prop) : Prop :=
  ∀ t s, I t s →
    Ends (fun value s' => ∃ t', spec t = (t', .ok value) ∧ J value t' s')
      (fun error s' => Stop s' ∧ ((spec t).2 = .error error ∨ fault error)) (m s)

namespace Simulates

variable {I I' : τ → σ → Prop} {J J' : α → τ → σ → Prop} {K : β → τ → σ → Prop} {Stop : σ → Prop} {fault : ε → Prop}

theorem pure (value : α) (h : ∀ t s, I t s → J value t s) :
    Simulates I (Pure.pure value : Prog σ ε α) (Pure.pure value) J Stop fault := fun t s hI => ⟨t, rfl, h t s hI⟩

theorem fail (error : ε) (hs : ∀ t s, I t s → Stop s) :
    Simulates I (Prog.fail error : Prog σ ε α) (Prog.fail error) J Stop fault :=
  fun t s h => ⟨hs t s h, .inl rfl⟩

variable {spec : Prog τ ε α}

theorem bind {next : α → Prog σ ε β} {rest : α → Prog τ ε β}
    (hm : Simulates I m spec J Stop fault) (hn : ∀ value, Simulates (J value) (next value) (rest value) K Stop fault) :
    Simulates I (m >>= next) (spec >>= rest) K Stop fault := by
  intro t s hI
  have hf := hm t s hI
  rw [bind_run, bind_run]
  generalize m s = outcome at hf ⊢
  obtain ⟨mid, error | value⟩ := outcome
  · obtain ⟨hs, he | hfa⟩ := hf
    · generalize spec t = outcome at he ⊢
      obtain ⟨t', outcome⟩ := outcome
      cases he
      exact ⟨hs, .inl rfl⟩
    · exact ⟨hs, .inr hfa⟩
  · obtain ⟨t', hsp, hJ⟩ := hf
    rw [hsp]
    exact hn value t' mid hJ

theorem weaken (hm : Simulates I m spec J Stop fault) (himp : ∀ t s, I' t s → I t s)
    (hp : ∀ value t s, J value t s → J' value t s) : Simulates I' m spec J' Stop fault := by
  intro t s hI
  have h := hm t s (himp t s hI)
  generalize m s = outcome at h ⊢
  obtain ⟨mid, error | value⟩ := outcome
  · exact h
  · obtain ⟨t', hs, hJ⟩ := h
    exact ⟨t', hs, hp value t' mid hJ⟩

theorem given {φ : Prop} (hm : φ → Simulates I m spec J Stop fault) :
    Simulates (fun t s => I t s ∧ φ) m spec J Stop fault := fun t s h => hm h.2 t s h.1

theorem ite {c : Prop} [Decidable c] {m m' : Prog σ ε α} {spec spec' : Prog τ ε α}
    (ht : c → Simulates I m spec J Stop fault) (he : ¬c → Simulates I m' spec' J Stop fault) :
    Simulates I (if c then m else m') (if c then spec else spec') J Stop fault := by
  split_ifs with h
  · exact ht h
  · exact he h

end Simulates

end Prog

end RustReality
