import Mathlib

/-!
# Results that may fail

Inversion of a failing computation, step by step: what it takes to succeed and what it takes to fail.
-/

namespace RustReality.Result

variable {ε δ α β : Type} {first : Except ε α} {next : α → Except ε β} {f : ε → δ} {c : Prop} [Decidable c]

theorem bind_ok_iff {result : β} :
    (first >>= next) = .ok result ↔ ∃ value, first = .ok value ∧ next value = .ok result := by
  cases first <;> simp [Bind.bind, Except.bind]

theorem map_ok_iff {g : α → β} {result : β} : first.map g = .ok result ↔ ∃ value, first = .ok value ∧ g value = result := by
  cases first <;> simp [Except.map]

theorem mapError_ok_iff {result : α} : first.mapError f = .ok result ↔ first = .ok result := by
  cases first <;> simp [Except.mapError]

theorem ite_error_ok_iff {error : ε} {result : α} :
    (if c then .error error else first) = .ok result ↔ ¬c ∧ first = .ok result := by
  split_ifs with h <;> simp [h]

theorem bind_ne_error {error : ε} (hfirst : first ≠ .error error)
    (hnext : ∀ value, first = .ok value → next value ≠ .error error) : (first >>= next) ≠ .error error := by
  cases first with
  | error e =>
    rintro ⟨⟩
    exact hfirst rfl
  | ok value => exact hnext value rfl

theorem mapError_ne_error {error : δ} (h : ∀ cause, first = .error cause → f cause ≠ error) :
    first.mapError f ≠ .error error := by
  cases first with
  | error cause => simpa [Except.mapError] using h cause rfl
  | ok value => simp [Except.mapError]

theorem ite_ne_error {error error' : ε} (hthen : c → error ≠ error') (helse : ¬c → first ≠ .error error') :
    (if c then .error error else first) ≠ .error error' := by
  split_ifs with h
  · simpa using hthen h
  · exact helse h

end RustReality.Result
