import Mathlib

/-!
# Two clocks

A wall clock that shows whole seconds and a monotonic clock in nanoseconds, advancing together. A
timestamp is accepted while it differs from the wall clock by at most some seconds on either side.
-/

namespace RustReality.Clock

def nanosPerSecond : Nat := 1000000000

/-- What the wall clock shows at an instant of a monotonic clock that started `epoch` after it. -/
def unixSeconds (epoch instant : Nat) : Nat := (epoch + instant) / nanosPerSecond

/-- `abs_diff` of unsigned integers. -/
def absDiff (a b : Nat) : Nat := if a < b then b - a else a - b

theorem absDiff_comm (a b : Nat) : absDiff a b = absDiff b a := by
  unfold absDiff
  split <;> split <;> omega

def Fresh (epoch timestamp difference instant : Nat) : Prop :=
  absDiff timestamp (unixSeconds epoch instant) ≤ difference

/-- Whole seconds on both sides of a timestamp make a window of one second more than the two tolerances. -/
theorem Fresh.lt {epoch timestamp difference difference' instant instant' : Nat}
    (h : Fresh epoch timestamp difference instant) (h' : Fresh epoch timestamp difference' instant') :
    instant' < instant + (difference + difference' + 1) * nanosPerSecond := by
  unfold Fresh absDiff unixSeconds nanosPerSecond at h h'
  unfold nanosPerSecond
  split at h <;> split at h' <;> omega

end RustReality.Clock
