import Mathlib

/-!
# Packed bit arrays

A fixed array of `n` machine words of `w` bits, addressed by a pair of a word and a bit. The four
word operations (test, set, clear, clear all) are characterised by what a later test reports, so
that a user of the module never looks at a mask again.
-/

namespace RustReality.PackedBits

variable {n w : Nat}

/-- The word mask `1 << bit`. -/
def mask (bit : Fin w) : BitVec w := 1#w <<< bit.val

def test (v : Vector (BitVec w) n) (p : Fin n × Fin w) : Bool := v[p.1] &&& mask p.2 != 0#w

def set (v : Vector (BitVec w) n) (p : Fin n × Fin w) : Vector (BitVec w) n :=
  v.set p.1 (v[p.1] ||| mask p.2)

def clear (v : Vector (BitVec w) n) (p : Fin n × Fin w) : Vector (BitVec w) n :=
  v.set p.1 (v[p.1] &&& ~~~mask p.2)

theorem getElem_mask (bit : Fin w) (j : Nat) (hj : j < w) :
    (mask bit)[j] = decide (j = bit.val) := by
  simp only [mask, BitVec.getElem_shiftLeft]
  by_cases h : j = bit.val
  · simp [h]
  · simp [h]
    omega

theorem and_mask_eq_zero (x : BitVec w) (bit : Fin w) : x &&& mask bit = 0#w ↔ x[bit.val] = false := by
  constructor
  · intro h
    have hb := congrArg (fun y => y[bit.val]) h
    simpa [getElem_mask] using hb
  · intro h
    apply BitVec.eq_of_getElem_eq
    intro j hj
    by_cases hjp : j = bit.val
    · subst hjp
      simp [h]
    · simp [getElem_mask, hjp]

theorem test_eq_getElem (v : Vector (BitVec w) n) (p : Fin n × Fin w) :
    test v p = v[p.1.val][p.2.val] := by
  cases hv : v[p.1.val][p.2.val] with
  | false => simpa [test] using (and_mask_eq_zero _ _).mpr hv
  | true =>
    have hne : v[p.1.val] &&& mask p.2 ≠ 0#w := fun h => by
      rw [(and_mask_eq_zero _ _).mp h] at hv
      cases hv
    simpa [test] using hne

@[simp] theorem test_replicate_zero (p : Fin n × Fin w) : test (Vector.replicate n 0#w) p = false := by
  simp [test_eq_getElem]

theorem test_write (v : Vector (BitVec w) n) (p q : Fin n × Fin w) (x : BitVec w) :
    test (v.set p.1 x) q = if q.1 = p.1 then x[q.2.val] else test v q := by
  by_cases hw : q.1 = p.1
  · simp [test_eq_getElem, hw]
  · have hne : p.1.val ≠ q.1.val := fun h => hw (Fin.ext h.symm)
    simp [test_eq_getElem, hw, hne]

theorem test_set (v : Vector (BitVec w) n) (p q : Fin n × Fin w) :
    test (set v p) q = (decide (q = p) || test v q) := by
  obtain ⟨pw, pb⟩ := p
  obtain ⟨qw, qb⟩ := q
  rw [set, test_write]
  by_cases hw : qw = pw
  · subst hw
    simp [test_eq_getElem, getElem_mask, Fin.ext_iff, Bool.or_comm]
  · simp [hw]

theorem test_clear (v : Vector (BitVec w) n) (p q : Fin n × Fin w) :
    test (clear v p) q = (!decide (q = p) && test v q) := by
  obtain ⟨pw, pb⟩ := p
  obtain ⟨qw, qb⟩ := q
  rw [clear, test_write]
  by_cases hw : qw = pw
  · subst hw
    simp [test_eq_getElem, getElem_mask, Fin.ext_iff, Bool.and_comm]
  · simp [hw]

end RustReality.PackedBits
