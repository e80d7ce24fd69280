import RustReality.Lib.Mealy
import RustReality.Lib.PackedBits

/-!
# The anti-replay window of the native UDP channel

`ReplayWindow` keeps the highest authenticated counter and a circular bitmap of 1024 slots; slot
`c % 1024` is shared by every counter congruent to `c`. The abstract window remembers every
committed counter. The bitmap refines it: a slot of a counter inside the live window is set exactly
when that counter was committed (`Inv`), advancing the window clears exactly the slots that change
owner, and so check and commit answer like the abstract window on every script of calls.
-/

namespace RustReality.Handoff.Udp
open PackedBits Mealy

def replayWindowBits : UInt64 := 1024

def windowWords : Nat := 16

structure ReplayWindow where
  highest : UInt64
  bitmap : Vector (BitVec 64) windowWords
  deriving DecidableEq, Repr

namespace ReplayWindow

def new : ReplayWindow := { highest := 0, bitmap := Vector.replicate windowWords 0#64 }

def slot (counter : UInt64) : Fin windowWords × Fin 64 :=
  let index := counter % replayWindowBits
  have hindex : index.toNat < 1024 := by
    simpa [index, replayWindowBits] using Nat.mod_lt counter.toNat (by decide : 0 < 1024)
  (⟨index.toNat / 64, by unfold windowWords; omega⟩, ⟨index.toNat % 64, Nat.mod_lt _ (by decide)⟩)

variable (self : ReplayWindow)

def check (counter : UInt64) : Bool :=
  if counter == 0 then false
  else if counter > self.highest then true
  else
    let age := self.highest - counter
    if age ≥ replayWindowBits then false
    else !test self.bitmap (slot counter)

/-- The loop `while cleared < counter` of `commit`. The fuel is the distance the window advances,
which `clearBetween_test` shows to be enough. -/
def clearBetween (bitmap : Vector (BitVec 64) windowWords) (cleared counter : UInt64) :
    Nat → Vector (BitVec 64) windowWords
  | 0 => bitmap
  | fuel + 1 =>
    if cleared < counter then
      clearBetween (clear bitmap (slot cleared)) (cleared + 1) counter fuel
    else bitmap

/-- The part of `commit` that moves the window up to a counter above the highest one. -/
def advance (counter : UInt64) : ReplayWindow :=
  if counter > self.highest then
    let distance := counter - self.highest
    { highest := counter
      bitmap :=
        if distance ≥ replayWindowBits then Vector.replicate windowWords 0#64
        else clearBetween self.bitmap (self.highest + 1) counter distance.toNat }
  else self

def commit (counter : UInt64) : ReplayWindow × Bool :=
  if !self.check counter then (self, false)
  else
    let self := self.advance counter
    ({ self with bitmap := set self.bitmap (slot counter) }, true)

/-! ### Slots -/

theorem slot_eq_iff (c d : UInt64) : slot c = slot d ↔ c.toNat % 1024 = d.toNat % 1024 := by
  have hm : ∀ x : UInt64, (x % replayWindowBits).toNat = x.toNat % 1024 := fun x => by
    simp [replayWindowBits]
  simp only [slot, Prod.mk.injEq, Fin.mk.injEq, hm]
  omega

theorem slot_ne_of_close {c d : UInt64} (hlt : c < d) (hc : d.toNat < c.toNat + 1024) :
    slot c ≠ slot d := by
  rw [Ne, slot_eq_iff]
  have hn := UInt64.lt_iff_toNat_lt.mp hlt
  omega

/-- What the clearing loop leaves set: a slot survives unless one of the counters
`cleared, …, counter - 1` owns it. -/
theorem clearBetween_test (bitmap : Vector (BitVec 64) windowWords) (cleared counter : UInt64)
    (fuel : Nat) (hf : counter.toNat ≤ cleared.toNat + fuel) (p : Fin windowWords × Fin 64) :
    test (clearBetween bitmap cleared counter fuel) p = true ↔
      test bitmap p = true ∧ ∀ c, cleared ≤ c → c < counter → slot c ≠ p := by
  induction fuel generalizing bitmap cleared with
  | zero =>
    simp only [clearBetween, iff_self_and]
    intro _ c hle hlt
    rw [UInt64.le_iff_toNat_le] at hle
    rw [UInt64.lt_iff_toNat_lt] at hlt
    omega
  | succ fuel ih =>
    rw [clearBetween]
    by_cases hlt : cleared < counter
    · have hn := UInt64.lt_iff_toNat_lt.mp hlt
      have hs : (cleared + 1).toNat = cleared.toNat + 1 := by
        have hm := counter.toNat_lt
        simp [UInt64.toNat_add]
        omega
      rw [if_pos hlt, ih _ _ (by omega), test_clear]
      simp only [Bool.and_eq_true, Bool.not_eq_true', decide_eq_false_iff_not]
      constructor
      · rintro ⟨⟨hp, ht⟩, hr⟩
        refine ⟨ht, fun c hle hc => ?_⟩
        rcases eq_or_ne c cleared with rfl | hne
        · exact fun h => hp h.symm
        · refine hr c ?_ hc
          rw [UInt64.le_iff_toNat_le] at hle ⊢
          have : c.toNat ≠ cleared.toNat := fun h => hne (UInt64.toNat_inj.mp h)
          omega
      · rintro ⟨ht, ha⟩
        refine ⟨⟨fun h => ha cleared (UInt64.le_refl _) hlt h.symm, ht⟩, fun c hle hc => ?_⟩
        refine ha c ?_ hc
        rw [UInt64.le_iff_toNat_le] at hle ⊢
        omega
    · rw [if_neg hlt]
      simp only [iff_self_and]
      intro _ c hle hc
      exact absurd (UInt64.lt_of_le_of_lt hle hc) hlt

/-! ### The abstract window

It keeps the list of every counter ever committed. -/

def top (committed : List UInt64) : Nat := (committed.map UInt64.toNat).foldr max 0

theorem top_append_singleton (committed : List UInt64) (c : UInt64) :
    top (committed ++ [c]) = max (top committed) c.toNat := by
  induction committed with
  | nil => simp [top]
  | cons d ds ih =>
    simp only [top, List.cons_append, List.map_cons, List.foldr_cons] at ih ⊢
    rw [ih, max_assoc]

variable {committed : List UInt64}

theorem toNat_le_top {c : UInt64} (h : c ∈ committed) :
    c.toNat ≤ top committed := by
  induction committed with
  | nil => cases h
  | cons d ds ih =>
    rcases List.mem_cons.mp h with rfl | h
    · exact le_max_left _ _
    · exact (ih h).trans (le_max_right _ _)

/-- What the window is for: a counter is fresh, and not too far behind the highest one. -/
def Accepts (committed : List UInt64) (c : UInt64) : Prop :=
  c ≠ 0 ∧ c ∉ committed ∧
    (top committed < c.toNat ∨ (c.toNat ≤ top committed ∧ top committed - c.toNat < 1024))

instance (committed : List UInt64) (c : UInt64) : Decidable (Accepts committed c) :=
  inferInstanceAs (Decidable (_ ∧ _ ∧ _))

inductive Call
  | check (counter : UInt64)
  | commit (counter : UInt64)
  deriving DecidableEq, Repr

def call : Call → ReplayWindow × Bool
  | .check counter => (self, self.check counter)
  | .commit counter => self.commit counter

def abstractCall (committed : List UInt64) : Call → List UInt64 × Bool
  | .check c => (committed, decide (Accepts committed c))
  | .commit c =>
    if Accepts committed c then (committed ++ [c], true) else (committed, false)

def committedOf : List (Call × Bool) → List UInt64
  | [] => []
  | (.commit c, true) :: rest => c :: committedOf rest
  | _ :: rest => committedOf rest

theorem abstract_run_eq_committedOf (committed : List UInt64) (calls : List Call) :
    (run abstractCall committed calls).1 =
      committed ++ committedOf (calls.zip (run abstractCall committed calls).2) := by
  induction calls generalizing committed with
  | nil => simp [committedOf]
  | cons i is ih =>
    rw [run_cons, ih]
    cases i with
    | check c => simp [abstractCall, committedOf]
    | commit c =>
      by_cases h : Accepts committed c
      · simp [abstractCall, h, committedOf]
      · simp [abstractCall, h, committedOf]

/-! ### The bitmap refines the abstract window -/

structure Inv (w : ReplayWindow) (committed : List UInt64) : Prop where
  highest_eq : w.highest.toNat = top committed
  /-- Inside the live window a slot is set exactly when its counter was committed. -/
  bit_iff : ∀ c, 0 < c.toNat → c ≤ w.highest → w.highest.toNat < c.toNat + 1024 →
    (test w.bitmap (slot c) = true ↔ c ∈ committed)

theorem Inv.init : Inv new [] := by
  refine ⟨rfl, fun c hp hle _ => ?_⟩
  have hz : c.toNat ≤ 0 := UInt64.le_iff_toNat_le.mp hle
  omega

variable {w : ReplayWindow}

theorem Inv.check_iff (h : Inv w committed) (c : UInt64) :
    w.check c = true ↔ Accepts committed c := by
  have hp : c ≠ 0 ↔ 0 < c.toNat := by
    rw [Ne, ← UInt64.toNat_inj]
    exact Nat.pos_iff_ne_zero.symm
  by_cases h0 : c = 0
  · simp [check, Accepts, h0]
  have hc := hp.mp h0
  simp only [check, Accepts, beq_iff_eq, h0, if_false, gt_iff_lt, ge_iff_le, ne_eq, not_false_eq_true,
    true_and]
  by_cases ha : w.highest < c
  · have hn := UInt64.lt_iff_toNat_lt.mp ha
    have hfr : c ∉ committed := fun hm => by
      have := toNat_le_top hm
      have := h.highest_eq
      omega
    have := h.highest_eq
    simp only [ha, if_true, true_iff]
    exact ⟨hfr, Or.inl (by omega)⟩
  · have hle : c ≤ w.highest := UInt64.not_lt.mp ha
    have hag : (w.highest - c).toNat = w.highest.toNat - c.toNat := UInt64.toNat_sub_of_le _ _ hle
    have ho : replayWindowBits ≤ w.highest - c ↔ w.highest.toNat ≥ c.toNat + 1024 := by
      rw [UInt64.le_iff_toNat_le, hag]
      show 1024 ≤ _ ↔ _
      omega
    have ht := h.highest_eq
    simp only [ha, if_false, ho]
    by_cases hf : w.highest.toNat ≥ c.toNat + 1024
    · simp only [hf, if_true, Bool.false_eq_true, false_iff, not_and]
      intro _
      omega
    · have hb := h.bit_iff c hc hle (by omega)
      simp only [hf, if_false, Bool.not_eq_true', ← hb, Bool.not_eq_true]
      refine (and_iff_left ?_).symm
      omega

/-- Moving the window up keeps what it says about every counter but the new highest one. -/
theorem Inv.advance_bit (h : Inv w committed) {n : UInt64}
    (hn : w.highest < n) (c : UInt64) (hc : 0 < c.toNat) (hlt : c < n) (hl : n.toNat < c.toNat + 1024) :
    test (w.advance n).bitmap (slot c) = true ↔ c ∈ committed := by
  have hnt := UInt64.lt_iff_toNat_lt.mp hn
  have ht := h.highest_eq
  have hds : (n - w.highest).toNat = n.toNat - w.highest.toNat :=
    UInt64.toNat_sub_of_le _ _ (UInt64.le_of_lt hn)
  have hs : (w.highest + 1).toNat = w.highest.toNat + 1 := by
    have hmx := n.toNat_lt
    simp [UInt64.toNat_add]
    omega
  have hf : replayWindowBits ≤ n - w.highest ↔ w.highest.toNat + 1024 ≤ n.toNat := by
    rw [UInt64.le_iff_toNat_le, hds]
    show 1024 ≤ _ ↔ _
    omega
  -- counters above the old highest were never committed
  have hnw : w.highest.toNat < c.toNat → c ∉ committed := fun hgt hm => by
    have := toNat_le_top hm
    omega
  simp only [advance, gt_iff_lt, hn, if_true, ge_iff_le, hf]
  by_cases hj : w.highest.toNat + 1024 ≤ n.toNat
  · simp only [hj, if_true, test_replicate_zero, Bool.false_eq_true, false_iff]
    exact hnw (by omega)
  · simp only [hj, if_false]
    rw [clearBetween_test _ _ _ _ (by omega)]
    by_cases hgt : w.highest.toNat < c.toNat
    · refine iff_of_false (fun hcn => hcn.2 c ?_ hlt rfl) (hnw hgt)
      rw [UInt64.le_iff_toNat_le]
      omega
    · have hle : c ≤ w.highest := UInt64.le_iff_toNat_le.mpr (by omega)
      rw [h.bit_iff c hc hle (by omega), and_iff_left]
      intro d hd hdn
      rw [UInt64.le_iff_toNat_le] at hd
      have hdn' := UInt64.lt_iff_toNat_lt.mp hdn
      exact (slot_ne_of_close (UInt64.lt_iff_toNat_lt.mpr (by omega)) (by omega)).symm

theorem Inv.commit (h : Inv w committed) {n : UInt64}
    (ha : w.check n = true) : Inv (w.commit n).1 (committed ++ [n]) := by
  have hm : ∀ c, c ∈ committed ++ [n] ↔ (c = n ∨ c ∈ committed) := fun c => by
    simp [or_comm]
  have ht := h.highest_eq
  simp only [ReplayWindow.commit, ha, Bool.not_true, Bool.false_eq_true, if_false]
  by_cases hn : w.highest < n
  · have hh : (w.advance n).highest = n := by simp [advance, hn]
    have hnt := UInt64.lt_iff_toNat_lt.mp hn
    refine ⟨?_, fun c hc hle hl => ?_⟩
    · rw [hh, top_append_singleton]
      omega
    · simp only [hh] at hle hl
      simp only [test_set, Bool.or_eq_true, decide_eq_true_eq, hm]
      rcases UInt64.lt_or_eq_of_le hle with hlt | rfl
      · rw [h.advance_bit hn c hc hlt hl]
        simp [slot_ne_of_close hlt hl, UInt64.ne_of_lt hlt]
      · simp
  · have hsm : w.advance n = w := by simp [advance, hn]
    have hle : n.toNat ≤ w.highest.toNat := UInt64.le_iff_toNat_le.mp (UInt64.not_lt.mp hn)
    rw [hsm]
    refine ⟨?_, fun c hc hcl hl => ?_⟩
    · rw [top_append_singleton]
      simp only
      omega
    · have hw := (h.check_iff n).mp ha
      obtain ⟨_, _, hnr⟩ := hw
      simp only at hcl hl
      have hcn := UInt64.le_iff_toNat_le.mp hcl
      have hs : slot c = slot n ↔ c = n := by
        rw [slot_eq_iff, ← UInt64.toNat_inj]
        omega
      simp only [test_set, Bool.or_eq_true, decide_eq_true_eq, hm, hs,
        h.bit_iff c hc hcl hl]

theorem commit_rejected {c : UInt64} (h : w.check c = false) :
    w.commit c = (w, false) := by
  simp [ReplayWindow.commit, h]

theorem commit_accepted {c : UInt64} (h : w.check c = true) :
    (w.commit c).2 = true := by
  simp [ReplayWindow.commit, h]

theorem Inv.call (h : Inv w committed) (i : Call) :
    Inv (w.call i).1 (abstractCall committed i).1 ∧ (w.call i).2 = (abstractCall committed i).2 := by
  cases i with
  | check c =>
    refine ⟨h, ?_⟩
    rw [Bool.eq_iff_iff]
    simpa [ReplayWindow.call, abstractCall] using h.check_iff c
  | commit c =>
    by_cases ha : Accepts committed c
    · have hc := (h.check_iff c).mpr ha
      simp only [ReplayWindow.call, abstractCall, ha, if_true]
      exact ⟨h.commit hc, commit_accepted hc⟩
    · have hc : w.check c = false := by
        rw [← Bool.not_eq_true, h.check_iff c]
        exact ha
      simp only [ReplayWindow.call, abstractCall, ha, if_false, commit_rejected hc]
      exact ⟨h, trivial⟩

theorem abstract_run_nodup (h : committed.Nodup) (calls : List Call) :
    (run abstractCall committed calls).1.Nodup := by
  refine run_invariant (fun s i hs => ?_) h calls
  cases i with
  | check c => exact hs
  | commit c =>
    simp only [abstractCall]
    split
    · rename_i hac
      exact List.nodup_append.mpr ⟨hs, List.nodup_singleton c, fun a ha b hb hab => by
        rw [List.mem_singleton] at hb
        exact hac.2.1 (hb ▸ hab ▸ ha)⟩
    · exact hs

/-- On every script of calls the bitmap answers like the abstract window, and ends up representing
exactly the counters the script committed. -/
theorem run_refines (calls : List Call) :
    Inv (run call new calls).1 (run abstractCall [] calls).1 ∧
      (run abstractCall [] calls).1 = committedOf (calls.zip (run call new calls).2) := by
  obtain ⟨hInv, ho⟩ := run_simulates (R := Inv) (fun _ _ i h => Inv.call h i) Inv.init calls
  refine ⟨hInv, ?_⟩
  rw [abstract_run_eq_committedOf, List.nil_append, ho]

/-- The replay window is exact after any script of calls, whatever counters it named: both entry
points accept precisely the counters the abstract window accepts, a refused commit leaves the
window as it was, and so no counter is ever committed twice. -/
theorem replay_window_exact (calls : List Call) :
    let r := run call new calls
    let committed := committedOf (calls.zip r.2)
    (∀ c, r.1.check c = true ↔ Accepts committed c) ∧
    (∀ c, (r.1.commit c).2 = true ↔ Accepts committed c) ∧
    (∀ c, ¬Accepts committed c → r.1.commit c = (r.1, false)) ∧
    committed.Nodup ∧ r.1.highest.toNat = top committed := by
  intro r committed
  obtain ⟨hInv, hcm⟩ := run_refines calls
  have hn := abstract_run_nodup List.nodup_nil calls
  rw [hcm] at hInv hn
  have hr : ∀ c, ¬Accepts committed c → r.1.commit c = (r.1, false) := fun c hc =>
    commit_rejected (by rw [← Bool.not_eq_true, hInv.check_iff c]; exact hc)
  refine ⟨hInv.check_iff, fun c => ?_, hr, hn, hInv.highest_eq⟩
  by_cases hc : Accepts committed c
  · exact iff_of_true (commit_accepted ((hInv.check_iff c).mpr hc)) hc
  · simp [hc, hr c hc]

end ReplayWindow

end RustReality.Handoff.Udp
