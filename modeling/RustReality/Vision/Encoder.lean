import RustReality.Vision.Decoder

/-!
# The Vision padding encoder

`plan` and `planWithin` decide the lengths of one frame, `assemble` writes it into storage of exactly
that size, and `commit` advances the encoder. The padding generator is a parameter: a state and a
draw that may fail for want of entropy and is otherwise below its bound.
-/

namespace RustReality.Vision
open List
open Vless (UserId)

inductive VisionEncodeError
  | contentTooLarge (length maximum : Nat)
  | paddingTooLarge (length : Nat)
  | entropyUnavailable
  | allocationFailed
  | encoderFinished
  deriving DecidableEq, Repr

/-- A padding generator: `none` is an exhausted entropy source. -/
structure PaddingRng (ρ : Type) where
  below : ρ → Nat → Option (Nat × ρ)
  below_lt : ∀ {state upper value state'}, 0 < upper → below state upper = some (value, state') →
    value < upper

structure VisionFramePlan where
  includeUserId : Bool
  command : VisionCommand
  contentLength : Nat
  paddingLength : Nat
  deriving DecidableEq, Repr

namespace VisionFramePlan

def prefixLength (plan : VisionFramePlan) : Nat := headerSize + if plan.includeUserId then uuidSize else 0

def wireLen (plan : VisionFramePlan) : Nat := plan.prefixLength + plan.contentLength + plan.paddingLength

end VisionFramePlan

structure VisionEncoder (ρ : Type) where
  userId : UserId
  firstFrame : Bool
  finished : Bool
  padding : ρ

namespace VisionEncoder

variable {ρ : Type} (rng : PaddingRng ρ)

def new (userId : UserId) (padding : ρ) : VisionEncoder ρ :=
  { userId, firstFrame := true, finished := false, padding }

variable (self : VisionEncoder ρ)

def prefixLength : Nat := headerSize + if self.firstFrame then uuidSize else 0

variable (contentLength : Nat)

def maximumFramePadding : Except VisionEncodeError Nat :=
  if self.finished then .error .encoderFinished
  else
    let maximumContent := visionFrameSize - self.prefixLength
    if contentLength > maximumContent ∨ contentLength > 65535 then
      .error (.contentTooLarge contentLength maximumContent)
    else .ok (visionFrameSize - self.prefixLength - contentLength)

def randomBelow (upper : Nat) : VisionEncoder ρ × Except VisionEncodeError Nat :=
  match rng.below self.padding upper with
  | none => (self, .error .entropyUnavailable)
  | some (value, padding) => ({ self with padding }, .ok value)

def choosePaddingLength (longPadding : Bool) (maximum : Nat) : VisionEncoder ρ × Except VisionEncodeError Nat :=
  if contentLength < 900 ∧ longPadding then
    let (self, value) := self.randomBelow rng 500
    (self, value.map fun value => min (value + 900 - contentLength) maximum)
  else
    let (self, value) := self.randomBelow rng 256
    (self, value.map fun value => min value maximum)

variable (command : VisionCommand)

def planCapped (longPadding : Bool)
    (maximumPadding : Nat) : VisionEncoder ρ × Except VisionEncodeError VisionFramePlan :=
  match self.choosePaddingLength rng contentLength longPadding maximumPadding with
  | (self, .error e) => (self, .error e)
  | (self, .ok paddingLength) =>
    if contentLength > 65535 then (self, .error (.contentTooLarge contentLength contentLength))
    else if paddingLength > 65535 then (self, .error (.paddingTooLarge paddingLength))
    else (self, .ok { includeUserId := self.firstFrame, command, contentLength, paddingLength })

def plan (longPadding : Bool) : VisionEncoder ρ × Except VisionEncodeError VisionFramePlan :=
  match self.maximumFramePadding contentLength with
  | .error e => (self, .error e)
  | .ok maximumPadding => self.planCapped rng contentLength command longPadding maximumPadding

/-- `plan_within`; the result is `none` when not even a frame without padding fits the budget. -/
def planWithin (longPadding : Bool)
    (recordBudget : Nat) : VisionEncoder ρ × Except VisionEncodeError (Option VisionFramePlan) :=
  match self.maximumFramePadding contentLength with
  | .error e => (self, .error e)
  | .ok maximumPadding =>
    if recordBudget < self.prefixLength then (self, .ok none)
    else if recordBudget - self.prefixLength < contentLength then (self, .ok none)
    else
      let budgetPadding := recordBudget - self.prefixLength - contentLength
      let (self, plan) :=
        self.planCapped rng contentLength command longPadding (min maximumPadding budgetPadding)
      (self, plan.map some)

variable (plan : VisionFramePlan)

/-- `assemble_layout`: user id, header and padding around a body already in place. -/
def assembleLayout (output : Bytes) : Bytes :=
  if output.length ≠ plan.wireLen then output
  else
    let offset := if plan.includeUserId then uuidSize else 0
    let output := if plan.includeUserId then overwrite output 0 self.userId.toList else output
    let header := [plan.command.toByte] ++ beBytes 2 plan.contentLength ++ beBytes 2 plan.paddingLength
    let output := overwrite output offset header
    output.take (offset + headerSize + plan.contentLength) ++
      List.replicate (output.length - (offset + headerSize + plan.contentLength)) 0

def assemble (content output : Bytes) : Bytes :=
  if output.length ≠ plan.wireLen ∨ content.length ≠ plan.contentLength then output
  else self.assembleLayout plan (overwrite output plan.prefixLength content)

def commit : VisionEncoder ρ :=
  { self with firstFrame := false, finished := plan.command ≠ .continue }

/-! ### The wire image of a frame -/

/-- The bytes of a frame: user id if it is the first one, header, content, zeros. -/
def frameBytes (userId : UserId) (plan : VisionFramePlan) (content : Bytes) : Bytes :=
  (if plan.includeUserId then userId.toList else []) ++
    ([plan.command.toByte] ++ beBytes 2 plan.contentLength ++ beBytes 2 plan.paddingLength) ++
    content ++ List.replicate plan.paddingLength 0

variable {plan : VisionFramePlan}

theorem length_frameBytes (userId : UserId) {content : Bytes}
    (h : content.length = plan.contentLength) : (frameBytes userId plan content).length = plan.wireLen := by
  cases hid : plan.includeUserId <;>
    simp [frameBytes, VisionFramePlan.wireLen, VisionFramePlan.prefixLength, hid, h, headerSize, uuidSize] <;>
    omega

/-- Storage of the size of a frame, cut at the places `assemble` writes to. -/
theorem split_storage {output : Bytes} (h : output.length = plan.wireLen) :
    ∃ u hd c p, output = u ++ hd ++ c ++ p ∧ u.length = (if plan.includeUserId then uuidSize else 0) ∧
      hd.length = headerSize ∧ c.length = plan.contentLength ∧ p.length = plan.paddingLength := by
  set n := if plan.includeUserId then uuidSize else 0 with hn
  rw [VisionFramePlan.wireLen, VisionFramePlan.prefixLength, ← hn] at h
  refine ⟨output.take n, (output.drop n).take headerSize,
    (output.drop (n + headerSize)).take plan.contentLength, output.drop (n + headerSize + plan.contentLength),
    ?_, ?_, ?_, ?_, ?_⟩
  · rw [← take_add, ← take_add, take_append_drop]
  all_goals
    simp only [length_take, length_drop]
    omega

theorem assemble_eq (self : VisionEncoder ρ) {content output : Bytes}
    (hlen : content.length = plan.contentLength) (ho : output.length = plan.wireLen) :
    self.assemble plan content output = frameBytes self.userId plan content := by
  obtain ⟨u, hd, c, p, rfl, hu, hhd, hc, hp⟩ := split_storage ho
  set header := [plan.command.toByte] ++ beBytes 2 plan.contentLength ++ beBytes 2 plan.paddingLength with hhr
  have hh : header.length = headerSize := by simp [hhr, headerSize]
  have hb : overwrite (u ++ hd ++ c ++ p) plan.prefixLength content = u ++ hd ++ content ++ p := by
    have hhe : plan.prefixLength = (u ++ hd).length := by
      rw [VisionFramePlan.prefixLength, length_append, hu, hhd, Nat.add_comm]
    rw [hhe, overwrite_middle _ _ _ (hlen.trans hc.symm)]
  have hl : (u ++ hd ++ content ++ p).length = plan.wireLen := by
    rw [← ho]
    simp [hc, hlen]
  have ht : ∀ a : Bytes, a.length = u.length →
      (a ++ header ++ content ++ p).take (u.length + headerSize + plan.contentLength) ++
        List.replicate ((a ++ header ++ content ++ p).length - (u.length + headerSize + plan.contentLength)) 0 =
      a ++ header ++ content ++ List.replicate plan.paddingLength 0 := fun a ha => by
    have hct : (a ++ header ++ content).length = u.length + headerSize + plan.contentLength := by
      rw [length_append, length_append, ha, hh, hlen]
    rw [← hct, take_left, length_append, Nat.add_sub_cancel_left, hp]
  rw [assemble, if_neg (not_or.mpr ⟨not_not.mpr ho, not_not.mpr hlen⟩), hb, assembleLayout,
    if_neg (not_not.mpr hl), frameBytes, ← hhr]
  simp only [← hu]
  cases hid : plan.includeUserId with
  | false =>
    have hn : u = [] := by simpa [hid] using hu
    subst hn
    simp only [Bool.false_eq_true, if_false]
    rw [append_assoc, overwrite_middle [] hd (content ++ p) (hh.trans hhd.symm)]
    simpa using ht [] rfl
  | true =>
    have hud : self.userId.toList.length = u.length := by simp [hu, hid, uuidSize]
    simp only [if_true]
    have hf : overwrite (u ++ hd ++ content ++ p) 0 self.userId.toList =
        self.userId.toList ++ hd ++ (content ++ p) := by
      have := overwrite_middle [] u (hd ++ (content ++ p)) hud
      simpa using this
    rw [hf, ← hud, overwrite_middle _ _ _ (hh.trans hhd.symm)]
    have := ht self.userId.toList hud
    simpa [hud] using this

end VisionEncoder

end RustReality.Vision
