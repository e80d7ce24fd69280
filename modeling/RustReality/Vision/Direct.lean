import Mathlib

/-!
# The Direct hand-off

Each direction of a Vision session goes through a bounded lifecycle and decides once, at its raw
boundary, whether its raw bytes move in a relay of its own or in one relay for the pair. The peer's
state is read and the own state committed in one step, so the two decisions agree.
-/

namespace RustReality.Vision

inductive Direction
  | uplink | downlink
  deriving DecidableEq, Repr

def Direction.peer : Direction → Direction
  | .uplink => .downlink
  | .downlink => .uplink

inductive DirectionState
  | framed
  | directPending
  | rawReady
  | outer
  | closed
  | failed
  | pairPending
  | relaying
  deriving DecidableEq, Repr

/-- Whether `next` is a permitted successor. -/
def DirectionState.permits : DirectionState → DirectionState → Bool
  | .framed, next => next == .directPending || next == .outer || next == .closed || next == .failed
  | .directPending, next => next == .rawReady || next == .closed || next == .failed
  | .rawReady, next => next == .pairPending || next == .relaying || next == .closed || next == .failed
  | .pairPending, next => next == .closed || next == .failed
  | .relaying, next => next == .closed || next == .failed
  | .outer, next => next == .closed || next == .failed
  | .closed, _ => false
  | .failed, _ => false

structure InvalidTransition where
  direction : Direction
  source : DirectionState
  target : DirectionState
  deriving DecidableEq, Repr

inductive RawDecision
  | pair | directional
  deriving DecidableEq, Repr

/-- `RawRelayTransition::plan`: the form of the raw relay and the state to commit. -/
def RawDecision.plan (direction : Direction) (current peer : DirectionState) :
    Except InvalidTransition (RawDecision × DirectionState) :=
  let (decision, next) : RawDecision × DirectionState :=
    match peer with
    | .rawReady => (.pair, .pairPending)
    | .pairPending => (.pair, .pairPending)
    | _ => (.directional, .relaying)
  if current.permits next then .ok (decision, next) else .error ⟨direction, current, next⟩

/-- The coordinator: both states, and which directions have deposited their halves. -/
structure DirectHandoff where
  state : Direction → DirectionState
  deposited : Direction → Bool

namespace DirectHandoff

def new : DirectHandoff := ⟨fun _ => .framed, fun _ => false⟩

variable (self : DirectHandoff) (direction : Direction)

def setState (next : DirectionState) : DirectHandoff :=
  { self with state := fun d => if d = direction then next else self.state d }

def advance (next : DirectionState) : Except InvalidTransition DirectHandoff :=
  if (self.state direction).permits next then .ok (self.setState direction next)
  else .error ⟨direction, self.state direction, next⟩

def decide : Except InvalidTransition (DirectHandoff × RawDecision) := do
  let (decision, next) ← RawDecision.plan direction (self.state direction) (self.state direction.peer)
  let self ← self.advance direction next
  return (self, decision)

/-- `deposit_uplink` and `deposit_downlink`: whether both sockets are complete now. Completing them
empties the slots. -/
def deposit : DirectHandoff × Bool :=
  if self.deposited direction.peer then ({ self with deposited := fun _ => false }, true)
  else ({ self with deposited := fun d => if d = direction then true else self.deposited d }, false)

theorem decide_of_rawReady {self : DirectHandoff} {direction : Direction} (h : self.state direction = .rawReady) :
    ∃ after decision, self.decide direction = .ok (after, decision) := by
  simp only [decide, RawDecision.plan, advance, h]
  cases self.state direction.peer <;> exact ⟨_, _, rfl⟩

theorem peer_of_decide_pair {self after : DirectHandoff} {direction : Direction} (h : self.decide direction = .ok (after, .pair)) :
    self.state direction.peer = .rawReady ∨ self.state direction.peer = .pairPending := by
  unfold decide at h
  cases hplan : RawDecision.plan direction (self.state direction) (self.state direction.peer) with
  | error e =>
    rw [hplan] at h
    cases h
  | ok planned =>
    obtain ⟨decision, next⟩ := planned
    rw [hplan] at h
    have hpair : decision = .pair := by
      cases hadvance : self.advance direction next <;> simp [bind, Except.bind, hadvance, pure, Except.pure] at h
      exact h.2
    cases hpeer : self.state direction.peer <;> simp [RawDecision.plan, hpeer, hpair] at hplan ⊢ <;>
      split_ifs at hplan <;> cases hplan

end DirectHandoff

end RustReality.Vision
