import RustReality.Lib.Bytes
import RustReality.Lib.Result

/-!
# Reading a byte string with its offsets

A parser that has to remember where a field stood reads spans: bytes together with their offset in the
whole message. Every primitive is characterised by an equivalence on what follows it, so that what a parser
accepts and what it makes of given bytes are read off the same chain of rewrites.
-/

namespace RustReality

structure Span where
  offset : Nat
  rest : Bytes
  deriving DecidableEq, Repr

structure Range where
  start : Nat
  stop : Nat
  deriving DecidableEq, Repr

def Range.len (self : Range) : Nat := self.stop - self.start

abbrev SpanReader (ε α : Type) := StateT Span (Except ε) α

namespace SpanReader

variable {ε α β : Type} (error : ε)

def fail : SpanReader ε α := fun _ => .error error

def take (error : ε) (length : Nat) : SpanReader ε Bytes := fun span =>
  if length ≤ span.rest.length then
    .ok (span.rest.take length, ⟨span.offset + length, span.rest.drop length⟩)
  else .error error

variable (length : Nat)

def number : SpanReader ε Nat := do
  let bytes ← take error length
  return ofBe bytes

def range : SpanReader ε Range := do
  let start ← fun span => .ok (span.offset, span)
  let _ ← take error length
  let stop ← fun span => .ok (span.offset, span)
  return ⟨start, stop⟩

def sub : SpanReader ε Span := do
  let offset ← fun span => .ok (span.offset, span)
  let bytes ← take error length
  return ⟨offset, bytes⟩

def remaining : SpanReader ε Nat := fun span => .ok (span.rest.length, span)

def skipRemaining : SpanReader ε Unit := fun span => .ok ((), ⟨span.offset + span.rest.length, []⟩)

def whole (read : SpanReader ε α) (span : Span) : Except ε α :=
  match read span with
  | .error error => .error error
  | .ok (value, span) => if span.rest ≠ [] then .error error else .ok value

/-- Read with a state until the span is empty; every turn takes at least a byte. -/
def untilEmpty (turn : α → SpanReader ε α) : Nat → α → SpanReader ε α
  | 0, state => pure state
  | fuel + 1, state => fun span =>
    if span.rest = [] then .ok (state, span) else (turn state >>= untilEmpty turn fuel) span

def lift (result : Except ε α) : SpanReader ε α := fun span =>
  match result with
  | .error error => .error error
  | .ok value => .ok (value, span)

/-! ### What the primitives accept -/

variable {read : SpanReader ε α} {error : ε} {span span' : Span}

theorem bind_ok_iff {next : α → SpanReader ε β} {result : β × Span} :
    (read >>= next) span = .ok result ↔ ∃ value span', read span = .ok (value, span') ∧ next value span' = .ok result := by
  show (read span >>= fun state => next state.1 state.2) = .ok result ↔ _
  rw [Result.bind_ok_iff, Prod.exists]

theorem pure_ok_iff {value value' : α} :
    (pure value : SpanReader ε α) span = .ok (value', span') ↔ value = value' ∧ span = span' := by
  simp [pure, StateT.pure, Except.pure]

theorem lift_ok_iff {computed : Except ε α} {value : α} :
    lift computed span = .ok (value, span') ↔ computed = .ok value ∧ span = span' := by
  cases computed <;> simp [lift]

theorem ite_fail_ok_iff {c : Prop} [Decidable c] {result : α × Span} :
    (if c then fail error else read) span = .ok result ↔ ¬c ∧ read span = .ok result := by
  split_ifs with h <;> simp [h, fail]

section Bind

variable {length offset : Nat} {rest : Bytes} {result : β × Span}

theorem take_bind {next : Bytes → SpanReader ε β} :
    (take error length >>= next) ⟨offset, rest⟩ = .ok result ↔
      ∃ bytes rest', bytes.length = length ∧ rest = bytes ++ rest' ∧ next bytes ⟨offset + length, rest'⟩ = .ok result := by
  rw [bind_ok_iff]
  unfold take
  constructor
  · rintro ⟨bytes, span', h, hnext⟩
    split_ifs at h with hle
    cases h
    exact ⟨_, _, List.length_take_of_le hle, (List.take_append_drop length rest).symm, hnext⟩
  · rintro ⟨bytes, rest', rfl, rfl, hnext⟩
    exact ⟨bytes, _, by simp, hnext⟩

theorem number_bind {next : Nat → SpanReader ε β} :
    (number error length >>= next) ⟨offset, rest⟩ = .ok result ↔ ∃ value rest', value < 256 ^ length ∧
      rest = beBytes length value ++ rest' ∧ next value ⟨offset + length, rest'⟩ = .ok result := by
  unfold number
  rw [bind_assoc, take_bind]
  constructor
  · rintro ⟨bytes, rest', rfl, rfl, hnext⟩
    exact ⟨ofBe bytes, rest', ofBe_lt bytes, by rw [beBytes_ofBe_of rfl], hnext⟩
  · rintro ⟨value, rest', hlt, rfl, hnext⟩
    refine ⟨beBytes length value, rest', length_beBytes _ _, rfl, ?_⟩
    rwa [pure_bind, ofBe_beBytes hlt]

theorem range_bind {next : Range → SpanReader ε β} :
    (range error length >>= next) ⟨offset, rest⟩ = .ok result ↔ ∃ bytes rest', bytes.length = length ∧
      rest = bytes ++ rest' ∧ next ⟨offset, offset + length⟩ ⟨offset + length, rest'⟩ = .ok result := by
  unfold range
  rw [bind_assoc]
  change ((take error length >>= _) >>= next) ⟨offset, rest⟩ = .ok result ↔ _
  rw [bind_assoc, take_bind]
  rfl

theorem sub_bind {next : Span → SpanReader ε β} :
    (sub error length >>= next) ⟨offset, rest⟩ = .ok result ↔ ∃ bytes rest', bytes.length = length ∧
      rest = bytes ++ rest' ∧ next ⟨offset, bytes⟩ ⟨offset + length, rest'⟩ = .ok result := by
  unfold sub
  rw [bind_assoc]
  change ((take error length >>= _) >>= next) ⟨offset, rest⟩ = .ok result ↔ _
  rw [bind_assoc, take_bind]
  rfl

theorem remaining_bind {next : Nat → SpanReader ε β} :
    (remaining >>= next) span = .ok result ↔ next span.rest.length span = .ok result := Iff.rfl

theorem lift_bind {computed : Except ε α} {next : α → SpanReader ε β} :
    (lift computed >>= next) span = .ok result ↔ ∃ value, computed = .ok value ∧ next value span = .ok result := by
  simp [bind_ok_iff, lift_ok_iff]

end Bind

theorem whole_ok_iff {value : α} :
    whole error read span = .ok value ↔ ∃ offset, read span = .ok (value, ⟨offset, []⟩) := by
  unfold whole
  constructor
  · intro h
    split at h
    · cases h
    · next found span' hr =>
      split_ifs at h with he
      cases h
      obtain ⟨offset, rest⟩ := span'
      have hn : rest = [] := not_not.1 he
      exact ⟨offset, by rw [hr, hn]⟩
  · rintro ⟨offset, hr⟩
    rw [hr]
    exact if_neg (not_not.2 rfl)

end SpanReader

end RustReality
