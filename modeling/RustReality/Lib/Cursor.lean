import RustReality.Lib.Bytes
import RustReality.Lib.Result

/-!
# Reading a byte string field by field

A decoder is a computation that takes bytes off the front of its input and may fail. `Reads` says
that it turns given bytes, in front of anything, into a value, or refuses them where it may; `Returns`
that every value it can return has a property; `Spells` that the bytes it took are a spelling of the
value. All follow the shape of the decoder, rule by rule.
-/

namespace RustReality
open List

abbrev Cursor (ε α : Type) := StateT Bytes (Except ε) α

namespace Cursor

variable {ε α β : Type}

def fail (error : ε) : Cursor ε α := fun _ => .error error

def take (error : ε) (length : Nat) : Cursor ε Bytes := fun input =>
  if length ≤ input.length then .ok (input.take length, input.drop length) else .error error

def number (error : ε) (length : Nat) : Cursor ε Nat := do
  let bytes ← take error length
  return ofBe bytes

def finish (error : ε) : Cursor ε Unit := fun input => if input.length ≠ 0 then .error error else .ok ((), input)

def within (inner : Cursor ε α) (body : Bytes) : Cursor ε α := fun input =>
  match inner body with
  | .ok (value, _) => .ok (value, input)
  | .error error => .error error

def remaining : Cursor ε Nat := fun input => .ok (input.length, input)

/-- Decode with a state until the input is empty; every turn takes at least a byte. -/
def untilEmpty (turn : α → Cursor ε α) : Nat → α → Cursor ε α
  | 0, state => pure state
  | fuel + 1, state => fun input => if input = [] then .ok (state, []) else (turn state >>= untilEmpty turn fuel) input

def replicate (item : Cursor ε α) : Nat → Cursor ε (List α)
  | 0 => pure []
  | count + 1 => do
    let first ← item
    let rest ← replicate item count
    return first :: rest

def encodeAll (encode : α → Except ε Bytes) : List α → Except ε Bytes
  | [] => .ok []
  | item :: items => do
    let first ← encode item
    let rest ← encodeAll encode items
    return first ++ rest

/-- The outcome is the value; unless it must be, it may be an error too. -/
def Answers (must : Prop) (outcome : Except ε α) (value : α) : Prop :=
  outcome = .ok value ∨ ¬must ∧ ∃ error, outcome = .error error

def Reads (must : Prop) (read : Cursor ε α) (bytes : Bytes) (value : α) : Prop :=
  ∀ rest, Answers must (read (bytes ++ rest)) (value, rest)

def ReadsAll (must : Prop) (read : Cursor ε α) (bytes : Bytes) (value : α) : Prop := Answers must (read bytes) (value, [])

def Returns (read : Cursor ε α) (P : α → Prop) : Prop :=
  ∀ input value rest, read input = .ok (value, rest) → P value

variable {must : Prop} {result : β} {read : Cursor ε α} {next : α → Cursor ε β} {front back bytes : Bytes} {value : α}

theorem ok_of_bind_cursor {input : Bytes} {result : β × Bytes}
    (h : (read >>= next) input = .ok result) :
    ∃ value rest, read input = .ok (value, rest) ∧ next value rest = .ok result := by
  obtain ⟨state, hread, hnext⟩ := Result.bind_ok_iff.1 h
  exact ⟨state.1, state.2, hread, hnext⟩

/-! ### `Reads` -/

theorem Answers.bind {first : Except ε α} {next : α → Except ε β} (hfirst : Answers must first value)
    (hnext : Answers must (next value) result) : Answers must (first >>= next) result := by
  rcases hfirst with rfl | ⟨hmay, error, rfl⟩
  · exact hnext
  · exact .inr ⟨hmay, error, rfl⟩

theorem Reads.pure (value : α) : Reads must (Pure.pure value : Cursor ε α) [] value := fun _ => .inl rfl

theorem Reads.bind (hread : Reads must read front value) (hnext : Reads must (next value) back result) :
    Reads must (read >>= next) (front ++ back) result := by
  intro rest
  rw [append_assoc]
  exact (hread (back ++ rest)).bind (hnext rest)

theorem Reads.bind_cons {byte : UInt8} (hread : Reads must read [byte] value) (hnext : Reads must (next value) back result) :
    Reads must (read >>= next) (byte :: back) result := hread.bind hnext

theorem Reads.bind_nil (hread : Reads must read front value) (hnext : Reads must (next value) [] result) :
    Reads must (read >>= next) front result := by
  have h := hread.bind hnext
  rwa [append_nil] at h

theorem Reads.nil_bind (hread : Reads must read [] value) (hnext : Reads must (next value) back result) :
    Reads must (read >>= next) back result :=
  hread.bind hnext

theorem Reads.map (hread : Reads must read front value) (f : α → β) :
    Reads must (read >>= fun value => Pure.pure (f value)) front (f value) := hread.bind_nil (.pure _)

theorem Reads.unless {c : Prop} [Decidable c] {error : ε} (hmust : must → ¬c) (hread : Reads must read bytes value) :
    Reads must (if c then fail error else read) bytes value := by
  intro rest
  split
  · next hc => exact .inr ⟨fun hm => hmust hm hc, error, rfl⟩
  · exact hread rest

theorem reads_take (error : ε) {length : Nat} (h : bytes.length = length) :
    Reads must (take error length) bytes bytes := by
  subst h
  intro rest
  rw [take, if_pos (by simp), take_left, drop_left]
  exact .inl rfl

theorem reads_number (error : ε) {length value : Nat} (h : value < 256 ^ length) :
    Reads must (number error length) (beBytes length value) value := by
  have hread : Reads must _ _ _ := (reads_take error (length_beBytes length value)).map ofBe
  rwa [ofBe_beBytes h] at hread

theorem reads_within {inner : Cursor ε α} {body : Bytes} (h : ReadsAll must inner body value) :
    Reads must (within inner body) [] value := by
  intro input
  rcases h with h | ⟨hmay, error, h⟩
  · exact .inl (by rw [within, h]; rfl)
  · exact .inr ⟨hmay, error, by rw [within, h]⟩

theorem reads_replicate {item : Cursor ε α} {encode : α → Except ε Bytes} {items : List α}
    (hi : ∀ value ∈ items, ∀ front, encode value = .ok front → Reads must item front value)
    (hbytes : encodeAll encode items = .ok bytes) : Reads must (replicate item items.length) bytes items := by
  induction items generalizing bytes with
  | nil =>
    cases hbytes
    exact Reads.pure []
  | cons first items ih =>
    obtain ⟨front, hf, hbytes⟩ := Result.bind_ok_iff.1 hbytes
    obtain ⟨back, hr, hbytes⟩ := Result.bind_ok_iff.1 hbytes
    cases hbytes
    have hrd := hi first (mem_cons_self ..) front hf
    have hre := ih (fun value hv => hi value (mem_cons_of_mem _ hv)) hr
    exact hrd.bind (hre.map _)

/-! ### `ReadsAll` -/

theorem ReadsAll.pure (value : α) : ReadsAll must (Pure.pure value : Cursor ε α) [] value := .inl rfl

theorem ReadsAll.bind (hread : ReadsAll must read bytes value) (hnext : ReadsAll must (next value) [] result) :
    ReadsAll must (read >>= next) bytes result :=
  Answers.bind hread hnext

theorem Reads.bind_all (hread : Reads must read front value) (hnext : ReadsAll must (next value) back result) :
    ReadsAll must (read >>= next) (front ++ back) result :=
  (hread back).bind hnext

theorem Reads.nil_bind_all (hread : Reads must read [] value) (hnext : ReadsAll must (next value) back result) :
    ReadsAll must (read >>= next) back result :=
  hread.bind_all hnext

theorem Reads.bind_end (hread : Reads must read front value) (hnext : ReadsAll must (next value) [] result) :
    ReadsAll must (read >>= next) front result := by
  have h := hread.bind_all hnext
  rwa [append_nil] at h

theorem readsAll_finish (error : ε) {next : Unit → Cursor ε α} {result : α} (hnext : ReadsAll must (next ()) [] result) :
    ReadsAll must (finish error >>= next) [] result :=
  ReadsAll.bind (show ReadsAll must (finish error) [] () from .inl rfl) hnext

/-! ### `Spells` -/

/-- What a decoder takes off the input spells the value it returns. -/
def Spells (read : Cursor ε α) (Spelling : α → Bytes → Prop) : Prop :=
  ∀ input value rest, read input = .ok (value, rest) → ∃ front, input = front ++ rest ∧ Spelling value front

variable {Spelling : α → Bytes → Prop} {Spelling' : β → Bytes → Prop}

theorem Spells.pure {value : α} (h : Spelling value []) : Spells (Pure.pure value : Cursor ε α) Spelling := by
  intro input value' rest heq
  cases heq
  exact ⟨[], rfl, h⟩

theorem Spells.fail (error : ε) : Spells (Cursor.fail error : Cursor ε α) Spelling := by
  intro input value rest heq
  cases heq

theorem Spells.ite {p : Prop} [Decidable p] {read read' : Cursor ε α} (hpos : p → Spells read Spelling)
    (hneg : ¬p → Spells read' Spelling) : Spells (if p then read else read') Spelling := by
  split_ifs with hp
  · exact hpos hp
  · exact hneg hp

theorem Spells.bind (hread : Spells read Spelling) (hnext : ∀ value front, Spelling value front →
    Spells (next value) fun result back => Spelling' result (front ++ back)) : Spells (read >>= next) Spelling' := by
  intro input result rest heq
  obtain ⟨value, rest', hv, hn⟩ := ok_of_bind_cursor heq
  obtain ⟨front, rfl, hfront⟩ := hread input value rest' hv
  obtain ⟨back, rfl, hback⟩ := hnext value front hfront rest' result rest hn
  exact ⟨front ++ back, (append_assoc ..).symm, hback⟩

theorem spells_take (error : ε) (length : Nat) :
    Spells (take error length) fun value front => front = value ∧ value.length = length := by
  intro input value rest heq
  unfold take at heq
  split_ifs at heq with hle
  cases heq
  exact ⟨_, (take_append_drop length input).symm, rfl, length_take_of_le hle⟩

theorem spells_number (error : ε) (length : Nat) :
    Spells (number error length) fun value front => front = beBytes length value ∧ value < 256 ^ length :=
  (spells_take error length).bind fun bytes front h => .pure (by
    obtain ⟨rfl, rfl⟩ := h
    exact ⟨by rw [beBytes_ofBe, append_nil], ofBe_lt front⟩)

theorem Spells.replicate {item : Cursor ε α} {encode : α → Except ε Bytes} {P : α → Prop}
    (h : Spells item fun value front => encode value = .ok front ∧ P value) (count : Nat) :
    Spells (replicate item count) fun values front =>
      values.length = count ∧ encodeAll encode values = .ok front ∧ ∀ value ∈ values, P value := by
  induction count with
  | zero => exact .pure ⟨rfl, rfl, by simp⟩
  | succ count ih =>
    refine h.bind fun first front hfirst => ih.bind fun values back hvalues => .pure ⟨?_, ?_, ?_⟩
    · rw [length_cons, hvalues.1]
    · show (encode first >>= fun front => encodeAll encode values >>= fun back => Pure.pure (front ++ back)) = _
      rw [hfirst.1, hvalues.2.1, append_nil]
      rfl
    · exact forall_mem_cons.2 ⟨hfirst.2, hvalues.2.2⟩

/-! ### `Decodes` -/

/-- The bytes are read as the value whatever follows them, and on every proper part of their front the
decoder fails with an error of the given kind. -/
structure Decodes (P : ε → Prop) (read : Cursor ε α) (bytes : Bytes) (value : α) : Prop where
  reads : ∀ rest, read (bytes ++ rest) = .ok (value, rest)
  short : ∀ front, front <+: bytes → front ≠ bytes → ∃ error, read front = .error error ∧ P error

theorem Decodes.pure (P : ε → Prop) (value : α) : Decodes P (Pure.pure value : Cursor ε α) [] value where
  reads _ := rfl
  short _ hf hne := absurd (prefix_nil.1 hf) hne

variable {P : ε → Prop}

theorem Decodes.bind (hr : Decodes P read front value) (hn : Decodes P (next value) back result) :
    Decodes P (read >>= next) (front ++ back) result where
  reads rest := by
    show (read (front ++ back ++ rest) >>= fun state => next state.1 state.2) = _
    rw [append_assoc, hr.reads]
    exact hn.reads rest
  short part hp hne := by
    show ∃ error, (read part >>= fun state => next state.1 state.2) = .error error ∧ P error
    by_cases hf : part <+: front ∧ part ≠ front
    · -- the input ends inside what the first decoder needs
      rcases hr.short part hf.1 hf.2 with ⟨error, he, hP⟩
      rw [he]
      exact ⟨error, rfl, hP⟩
    · have hw : front <+: part := by
        rcases prefix_or_prefix_of_prefix hp (prefix_append front back) with hle | hge
        · exact ⟨[], by rw [append_nil, not_and_not_right.1 hf hle]⟩
        · exact hge
      rcases hw with ⟨rest, rfl⟩
      rcases hn.short rest ((prefix_append_right_inj front).1 hp) (fun h => hne (by rw [h])) with
        ⟨error, he, hP⟩
      rw [hr.reads]
      exact ⟨error, he, hP⟩

theorem Decodes.bind_nil (hr : Decodes P read bytes value) (hn : Decodes P (next value) [] result) :
    Decodes P (read >>= next) bytes result := by
  have h := hr.bind hn
  rwa [append_nil] at h

theorem Decodes.nil_bind (hr : Decodes P read [] value) (hn : Decodes P (next value) bytes result) :
    Decodes P (read >>= next) bytes result := hr.bind hn

theorem Decodes.map (h : Decodes P read bytes value)
    (f : α → β) : Decodes P (read >>= fun value => Pure.pure (f value)) bytes (f value) :=
  h.bind_nil (Decodes.pure P (f value))

theorem Decodes.bind_cons {byte : UInt8} (hr : Decodes P read [byte] value)
    (hn : Decodes P (next value) back result) :
    Decodes P (read >>= next) (byte :: back) result := hr.bind hn

/-! ### `Returns` -/

theorem Returns.pure {P : α → Prop} (h : P value) : Returns (Pure.pure value : Cursor ε α) P := by
  rintro input _ rest ⟨⟩
  exact h

theorem Returns.bind {P : α → Prop} {Q : β → Prop} (hr : Returns read P)
    (hn : ∀ value, P value → Returns (next value) Q) : Returns (read >>= next) Q := by
  intro input result rest h
  obtain ⟨value, rest', hread, hnext⟩ := ok_of_bind_cursor h
  exact hn value (hr input value rest' hread) rest' result rest hnext

theorem Returns.skip {Q : β → Prop} (hn : ∀ value, Returns (next value) Q) : Returns (read >>= next) Q :=
  Returns.bind (P := fun _ => True) (fun _ _ _ _ => True.intro) fun value _ => hn value

theorem Returns.unless {c : Prop} [Decidable c] {error : ε} {P : α → Prop} (h : ¬c → Returns read P) :
    Returns (if c then fail error else read) P := by
  split
  · rintro input value rest ⟨⟩
  · next hc => exact h hc

theorem returns_fail (error : ε) (P : α → Prop) : Returns (fail error : Cursor ε α) P := by
  rintro input value rest ⟨⟩

theorem Returns.ite {c : Prop} [Decidable c] {first second : Cursor ε α} {P : α → Prop}
    (hf : c → Returns first P) (hs : ¬c → Returns second P) :
    Returns (if c then first else second) P := by
  by_cases h : c
  · rw [if_pos h]
    exact hf h
  · rw [if_neg h]
    exact hs h

theorem Returns.within {inner : Cursor ε α} {P : α → Prop} (h : Returns inner P) (body : Bytes) :
    Returns (Cursor.within inner body) P := by
  intro input value rest hread
  unfold Cursor.within at hread
  split at hread
  · next hinner =>
    cases hread
    exact h body _ _ hinner
  · cases hread

theorem Spells.returns {P : α → Prop} (h : Spells read Spelling) (hP : ∀ value front, Spelling value front → P value) :
    Returns read P := by
  intro input value rest hread
  obtain ⟨front, -, hspelled⟩ := h input value rest hread
  exact hP value front hspelled

end Cursor

end RustReality
