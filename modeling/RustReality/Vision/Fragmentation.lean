import RustReality.Vision.DecoderRefine

/-!
# Fragmentation does not matter to the decoder

The four entry points of the decoder, mixed in any order over any fragments of a stream, yield the
bytes, the mode and the first error of one call on the whole stream. A call that fails leaves a
decoder that only answers that it has failed.
-/

namespace RustReality.Vision
open Phase List
open Vless (UserId)

inductive Entry
  | decode | decodeAppend | decodeBorrowed | decodeBorrowedAppend
  deriving DecidableEq, Repr

/-- One call: the entry point, the allocator's answer, the fragment, and what the output storage
holds before. -/
structure Call where
  entry : Entry
  reserved : Bool
  input : Bytes
  output : Bytes

structure Reply where
  yielded : Bytes
  result : Except VisionDecodeError VisionMode

def Reply.error? (r : Reply) : Option VisionDecodeError :=
  match r.result with
  | .error e => some e
  | .ok _ => none

def firstError (replies : List Reply) : Option VisionDecodeError := replies.findSome? Reply.error?

namespace VisionDecoder

/-- The payload of a borrowing call: the borrowed fragment, or what it staged. -/
def borrowedPayload (staged : Bytes) : Except VisionDecodeError (VisionMode × VisionPayload) → Bytes
  | .ok (_, .borrowed input) => input
  | _ => staged

def call (self : VisionDecoder) (c : Call) : VisionDecoder × Reply :=
  match c.entry with
  | .decode =>
    let (self, output, result) := self.decode c.reserved c.input c.output
    (self, ⟨output, result⟩)
  | .decodeAppend =>
    let (self, output, result) := self.decodeAppend c.reserved c.input c.output
    (self, ⟨output.drop c.output.length, result⟩)
  | .decodeBorrowed =>
    let (self, output, result) := self.decodeBorrowed c.reserved c.input c.output
    (self, ⟨borrowedPayload output result, result.map Prod.fst⟩)
  | .decodeBorrowedAppend =>
    let (self, output, result) := self.decodeBorrowedAppend c.reserved c.input c.output
    (self, ⟨borrowedPayload (output.drop c.output.length) result, result.map Prod.fst⟩)

/-! ### One call against the byte machine -/

/-- A decoder between calls stands for a phase; after an error only the failure is left of it. -/
inductive Tracks : VisionDecoder → Phase → Prop
  | ready {d : VisionDecoder} (h : d.Ready) : Tracks d d.phase
  | failed {d : VisionDecoder} (hfailed : d.failed = true) (hmode : d.mode = .framed) (e : VisionDecodeError) :
    Tracks d (.failed e)

/-- What a call reports when it moves the byte machine from one phase to another. -/
def report (before after : Phase) : Except VisionDecodeError VisionMode :=
  match before, after with
  | .failed _, _ => .error .decoderFailed
  | _, .failed e => .error e
  | _, ph => .ok ph.mode

variable {d : VisionDecoder} {ph : Phase}

theorem Tracks.mode_eq (h : Tracks d ph) : d.mode = ph.mode := by
  cases h with
  | ready h => exact h.mode_phase.symm
  | failed _ hm e => exact hm

theorem phase_ne_failed (h : d.Ready) (e : VisionDecodeError) : d.phase ≠ .failed e := by
  by_cases hf : d.mode = .framed
  · cases hu : (d.firstFrame && decide (d.uuidRead < uuidSize)) with
    | true =>
      rw [phase_of_framed hf, if_pos hu]
      cases d.userId.toList.drop d.uuidRead <;> simp [expect]
    | false =>
      by_cases hr : d.headerRead < headerSize
      · rw [phase_of_framed hf, hu]
        simp [hr]
      · obtain ⟨-, command, -, hp⟩ := body_phase h.toValid hf hu hr
        rw [hp]
        cases d.contentRemaining <;> cases d.paddingRemaining <;> cases command <;>
          simp [enter, finish]
  · rw [phase_of_not_framed hf]
    simp

theorem report_of_ne_failed {before after : Phase} (hb : ∀ e, before ≠ .failed e) (ha : ∀ e, after ≠ .failed e) :
    report before after = .ok after.mode := by
  cases before with
  | failed e => exact absurd rfl (hb e)
  | _ =>
    cases after with
    | failed e => exact absurd rfl (ha e)
    | _ => rfl

variable {before : Phase}

theorem report_failed (hb : ∀ e, before ≠ .failed e) (e : VisionDecodeError) :
    report before (.failed e) = .error e := by
  cases before with
  | failed e => exact absurd rfl (hb e)
  | _ => rfl

/-- From a phase that has not failed, a call reports the mode it reached or the failure. -/
theorem report_cases (hb : before.error? = none) (after : Phase) :
    (report before after = .ok after.mode ∧ after.error? = none) ∨
      ∃ e, report before after = .error e ∧ after.error? = some e := by
  have hne : ∀ e, before ≠ .failed e := fun e h => by simp [h, error?] at hb
  cases after with
  | failed e => exact .inr ⟨e, report_failed hne e, rfl⟩
  | _ => exact .inl ⟨report_of_ne_failed hne (by simp), rfl⟩

/-- A call answers for a phase: it yields what the byte machine emits and reports what it reports. -/
structure Answers (ph : Phase) (input : Bytes) (d : VisionDecoder) (reply : Reply) : Prop where
  tracks : Tracks d (ph.feedAll input).1
  yielded : reply.yielded = (ph.feedAll input).2
  result : reply.result = report ph (ph.feedAll input).1

theorem decodeAppend_spec (h : Tracks d ph) (reserved : Bool) (input output : Bytes) :
    ∃ d' emitted result, d.decodeAppend reserved input output = (d', output ++ emitted, result) ∧
      ((reserved = false ∧ result = .error .allocationFailed) ∨ Answers ph input d' ⟨emitted, result⟩) := by
  cases h with
  | failed hfa hm e =>
    refine ⟨d, [], .error .decoderFailed, by simp [decodeAppend, hfa], .inr ⟨?_, by simp, rfl⟩⟩
    rw [feedAll_failed]
    exact .failed hfa hm e
  | ready hre =>
    have hne := phase_ne_failed hre
    cases reserved with
    | false =>
      exact ⟨_, [], .error .allocationFailed, by simp only [decodeAppend, hre.ok, append_nil]; rfl,
        .inl ⟨rfl, rfl⟩⟩
    | true =>
      obtain ⟨d', emitted, result, hi, hs⟩ := decodeInner_spec hre input output
      simp only [decodeAppend, hre.ok, Bool.false_eq_true, if_false, Bool.not_true, hi]
      cases result with
      | ok mode =>
        obtain ⟨hre', rfl, hf⟩ := hs
        refine ⟨d', emitted, .ok d'.mode, rfl, .inr ⟨?_, by rw [hf], ?_⟩⟩
        · rw [hf]
          exact .ready hre'
        · rw [hf, report_of_ne_failed hne (phase_ne_failed hre'), hre'.mode_phase]
      | error e =>
        obtain ⟨-, hm, hf⟩ := hs
        refine ⟨_, emitted, .error e, rfl, .inr ⟨?_, by rw [hf], ?_⟩⟩
        · rw [hf]
          exact .failed (d := { d' with failed := true }) rfl hm e
        · rw [hf, report_failed hne]

def Borrows (d : VisionDecoder) : Prop := d.failed = false ∧ d.mode ≠ .framed

theorem borrowing_of_borrows (h : d.Borrows)
    (stage : VisionDecoder → Bool → Bytes → Bytes → VisionDecoder × Bytes × Except VisionDecodeError VisionMode)
    (reserved : Bool) (input output : Bytes) :
    borrowing stage d reserved input output = (d, output, .ok (d.mode, .borrowed input)) :=
  if_pos (by simpa [Borrows] using h)

theorem borrowing_of_not_borrows (h : ¬d.Borrows)
    (stage : VisionDecoder → Bool → Bytes → Bytes → VisionDecoder × Bytes × Except VisionDecodeError VisionMode)
    {reserved : Bool} {input output staged : Bytes} {d' : VisionDecoder} {result : Except VisionDecodeError VisionMode}
    (hs : stage d reserved input output = (d', staged, result)) :
    borrowing stage d reserved input output = (d', staged, result.map fun mode => (mode, .staged)) := by
  rw [borrowing, if_neg (by simpa [Borrows] using h), hs]

theorem Borrows.answers (hb : d.Borrows) (h : Tracks d ph)
    (input : Bytes) : Answers ph input d ⟨input, .ok d.mode⟩ := by
  obtain ⟨hok, hm⟩ := hb
  cases h with
  | failed hfa _ e => simp [hfa] at hok
  | ready hr =>
    have hf : d.phase.feedAll input = (d.phase, input) := by
      rw [phase_of_not_framed hm, feedAll_done]
    refine ⟨?_, by rw [hf], ?_⟩
    · rw [hf]
      exact .ready hr
    · rw [hf, report_of_ne_failed (phase_ne_failed hr) (phase_ne_failed hr), hr.mode_phase]

theorem staged_reply (staged : Bytes) (result : Except VisionDecodeError VisionMode) :
    (⟨borrowedPayload staged (result.map fun mode => (mode, .staged)),
      (result.map fun mode => (mode, VisionPayload.staged)).map Prod.fst⟩ : Reply) = ⟨staged, result⟩ := by
  cases result <;> rfl

theorem call_spec {d : VisionDecoder} {ph : Phase} (h : Tracks d ph) (c : Call) :
    (c.reserved = false ∧ (d.call c).2.result = .error .allocationFailed) ∨
      Answers ph c.input (d.call c).1 (d.call c).2 := by
  obtain ⟨entry, reserved, input, output⟩ := c
  obtain ⟨d₁, emitted₁, result₁, hc, hspec₁⟩ := decodeAppend_spec h reserved input []
  obtain ⟨d₂, emitted₂, result₂, hk, hspec₂⟩ := decodeAppend_spec h reserved input output
  cases entry with
  | decode => simpa [call, decode, hc] using hspec₁
  | decodeAppend => simpa [call, hk] using hspec₂
  | decodeBorrowed =>
    by_cases hb : d.Borrows
    · simp only [call, decodeBorrowed, borrowing_of_borrows hb]
      exact .inr (hb.answers h input)
    · simp only [call, decodeBorrowed, borrowing_of_not_borrows hb decode hc, staged_reply]
      exact hspec₁
  | decodeBorrowedAppend =>
    by_cases hb : d.Borrows
    · simp only [call, decodeBorrowedAppend, borrowing_of_borrows hb]
      exact .inr (hb.answers h input)
    · simp only [call, decodeBorrowedAppend, borrowing_of_not_borrows hb decodeAppend hk, drop_left,
        staged_reply]
      exact hspec₂

/-! ### Runs -/

theorem error?_report (hb : ∀ e, before ≠ .failed e) (after : Phase) :
    (⟨[], report before after⟩ : Reply).error? = after.error? := by
  cases after with
  | failed e => simp [Reply.error?, report_failed hb, error?]
  | _ =>
    rw [report_of_ne_failed hb (by simp)]
    rfl

theorem run_spec (calls : List Call) (h : Tracks d ph) (hm : ∀ c ∈ calls, c.reserved = true) :
    let whole := ph.feedAll (calls.map Call.input).flatten
    Tracks (Mealy.run call d calls).1 whole.1 ∧
      ((Mealy.run call d calls).2.map Reply.yielded).flatten = whole.2 ∧
      ((∀ e, ph ≠ .failed e) → firstError (Mealy.run call d calls).2 = whole.1.error?) := by
  induction calls generalizing d ph with
  | nil =>
    refine ⟨h, rfl, fun hne => ?_⟩
    cases ph with
    | failed e => exact absurd rfl (hne e)
    | _ => rfl
  | cons c cs ih =>
    rw [Mealy.run_cons]
    obtain ⟨ht, hy, hr⟩ := (call_spec h c).resolve_left fun hno => by
      simp [hm c (.head _)] at hno
    obtain ⟨ht', hy', hf'⟩ := ih ht fun c hc => hm c (.tail _ hc)
    simp only [map_cons, flatten_cons, feedAll_append]
    refine ⟨ht', by rw [hy, hy'], fun hne => ?_⟩
    have he : (d.call c).2.error? = (ph.feedAll c.input).1.error? := by
      rw [← error?_report hne, ← hr]
      rfl
    rw [firstError, findSome?_cons, he]
    cases hph : (ph.feedAll c.input).1 with
    | failed e => simp [error?]
    | _ =>
      rw [hph] at hf'
      exact hf' (by simp)

theorem decodeAppend_error {reserved : Bool} {input output : Bytes}
    {e : VisionDecodeError} (h : (d.decodeAppend reserved input output).2.2 = .error e) :
    (d.decodeAppend reserved input output).1.failed = true := by
  unfold decodeAppend at h ⊢
  split_ifs at h ⊢ with hf
  · exact hf
  · rfl
  · split at h <;> simp_all

theorem failed_of_error {c : Call} {e : VisionDecodeError}
    (h : (d.call c).2.result = .error e) : (d.call c).1.failed = true := by
  obtain ⟨entry, reserved, input, output⟩ := c
  have hm : ∀ {result : Except VisionDecodeError VisionMode},
      (result.map fun mode => (mode, VisionPayload.staged)).map Prod.fst = result := fun {result} => by
    cases result <;> rfl
  cases entry with
  | decode => exact decodeAppend_error h
  | decodeAppend => exact decodeAppend_error h
  | decodeBorrowed =>
    by_cases hb : d.Borrows
    · simp [call, decodeBorrowed, borrowing_of_borrows hb, Except.map] at h
    · simp only [call, decodeBorrowed, borrowing_of_not_borrows hb decode rfl, hm] at h ⊢
      exact decodeAppend_error h
  | decodeBorrowedAppend =>
    by_cases hb : d.Borrows
    · simp [call, decodeBorrowedAppend, borrowing_of_borrows hb, Except.map] at h
    · simp only [call, decodeBorrowedAppend, borrowing_of_not_borrows hb decodeAppend rfl,
        hm] at h ⊢
      exact decodeAppend_error h

theorem call_of_failed (h : d.failed = true) (c : Call) :
    d.call c = (d, ⟨[], .error .decoderFailed⟩) := by
  have hb : ¬d.Borrows := fun hno => by simp [hno.1] at h
  have hf : ∀ reserved input output, d.decodeAppend reserved input output =
      (d, output, .error .decoderFailed) := fun _ _ _ => if_pos h
  obtain ⟨entry, reserved, input, output⟩ := c
  cases entry with
  | decode => simp [call, decode, hf]
  | decodeAppend => simp [call, hf]
  | decodeBorrowed =>
    simp [call, decodeBorrowed, borrowing_of_not_borrows hb decode (hf reserved input []),
      staged_reply]
  | decodeBorrowedAppend =>
    simp [call, decodeBorrowedAppend, borrowing_of_not_borrows hb decodeAppend (hf reserved input output),
      staged_reply]

theorem run_of_failed (h : d.failed = true) (calls : List Call) :
    ∀ r ∈ (Mealy.run call d calls).2, r = ⟨[], .error .decoderFailed⟩ := by
  induction calls with
  | nil => simp
  | cons c cs ih =>
    rw [Mealy.run_cons, call_of_failed h c]
    exact forall_mem_cons.mpr ⟨rfl, ih⟩

/-- However a stream is cut into fragments and through whichever entry points they are decoded: the
payload, the mode and the first error are those of one call on the whole stream, unless a call was
refused memory. Every decode loop ends, and after an error every later call only reports that the
decoder has failed. -/
theorem decoder_fragmentation_independent (userId : UserId) (calls : List Call) (entry : Entry)
    (output : Bytes) :
    let run := Mealy.run call (new userId) calls
    let whole := (new userId).call ⟨entry, true, (calls.map Call.input).flatten, output⟩
    ((∃ c ∈ calls, c.reserved = false) ∨
      (run.2.map Reply.yielded).flatten = whole.2.yielded ∧ run.1.mode = whole.1.mode ∧
        firstError run.2 = whole.2.error? ∧
        (run.1.failed = false → run.1.mode = .framed → ∀ input storage,
          (decodeLoop (2 * input.length + 1) run.1 input storage).isSome)) ∧
    ∀ (d : VisionDecoder) (c : Call) (e : VisionDecodeError) (later : List Call),
      (d.call c).2.result = .error e →
        ∀ r ∈ (Mealy.run call (d.call c).1 later).2, r = ⟨[], .error .decoderFailed⟩ := by
  intro run whole
  have hi : Tracks (new userId) (.init userId) := .ready (.new userId)
  have hne : ∀ e, init userId ≠ .failed e := phase_ne_failed (.new userId)
  refine ⟨?_, fun d c e later he => run_of_failed (failed_of_error he) later⟩
  by_cases hm : ∀ c ∈ calls, c.reserved = true
  · right
    obtain ⟨htr, hy, hf⟩ := run_spec calls hi hm
    obtain ⟨htr', hy', hr'⟩ :=
      (call_spec hi ⟨entry, true, (calls.map Call.input).flatten, output⟩).resolve_left (by simp)
    refine ⟨hy.trans hy'.symm, htr.mode_eq.trans htr'.mode_eq.symm, ?_, fun hok hmd => ?_⟩
    · rw [hf hne, ← error?_report hne, ← hr']
      rfl
    · intro input storage
      generalize ((init userId).feedAll _).1 = ph at htr
      cases htr with
      | failed hfa _ _ => exact absurd (hok.symm.trans hfa) (by simp)
      | ready hre =>
        obtain ⟨d', emitted, result, hl, -⟩ := decodeLoop_ends hre hmd input storage
        rw [hl]
        rfl
  · left
    simpa using hm

end VisionDecoder

end RustReality.Vision
