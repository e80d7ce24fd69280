import RustReality.Lib.Bytes

/-!
# Sockets as scripts

What a socket does to its user is a script fixed in advance: a source is a list of read events, a
sink a list of write events together with what has been written so far. Functions over sockets are
then deterministic, and a statement for all scripts is one for every chunking, short write, error,
timeout and cancellation. A script that has ended reads as end of stream and accepts every write.
-/

namespace RustReality.Net
open List

inductive ErrorKind
  | brokenPipe
  | connectionReset
  | connectionAborted
  | notConnected
  | timedOut
  | writeZero
  | other
  deriving DecidableEq, Repr

inductive Failure
  /-- The idle window elapsed first. -/
  | timeout
  /-- The deadline of the operation cannot be represented. -/
  | unarmed
  | io (kind : ErrorKind)
  /-- The future was dropped while the operation was pending. -/
  | dropped
  deriving DecidableEq, Repr

/-! ### Reading -/

inductive ReadEvent
  /-- Bytes that become available together, at least one. -/
  | data (first : UInt8) (more : Bytes)
  | fail (failure : Failure)
  deriving DecidableEq, Repr

abbrev Source := List ReadEvent

variable {fuel : Nat}

namespace Source

def unread : Bytes → Source → Source
  | [], s => s
  | b :: bs, s => .data b bs :: s

/-- Read once into `cap` bytes of storage; no bytes is the end of the stream. -/
def read (s : Source) (cap : Nat) : Source × Except Failure Bytes :=
  match s with
  | [] => ([], .ok [])
  | .fail failure :: s => (s, .error failure)
  | .data first more :: s => (unread ((first :: more).drop cap) s, .ok ((first :: more).take cap))

def bytes : Source → Bytes
  | [] => []
  | .fail _ :: _ => []
  | .data first more :: s => first :: more ++ bytes s

def ending : Source → Option Failure
  | [] => none
  | .fail failure :: _ => some failure
  | .data _ _ :: s => ending s

@[simp] theorem bytes_unread (bs : Bytes) (s : Source) : bytes (unread bs s) = bs ++ bytes s := by
  cases bs <;> rfl

@[simp] theorem ending_unread (bs : Bytes) (s : Source) : ending (unread bs s) = ending s := by
  cases bs <;> rfl

inductive ReadResult (s : Source) (cap : Nat) : Source → Except Failure Bytes → Prop
  | data {s' : Source} {chunk : Bytes} (hne : chunk ≠ []) (hlen : chunk.length ≤ cap)
      (hbytes : s.bytes = chunk ++ s'.bytes) (hending : s'.ending = s.ending) : ReadResult s cap s' (.ok chunk)
  | eof (hbytes : s.bytes = []) (hending : s.ending = none) : ReadResult s cap [] (.ok [])
  | fail {s' : Source} {failure : Failure} (hbytes : s.bytes = []) (hending : s.ending = some failure) :
      ReadResult s cap s' (.error failure)

theorem read_spec (s : Source) {cap : Nat} (hc : 0 < cap) :
    ReadResult s cap (s.read cap).1 (s.read cap).2 := by
  match s with
  | [] => exact .eof rfl rfl
  | .fail failure :: s => exact .fail rfl rfl
  | .data first more :: s =>
    refine .data ?_ ?_ ?_ ?_
    · cases cap with
      | zero => omega
      | succ cap => simp
    · rw [length_take]
      exact Nat.min_le_left _ _
    · rw [read, bytes_unread, ← append_assoc, take_append_drop]
      rfl
    · rw [read, ending_unread]
      rfl

/-- Read until `need` more bytes have arrived; `none` is a stream that ends before. -/
def readExactLoop : Nat → Source → Nat → Bytes → Source × Except (Option Failure) Bytes
  | 0, s, _, got => (s, .ok got)
  | fuel + 1, s, need, got =>
    if need = 0 then (s, .ok got)
    else
      match s.read need with
      | (s, .error failure) => (s, .error (some failure))
      | (s, .ok chunk) =>
        if chunk = [] then (s, .error none) else readExactLoop fuel s (need - chunk.length) (got ++ chunk)

def readExact (s : Source) (need : Nat) : Source × Except (Option Failure) Bytes := readExactLoop need s need []

theorem readExactLoop_spec {fuel : Nat} {s s' : Source} {need : Nat} {got bytes : Bytes} (hf : need ≤ fuel)
    (h : readExactLoop fuel s need got = (s', .ok bytes)) :
    ∃ more, bytes = got ++ more ∧ more.length = need ∧ s.bytes = more ++ s'.bytes := by
  induction fuel generalizing s need got with
  | zero =>
    cases h
    exact ⟨[], (append_nil _).symm, by simp only [length_nil]; omega, rfl⟩
  | succ fuel ih =>
    rw [readExactLoop] at h
    split at h
    · next hz =>
      cases h
      exact ⟨[], (append_nil _).symm, hz.symm, rfl⟩
    · next hp =>
      have hr := read_spec s (Nat.pos_of_ne_zero hp)
      rcases hio : s.read need with ⟨mid, outcome⟩
      rw [hio] at hr h
      cases hr with
      | eof hb he => cases h
      | fail hb he => cases h
      | data hne hl hb he =>
        rename_i chunk
        dsimp only at h
        have hc := length_pos_of_ne_nil hne
        rw [if_neg hne] at h
        obtain ⟨more, rfl, hm, hrs⟩ := ih (by omega) h
        refine ⟨chunk ++ more, append_assoc _ _ _, ?_, ?_⟩
        · rw [length_append]
          omega
        · rw [append_assoc, ← hrs]
          exact hb

theorem readExact_spec {s s' : Source} {need : Nat} {bytes : Bytes} (h : s.readExact need = (s', .ok bytes)) :
    bytes.length = need ∧ s.bytes = bytes ++ s'.bytes := by
  obtain ⟨more, rfl, hm, hb⟩ := readExactLoop_spec (Nat.le_refl need) h
  exact ⟨hm, hb⟩

/-! ### Reading with the bytes kept on failure -/

/-- Everything a source will ever deliver, also behind a failure. -/
def stream : Source → Bytes
  | [] => []
  | .fail _ :: s => stream s
  | .data first more :: s => first :: more ++ stream s

@[simp] theorem stream_unread (bs : Bytes) (s : Source) : stream (unread bs s) = bs ++ stream s := by
  cases bs <;> rfl

theorem read_stream (s : Source) (cap : Nat) :
    s.stream = (s.read cap).2.toOption.getD [] ++ (s.read cap).1.stream := by
  match s with
  | [] => rfl
  | .fail failure :: s => rfl
  | .data first more :: s =>
    simp only [read, stream_unread, Except.toOption, Option.getD_some, ← append_assoc, take_append_drop]
    rfl

/-- What a source still does once its first failure has been reported. -/
def after : Source → Source
  | [] => []
  | .fail _ :: s => s
  | .data _ _ :: s => after s

@[simp] theorem after_unread (bs : Bytes) (s : Source) : after (unread bs s) = after s := by
  cases bs <;> rfl

theorem stream_eq (s : Source) : s.stream = s.bytes ++ s.after.stream := by
  induction s with
  | nil => rfl
  | cons event s ih =>
    cases event with
    | data first more => simp only [stream, bytes, after, ih, cons_append, append_assoc]
    | fail failure => rfl

/-- A read of bytes keeps what comes after the failure; any other read uses the failure up. -/
theorem read_after {s s' : Source} {cap : Nat} {outcome : Except Failure Bytes} (hc : 0 < cap)
    (h : s.read cap = (s', outcome)) :
    (∃ chunk, chunk ≠ [] ∧ outcome = .ok chunk ∧ s'.after = s.after) ∨
      ((∀ chunk, outcome = .ok chunk → chunk = []) ∧ s' = s.after) := by
  match s with
  | [] =>
    cases h
    exact .inr ⟨by rintro chunk ⟨⟩; rfl, rfl⟩
  | .fail failure :: s =>
    cases h
    exact .inr ⟨by rintro chunk ⟨⟩, rfl⟩
  | .data first more :: s =>
    cases h
    refine .inl ⟨_, ?_, rfl, after_unread _ _⟩
    cases cap with
    | zero => omega
    | succ cap => simp

/-- Read until `output` has `target` bytes, at most `scratch` of them at a time. The last component says why
the loop stopped before: a failure, or the end of the stream. -/
def readToLoop (scratch : Nat) : Nat → Source → Bytes → Nat → Source × Bytes × Option (Option Failure)
  | 0, s, output, _ => (s, output, none)
  | fuel + 1, s, output, target =>
    if output.length < target then
      match s.read (min (target - output.length) scratch) with
      | (s, .error failure) => (s, output, some (some failure))
      | (s, .ok chunk) =>
        if chunk = [] then (s, output, some none) else readToLoop scratch fuel s (output ++ chunk) target
    else (s, output, none)

def readTo (scratch : Nat) (s : Source) (output : Bytes) (target : Nat) : Source × Bytes × Option (Option Failure) :=
  readToLoop scratch (target - output.length) s output target

/-- What reading up to a length does: it takes what is missing off the front of the stream, or everything
that arrives when that is less. -/
inductive ReadTo (s : Source) (output : Bytes) (target : Nat) : Source × Bytes × Option (Option Failure) → Prop
  | full {s' : Source} (hlen : target - output.length ≤ s.bytes.length)
      (hbytes : s'.bytes = s.bytes.drop (target - output.length)) (hending : s'.ending = s.ending)
      (hstream : s.stream = s.bytes.take (target - output.length) ++ s'.stream) :
      ReadTo s output target (s', output ++ s.bytes.take (target - output.length), none)
  | short {s' : Source} (hlen : s.bytes.length < target - output.length) (hstream : s.stream = s.bytes ++ s'.stream) :
      ReadTo s output target (s', output ++ s.bytes, some s.ending)

inductive Fill
  | full
  /-- There was no storage for another byte. -/
  | noRoom
  | stopped (why : Option Failure)
  deriving DecidableEq, Repr

/-- Read until `output` has at least `target` bytes; with `n` bytes there, the next read asks for `cap n`. -/
def readPastLoop (cap : Nat → Nat) : Nat → Source → Bytes → Nat → Source × Bytes × Fill
  | 0, s, output, _ => (s, output, .full)
  | fuel + 1, s, output, target =>
    if output.length < target then
      if cap output.length = 0 then (s, output, .noRoom)
      else
        match s.read (cap output.length) with
        | (s, .error failure) => (s, output, .stopped (some failure))
        | (s, .ok chunk) =>
          if chunk = [] then (s, output, .stopped none) else readPastLoop cap fuel s (output ++ chunk) target
    else (s, output, .full)

def readPast (cap : Nat → Nat) (s : Source) (output : Bytes) (target : Nat) : Source × Bytes × Fill :=
  readPastLoop cap (target - output.length) s output target

/-- What reading past a length does when every read has room and asks for at most `slack` bytes too many. -/
inductive ReadPast (s : Source) (output : Bytes) (target slack : Nat) : Source × Bytes × Fill → Prop
  | full {s' : Source} {taken : Bytes} (hbytes : s.bytes = taken ++ s'.bytes) (hending : s'.ending = s.ending)
      (hstream : s.stream = taken ++ s'.stream) (hlen : target ≤ output.length + taken.length)
      (hmax : output.length + taken.length ≤ max output.length (target + slack)) :
      ReadPast s output target slack (s', output ++ taken, .full)
  | short {s' : Source} (hlen : output.length + s.bytes.length < target) (hstream : s.stream = s.bytes ++ s'.stream) :
      ReadPast s output target slack (s', output ++ s.bytes, .stopped s.ending)

variable {s : Source} {output : Bytes} {target scratch slack : Nat}

theorem ReadPast.done (h : target ≤ output.length) :
    ReadPast s output target slack (s, output, .full) := by
  have h := @ReadPast.full s output target slack s [] rfl rfl rfl h (Nat.le_max_left _ _)
  rw [append_nil] at h
  exact h

theorem readPastLoop_spec {cap : Nat → Nat}
    (hc : ∀ n < target, 0 < cap n ∧ cap n ≤ target - n + slack) (hfuel : target - output.length ≤ fuel) :
    ReadPast s output target slack (readPastLoop cap fuel s output target) := by
  induction fuel generalizing s output with
  | zero => exact .done (by omega)
  | succ fuel ih =>
    rw [readPastLoop]
    by_cases hlt : output.length < target
    · obtain ⟨hp, hle⟩ := hc _ hlt
      rw [if_pos hlt, if_neg (Nat.ne_of_gt hp)]
      have hrd := read_spec s hp
      have hst := read_stream s (cap output.length)
      rcases hio : s.read (cap output.length) with ⟨mid, outcome⟩
      rw [hio] at hrd hst
      cases hrd with
      | eof hby hen =>
        have h := @ReadPast.short s output target slack [] (by rw [hby]; exact hlt) (by rw [hby]; exact hst)
        rw [hby, hen, append_nil] at h
        exact h
      | fail hby hen =>
        have h := @ReadPast.short s output target slack mid (by rw [hby]; exact hlt) (by rw [hby]; exact hst)
        rw [hby, hen, append_nil] at h
        exact h
      | data hne hl hby hen =>
        rename_i chunk
        have hch := length_pos_of_ne_nil hne
        have hst' : s.stream = chunk ++ mid.stream := hst
        have hby' : s.bytes = chunk ++ mid.bytes := hby
        dsimp only
        rw [if_neg hne]
        have hr := @ih mid (output ++ chunk) (by rw [length_append]; omega)
        generalize readPastLoop cap fuel mid (output ++ chunk) target = result at hr ⊢
        cases hr with
        | full hmr hs hm hf hmx =>
          rename_i s' taken
          rw [length_append] at hf hmx
          have h := @ReadPast.full s output target slack s' (chunk ++ taken) (by rw [hby', hmr, append_assoc])
            (hs.trans hen) (by rw [hst', hm, append_assoc])
            (by rw [length_append]; omega) (by rw [length_append]; omega)
          rw [← append_assoc] at h
          exact h
        | short hsh hm =>
          rename_i s'
          rw [length_append] at hsh
          have h := @ReadPast.short s output target slack s' (by rw [hby', length_append]; omega)
            (by rw [hby', hst', hm, append_assoc])
          rw [hby', ← append_assoc, ← hen] at h
          exact h
    · rw [if_neg hlt]
      exact .done (Nat.le_of_not_lt hlt)

theorem readPast_spec {cap : Nat → Nat} (hc : ∀ n < target, 0 < cap n ∧ cap n ≤ target - n + slack)
    (s : Source) (output : Bytes) : ReadPast s output target slack (readPast cap s output target) :=
  readPastLoop_spec hc (Nat.le_refl _)

def Fill.stop : Fill → Option (Option Failure)
  | .stopped why => some why
  | _ => none

theorem readToLoop_eq (hs : 0 < scratch) : readToLoop scratch fuel s output target =
    ((readPastLoop (fun n => min (target - n) scratch) fuel s output target).1,
      (readPastLoop (fun n => min (target - n) scratch) fuel s output target).2.1,
      (readPastLoop (fun n => min (target - n) scratch) fuel s output target).2.2.stop) := by
  induction fuel generalizing s output with
  | zero => rfl
  | succ fuel ih =>
    rw [readToLoop, readPastLoop]
    by_cases hlt : output.length < target
    · rw [if_pos hlt, if_pos hlt, if_neg (by omega)]
      rcases s.read (min (target - output.length) scratch) with ⟨mid, failure | chunk⟩
      · rfl
      · dsimp only
        split
        · rfl
        · exact ih
    · rw [if_neg hlt, if_neg hlt]
      rfl

theorem readToLoop_spec (hscratch : 0 < scratch) (hf : target - output.length ≤ fuel) :
    ReadTo s output target (readToLoop scratch fuel s output target) := by
  have hp : ReadPast s output target 0 (readPastLoop (fun n => min (target - n) scratch) fuel s output target) :=
    readPastLoop_spec (fun n hn => by omega) hf
  rw [readToLoop_eq hscratch]
  generalize readPastLoop (fun n => min (target - n) scratch) fuel s output target = result at hp ⊢
  cases hp with
  | full hb he hs hl hm =>
    rename_i s' taken
    have hnd : taken.length = target - output.length := by omega
    have ht : s.bytes.take (target - output.length) = taken := by rw [hb, take_left' hnd]
    have h := @ReadTo.full s output target s' (by rw [hb, length_append]; omega)
      (by rw [hb, drop_left' hnd]) he (by rw [ht]; exact hs)
    rwa [ht] at h
  | short hl hs => exact .short (by omega) hs

theorem readTo_spec (hs : 0 < scratch) (s : Source) (output : Bytes) (target : Nat) :
    ReadTo s output target (readTo scratch s output target) := readToLoop_spec hs (Nat.le_refl _)

/-- The same bytes arrive, and the stream ends alike, however they are cut into reads. -/
structure Alike (s t : Source) : Prop where
  bytes_eq : s.bytes = t.bytes
  ending_eq : s.ending = t.ending

/-- How the bytes are cut into reads makes no difference to reading up to a length. -/
theorem readTo_alike (hscratch : 0 < scratch) {s t : Source} (h : Alike s t) (output : Bytes) (target : Nat) :
    (readTo scratch s output target).2 = (readTo scratch t output target).2 ∧
      ((readTo scratch s output target).2.2 = none →
        Alike (readTo scratch s output target).1 (readTo scratch t output target).1) := by
  have hs := readTo_spec hscratch s output target
  have ht := readTo_spec hscratch t output target
  generalize readTo scratch s output target = result at hs
  generalize readTo scratch t output target = result' at ht
  cases hs with
  | full hl hb he =>
    cases ht with
    | full hl' hb' he' =>
      refine ⟨by rw [h.bytes_eq], fun _ => ⟨?_, ?_⟩⟩
      · rw [hb, hb', h.bytes_eq]
      · rw [he, he', h.ending_eq]
    | short hl' =>
      rw [← h.bytes_eq] at hl'
      omega
  | short hl =>
    cases ht with
    | full hl' =>
      rw [← h.bytes_eq] at hl'
      omega
    | short hl' => exact ⟨by rw [h.bytes_eq, h.ending_eq], fun hn => by cases hn⟩

end Source

/-! ### Writing -/

inductive WriteEvent
  /-- The socket takes up to `more + 1` bytes. -/
  | accept (more : Nat)
  /-- The socket takes no byte. -/
  | zero
  | fail (failure : Failure)
  deriving DecidableEq, Repr

structure Sink where
  written : Bytes
  script : List WriteEvent
  closed : Bool
  deriving DecidableEq, Repr

namespace Sink

def fresh (script : List WriteEvent) : Sink := ⟨[], script, false⟩

variable (self : Sink)

def write (input : Bytes) : Sink × Except Failure Nat :=
  match self.script with
  | [] => ({ self with written := self.written ++ input }, .ok input.length)
  | .accept more :: script =>
    ({ self with written := self.written ++ input.take (more + 1), script },
      .ok (min (more + 1) input.length))
  | .zero :: script => ({ self with script }, .ok 0)
  | .fail failure :: script => ({ self with script }, .error failure)

/-- Offer the rest until all of it is taken; a socket that takes nothing is an error. -/
def writeLoop : Nat → Sink → Bytes → Sink × Except Failure Unit
  | 0, self, _ => (self, .ok ())
  | fuel + 1, self, input =>
    if input = [] then (self, .ok ())
    else
      match self.write input with
      | (self, .error failure) => (self, .error failure)
      | (self, .ok 0) => (self, .error (.io .writeZero))
      | (self, .ok (n + 1)) => writeLoop fuel self (input.drop (n + 1))

def writeAll (input : Bytes) : Sink × Except Failure Unit :=
  writeLoop input.length self input

def shutdown : Sink × Except Failure Unit :=
  match self.script with
  | .fail failure :: script => ({ self with script }, .error failure)
  | _ => ({ self with closed := true }, .ok ())

variable {self self' : Sink} {input : Bytes}

/-- A write takes what it reports from the front of the input, or fails and takes nothing. -/
theorem write_spec {outcome : Except Failure Nat} (h : self.write input = (self', outcome)) :
    (∃ failure, outcome = .error failure ∧ self'.written = self.written) ∨
      ∃ n, outcome = .ok n ∧ n ≤ input.length ∧ self'.written = self.written ++ input.take n := by
  obtain ⟨written, script, closed⟩ := self
  match script with
  | [] =>
    cases h
    exact .inr ⟨_, rfl, Nat.le_refl _, by rw [take_length]⟩
  | .accept more :: script =>
    cases h
    exact .inr ⟨_, rfl, Nat.min_le_right _ _, by rw [← take_eq_take_min]⟩
  | .zero :: script =>
    cases h
    exact .inr ⟨0, rfl, Nat.zero_le _, by simp⟩
  | .fail failure :: script =>
    cases h
    exact .inl ⟨failure, rfl, rfl⟩

theorem writeLoop_spec {result : Except Failure Unit}
    (hf : input.length ≤ fuel) (h : writeLoop fuel self input = (self', result)) :
    ∃ sent, self'.written = self.written ++ sent ∧ sent <+: input ∧ (result = .ok () → sent = input) := by
  induction fuel generalizing self input with
  | zero =>
    cases h
    have : input = [] := length_eq_zero_iff.mp (by omega)
    exact ⟨[], by simp, nil_prefix, fun _ => this.symm⟩
  | succ fuel ih =>
    rw [writeLoop] at h
    split_ifs at h with hnl
    · cases h
      exact ⟨[], by simp, nil_prefix, fun _ => hnl.symm⟩
    · rcases hwr : self.write input with ⟨mid, outcome⟩
      simp only [hwr] at h
      obtain ⟨failure, rfl, hw⟩ | ⟨n, rfl, hn, hw⟩ := write_spec hwr
      · cases h
        exact ⟨[], by simpa using hw, nil_prefix, by simp⟩
      · cases n with
        | zero =>
          cases h
          exact ⟨[], by simpa using hw, nil_prefix, by simp⟩
        | succ n =>
          obtain ⟨sent, hs, hle, ha⟩ := ih (by rw [length_drop]; omega) h
          refine ⟨input.take (n + 1) ++ sent, by rw [hs, hw, append_assoc], ?_, fun hok => ?_⟩
          · calc input.take (n + 1) ++ sent <+: input.take (n + 1) ++ input.drop (n + 1) :=
                  (prefix_append_right_inj _).mpr hle
              _ = input := take_append_drop _ _
          · rw [ha hok, take_append_drop]

/-- `writeAll` writes its input, or a part from the front of it when it fails. -/
theorem writeAll_spec {result : Except Failure Unit} (h : self.writeAll input = (self', result)) :
    ∃ sent, self'.written = self.written ++ sent ∧ sent <+: input ∧ (result = .ok () → sent = input) :=
  writeLoop_spec (Nat.le_refl _) h

@[simp] theorem written_shutdown (self : Sink) : self.shutdown.1.written = self.written := by
  unfold shutdown
  split <;> rfl

/-- The next write takes a byte of what it is offered. -/
def Accepts : Prop := ∀ event ∈ self.script.head?, ∃ more, event = .accept more

theorem write_ok_iff {self : Sink} (hne : input ≠ []) : (∃ n, (self.write input).2 = .ok (n + 1)) ↔ self.Accepts := by
  have hlen := length_pos_of_ne_nil hne
  obtain ⟨written, script, closed⟩ := self
  match script with
  | [] => exact iff_of_true ⟨input.length - 1, congrArg Except.ok (by omega)⟩ (by rintro _ ⟨⟩)
  | .accept more :: script =>
    exact iff_of_true ⟨min (more + 1) input.length - 1, congrArg Except.ok (by omega)⟩ (by rintro _ ⟨⟩; exact ⟨more, rfl⟩)
  | .zero :: script => exact iff_of_false (by rintro ⟨n, ⟨⟩⟩) fun h => by obtain ⟨more, ⟨⟩⟩ := h _ rfl
  | .fail failure :: script => exact iff_of_false (by rintro ⟨n, ⟨⟩⟩) fun h => by obtain ⟨more, ⟨⟩⟩ := h _ rfl

theorem script_write (self : Sink) (input : Bytes) : (self.write input).1.script <:+ self.script ∧
    ∀ failure, (self.write input).2 = .error failure → .fail failure ∈ self.script := by
  obtain ⟨written, script, closed⟩ := self
  match script with
  | [] => exact ⟨suffix_rfl, by rintro _ ⟨⟩⟩
  | .accept more :: script | .zero :: script => exact ⟨suffix_cons _ _, by rintro _ ⟨⟩⟩
  | .fail failure :: script => exact ⟨suffix_cons _ _, by rintro _ ⟨⟩; exact .head _⟩

theorem script_writeLoop (fuel : Nat) (self : Sink) (input : Bytes) : (writeLoop fuel self input).1.script <:+ self.script := by
  induction fuel generalizing self input with
  | zero => exact suffix_rfl
  | succ fuel ih =>
    have hwrite := (script_write self input).1
    rw [writeLoop]
    split_ifs
    · exact suffix_rfl
    rcases hw : self.write input with ⟨mid, _ | _ | n⟩ <;> rw [hw] at hwrite
    · exact hwrite
    · exact hwrite
    · exact (ih mid _).trans hwrite

theorem script_writeAll {result : Except Failure Unit} (h : self.writeAll input = (self', result)) : self'.script <:+ self.script := by
  have hscript := script_writeLoop input.length self input
  rwa [show writeLoop input.length self input = (self', result) from h] at hscript

theorem script_shutdown (self : Sink) : self.shutdown.1.script <:+ self.script ∧
    ∀ failure, self.shutdown.2 = .error failure → .fail failure ∈ self.script := by
  unfold shutdown
  split
  · next failure script h =>
    rw [h]
    exact ⟨suffix_cons _ _, by rintro _ ⟨⟩; exact .head _⟩
  · exact ⟨suffix_rfl, by rintro _ ⟨⟩⟩

def Healthy : Prop := ∀ event ∈ self.script, ∃ more, event = .accept more

theorem write_healthy {self : Sink} (h : self.Healthy) (hne : input ≠ []) :
    (self.write input).1.Healthy ∧ ∃ n, (self.write input).2 = .ok (n + 1) := by
  have hl := length_pos_of_ne_nil hne
  obtain ⟨written, script, closed⟩ := self
  match script with
  | [] => exact ⟨h, input.length - 1, congrArg Except.ok (Nat.succ_pred_eq_of_pos hl).symm⟩
  | event :: script =>
    obtain ⟨more, rfl⟩ := h event (.head _)
    have hm : 0 < min (more + 1) input.length := by omega
    exact ⟨fun event hmm => h event (.tail _ hmm), _, congrArg Except.ok (Nat.succ_pred_eq_of_pos hm).symm⟩

theorem writeLoop_healthy {self : Sink} (h : self.Healthy) (input : Bytes) :
    (writeLoop fuel self input).1.Healthy ∧ (writeLoop fuel self input).2 = .ok () := by
  induction fuel generalizing self input with
  | zero => exact ⟨h, rfl⟩
  | succ fuel ih =>
    rw [writeLoop]
    split_ifs with hn
    · exact ⟨h, rfl⟩
    · obtain ⟨hh, n, hok⟩ := write_healthy h hn
      rw [← Prod.eta (self.write input), hok]
      exact ih hh _

theorem writeAll_healthy {self : Sink} (h : self.Healthy) (input : Bytes) :
    (self.writeAll input).1.Healthy ∧ (self.writeAll input).2 = .ok () :=
  writeLoop_healthy h input

theorem shutdown_healthy {self : Sink} (h : self.Healthy) :
    self.shutdown.1.Healthy ∧ self.shutdown.2 = .ok () := by
  obtain ⟨written, script, closed⟩ := self
  match script with
  | [] => exact ⟨h, rfl⟩
  | event :: script =>
    obtain ⟨more, rfl⟩ := h event (.head _)
    exact ⟨h, rfl⟩

end Sink

end RustReality.Net
