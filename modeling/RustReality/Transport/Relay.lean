import RustReality.Lib.Net

/-!
# The raw TCP relay

A direction is pumped from a source to a sink, through a pooled buffer or through a kernel pipe, and
every write is entered in a ledger after the destination has taken it. A backend may decline before the
first byte; an error after that ends the relay. Whatever the backend, the chunking and the short
writes: what arrives is a part of the source's bytes from its front, all of them when the pump ends
normally, and the ledger counts it (`relayDirection_spec`, `relayOwned_spec`).
-/

namespace RustReality.Transport
open Net List

inductive RelayError
  | io (kind : ErrorKind)
  /-- The relay future was dropped. -/
  | dropped
  deriving DecidableEq, Repr

/-- `idle_io_error`: an elapsed or unrepresentable window reads as a timeout. -/
def RelayError.ofFailure : Failure → RelayError
  | .timeout => .io .timedOut
  | .unarmed => .io .timedOut
  | .io kind => .io kind
  | .dropped => .dropped

inductive RelayBackend
  | splice | buffered
  deriving DecidableEq, Repr

abbrev Capacity := { n : Nat // 0 < n }

def addCount (counter bytes : Nat) : Option Nat :=
  if counter + bytes < 2 ^ 64 then some (counter + bytes) else none

def isPeerReset : Failure → Bool
  | .io .connectionReset => true
  | _ => false

def isPeerGone : Failure → Bool
  | .io .connectionReset => true
  | .io .brokenPipe => true
  | .io .notConnected => true
  | _ => false

/-! ### Pumping one direction -/

structure Pump where
  source : Source
  sink : Sink
  /-- This direction's counter of the ledger. -/
  moved : Nat

/-- Offer the payload until the destination has taken it, counting each write. The third component is
what it has not taken. -/
def drain : Nat → Sink → Nat → Bytes → Sink × Nat × Bytes × Except RelayError Unit
  | 0, sink, moved, payload => (sink, moved, payload, .ok ())
  | fuel + 1, sink, moved, payload =>
    if payload = [] then (sink, moved, [], .ok ())
    else
      match sink.write payload with
      | (sink, .error failure) => (sink, moved, payload, .error (.ofFailure failure))
      | (sink, .ok 0) => (sink, moved, payload, .error (.io .writeZero))
      | (sink, .ok (n + 1)) =>
        match addCount moved (n + 1) with
        | none => (sink, moved, payload.drop (n + 1), .error (.io .other))
        | some moved => drain fuel sink moved (payload.drop (n + 1))

def closeWrite (sourceResetIsEof : Bool) (sink : Sink) : Sink × Except RelayError Unit :=
  match sink.shutdown with
  | (sink, .ok ()) => (sink, .ok ())
  | (sink, .error failure) =>
    if sourceResetIsEof && isPeerGone failure then (sink, .ok ()) else (sink, .error (.ofFailure failure))

def copyDirection (buffer : Capacity) (sourceResetIsEof : Bool) : Nat → Pump → Pump × Except RelayError Unit
  | 0, p => (p, .error .dropped)
  | fuel + 1, p =>
    let finish (source : Source) :=
      let (sink, result) := closeWrite sourceResetIsEof p.sink
      ({ p with source, sink }, result)
    match p.source.read buffer with
    | (source, .error failure) =>
      if sourceResetIsEof && isPeerReset failure then finish source
      else ({ p with source }, .error (.ofFailure failure))
    | (source, .ok chunk) =>
      if chunk = [] then finish source
      else
        match drain chunk.length p.sink p.moved chunk with
        | (sink, moved, _, .error e) => (⟨source, sink, moved⟩, .error e)
        | (sink, moved, _, .ok ()) => copyDirection buffer sourceResetIsEof fuel ⟨source, sink, moved⟩

/-- `splice_pump`: every chunk goes through the pipe; what a failed drain leaves there stays there. -/
def splicePump (capacity : Capacity) (sourceResetIsEof : Bool) :
    Nat → Pump → Bytes → Pump × Bytes × Except RelayError Unit
  | 0, p, pipe => (p, pipe, .error .dropped)
  | fuel + 1, p, pipe =>
    match p.source.read capacity with
    | (source, .error failure) =>
      if sourceResetIsEof && isPeerReset failure then ({ p with source }, pipe, .ok ())
      else ({ p with source }, pipe, .error (.ofFailure failure))
    | (source, .ok chunk) =>
      if chunk = [] then ({ p with source }, pipe, .ok ())
      else
        let filled := pipe ++ chunk
        match drain chunk.length p.sink p.moved (filled.take chunk.length) with
        | (sink, moved, rest, .error e) =>
          (⟨source, sink, moved⟩, rest ++ filled.drop chunk.length, .error e)
        | (sink, moved, rest, .ok ()) =>
          splicePump capacity sourceResetIsEof fuel ⟨source, sink, moved⟩
            (rest ++ filled.drop chunk.length)

/-- `splice_direction` and `splice_owned_direction`: the pump, then the shutdown. -/
def spliceDirection (capacity : Capacity) (sourceResetIsEof : Bool) (fuel : Nat) (p : Pump) :
    Pump × Except RelayError Unit :=
  match splicePump capacity sourceResetIsEof fuel p [] with
  | (p, _, .error e) => (p, .error e)
  | (p, _, .ok ()) =>
    let (sink, result) := closeWrite sourceResetIsEof p.sink
    ({ p with sink }, result)

/-- One direction through a backend; each turn but the last takes a byte off the source. -/
def runPump (backend : RelayBackend) (capacity : Capacity) (sourceResetIsEof : Bool) (source : Source)
    (sink : Sink) : Pump × Except RelayError Unit :=
  match backend with
  | .splice => spliceDirection capacity sourceResetIsEof (source.bytes.length + 1) ⟨source, sink, 0⟩
  | .buffered => copyDirection capacity sourceResetIsEof (source.bytes.length + 1) ⟨source, sink, 0⟩

/-! ### Relays -/

/-- What the pools have for a relay: a splice pipe unless splice declines, and a buffer lease. -/
structure Pools where
  splice : Option Capacity
  buffer : Except RelayError Capacity

/-- `classify_abort`. -/
def classifyAbort : RelayError → RelayError
  | .io .timedOut => .io .connectionAborted
  | e => e

variable (pools : Pools)

def Pools.select : Except RelayError (RelayBackend × Capacity) :=
  match pools.splice with
  | some capacity => .ok (.splice, capacity)
  | none => pools.buffer.map fun capacity => (.buffered, capacity)

/-- The error of a relay that failed: once the ledger is touched, an abort. -/
def relayError (untouched : Bool) (e : RelayError) : RelayError := if untouched then e else classifyAbort e

structure DirectionalRelayOutcome where
  bytes : Nat
  backend : RelayBackend
  deriving DecidableEq, Repr

/-- One direction on its own. The pump's state at the end stands for the sockets and the ledger. -/
def relayDirection (source : Source) (sink : Sink) : Pump × Except RelayError DirectionalRelayOutcome :=
  match pools.select with
  | .error e => (⟨source, sink, 0⟩, .error e)
  | .ok (backend, capacity) =>
    match runPump backend capacity false source sink with
    | (p, .error e) => (p, .error (relayError (p.moved == 0) e))
    | (p, .ok ()) => (p, .ok ⟨p.moved, backend⟩)

structure RelayOutcome where
  backend : RelayBackend
  inboundToOutbound : Nat
  outboundToInbound : Nat
  deriving DecidableEq, Repr

/-- `try_join!` of two directions; the flag says whose error came first. -/
def tryJoin (upFirst : Bool) : Except RelayError Unit → Except RelayError Unit → Except RelayError Unit
  | .ok (), .ok () => .ok ()
  | .error e, .ok () => .error e
  | .ok (), .error e => .error e
  | .error e, .error e' => .error (if upFirst then e else e')

/-- Both directions of an owned pair of sockets. A direction that is dropped because the other one
failed has that in its script. -/
def relayOwned (sourceResetIsEof upFirst : Bool) (up down : Source × Sink) :
    Pump × Pump × Except RelayError RelayOutcome :=
  match pools.select with
  | .error e => (⟨up.1, up.2, 0⟩, ⟨down.1, down.2, 0⟩, .error e)
  | .ok (backend, capacity) =>
    let (p, upResult) := runPump backend capacity sourceResetIsEof up.1 up.2
    let (q, downResult) := runPump backend capacity sourceResetIsEof down.1 down.2
    match tryJoin upFirst upResult downResult with
    | .error e => (p, q, .error (relayError (p.moved == 0 && q.moved == 0) e))
    | .ok () => (p, q, .ok ⟨backend, p.moved, q.moved⟩)

/-! ### What arrives -/

variable {result : Except RelayError Unit} {source : Source} {fuel : Nat}

theorem drain_spec {sink sink' : Sink} {moved moved' : Nat} {payload rest : Bytes}
    (hfuel : payload.length ≤ fuel) (h : drain fuel sink moved payload = (sink', moved', rest, result)) :
    ∃ sent, sink'.written = sink.written ++ sent ∧ payload = sent ++ rest ∧ (result = .ok () → rest = []) ∧
      (result ≠ .error (.io .other) ∨ moved + payload.length < 2 ^ 64 → moved' = moved + sent.length) ∧
      (sink.Healthy → sink'.Healthy ∧ (moved + payload.length < 2 ^ 64 → result = .ok ())) ∧
      (payload ≠ [] → (sent ≠ [] ↔ sink.Accepts)) := by
  induction fuel generalizing sink moved payload with
  | zero =>
    have hnil : payload = [] := length_eq_zero_iff.mp (by omega)
    cases h
    exact ⟨[], by simp, rfl, fun _ => hnil, by simp, fun hs => ⟨hs, fun _ => rfl⟩, fun hne => absurd hnil hne⟩
  | succ fuel ih =>
    rw [drain] at h
    split_ifs at h with hnl
    · cases h
      exact ⟨[], by simp, hnl, fun _ => rfl, by simp, fun hs => ⟨hs, fun _ => rfl⟩, absurd hnl⟩
    rcases hw : sink.write payload with ⟨mid, outcome⟩
    simp only [hw] at h
    have hhealthy := fun hs : sink.Healthy => Sink.write_healthy hs hnl
    have haccepts := @Sink.write_ok_iff _ sink hnl
    rw [hw] at hhealthy haccepts
    obtain ⟨failure, rfl, hwr⟩ | ⟨n, rfl, hn, hwr⟩ := Sink.write_spec hw
    · cases h
      exact ⟨[], by simpa using hwr, rfl, by simp, by simp, fun hs => by simpa using (hhealthy hs).2, by simp [← haccepts]⟩
    cases n with
    | zero =>
      cases h
      exact ⟨[], by simpa using hwr, rfl, by simp, by simp, fun hs => by simpa using (hhealthy hs).2, by simp [← haccepts]⟩
    | succ n =>
      have hfirst : ∀ more, payload.take (n + 1) ++ more ≠ [] ↔ sink.Accepts := fun more =>
        iff_of_true (by simp [hnl]) (haccepts.1 ⟨n, rfl⟩)
      simp only [addCount] at h
      split_ifs at h with hft
      · obtain ⟨sent, hsn, hsp, ha, hc, hf, -⟩ := ih (by rw [length_drop]; omega) h
        refine ⟨payload.take (n + 1) ++ sent, by rw [hsn, hwr, append_assoc], ?_, ha, fun hcount => ?_,
          fun hs => ⟨(hf (hhealthy hs).1).1, fun hlt => (hf (hhealthy hs).1).2 ?_⟩, fun _ => hfirst sent⟩
        · rw [append_assoc, ← hsp, take_append_drop]
        · rw [hc (hcount.imp_right fun hlt => by rw [length_drop]; omega), length_append, length_take, Nat.min_eq_left hn,
            Nat.add_assoc]
        · rw [length_drop]
          omega
      · cases h
        exact ⟨payload.take (n + 1), hwr, (take_append_drop _ _).symm, by simp, fun hcount => by simp at hcount; omega,
          fun hs => ⟨(hhealthy hs).1, fun hlt => by omega⟩, fun _ => by simpa using hfirst []⟩

theorem RelayError.ofFailure_io {failure : Failure} {kind : ErrorKind} (h : ofFailure failure = .io kind) :
    kind = .timedOut ∨ failure = .io kind := by
  cases failure with
  | io kind => exact .inr (by cases h; rfl)
  | dropped => cases h
  | timeout | unarmed => exact .inl (by cases h; rfl)

/-- The kinds of errors a relay makes itself, or that its sockets answer with. -/
def Causes (source : Source) (sink : Sink) (kind : ErrorKind) : Prop :=
  kind = .writeZero ∨ kind = .other ∨ kind = .timedOut ∨ source.ending = some (.io kind) ∨ .fail (.io kind) ∈ sink.script

theorem Causes.of_failure {sink : Sink} {failure : Failure} {kind : ErrorKind}
    (h : source.ending = some failure ∨ .fail failure ∈ sink.script) (hk : RelayError.ofFailure failure = .io kind) :
    Causes source sink kind := by
  obtain rfl | rfl := RelayError.ofFailure_io hk
  · exact .inr (.inr (.inl rfl))
  · exact .inr (.inr (.inr h))

theorem Causes.mono {before after : Source} {sink sink' : Sink} {kind : ErrorKind} (h : Causes after sink' kind)
    (hending : after.ending = before.ending) (hscript : sink'.script <:+ sink.script) : Causes before sink kind := by
  rcases h with h | h | h | h | h
  · exact .inl h
  · exact .inr (.inl h)
  · exact .inr (.inr (.inl h))
  · exact .inr (.inr (.inr (.inl (hending ▸ h))))
  · exact .inr (.inr (.inr (.inr (hscript.mem h))))

theorem drain_faults {sink sink' : Sink} {moved moved' : Nat} {payload rest : Bytes} (source : Source)
    (h : drain fuel sink moved payload = (sink', moved', rest, result)) :
    sink'.script <:+ sink.script ∧ ∀ kind, result = .error (.io kind) → Causes source sink kind := by
  induction fuel generalizing sink moved payload with
  | zero =>
    cases h
    exact ⟨suffix_rfl, by rintro _ ⟨⟩⟩
  | succ fuel ih =>
    rw [drain] at h
    split_ifs at h
    · cases h
      exact ⟨suffix_rfl, by rintro _ ⟨⟩⟩
    obtain ⟨hscript, hfail⟩ := Sink.script_write sink payload
    split at h
    · next mid failure hw =>
      cases h
      rw [hw] at hscript hfail
      refine ⟨hscript, fun kind hk => .of_failure (.inr (hfail failure rfl)) ?_⟩
      simpa using hk
    · next mid hw =>
      cases h
      rw [hw] at hscript
      refine ⟨hscript, ?_⟩
      rintro _ ⟨⟩
      exact .inl rfl
    · next mid n hw =>
      rw [hw] at hscript
      split at h
      · cases h
        refine ⟨hscript, ?_⟩
        rintro _ ⟨⟩
        exact .inr (.inl rfl)
      · obtain ⟨hrest, hcauses⟩ := ih h
        exact ⟨hrest.trans hscript, fun kind hk => (hcauses kind hk).mono rfl hscript⟩

/-- A pump that has sent some bytes: they stand at the front of the source, they are counted unless
the count overflowed, they are all of the source after a normal end, and only a fault of a socket or of
the counter ends it otherwise. -/
structure Relayed (before after : Pump) (result : Except RelayError Unit) (sent : Bytes) : Prop where
  written : after.sink.written = before.sink.written ++ sent
  front : sent <+: before.source.bytes
  count : result ≠ .error (.io .other) ∨ before.moved + before.source.bytes.length < 2 ^ 64 →
    after.moved = before.moved + sent.length
  all : result = .ok () → sent = before.source.bytes
  healthy : before.sink.Healthy → after.sink.Healthy
  clean : before.sink.Healthy → before.source.ending = none →
    before.moved + before.source.bytes.length < 2 ^ 64 → result = .ok ()
  started : sent ≠ [] ↔ before.source.bytes ≠ [] ∧ before.sink.Accepts
  script : after.sink.script <:+ before.sink.script
  causes : ∀ kind, result = .error (.io kind) → Causes before.source before.sink kind

variable {p p' : Pump} {sink : Sink}

theorem Relayed.turn {moved : Nat} {chunk rest sent : Bytes} (hne : chunk ≠ [])
    (hb : p.source.bytes = chunk ++ source.bytes) (hend : source.ending = p.source.ending)
    (hd : drain chunk.length p.sink p.moved chunk = (sink, moved, rest, .ok ()))
    (h : Relayed ⟨source, sink, moved⟩ p' result sent) : Relayed p p' result (chunk ++ sent) := by
  obtain ⟨hscript, -⟩ := drain_faults source hd
  obtain ⟨drained, hsn, hsp, ha, hc, hf, hfirst⟩ := drain_spec (Nat.le_refl _) hd
  obtain rfl := ha rfl
  rw [append_nil] at hsp
  subst hsp
  have hm := hc (by simp)
  have hl : p.source.bytes.length = chunk.length + source.bytes.length := by
    rw [hb, length_append]
  refine ⟨?_, ?_, fun hcount => ?_, fun hok => ?_, fun hs => h.healthy (hf hs).1,
    fun hs he hlt => h.clean (hf hs).1 (hend.trans he) ?_, ?_, h.script.trans hscript,
    fun kind hk => (h.causes kind hk).mono hend hscript⟩
  · rw [h.written, hsn, append_assoc]
  · rw [hb]
    exact (prefix_append_right_inj _).mpr h.front
  · rw [h.count (hcount.imp_right fun hlt => show moved + source.bytes.length < 2 ^ 64 by omega), hm, length_append, Nat.add_assoc]
  · rw [h.all hok, hb]
  · show moved + source.bytes.length < 2 ^ 64
    omega
  · exact iff_of_true (by simp [hne]) ⟨by simp [hb, hne], (hfirst hne).1 hne⟩

theorem Relayed.stop {p : Pump} {moved : Nat} {chunk rest : Bytes} {e : RelayError} (hne : chunk ≠ [])
    (hb : p.source.bytes = chunk ++ source.bytes)
    (hd : drain chunk.length p.sink p.moved chunk = (sink, moved, rest, .error e)) :
    ∃ sent, Relayed p ⟨source, sink, moved⟩ (.error e) sent := by
  obtain ⟨hscript, hcauses⟩ := drain_faults p.source hd
  obtain ⟨sent, hsn, rfl, -, hc, hf, hfirst⟩ := drain_spec (Nat.le_refl _) hd
  refine ⟨sent, hsn, ?_, fun hcount => hc (hcount.imp_right fun hlt => ?_), by simp, fun hs => (hf hs).1, fun hs _ hlt => ?_, ?_,
    hscript, hcauses⟩
  · rw [hb, append_assoc]
    exact prefix_append _ _
  · rw [hb, length_append] at hlt
    omega
  · rw [hb, length_append] at hlt
    exact (hf hs).2 (by omega)
  · rw [hfirst hne]
    exact ⟨fun ha => ⟨by rw [hb]; exact append_ne_nil_of_left_ne_nil hne _, ha⟩, fun ha => ha.2⟩

theorem Relayed.finish (hb : p.source.bytes = [])
    (hw : p'.sink.written = p.sink.written) (hm : p'.moved = p.moved)
    (hh : p.sink.Healthy → p'.sink.Healthy)
    (hc : p.sink.Healthy → p.source.ending = none → result = .ok ()) (hscript : p'.sink.script <:+ p.sink.script)
    (hcauses : ∀ kind, result = .error (.io kind) → Causes p.source p.sink kind) : Relayed p p' result [] :=
  ⟨by rw [hw, append_nil], nil_prefix, fun _ => hm, fun _ => hb.symm,
    hh, fun hs he _ => hc hs he, by simp [hb], hscript, hcauses⟩

variable {eof : Bool}

theorem closeWrite_spec {sink sink' : Sink} (source : Source) (h : closeWrite eof sink = (sink', result)) :
    sink'.written = sink.written ∧ (sink.Healthy → sink'.Healthy ∧ result = .ok ()) ∧ sink'.script <:+ sink.script ∧
      ∀ kind, result = .error (.io kind) → Causes source sink kind := by
  have hw := Sink.written_shutdown sink
  have hh := fun hs : sink.Healthy => Sink.shutdown_healthy hs
  obtain ⟨hscript, hfail⟩ := Sink.script_shutdown sink
  unfold closeWrite at h
  rcases hsh : sink.shutdown with ⟨mid, outcome⟩
  rw [hsh] at hw hh hscript hfail
  cases outcome with
  | ok u =>
    simp only [hsh] at h
    cases h
    exact ⟨hw, fun hs => ⟨(hh hs).1, rfl⟩, hscript, by rintro _ ⟨⟩⟩
  | error failure =>
    simp only [hsh] at h
    split_ifs at h with hg
    · cases h
      exact ⟨hw, fun hs => ⟨(hh hs).1, rfl⟩, hscript, by rintro _ ⟨⟩⟩
    · cases h
      refine ⟨hw, fun hs => by simpa using (hh hs).2, hscript, fun kind hk => .of_failure (.inr (hfail failure rfl)) ?_⟩
      simpa using hk

theorem causes_of_ending {sink : Sink} {failure : Failure} {kind : ErrorKind} (h : source.ending = some failure)
    (hk : (.error (.ofFailure failure) : Except RelayError Unit) = .error (.io kind)) : Causes source sink kind :=
  .of_failure (.inl h) (by simpa using hk)

theorem copyDirection_spec {buffer : Capacity}
    (hf : p.source.bytes.length < fuel) (h : copyDirection buffer eof fuel p = (p', result)) :
    ∃ sent, Relayed p p' result sent := by
  induction fuel generalizing p with
  | zero => omega
  | succ fuel ih =>
    rw [copyDirection] at h
    have hr := Source.read_spec p.source buffer.2
    rcases hio : p.source.read buffer with ⟨source, outcome⟩
    rcases hc : closeWrite eof p.sink with ⟨sink, closed⟩
    obtain ⟨hw, hh, hscript, hcauses⟩ := closeWrite_spec p.source hc
    rw [hio] at hr
    simp only [hio, hc] at h
    cases hr with
    | eof hby hen =>
      cases h
      exact ⟨[], .finish hby hw rfl (fun hs => (hh hs).1) (fun hs _ => (hh hs).2) hscript hcauses⟩
    | fail hby hen =>
      dsimp only at h
      split_ifs at h with hrs
      · cases h
        exact ⟨[], .finish hby hw rfl (fun hs => (hh hs).1) (fun hs _ => (hh hs).2) hscript hcauses⟩
      · cases h
        exact ⟨[], .finish hby rfl rfl id (fun _ he => by simp [hen] at he) suffix_rfl fun _ => causes_of_ending hen⟩
    | data hne hl hby hen =>
      rename_i chunk
      dsimp only at h
      rw [if_neg hne] at h
      have hp := length_pos_of_ne_nil hne
      rcases hd : drain chunk.length p.sink p.moved chunk with ⟨sink, moved, rest, drained⟩
      simp only [hd] at h
      cases drained with
      | error e =>
        cases h
        exact Relayed.stop hne hby hd
      | ok u =>
        obtain ⟨sent, hsn⟩ := ih (by rw [hby, length_append] at hf; simp only at *; omega) h
        exact ⟨_, hsn.turn hne hby hen hd⟩

variable {capacity : Capacity}

theorem splicePump_spec {pipe : Bytes}
    (hf : p.source.bytes.length < fuel) (h : splicePump capacity eof fuel p [] = (p', pipe, result)) :
    ∃ sent, Relayed p p' result sent := by
  induction fuel generalizing p with
  | zero => omega
  | succ fuel ih =>
    rw [splicePump] at h
    have hr := Source.read_spec p.source capacity.2
    rcases hio : p.source.read capacity with ⟨source, outcome⟩
    rw [hio] at hr
    simp only [hio] at h
    cases hr with
    | eof hby hen =>
      cases h
      exact ⟨[], .finish hby rfl rfl id (fun _ _ => rfl) suffix_rfl (by rintro _ ⟨⟩)⟩
    | fail hby hen =>
      dsimp only at h
      split_ifs at h with hrs
      · cases h
        exact ⟨[], .finish hby rfl rfl id (fun _ _ => rfl) suffix_rfl (by rintro _ ⟨⟩)⟩
      · cases h
        exact ⟨[], .finish hby rfl rfl id (fun _ he => by simp [hen] at he) suffix_rfl fun _ => causes_of_ending hen⟩
    | data hne hl hby hen =>
      rename_i chunk
      dsimp only at h
      rw [if_neg hne, nil_append, take_length, drop_length] at h
      have hp := length_pos_of_ne_nil hne
      rcases hd : drain chunk.length p.sink p.moved chunk with ⟨sink, moved, rest, drained⟩
      simp only [hd, append_nil] at h
      cases drained with
      | error e =>
        cases h
        exact Relayed.stop hne hby hd
      | ok u =>
        obtain ⟨-, -, -, ha, -⟩ := drain_spec (Nat.le_refl _) hd
        obtain rfl := ha rfl
        obtain ⟨sent, hs⟩ := ih (by rw [hby, length_append] at hf; simp only at *; omega) h
        exact ⟨_, hs.turn hne hby hen hd⟩

theorem spliceDirection_spec
    (hf : p.source.bytes.length < fuel) (h : spliceDirection capacity eof fuel p = (p', result)) :
    ∃ sent, Relayed p p' result sent := by
  unfold spliceDirection at h
  rcases hp : splicePump capacity eof fuel p [] with ⟨q, pipe, pumped⟩
  obtain ⟨sent, hq⟩ := splicePump_spec hf hp
  simp only [hp] at h
  cases pumped with
  | error e =>
    cases h
    exact ⟨sent, hq⟩
  | ok u =>
    rcases hc : closeWrite eof q.sink with ⟨sink, closed⟩
    obtain ⟨hw, hh, hscript, hcauses⟩ := closeWrite_spec p.source hc
    simp only [hc] at h
    cases h
    exact ⟨sent, hw.trans hq.written, hq.front, fun _ => hq.count (by simp), fun _ => hq.all rfl,
      fun hs => (hh (hq.healthy hs)).1, fun hs _ _ => (hh (hq.healthy hs)).2, hq.started, hscript.trans hq.script,
      fun kind hk => (hcauses kind hk).mono rfl hq.script⟩

theorem runPump_spec {backend : RelayBackend} {p : Pump} (h : runPump backend capacity eof source sink = (p, result)) :
    ∃ sent, Relayed ⟨source, sink, 0⟩ p result sent := by
  cases backend with
  | splice => exact spliceDirection_spec (Nat.lt_succ_self _) h
  | buffered => exact copyDirection_spec (Nat.lt_succ_self _) h

structure Faultless (source : Source) (sink : Sink) : Prop where
  accepts : sink.Healthy
  ends : source.ending = none
  countable : source.bytes.length < 2 ^ 64

theorem Relayed.of_faultless {p : Pump} {sent : Bytes}
    (h : Relayed ⟨source, sink, 0⟩ p result sent) (hf : Faultless source sink) : result = .ok () :=
  h.clean hf.accepts hf.ends (by simpa using hf.countable)

/-- What a relay comes to for one of its directions: bytes from the front of the source arrive. It has sent all of them
where it is `Completed` with their number, which it is when it can start and no socket or counter fails it; else it is
`Stopped`, before or after its first byte. -/
structure Delivery {ρ : Type} (source : Source) (sink : Sink) (Completed : Nat → ρ → Prop) (Stopped : Prop → ρ → Prop)
    (starts : Prop) (after : Sink) (result : ρ) (sent : Bytes) : Prop where
  written : after.written = sink.written ++ sent
  front : sent <+: source.bytes
  ends : sent = source.bytes ∧ Completed sent.length result ∨ Stopped (source.bytes.length < 2 ^ 64 ∧ sent ≠ []) result
  completes : starts → Faultless source sink → Completed sent.length result

section Delivery

variable {ρ ρ' : Type} {Completed : Nat → ρ → Prop} {Stopped : Prop → ρ → Prop} {Completed' : Nat → ρ' → Prop}
  {Stopped' : Prop → ρ' → Prop} {starts starts' : Prop} {after : Sink} {r : ρ} {r' : ρ'} {sent : Bytes}

theorem Delivery.imp (h : Delivery source sink Completed Stopped starts after r sent) (hstarts : starts' → starts)
    (hcompleted : ∀ n, Completed n r → Completed' n r') (hstopped : ∀ started, Stopped started r → Stopped' started r') :
    Delivery source sink Completed' Stopped' starts' after r' sent :=
  ⟨h.written, h.front, h.ends.imp (And.imp_right (hcompleted _)) (hstopped _),
    fun hs hf => hcompleted _ (h.completes (hstarts hs) hf)⟩

theorem Delivery.refused (hstopped : ∀ started, ¬started → Stopped started r) (hstarts : ¬starts) :
    Delivery source sink Completed Stopped starts sink r [] :=
  ⟨(append_nil _).symm, nil_prefix, .inr (hstopped _ (by simp)), fun hs => absurd hs hstarts⟩

theorem Relayed.delivery {p : Pump} (h : Relayed ⟨source, sink, 0⟩ p result sent)
    (hends : result = .ok () ∧ Completed p.moved r ∨ ∀ started, (started → p.moved ≠ 0) → Stopped started r)
    (hcompletes : starts → result = .ok () → Completed p.moved r) :
    Delivery source sink Completed Stopped starts p.sink r sent := by
  have hcount (hok : result = .ok ()) : p.moved = sent.length := by
    simpa using h.count (.inl (by simp [hok]))
  refine ⟨h.written, h.front, hends.imp ?_ ?_, fun hs hf => ?_⟩
  · rintro ⟨hok, hc⟩
    exact ⟨h.all hok, hcount hok ▸ hc⟩
  · refine fun hs => hs _ ?_
    rintro ⟨hfew, hne⟩
    rw [h.count (.inr (by simpa using hfew))]
    simpa using hne
  · have hok := h.of_faultless hf
    exact hcount hok ▸ hcompletes hs hok

end Delivery

/-- The error of a relay after its first byte. -/
def RelayError.Caused (cause : ErrorKind → Prop) (e : RelayError) : Prop :=
  ∃ e', e = relayError false e' ∧ ∀ kind, e' = .io kind → cause kind

/-- A directional relay completes unless a pool, a socket or the counter fails it. -/
theorem relayDirection_spec {pools : Pools} {p : Pump}
    {result : Except RelayError DirectionalRelayOutcome} (h : relayDirection pools source sink = (p, result)) :
    ∃ sent, Delivery source sink (fun n r => ∃ backend, r = .ok ⟨n, backend⟩)
      (fun started r => ∃ e, r = .error e ∧ (started → e.Caused (Causes source sink)))
      (∃ run, pools.select = .ok run) p.sink result sent := by
  unfold relayDirection at h
  cases hs : pools.select with
  | error e =>
    simp only [hs] at h
    cases h
    exact ⟨[], .refused (fun _ hn => ⟨e, rfl, fun hy => absurd hy hn⟩) (by simp)⟩
  | ok run =>
    obtain ⟨backend, capacity⟩ := run
    rcases hp : runPump backend capacity false source sink with ⟨q, pumped⟩
    obtain ⟨sent, hq⟩ := runPump_spec hp
    simp only [hs, hp] at h
    refine ⟨sent, ?_⟩
    cases pumped with
    | error e =>
      cases h
      refine hq.delivery (.inr fun started hm => ⟨_, rfl, fun hs => ⟨e, ?_, fun kind hk => hq.causes kind (hk ▸ rfl)⟩⟩) (by simp)
      rw [beq_eq_false_iff_ne.2 (hm hs)]
    | ok u =>
      cases h
      exact hq.delivery (.inl ⟨rfl, backend, rfl⟩) fun _ _ => ⟨backend, rfl⟩

theorem tryJoin_ok {upFirst : Bool} {a b : Except RelayError Unit} (h : tryJoin upFirst a b = .ok ()) :
    a = .ok () ∧ b = .ok () := by
  cases a <;> cases b <;> simp_all [tryJoin]

theorem tryJoin_error {upFirst : Bool} {a b : Except RelayError Unit} {e : RelayError} (h : tryJoin upFirst a b = .error e) :
    a = .error e ∨ b = .error e := by
  cases a <;> cases b <;> cases upFirst <;> simp_all [tryJoin]

theorem relayOwned_spec {pools : Pools} {eof upFirst : Bool} {up down : Source × Sink} {p q : Pump}
    {result : Except RelayError RelayOutcome} (h : relayOwned pools eof upFirst up down = (p, q, result)) :
    let Stopped := fun started (r : Except RelayError RelayOutcome) =>
      ∃ e, r = .error e ∧ (started → e.Caused fun kind => Causes up.1 up.2 kind ∨ Causes down.1 down.2 kind)
    ∃ sent received,
      Delivery up.1 up.2 (fun n r => ∃ backend m, r = .ok ⟨backend, n, m⟩) Stopped
        ((∃ run, pools.select = .ok run) ∧ Faultless down.1 down.2) p.sink result sent ∧
      Delivery down.1 down.2 (fun n r => ∃ backend m, r = .ok ⟨backend, m, n⟩) Stopped
        ((∃ run, pools.select = .ok run) ∧ Faultless up.1 up.2) q.sink result received := by
  intro Stopped
  unfold relayOwned at h
  cases hs : pools.select with
  | error e =>
    simp only [hs] at h
    cases h
    have hstop (started : Prop) (hn : ¬started) : Stopped started (.error e) := ⟨e, rfl, fun hy => absurd hy hn⟩
    exact ⟨[], [], .refused hstop (by simp), .refused hstop (by simp)⟩
  | ok run =>
    obtain ⟨backend, capacity⟩ := run
    rcases hup : runPump backend capacity eof up.1 up.2 with ⟨p', upResult⟩
    rcases hd : runPump backend capacity eof down.1 down.2 with ⟨q', downResult⟩
    obtain ⟨sent, hp⟩ := runPump_spec hup
    obtain ⟨received, hq⟩ := runPump_spec hd
    simp only [hs, hup, hd] at h
    refine ⟨sent, received, ?_⟩
    cases hj : tryJoin upFirst upResult downResult with
    | error e =>
      simp only [hj] at h
      cases h
      have hstop (started : Prop) (hm : started → p.moved ≠ 0 ∨ q.moved ≠ 0) :
          Stopped started (.error (relayError (p.moved == 0 && q.moved == 0) e)) := by
        refine ⟨_, rfl, fun hs => ⟨e, ?_, fun kind hk => ?_⟩⟩
        · rw [show (p.moved == 0 && q.moved == 0) = false by simpa [or_iff_not_imp_left] using hm hs]
        · subst hk
          exact (tryJoin_error hj).imp (hp.causes kind) (hq.causes kind)
      have hfail : upResult = .ok () → downResult ≠ .ok () := by
        rintro rfl rfl
        cases hj
      refine ⟨hp.delivery (.inr fun started hm => hstop started (.inl ∘ hm)) fun hc hok => ?_,
        hq.delivery (.inr fun started hm => hstop started (.inr ∘ hm)) fun hc hok => ?_⟩
      · exact absurd (hq.of_faultless hc.2) (hfail hok)
      · exact absurd hok (hfail (hp.of_faultless hc.2))
    | ok u =>
      obtain ⟨rfl, rfl⟩ := tryJoin_ok hj
      simp only [hj] at h
      cases h
      exact ⟨hp.delivery (.inl ⟨rfl, backend, _, rfl⟩) fun _ _ => ⟨backend, _, rfl⟩,
        hq.delivery (.inl ⟨rfl, backend, _, rfl⟩) fun _ _ => ⟨backend, _, rfl⟩⟩

end RustReality.Transport
