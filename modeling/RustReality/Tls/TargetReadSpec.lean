import RustReality.Tls.TargetRead

/-!
# What reading a cover flight leaves behind

The bytes taken from a target and the bytes left on its connection are together what it sent, within the
bound on what is kept, and the flight fails with an invalid record length only where the target sent one.
How the stream is cut into reads shows in one place: a record of an impossible length behind the four
positional ones is found when the probe for a session ticket sees its header, and not otherwise.
-/

namespace RustReality.Tls
open List Net

variable {T E : Type}

/-! ### Records of the stream -/

variable (bytes : Bytes)

def WholeRecords : Prop :=
  ∃ records : List Bytes, bytes = records.flatten ∧
    ∀ record ∈ records, record.length = tlsRecordHeaderLen + declaredBodyLen (record.take tlsRecordHeaderLen)

/-- The longest body behind a header: the ServerHello is not encrypted. -/
def bodyLimit (front : Bytes) : Nat := if front = [] then maxTlsPlaintextBytes else maxCiphertextLen

/-- Every record header of the stream gives a length that a record can have. -/
def ValidHeaders : Prop :=
  ∀ front header rest, bytes = front ++ (header ++ rest) → WholeRecords front → header.length = tlsRecordHeaderLen →
    0 < declaredBodyLen header ∧ declaredBodyLen header ≤ bodyLimit front

def Behind (bytes rest : Bytes) : Prop := ∃ front, bytes = front ++ rest ∧ WholeRecords front

theorem Behind.self (bytes : Bytes) : Behind bytes bytes := ⟨[], rfl, [], rfl, fun _ h => by cases h⟩

theorem Behind.record {bytes rest : Bytes} (h : Behind bytes rest)
    (hl : tlsRecordHeaderLen + declaredBodyLen (rest.take tlsRecordHeaderLen) ≤ rest.length) :
    Behind bytes (rest.drop (tlsRecordHeaderLen + declaredBodyLen (rest.take tlsRecordHeaderLen))) := by
  obtain ⟨front, rfl, records, rfl, hr⟩ := h
  generalize hw : tlsRecordHeaderLen + declaredBodyLen (rest.take tlsRecordHeaderLen) = wireLen at hl ⊢
  refine ⟨(records ++ [rest.take wireLen]).flatten, ?_, _, rfl, ?_⟩
  · rw [flatten_append, flatten_singleton, append_assoc, take_append_drop]
  · intro record hm
    rcases mem_append.mp hm with hm | hm
    · exact hr record hm
    · obtain rfl := mem_singleton.mp hm
      rw [length_take, Nat.min_eq_left hl, take_take, Nat.min_eq_left (by omega), hw]

theorem Behind.not_valid {bytes rest : Bytes} (h : Behind bytes rest) (hlen : tlsRecordHeaderLen ≤ rest.length)
    (hbody : declaredBodyLen (rest.take tlsRecordHeaderLen) = 0 ∨
      declaredBodyLen (rest.take tlsRecordHeaderLen) > maxCiphertextLen ∨
      rest = bytes ∧ declaredBodyLen (rest.take tlsRecordHeaderLen) > maxTlsPlaintextBytes) : ¬ValidHeaders bytes := by
  intro hv
  obtain ⟨front, hb, hf⟩ := h
  obtain ⟨hp, hle⟩ := hv front (rest.take tlsRecordHeaderLen) (rest.drop tlsRecordHeaderLen)
    (by rw [take_append_drop, hb]) hf (by rw [length_take, Nat.min_eq_left hlen])
  have hlm : maxTlsPlaintextBytes ≤ maxCiphertextLen := by decide
  rw [bodyLimit] at hle
  rcases hbody with hz | hl | ⟨rfl, hl⟩
  · omega
  · split_ifs at hle <;> omega
  · rw [if_pos (append_left_eq_self.mp hb.symm)] at hle
    omega

section

variable {bytes : Bytes} {ending : Option Failure}

open Prog

/-- The flight fails with an invalid record length only where the stream has one. -/
def Faithful (bytes : Bytes) (kind : TargetServerHelloReadErrorKind E) (_ : Bytes) : Prop :=
  kind = .recordTooLarge → ¬ValidHeaders bytes

theorem need_meets {P : Bytes → Prop} (len : Nat) :
    Meets P (need (E := E) ending len) (fun _ rest => P rest ∧ len ≤ rest.length) (Faithful bytes) := by
  intro rest hP
  unfold need
  split_ifs with hl
  · intro hk
    rcases ending with _ | (_ | _ | _ | _) <;> cases hk
  · exact ⟨hP, Nat.le_of_not_lt hl⟩

theorem peek_meets {P : Bytes → Prop} (len : Nat) :
    Meets P ((streamOps (E := E) ending).peek len) (fun front rest => P rest ∧ front = rest.take len) (Faithful bytes) :=
  fun _ hP => ⟨hP, rfl⟩

theorem header_meets :
    Meets (fun rest => Behind bytes rest ∧ tlsRecordHeaderLen ≤ rest.length) ((streamOps (E := E) ending).header)
      (fun record rest => Behind bytes rest ∧ record.2 = tlsRecordHeaderLen + declaredBodyLen (rest.take tlsRecordHeaderLen))
      (Faithful bytes) := by
  refine (peek_meets _).bind fun header => ?_
  refine .ite (fun _ => .fail _ fun _ _ hk => by cases hk) fun _ => ?_
  refine .ite (fun _ => .fail _ fun _ _ hk => by cases hk) fun _ => ?_
  refine .ite (fun hl => .fail _ fun rest h _ => ?_) fun _ => .pure _ fun rest h => ?_
  · obtain ⟨⟨hb, hle⟩, rfl⟩ := h
    exact hb.not_valid hle (hl.imp_right .inl)
  · obtain ⟨⟨hb, -⟩, rfl⟩ := h
    exact ⟨hb, rfl⟩

theorem changeCipherSpec_meets :
    Meets (Behind bytes) ((streamOps (E := E) ending).changeCipherSpec) (fun _ => Behind bytes) (Faithful bytes) := by
  refine (need_meets _).bind fun _ => header_meets.bind fun record => ?_
  obtain ⟨outerType, wireLen⟩ := record
  refine .ite (fun _ => ?_) fun _ => .ite (fun _ => ?_) fun _ => ?_
  · refine .ite (fun _ => .fail _ fun _ _ hk => by cases hk) fun _ => ?_
    refine (need_meets _).bind fun _ => (peek_meets _).bind fun record => ?_
    refine .ite (fun _ => .fail _ fun _ _ hk => by cases hk) fun _ => ?_
    rintro rest ⟨⟨⟨hb, hw⟩, hl⟩, -⟩
    subst hw
    exact hb.record hl
  · exact .pure _ fun rest h => h.1
  · exact .fail _ fun _ _ hk => by cases hk

theorem encryptedHeader_meets :
    Meets (Behind bytes) ((streamOps (E := E) ending).encryptedHeader)
      (fun wireLen rest => Behind bytes rest ∧ wireLen = tlsRecordHeaderLen + declaredBodyLen (rest.take tlsRecordHeaderLen))
      (Faithful bytes) := by
  refine (need_meets _).bind fun _ => header_meets.bind fun record => ?_
  exact .ite (fun _ => .fail _ fun _ _ hk => by cases hk) fun _ => .pure _ fun _ h => h

theorem takeRecord_meets (wireLen : Nat) :
    Meets (fun rest => Behind bytes rest ∧ wireLen = tlsRecordHeaderLen + declaredBodyLen (rest.take tlsRecordHeaderLen))
      ((streamOps (E := E) ending).takeRecord wireLen) (fun _ => Behind bytes) (Faithful bytes) := by
  refine (need_meets _).bind fun _ => ?_
  rintro rest ⟨⟨hb, rfl⟩, hl⟩
  exact hb.record hl

theorem nextRecord_meets :
    Meets (Behind bytes) ((streamOps (E := E) ending).nextRecord) (fun _ => Behind bytes) (Faithful bytes) :=
  encryptedHeader_meets.bind takeRecord_meets

variable (parse : Bytes → Except E T)

theorem serverHello_meets :
    Meets (fun rest => rest = bytes) ((streamOps ending).serverHello parse) (fun _ => Behind bytes) (Faithful bytes) := by
  refine (need_meets _).bind fun _ => (peek_meets _).bind fun header => ?_
  refine .ite (fun _ => .fail _ fun _ _ hk => by cases hk) fun _ => ?_
  refine .ite (fun _ => .fail _ fun _ _ hk => by cases hk) fun _ => ?_
  refine .ite (fun hl => .fail _ fun rest h _ => ?_) fun _ => ?_
  · obtain ⟨⟨rfl, hle⟩, rfl⟩ := h
    exact (Behind.self rest).not_valid hle (hl.imp_right fun hln => .inr ⟨rfl, hln⟩)
  · refine (need_meets _).bind fun _ => (peek_meets _).bind fun record => ?_
    cases parse (record.drop tlsRecordHeaderLen) with
    | error error => exact .fail _ fun _ _ hk => by cases hk
    | ok template =>
      rintro rest ⟨⟨⟨⟨rfl, -⟩, rfl⟩, hl⟩, -⟩
      exact (Behind.self rest).record hl

/-- What the flight leaves on the stream: whole records are behind it when they are positional, and no
ticket has been looked for. -/
def LeavesFlight (bytes : Bytes) (read : T × CoverHandshakePlan) (rest : Bytes) : Prop :=
  match read.2.shape with
  | .coalesced _ => True
  | .positionalRecords _ nstWireLen => nstWireLen = none ∧ Behind bytes rest

theorem flight_meets :
    Meets (fun rest => rest = bytes) ((streamOps ending).flight parse) (LeavesFlight bytes) (Faithful bytes) := by
  refine (serverHello_meets parse).bind fun template => changeCipherSpec_meets.bind fun emitCcs => ?_
  refine encryptedHeader_meets.bind fun firstWireLen => .ite (fun _ => ?_) fun _ => ?_
  · exact (need_meets _).bind fun _ _ _ => trivial
  · refine (takeRecord_meets firstWireLen).bind fun _ => nextRecord_meets.bind fun _ => ?_
    exact nextRecord_meets.bind fun _ => nextRecord_meets.bind fun _ => .pure _ fun _ h => ⟨rfl, h⟩

end

/-! ### The probe -/

section

variable {source : Source} {heap : List Bool} {rest : Bytes} {f : BufferedFlightReader}

open BufferedFlightReader

/-- What the probe does: it finds nothing, or reads the header behind the flight. `storage` is the allocator's
answer to it. -/
structure Probed (source : Source) (heap : List Bool) (rest : Bytes) (storage : Option Bool)
    (outcome : BufferedFlightReader × Except (TargetServerHelloReadErrorKind E) (Option Nat)) : Prop where
  exact : storage ≠ some false → outcome.1.buffer ++ outcome.1.io.stream = source.stream
  bounded : outcome.1.buffer.length ≤ maxRetainedCoverPrefixLen
  found : outcome.2 = .ok none ∨ outcome.2 = ticketWireLen (rest.take tlsRecordHeaderLen) ∨
    false ∈ heap ∧ outcome.2 = .error .recordTooLarge

theorem ticketWireLen_short {header : Bytes} (h : header.length < tlsRecordHeaderLen) :
    ticketWireLen (E := E) header = .ok none := if_pos h

theorem Probed.of_buffer {storage : Option Bool} {excess : Nat} {g : BufferedFlightReader} (h : FlightAt source heap 0 excess 0 rest f)
    (hb : g.buffer = f.buffer) (hc : g.consumed = f.consumed) (hs : f.buffer ++ g.io.stream = source.stream)
    (hbound : f.buffer.length ≤ maxRetainedCoverPrefixLen) :
    Probed (E := E) source heap rest storage (g, ticketWireLen ((g.buffer.drop g.consumed).take tlsRecordHeaderLen)) where
  exact _ := by rw [hb]; exact hs
  bounded := by rw [hb]; exact hbound
  found := by
    rw [hb, hc]
    by_cases hh : f.consumed + tlsRecordHeaderLen ≤ f.buffer.length
    · have h' : FlightAt source heap 0 excess tlsRecordHeaderLen rest f := { h with held_le := hh }
      exact .inr (.inl (by rw [h'.unconsumed_take (Nat.le_refl _)]))
    · have hl := h.held_le
      refine .inl (ticketWireLen_short ?_)
      rw [length_take, length_drop]
      exact Nat.lt_of_le_of_lt (Nat.min_le_right _ _) (by omega)

/-- The one read takes bytes off the front of the stream, or leaves the bytes where they are. -/
theorem tryReadNow_spec (f : BufferedFlightReader) (ready : Bool) {requestLen : Nat} (hpos : 0 < requestLen) :
    ∃ io probed, f.tryReadNow ready requestLen = ({ f with io }, probed) ∧ f.io.stream = probed ++ io.stream ∧
      (probed ≠ [] → probed.length ≤ requestLen ∧ f.io.bytes = probed ++ io.bytes ∧ io.ending = f.io.ending) := by
  cases ready with
  | false => exact ⟨f.io, [], rfl, rfl, fun hne => absurd rfl hne⟩
  | true =>
    have hr := Source.read_spec f.io hpos
    have hs := Source.read_stream f.io requestLen
    rw [tryReadNow, if_neg (by decide)]
    generalize f.io.read requestLen = outcome at hr hs ⊢
    obtain ⟨io, outcome⟩ := outcome
    cases hr with
    | data hne hl hb he => exact ⟨io, _, rfl, hs, fun _ => ⟨hl, hb, he⟩⟩
    | eof hb he => exact ⟨[], [], rfl, hs, fun hne => absurd rfl hne⟩
    | fail hb he => exact ⟨io, [], rfl, hs, fun hne => absurd rfl hne⟩

theorem probeSessionTicket_spec (ready : Bool) (h : FlightAt source heap 0 5 0 rest f) :
    Probed (E := E) source heap rest f.heap.head? (f.probeSessionTicket ready) := by
  have hsc : nstProbeScratchBytes = 512 := rfl
  have hbo := maxRetainedCoverPrefixLen_eq
  have hrm := h.room
  have hex := h.excess_ge
  have hb : f.buffer.length ≤ maxRetainedCoverPrefixLen := by omega
  unfold probeSessionTicket
  split_ifs with hsh hfl
  · omega
  · generalize hrq : min nstProbeScratchBytes (maxRetainedCoverPrefixLen - f.buffer.length) = requestLen
    obtain ⟨io, probed, hr, hs, htk⟩ := tryReadNow_spec f ready (show 0 < requestLen by omega)
    rw [hr]
    cases probed with
    | nil => exact .of_buffer h rfl rfl (by rw [← h.stream_eq, hs]; rfl) hb
    | cons first more =>
      obtain ⟨hln, hby, he⟩ := htk (cons_ne_nil _ _)
      have hl := h.held_le
      have hp : f.buffer.length + (first :: more).length ≤ maxRetainedCoverPrefixLen := by omega
      have ht : FlightAt source heap 0 (5 + requestLen) 0 rest { f with io, buffer := f.buffer ++ first :: more } :=
        h.took hby he hs (by omega) (by omega)
      obtain ⟨answers, answer, hgr, hrf, hk⟩ := grant_spec { f with io }
      dsimp only
      rw [hgr]
      cases answer with
      | false =>
        have hf : false ∈ heap := by_contra fun ha => h.grants ha (mem_of_mem_head? (hrf rfl))
        exact {
          exact := fun hstored => absurd (hrf rfl) hstored
          bounded := hb
          found := .inr (.inr ⟨hf, rfl⟩) }
      | true =>
        have hg : FlightAt source heap 0 (5 + requestLen) 0 rest
            { f with io, buffer := f.buffer ++ first :: more, heap := answers } :=
          { ht with grants := fun ha => hk (h.grants ha) }
        exact .of_buffer hg rfl rfl hg.stream_eq (by rw [length_append]; exact hp)
  · exact .of_buffer h rfl rfl h.stream_eq hb

end

/-! ### Whole reads -/

def CoverOutcome.seen : CoverOutcome T E → Except (TargetServerHelloReadErrorKind E) (T × Bool × CoverHandshakeRecordShape)
  | .error error => .error error.kind
  | .ok read =>
    .ok (read.template, read.plan.emitCcs,
      match read.plan.shape with
      | .coalesced wireLen => .coalesced wireLen
      | .positionalRecords wireLens _ => .positionalRecords wireLens none)

/-- Right behind the flight stands an encrypted record whose header gives an impossible length. -/
def InvalidTicket (rest : Bytes) : Prop :=
  let header := rest.take tlsRecordHeaderLen
  tlsRecordHeaderLen ≤ rest.length ∧ header.getD 0 0 = outerApplicationData ∧ slice header 1 3 = legacyRecordVersion ∧
    (declaredBodyLen header = 0 ∨ declaredBodyLen header > maxCiphertextLen)

/-- One outcome has seen the impossible header behind the flight and the other one has not. -/
def TicketSeen (rest : Bytes) (outcome outcome' : CoverOutcome T E) : Prop :=
  InvalidTicket rest ∧ outcome.seen = .error .recordTooLarge ∧
    ∃ read wireLens, outcome' = .ok read ∧ read.plan.shape = .positionalRecords wireLens none

open BufferedFlightReader

/-- The outcome from what the flight is on the stream, what the probe found and the bytes taken. -/
def conclude (read : Except (TargetServerHelloReadErrorKind E) (T × CoverHandshakePlan))
    (found : Except (TargetServerHelloReadErrorKind E) (Option Nat)) (wirePrefix : Bytes) : CoverOutcome T E :=
  match read with
  | .error kind => .error ⟨kind, wirePrefix⟩
  | .ok (template, ⟨emitCcs, .coalesced wireLen⟩) => .ok ⟨template, ⟨emitCcs, .coalesced wireLen⟩, wirePrefix⟩
  | .ok (template, ⟨emitCcs, .positionalRecords wireLens _⟩) =>
    match found with
    | .error kind => .error ⟨kind, wirePrefix⟩
    | .ok nstWireLen => .ok ⟨template, ⟨emitCcs, .positionalRecords wireLens nstWireLen⟩, wirePrefix⟩

def Finds (rest : Bytes) (found : Except (TargetServerHelloReadErrorKind E) (Option Nat)) : Prop :=
  found = .ok none ∨ found = ticketWireLen (rest.take tlsRecordHeaderLen)

theorem ticketWireLen_error {header : Bytes} {kind : TargetServerHelloReadErrorKind E} (h : ticketWireLen header = .error kind) :
    kind = .recordTooLarge ∧ tlsRecordHeaderLen ≤ header.length ∧ header.getD 0 0 = outerApplicationData ∧
      slice header 1 3 = legacyRecordVersion ∧ (declaredBodyLen header = 0 ∨ declaredBodyLen header > maxCiphertextLen) := by
  unfold ticketWireLen at h
  split_ifs at h with hl hk hb
  cases h
  rw [not_or, not_not, not_not] at hk
  exact ⟨rfl, Nat.le_of_not_lt hl, hk.1, hk.2, hb⟩

theorem Finds.error {bytes rest : Bytes} {kind : TargetServerHelloReadErrorKind E} (hr : Behind bytes rest)
    (h : Finds rest (.error kind)) :
    kind = .recordTooLarge ∧ InvalidTicket rest ∧ ¬ValidHeaders bytes ∧
      ∀ found : Option Nat, Finds (E := E) rest (.ok found) → found = none := by
  obtain h | h := h
  · cases h
  obtain ⟨hk, hln, ht, hv, hb⟩ := ticketWireLen_error h.symm
  have hl : tlsRecordHeaderLen ≤ rest.length := hln.trans (by rw [length_take]; exact Nat.min_le_right _ _)
  refine ⟨hk, ⟨hl, ht, hv, hb⟩, hr.not_valid hl (hb.imp_right .inl), fun found hf => ?_⟩
  obtain hn | hf := hf
  · cases hn
    rfl
  · rw [← h] at hf
    cases hf

section

variable {bytes rest : Bytes} {read : Except (TargetServerHelloReadErrorKind E) (T × CoverHandshakePlan)}
  {found found' : Except (TargetServerHelloReadErrorKind E) (Option Nat)}

/-- Two reads of one stream conclude alike, except where one has seen an impossible header behind the flight. -/
theorem conclude_agree (hl : Prog.Ends (LeavesFlight bytes) (Faithful bytes) (rest, read)) (hfinds : Finds rest found)
    (hfinds' : Finds rest found') (wirePrefix wirePrefix' : Bytes) :
    (conclude read found wirePrefix).seen = (conclude read found' wirePrefix').seen ∨
      TicketSeen rest (conclude read found wirePrefix) (conclude read found' wirePrefix') ∨
      TicketSeen rest (conclude read found' wirePrefix') (conclude read found wirePrefix) := by
  match read, hl with
  | .error kind, _ => exact .inl rfl
  | .ok (template, ⟨emitCcs, .coalesced wireLen⟩), _ => exact .inl rfl
  | .ok (template, ⟨emitCcs, .positionalRecords wireLens _⟩), hl =>
    have hr : Behind bytes rest := hl.2
    cases found with
    | ok nstWireLen =>
      cases found' with
      | ok nstWireLen' => exact .inl rfl
      | error kind =>
        obtain ⟨rfl, ht, -, hb⟩ := hfinds'.error hr
        obtain rfl := hb nstWireLen hfinds
        exact .inr (.inr ⟨ht, rfl, _, _, rfl, rfl⟩)
    | error kind =>
      obtain ⟨rfl, ht, -, hb⟩ := hfinds.error hr
      cases found' with
      | ok nstWireLen' =>
        obtain rfl := hb nstWireLen' hfinds'
        exact .inr (.inl ⟨ht, rfl, _, _, rfl, rfl⟩)
      | error kind' =>
        obtain ⟨rfl, -⟩ := hfinds'.error hr
        exact .inl rfl

theorem conclude_faithful (hle : Prog.Ends (LeavesFlight bytes) (Faithful bytes) (rest, read)) (hf : Finds rest found)
    (wirePrefix : Bytes) (h : (conclude read found wirePrefix).seen = .error .recordTooLarge) : ¬ValidHeaders bytes := by
  match read, hle with
  | .error kind, hle =>
    cases h
    exact hle rfl
  | .ok (template, ⟨emitCcs, .coalesced wireLen⟩), _ => cases h
  | .ok (template, ⟨emitCcs, .positionalRecords wireLens _⟩), hle =>
    cases found with
    | ok nstWireLen => cases h
    | error kind => exact (hf.error hle.2).2.2.1

end

/-- When the flight has been read and the probe reads on, it is not refused the storage for what it reads. -/
def ProbeStored (parse : Bytes → Except E T) (source : Source) (heap : List Bool) : Prop :=
  ∀ f template emitCcs wireLens nstWireLen, ops.flight parse (.new source heap) =
    (f, .ok (template, ⟨emitCcs, .positionalRecords wireLens nstWireLen⟩)) → f.heap.head? ≠ some false

structure ReadsFlight (parse : Bytes → Except E T) (source : Source) (heap : List Bool)
    (result : Source × CoverOutcome T E) : Prop where
  exact : ProbeStored parse source heap → coverPrefix result.2 ++ result.1.stream = source.stream
  bounded : (coverPrefix result.2).length ≤ maxRetainedCoverPrefixLen
  sees : false ∉ heap → ∃ found wirePrefix,
    Finds ((streamOps source.ending).flight parse source.bytes).1 found ∧
      result.2 = conclude ((streamOps source.ending).flight parse source.bytes).2 found wirePrefix

theorem FlightAt.start (source : Source) (heap : List Bool) :
    FlightAt source heap maxFlightLen 0 0 source.bytes (.new source heap) where
  stream_eq := rfl
  bytes_eq := rfl
  ending_eq := rfl
  rest_eq := rfl
  held_le := Nat.le_refl _
  room := Nat.le_of_eq (Nat.zero_add _)
  excess_ge := Nat.le_refl _
  grants := id

theorem readTargetServerFlight_spec (parse : Bytes → Except E T) (ready : Bool) (source : Source) (heap : List Bool) :
    ReadsFlight parse source heap (readTargetServerFlight parse true ready source heap) := by
  have hr := flight_follows parse source.bytes _ (FlightAt.start source heap)
  rw [readTargetServerFlight, if_neg (by decide)]
  rcases hflight : ops.flight parse (.new source heap) with ⟨f, kind | ⟨template, ⟨emitCcs, wireLen | ⟨wireLens, _⟩⟩⟩⟩
  all_goals rw [hflight] at hr
  · obtain ⟨⟨hst, hbo⟩, hs⟩ := hr
    refine ⟨fun _ => hst, hbo, fun ha => ⟨.ok none, f.buffer, .inl rfl, ?_⟩⟩
    obtain hs | ⟨hrf, -⟩ := hs
    · rw [hs]
      rfl
    · exact absurd hrf ha
  · obtain ⟨rest, hs, hf⟩ := hr
    obtain ⟨hst, hbo⟩ := hf.stopped (by omega)
    refine ⟨fun _ => hst, hbo, fun _ => ⟨.ok none, f.buffer, .inl rfl, ?_⟩⟩
    rw [hs]
    rfl
  · obtain ⟨rest, hs, hf⟩ := hr
    have hp := probeSessionTicket_spec (E := E) ready hf
    dsimp only
    generalize f.probeSessionTicket ready = outcome at hp ⊢
    obtain ⟨g, found⟩ := outcome
    obtain ⟨hst, hbo, hfo⟩ := hp
    have hfn : false ∉ heap → Finds rest found := by
      intro ha
      obtain hn | ht | ⟨hrf, -⟩ := hfo
      · exact .inl hn
      · exact .inr ht
      · exact absurd hrf ha
    have hexact (hstored : ProbeStored parse source heap) : g.buffer ++ g.io.stream = source.stream :=
      hst (hstored f template emitCcs wireLens _ hflight)
    cases found with
    | error kind =>
      refine ⟨hexact, hbo, fun ha => ⟨.error kind, g.buffer, ?_, ?_⟩⟩
      · rw [hs]
        exact hfn ha
      · rw [hs]
        rfl
    | ok nstWireLen =>
      refine ⟨hexact, hbo, fun ha => ⟨.ok nstWireLen, g.buffer, ?_, ?_⟩⟩
      · rw [hs]
        exact hfn ha
      · rw [hs]
        rfl

/-- What a target sends is kept to the byte: the bytes taken and the bytes left are its stream, and at most
the bound is taken. Reads of the same stream see the same flight however it is cut, except that one may have
seen an impossible header right behind it. A flight of valid headers is never refused for its length. -/
structure CoverRead (parse : Bytes → Except E T) (armed : Bool) (source : Source) (heap : List Bool)
    (result : Source × CoverOutcome T E) : Prop where
  exact : ProbeStored parse source heap → coverPrefix result.2 ++ result.1.stream = source.stream
  bounded : (coverPrefix result.2).length ≤ 66642
  determined : false ∉ heap → ∀ (source' : Source) (ready' : Bool) (heap' : List Bool), false ∉ heap' → source.Alike source' →
    let result' := readTargetServerFlight parse armed ready' source' heap'
    let rest := ((streamOps source.ending).flight parse source.bytes).1
    result.2.seen = result'.2.seen ∨ TicketSeen rest result.2 result'.2 ∨ TicketSeen rest result'.2 result.2
  valid : false ∉ heap → ValidHeaders source.bytes → result.2.seen ≠ .error .recordTooLarge

theorem cover_flight_read (parse : Bytes → Except E T) (armed ready : Bool) (source : Source) (heap : List Bool) :
    CoverRead parse armed source heap (readTargetServerFlight parse armed ready source heap) := by
  cases armed with
  | false =>
    refine ⟨fun _ => rfl, Nat.zero_le _, fun _ _ _ _ _ _ => .inl rfl, fun _ _ h => ?_⟩
    cases h
  | true =>
    obtain ⟨he, hb, hs⟩ := readTargetServerFlight_spec parse ready source heap
    have hle : Prog.Ends (LeavesFlight source.bytes) (Faithful source.bytes)
        ((streamOps source.ending).flight parse source.bytes) := flight_meets parse source.bytes rfl
    refine ⟨he, hb, fun ha source' ready' heap' ha' hal => ?_, fun ha hv hl => ?_⟩
    · obtain ⟨found, wirePrefix, hfo, hre⟩ := hs ha
      obtain ⟨found', wirePrefix', hfo', hre'⟩ := (readTargetServerFlight_spec parse ready' source' heap').sees ha'
      rw [← hal.bytes_eq, ← hal.ending_eq] at hfo' hre'
      dsimp only
      rw [hre, hre']
      exact conclude_agree hle hfo hfo' wirePrefix wirePrefix'
    · obtain ⟨found, wirePrefix, hfo, hre⟩ := hs ha
      rw [hre] at hl
      exact conclude_faithful hle hfo wirePrefix hl hv

/-- A flight of small records with an impossible header behind it, the header cut as given. -/
def sampleFlight (header : Source) : Source :=
  [.data 22 [3, 3, 0, 1, 2], .data 23 [3, 3, 0, 1, 7], .data 23 [3, 3, 0, 1, 7], .data 23 [3, 3, 0, 1, 7],
    .data 23 [3, 3, 0, 1, 7]] ++ header

def sampleFlightRead (header : Source) : Source × CoverOutcome Unit Unit :=
  readTargetServerFlight (fun _ => .ok ()) true true (sampleFlight header) []

/-- The same stream is refused or accepted as its last header arrives whole or in two parts. -/
theorem cover_flight_read_cut :
    (sampleFlight [.data 23 [3, 3, 0, 0]]).Alike (sampleFlight [.data 23 [3], .data 3 [0, 0]]) ∧
      (sampleFlightRead [.data 23 [3, 3, 0, 0]]).2.seen = .error .recordTooLarge ∧
      (sampleFlightRead [.data 23 [3], .data 3 [0, 0]]).2.seen =
        .ok ((), false, .positionalRecords #v[6, 6, 6, 6] none) := by
  refine ⟨⟨rfl, rfl⟩, ?_, ?_⟩ <;> decide +kernel

end RustReality.Tls
