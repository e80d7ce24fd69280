import RustReality.Transport.RelayTask

/-!
# Relays that share their pools are byte-exact

In every run of any number of relays over one set of pools, a lane has delivered a part of its own source from the
front, and the ledger counts it (`Sent`). The pools keep two promises that this rests on: every pipe in the pool is
empty, and a read is written from the front of the buffer it filled, whatever lay behind it. A lane of a running backend
has each byte it took off its source either delivered or in flight (`Carrying`).
-/

namespace RustReality.Transport
open Net Interleaving Lane List Option

variable {size : Capacity}

/-! ### One direction -/

/-- What a lane has delivered of its source. The write that brings the count to `2 ^ 64` is delivered and not counted,
and its error is the end of the lane. -/
structure Sent (ends : Source × Sink) (lane : Lane size) (sent : Bytes) : Prop where
  written : lane.pump.sink.written = ends.2.written ++ sent
  front : sent <+: ends.1.bytes
  all : lane.stage = .ended (.ok ()) → sent = ends.1.bytes
  counted : sent.length < 2 ^ 64 → lane.pump.moved = sent.length
  uncounted : 2 ^ 64 ≤ sent.length → lane.stage = .ended (.error (.io .other))

inductive Flight (ends : Source × Sink) (sent : Bytes) (source : Source) : Medium size → Stage → Prop
  | reading {medium : Medium size} (hempty : ∀ pipe, medium = .pipe pipe → pipe.queued = [])
      (hbytes : ends.1.bytes = sent ++ source.bytes) : Flight ends sent source medium .reading
  | copying {buffer : Buffer size} {payload : Bytes} (hbytes : ends.1.bytes = sent ++ (payload ++ source.bytes)) :
      Flight ends sent source (.buffer buffer) (.copying payload)
  | draining {pipe : Pipe} (hbytes : ends.1.bytes = sent ++ (pipe.queued ++ source.bytes)) :
      Flight ends sent source (.pipe pipe) (.draining pipe.queued.length)
  | closing {medium : Medium size} (hbytes : sent = ends.1.bytes) : Flight ends sent source medium .closing
  | done {medium : Medium size} (hbytes : sent = ends.1.bytes) : Flight ends sent source medium (.ended (.ok ()))
  | failed {medium : Medium size} {e : RelayError} (hfront : sent <+: ends.1.bytes) :
      Flight ends sent source medium (.ended (.error e))

structure Carrying (ends : Source × Sink) (lane : Lane size) (sent : Bytes) : Prop where
  written : lane.pump.sink.written = ends.2.written ++ sent
  flight : ∃ medium, lane.medium = some medium ∧ Flight ends sent lane.pump.source medium lane.stage
  count : (lane.pump.moved = sent.length ∧ sent.length < 2 ^ 64) ∨
    (lane.stage = .ended (.error (.io .other)) ∧ 2 ^ 64 ≤ sent.length)

variable {ends : Source × Sink} {lane : Lane size} {call : RelayCall} {lanes : List (Lane size)} {relay : Relay size}
  {medium : Medium size}

theorem Flight.front {sent : Bytes} {source : Source} {stage : Stage}
    (h : Flight ends sent source medium stage) : sent <+: ends.1.bytes := by
  cases h with
  | reading he hby => exact ⟨_, hby.symm⟩
  | copying hby => exact ⟨_, hby.symm⟩
  | draining hby => exact ⟨_, hby.symm⟩
  | closing hby => exact hby ▸ prefix_refl _
  | done hby => exact hby ▸ prefix_refl _
  | failed hf => exact hf

theorem Carrying.sent {sent : Bytes} (h : Carrying ends lane sent) :
    Sent ends lane sent := by
  obtain ⟨hw, ⟨medium, -, hf⟩, hc⟩ := h
  refine ⟨hw, hf.front, fun hok => ?_, fun hlt => ?_, fun hle => ?_⟩
  · rw [hok] at hf
    cases hf with
    | done hb => exact hb
  · rcases hc with ⟨hm, -⟩ | ⟨-, hfl⟩
    · exact hm
    · omega
  · rcases hc with ⟨-, hlt⟩ | ⟨hs, -⟩
    · omega
    · exact hs

theorem Sent.release {sent : Bytes} (h : Sent ends lane sent) :
    Sent ends lane.release sent := ⟨h.written, h.front, h.all, h.counted, h.uncounted⟩

theorem Sent.fresh (ends : Source × Sink) : Sent ends (fresh ends : Lane size) [] :=
  ⟨(append_nil _).symm, nil_prefix, fun h => (nomatch h), fun _ => rfl, fun h => by simp at h⟩

theorem Carrying.fresh (ends : Source × Sink) (he : ∀ pipe, medium = .pipe pipe → pipe.queued = []) :
    Carrying ends { (fresh ends : Lane size) with medium := some medium } [] :=
  ⟨(append_nil _).symm, ⟨medium, rfl, .reading he rfl⟩, .inl ⟨rfl, by simp⟩⟩

inductive Offered (p : Pump) (payload : Bytes) : Pump × Nat × Except RelayError Unit → Prop
  | failed {sink : Sink} {e : RelayError} (hwritten : sink.written = p.sink.written) :
      Offered p payload ({ p with sink }, 0, .error e)
  | counted {sink : Sink} {n : Nat} (hpos : 0 < n) (hle : n ≤ payload.length)
      (hwritten : sink.written = p.sink.written ++ payload.take n) (hfits : p.moved + n < 2 ^ 64) :
      Offered p payload ({ p with sink, moved := p.moved + n }, n, .ok ())
  | overflowed {sink : Sink} {n : Nat} (hle : n ≤ payload.length)
      (hwritten : sink.written = p.sink.written ++ payload.take n) (hfull : 2 ^ 64 ≤ p.moved + n) :
      Offered p payload ({ p with sink }, n, .error (.io .other))

theorem Pump.offer_spec (p : Pump) (payload : Bytes) : Offered p payload (p.offer payload) := by
  unfold Pump.offer
  rcases hw : p.sink.write payload with ⟨sink, outcome⟩
  obtain ⟨failure, rfl, hwr⟩ | ⟨n, rfl, hle, hwr⟩ := Sink.write_spec hw
  · exact .failed hwr
  cases n with
  | zero => exact .failed (by simpa using hwr)
  | succ n =>
    dsimp only [addCount]
    by_cases hf : p.moved + (n + 1) < 2 ^ 64
    · rw [if_pos hf]
      exact .counted (Nat.succ_pos n) hle hwr hf
    · rw [if_neg hf]
      exact .overflowed hle hwr (Nat.le_of_not_lt hf)

section Poll

variable {ends : Source × Sink} {lane : Lane size} {sent : Bytes} {eof : Bool}

/-- A read either ends the lane with all bytes delivered or failed, or puts a chunk in flight. -/
theorem Carrying.read (hw : lane.pump.sink.written = ends.2.written ++ sent)
    (hmoved : lane.pump.moved = sent.length ∧ sent.length < 2 ^ 64) (hm : ∃ medium, lane.medium = some medium)
    (hbytes : ends.1.bytes = sent ++ lane.pump.source.bytes) {capacity : Capacity} {store : Bytes → Medium size × Stage}
    (hs : ∀ chunk source, chunk.length ≤ capacity.1 → ends.1.bytes = sent ++ (chunk ++ source.bytes) →
      Flight ends sent source (store chunk).1 (store chunk).2) :
    Carrying ends (lane.read eof capacity store) sent := by
  obtain ⟨medium, hm⟩ := hm
  unfold Lane.read
  have hr := Source.read_spec lane.pump.source capacity.2
  rcases hio : lane.pump.source.read capacity with ⟨source, outcome⟩
  rw [hio] at hr
  cases hr with
  | eof hn he =>
    rw [hn, append_nil] at hbytes
    exact ⟨hw, ⟨medium, hm, .closing hbytes.symm⟩, .inl hmoved⟩
  | @fail _ failure hn he =>
    rw [hn, append_nil] at hbytes
    refine ⟨hw, ⟨medium, hm, ?_⟩, .inl hmoved⟩
    dsimp only
    by_cases hrs : (eof && isPeerReset failure) = true
    · rw [if_pos hrs]
      exact .closing hbytes.symm
    · rw [if_neg hrs]
      exact .failed (hbytes ▸ prefix_refl _)
  | @data _ chunk hne hl hsp he =>
    dsimp only
    rw [if_neg hne]
    rw [hsp] at hbytes
    exact ⟨hw, ⟨_, rfl, hs chunk source hl hbytes⟩, .inl hmoved⟩

/-- A write moves the front of what is in flight to the destination; `flight` says where the rest is then. -/
theorem Carrying.write {p pump : Pump} {payload : Bytes} {n : Nat} {result : Except RelayError Unit}
    (ho : p.offer payload = (pump, n, result)) (hw : p.sink.written = ends.2.written ++ sent)
    (hmoved : p.moved = sent.length) (hlt : sent.length < 2 ^ 64)
    (hb : ends.1.bytes = sent ++ (payload ++ p.source.bytes)) {stage : Stage}
    (hok : result = .ok () → 0 < n → n ≤ payload.length →
      ends.1.bytes = (sent ++ payload.take n) ++ (payload.drop n ++ p.source.bytes) →
      Flight ends (sent ++ payload.take n) p.source medium stage)
    (he : ∀ e, result = .error e → stage = .ended (.error e)) :
    ∃ sent', Carrying ends ⟨pump, some medium, stage⟩ sent' := by
  have hs := p.offer_spec payload
  rw [ho] at hs
  have hsp (k : Nat) :
      ends.1.bytes = (sent ++ payload.take k) ++ (payload.drop k ++ p.source.bytes) := by
    rw [hb, append_assoc, ← append_assoc (payload.take k), take_append_drop]
  cases hs with
  | failed hsm =>
    refine ⟨sent, hsm.trans hw, ⟨medium, rfl, ?_⟩, .inl ⟨hmoved, hlt⟩⟩
    rw [he _ rfl]
    exact .failed ⟨_, hb.symm⟩
  | counted hp hle hm hft =>
    have hl : (sent ++ payload.take n).length = sent.length + n := by
      rw [length_append, length_take, Nat.min_eq_left hle]
    refine ⟨sent ++ payload.take n, ?_, ⟨medium, rfl, hok rfl hp hle (hsp n)⟩, .inl ⟨?_, by omega⟩⟩
    · rw [hm, hw, append_assoc]
    · rw [hl, hmoved]
  | overflowed hle hm hf =>
    have hl : (sent ++ payload.take n).length = sent.length + n := by
      rw [length_append, length_take, Nat.min_eq_left hle]
    have hst := he _ rfl
    refine ⟨sent ++ payload.take n, ?_, ⟨medium, rfl, ?_⟩, .inr ⟨hst, by omega⟩⟩
    · rw [hm, hw, append_assoc]
    · rw [hst]
      exact .failed ⟨_, (hsp n).symm⟩

end Poll

theorem Carrying.poll {sent : Bytes} (h : Carrying ends lane sent) (eof : Bool) :
    ∃ sent', Carrying ends (lane.poll eof) sent' := by
  obtain ⟨pump, medium?, stage⟩ := lane
  obtain ⟨hwr, ⟨medium, hm, hf⟩, hco⟩ := h
  dsimp only at hm hwr hco hf
  subst hm
  cases hf with
  | reading he hby =>
    have hmo := hco.resolve_right (fun h => (nomatch h.1))
    cases medium with
    | buffer buffer =>
      refine ⟨sent, Carrying.read hwr hmo ⟨_, rfl⟩ hby fun chunk source hl hs => ?_⟩
      rw [buffer.take_fill hl]
      exact .copying hs
    | pipe pipe =>
      refine ⟨sent, Carrying.read hwr hmo ⟨_, rfl⟩ hby fun chunk source hl hs => ?_⟩
      have hq : pipe.queued ++ chunk = chunk := by rw [he pipe rfl, nil_append]
      rw [hq]
      exact @Flight.draining size ends sent source ⟨pipe.capacity, chunk⟩ hs
  | @copying buffer payload hby =>
    obtain ⟨hmo, hlt⟩ := hco.resolve_right (fun h => (nomatch h.1))
    unfold poll
    rcases hof : pump.offer payload with ⟨pump', n, e | _⟩
    · dsimp only
      rw [hof]
      exact Carrying.write hof hwr hmo hlt hby (fun h => (nomatch h))
        (by rintro _ ⟨⟩; rfl)
    · dsimp only
      rw [hof]
      refine Carrying.write hof hwr hmo hlt hby (fun _ _ _ hr => ?_)
        (fun _ h => (nomatch h))
      by_cases hn : payload.drop n = []
      · rw [if_pos hn]
        exact .reading (fun _ h => (nomatch h)) (by rw [hr, hn, nil_append])
      · rw [if_neg hn]
        exact .copying hr
  | @draining pipe hby =>
    obtain ⟨hmo, hlt⟩ := hco.resolve_right (fun h => (nomatch h.1))
    unfold poll
    dsimp only
    rw [take_length]
    rcases hof : pump.offer pipe.queued with ⟨pump', n, e | _⟩
    · exact Carrying.write hof hwr hmo hlt hby
        (fun h => (nomatch h)) (by rintro _ ⟨⟩; rfl)
    · refine Carrying.write hof hwr hmo hlt hby
        (fun _ _ _ hr => ?_) (fun _ h => (nomatch h))
      by_cases hz : pipe.queued.length - n = 0
      · have hn : pipe.queued.drop n = [] := drop_eq_nil_of_le (by omega)
        rw [if_pos hz]
        refine .reading (fun other h => ?_) (by rw [hr, hn, nil_append])
        cases h
        exact hn
      · rw [if_neg hz, ← length_drop]
        exact @Flight.draining size ends _ _ ⟨pipe.capacity, pipe.queued.drop n⟩ hr
  | closing hby =>
    have hmo := hco.resolve_right (fun h => (nomatch h.1))
    rcases hc : closeWrite eof pump.sink with ⟨sink, result⟩
    have hsm := (closeWrite_spec pump.source hc).1
    have hp : (poll eof ⟨pump, some medium, .closing⟩ : Lane size) =
        ⟨{ pump with sink }, some medium, .ended result⟩ := by
      cases medium <;> simp only [poll, hc]
    rw [hp]
    refine ⟨sent, hsm.trans hwr, ⟨medium, rfl, ?_⟩, .inl hmo⟩
    cases result with
    | ok u => exact .done hby
    | error e => exact .failed (hby ▸ prefix_refl _)
  | done hby => cases medium <;> exact ⟨sent, hwr, ⟨_, rfl, .done hby⟩, hco⟩
  | failed hfr => cases medium <;> exact ⟨sent, hwr, ⟨_, rfl, .failed hfr⟩, hco⟩

/-! ### The pools -/

def PipePool.Drained (pool : PipePool) : Prop := ∀ pipe ∈ pool.free, pipe.queued = []

namespace PipePool.Drained
variable {pool : PipePool}

theorem take (h : pool.Drained) (opened : Option Capacity) :
    (pool.take opened).1.Drained ∧ ∀ pipe, (pool.take opened).2 = some pipe → pipe.queued = [] := by
  obtain ⟨free, keep⟩ := pool
  cases free with
  | nil =>
    refine ⟨h, fun pipe hp => ?_⟩
    obtain ⟨capacity, -, rfl⟩ := map_eq_some_iff.mp hp
    rfl
  | cons first free =>
    refine ⟨fun pipe hp => h pipe (mem_cons_of_mem _ hp), fun pipe hp => ?_⟩
    cases hp
    exact h first mem_cons_self

theorem giveBack (h : pool.Drained) (inspected : Bool) (pipe : Pipe) : (pool.giveBack inspected pipe).Drained := by
  unfold PipePool.giveBack
  by_cases hd : (if inspected then decide (0 < pipe.queued.length) else true) = true
  · rw [if_pos hd]
    exact h
  rw [if_neg hd]
  by_cases hr : pool.free.length < pool.keep
  · rw [if_pos hr]
    intro other ho
    rcases mem_cons.mp ho with rfl | ho
    · have hz : other.queued.length = 0 := by cases inspected <;> simp_all
      exact length_eq_zero_iff.mp hz
    · exact h other ho
  · rw [if_neg hr]
    exact h

end PipePool.Drained

def TcpRelay.Drained (pools : TcpRelay size) : Prop :=
  ∀ splice pool, pools.splice = some splice → splice.pipes = some pool → pool.Drained

namespace TcpRelay.Drained
variable {pools : TcpRelay size}

theorem take (h : pools.Drained) {splice splice' : SplicePool} (hs : pools.splice = some splice)
    {opened : Option Capacity} {taken : Option Pipe} (ht : splice.take opened = (splice', taken)) :
    ({ pools with splice := some splice' } : TcpRelay size).Drained ∧ ∀ pipe, taken = some pipe → pipe.queued = [] := by
  obtain ⟨_ | pool⟩ := splice
  · cases ht
    refine ⟨?_, fun pipe hp => ?_⟩
    · rintro _ pool ⟨⟩ ⟨⟩
    · obtain ⟨capacity, -, rfl⟩ := map_eq_some_iff.mp hp
      rfl
  · cases ht
    obtain ⟨hr, hp⟩ := (h _ pool hs rfl).take opened
    refine ⟨?_, hp⟩
    rintro _ _ ⟨⟩ ⟨⟩
    exact hr

theorem giveBack (h : pools.Drained) (inspected : Bool) (pipe : Pipe) :
    ({ pools with splice := pools.splice.map fun splice => splice.giveBack inspected pipe } : TcpRelay size).Drained := by
  intro splice' pool' hs' hp'
  obtain ⟨splice, hs, rfl⟩ := map_eq_some_iff.mp hs'
  obtain ⟨pool, hp, rfl⟩ := map_eq_some_iff.mp hp'
  exact (h splice pool hs hp).giveBack inspected pipe

theorem new (config : TcpRelayConfig) : (TcpRelay.new config).Drained := by
  intro splice pool hs hp
  unfold TcpRelay.new at hs
  split_ifs at hs
  · cases hs
    cases hp
    rintro _ ⟨⟩
  · cases hs
    cases hp

end TcpRelay.Drained

/-! ### One relay -/

def Accounted (call : RelayCall) (lanes : List (Lane size)) : Prop :=
  List.Forall₂ (fun ends lane => ∃ sent, Sent ends lane sent) call.ends lanes

/-- A relay that reports its completion has delivered everything and counted it. -/
structure Finished (call : RelayCall) (lanes : List (Lane size)) (done : Completed) : Prop where
  delivered : List.Forall₂ (fun ends lane => lane.pump.sink.written = ends.2.written ++ ends.1.bytes) call.ends lanes
  counts : done.counts = call.ends.map fun ends => ends.1.bytes.length

/-- What holds of a relay in each phase. Up to the start of a backend its lanes are as the caller handed them over. -/
inductive PhaseInv (call : RelayCall) : List (Lane size) → Phase → Prop
  | trying {order : List RelayBackend} : PhaseInv call (call.ends.map fresh) (.trying order)
  | leasing {later : List RelayBackend} {pipes : List Pipe} (hempty : ∀ pipe ∈ pipes, pipe.queued = []) :
      PhaseInv call (call.ends.map fresh) (.leasing later pipes)
  | waiting : PhaseInv call (call.ends.map fresh) .waiting
  | running {lanes : List (Lane size)} {backend : RelayBackend}
      (hlanes : List.Forall₂ (fun ends lane => ∃ sent, Carrying ends lane sent) call.ends lanes) :
      PhaseInv call lanes (.running backend)
  | declining {pipes : List Pipe} {later : List RelayBackend} :
      PhaseInv call (call.ends.map fresh) (.returning pipes (.decline later))
  | finishing {lanes : List (Lane size)} {pipes : List Pipe} {result : Except RelayError Completed}
      (hlanes : Accounted call lanes) (hok : ∀ done, result = .ok done → Finished call lanes done) :
      PhaseInv call lanes (.returning pipes (.finish result))
  | ended {lanes : List (Lane size)} {result : Except RelayError Completed} (hlanes : Accounted call lanes)
      (hok : ∀ done, result = .ok done → Finished call lanes done) : PhaseInv call lanes (.ended result)
  | dropped {lanes : List (Lane size)} (hlanes : Accounted call lanes) : PhaseInv call lanes .dropped

theorem accounted_fresh (call : RelayCall) : Accounted call (call.ends.map (fresh : _ → Lane size)) := by
  refine forall₂_map_right_iff.mpr (forall₂_same.mpr fun ends _ => ?_)
  exact ⟨[], Sent.fresh ends⟩

theorem Accounted.of_carrying (h : List.Forall₂ (fun ends lane => ∃ sent, Carrying ends lane sent) call.ends lanes) :
    Accounted call lanes :=
  h.imp fun _ _ ⟨sent, hl⟩ => ⟨sent, hl.sent⟩

theorem Accounted.release (h : Accounted call lanes) :
    Accounted call (lanes.map release) :=
  forall₂_map_right_iff.mpr (h.imp fun _ _ ⟨sent, hl⟩ => ⟨sent, hl.release⟩)

theorem PhaseInv.accounted {phase : Phase} (h : PhaseInv call lanes phase) :
    Accounted call lanes := by
  cases h with
  | trying => exact accounted_fresh call
  | leasing => exact accounted_fresh call
  | waiting => exact accounted_fresh call
  | running hla => exact .of_carrying hla
  | declining => exact accounted_fresh call
  | finishing hla => exact hla
  | ended hla => exact hla
  | dropped hla => exact hla

theorem PhaseInv.decline (hf : relay.lanes = call.ends.map fresh)
    (later : List RelayBackend) : PhaseInv call (relay.decline later).lanes (relay.decline later).phase := by
  have hu : relay.untouched = true := by
    simp [Relay.untouched, hf, fresh]
  unfold Relay.decline
  rw [if_pos hu]
  show PhaseInv call relay.lanes _
  rw [hf]
  exact .trying

theorem PhaseInv.launch (hf : relay.lanes = call.ends.map fresh)
    {media : List (Medium size)} (hl : media.length = relay.lanes.length)
    (he : ∀ pipe, Medium.pipe pipe ∈ media → pipe.queued = []) (backend : RelayBackend) :
    PhaseInv call (relay.launch backend media).lanes (relay.launch backend media).phase := by
  refine .running ?_
  show List.Forall₂ _ call.ends (List.zipWith (fun lane medium => { lane with medium := some medium }) relay.lanes media)
  rw [hf, length_map] at hl
  rw [hf]
  generalize call.ends = ends at hl
  induction ends generalizing media with
  | nil => exact .nil
  | cons first ends ih =>
    cases media with
    | nil => cases hl
    | cons medium media =>
      refine .cons ⟨[], Carrying.fresh first fun pipe hp => ?_⟩ (ih ?_ ?_)
      · exact he pipe (hp ▸ mem_cons_self)
      · exact fun pipe hp => he pipe (mem_cons_of_mem _ hp)
      · exact Nat.succ.inj hl

theorem Sent.finished {sent : Bytes} (h : Sent ends lane sent)
    (hf : lane.finished = true) :
    lane.pump.sink.written = ends.2.written ++ ends.1.bytes ∧ lane.pump.moved = ends.1.bytes.length := by
  have hs : lane.stage = .ended (.ok ()) := by
    unfold Lane.finished at hf
    split at hf
    · assumption
    · cases hf
  have hlt : sent.length < 2 ^ 64 := by
    by_contra hfl
    have ho := h.uncounted (Nat.le_of_not_lt hfl)
    rw [hs] at ho
    cases ho
  have hm := h.counted hlt
  rw [h.all hs] at hm
  exact ⟨h.all hs ▸ h.written, hm⟩

theorem finished_of_lanes {ends : List (Source × Sink)}
    (h : List.Forall₂ (fun ends lane => ∃ sent, Sent ends lane sent) ends lanes)
    (ha : ∀ lane ∈ lanes, lane.finished = true) :
    List.Forall₂ (fun ends lane => lane.pump.sink.written = ends.2.written ++ ends.1.bytes) ends lanes ∧
      (lanes.map fun lane => lane.pump.moved) = ends.map fun ends => ends.1.bytes.length := by
  induction h with
  | nil => exact ⟨.nil, rfl⟩
  | cons hl hr ih =>
    obtain ⟨sent, hs⟩ := hl
    obtain ⟨hw, hm⟩ := hs.finished (ha _ mem_cons_self)
    obtain ⟨hd, hc⟩ := ih fun lane hmm => ha lane (mem_cons_of_mem _ hmm)
    exact ⟨.cons hw hd, by rw [map_cons, map_cons, hm, hc]⟩

theorem Finished.of_joined {backend : RelayBackend} {done : Completed}
    (hl : Accounted call relay.lanes) (h : relay.joined backend = some (.ok done)) :
    Finished call (relay.lanes.map release) done := by
  unfold Relay.joined at h
  cases hf : relay.lanes.findSome? failure with
  | some e =>
    rw [hf] at h
    cases h
  | none =>
    rw [hf] at h
    dsimp only at h
    split_ifs at h with ha
    cases h
    obtain ⟨hd, hc⟩ := finished_of_lanes hl (all_eq_true.mp ha)
    exact ⟨forall₂_map_right_iff.mpr hd, hc⟩

theorem carrying_modify {ends : List (Source × Sink)} (eof : Bool)
    (h : List.Forall₂ (fun ends lane => ∃ sent, Carrying ends lane sent) ends lanes) (i : Nat) :
    List.Forall₂ (fun ends lane => ∃ sent, Carrying ends lane sent) ends (lanes.modify i (poll eof)) := by
  induction h generalizing i with
  | nil =>
    rw [modify_nil]
    exact .nil
  | cons hl hr ih =>
    cases i with
    | zero =>
      obtain ⟨sent, hc⟩ := hl
      exact .cons (hc.poll eof) hr
    | succ i => exact .cons hl (ih i)

section Actions

variable {call : RelayCall} {relay : Relay size} {pools : TcpRelay size}

theorem Relay.select_inv (hfresh : relay.lanes = call.ends.map fresh) (permit : Bool) (order : List RelayBackend) :
    PhaseInv call (relay.select pools permit order).lanes (relay.select pools permit order).phase := by
  rcases order with _ | ⟨_ | _, later⟩
  · show PhaseInv call relay.lanes _
    rw [hfresh]
    exact .ended (accounted_fresh call) fun _ h => (nomatch h)
  · unfold Relay.select
    cases pools.splice with
    | none => exact .decline hfresh later
    | some splice =>
      cases permit with
      | false => exact .decline hfresh later
      | true =>
        rw [hfresh]
        exact .leasing fun _ h => (nomatch h)
  · show PhaseInv call relay.lanes _
    rw [hfresh]
    exact .waiting

theorem Relay.lease_inv (hf : relay.lanes = call.ends.map fresh) {splice : SplicePool}
    (hp : pools.Drained) (hs : pools.splice = some splice) (opened : Option Capacity) (later : List RelayBackend)
    {pipes : List Pipe} (he : ∀ pipe ∈ pipes, pipe.queued = []) :
    ({ pools with splice := some (relay.lease splice opened later pipes).1 } : TcpRelay size).Drained ∧
      PhaseInv call (relay.lease splice opened later pipes).2.lanes (relay.lease splice opened later pipes).2.phase := by
  unfold Relay.lease
  rcases ht : splice.take opened with ⟨splice', _ | pipe⟩
  · refine ⟨(hp.take hs ht).1, ?_⟩
    show PhaseInv call relay.lanes _
    rw [hf]
    exact .declining
  · obtain ⟨hd, hpp⟩ := hp.take hs ht
    refine ⟨hd, ?_⟩
    have ha : ∀ other ∈ pipes ++ [pipe], other.queued = [] := by
      intro other hot
      rcases mem_append.mp hot with hot | hot
      · exact he other hot
      · rw [mem_singleton.mp hot]
        exact hpp pipe rfl
    dsimp only
    by_cases hl : (pipes ++ [pipe]).length = relay.lanes.length
    · rw [if_pos hl]
      refine .launch hf (by rw [length_map, hl]) (fun other hot => ?_) _
      obtain ⟨same, hm, heq⟩ := mem_map.mp hot
      cases heq
      exact ha _ hm
    · rw [if_neg hl]
      show PhaseInv call relay.lanes _
      rw [hf]
      exact .leasing ha

theorem Relay.acquire_inv (hf : relay.lanes = call.ends.map fresh) (buffers : BufferPool size)
    (allocates : Nat → Bool) :
    PhaseInv call (relay.acquire buffers allocates).2.lanes (relay.acquire buffers allocates).2.phase := by
  unfold Relay.acquire
  rcases ha : buffers.acquire ((List.range relay.lanes.length).map allocates) with ⟨buffers', _ | leased⟩
  · show PhaseInv call relay.lanes _
    rw [hf]
    exact .ended (accounted_fresh call) fun _ h => (nomatch h)
  · have hl := BufferPool.acquire_length ha
    rw [length_map, length_range] at hl
    refine .launch hf (by rw [length_map, hl]) (fun pipe hp => ?_) _
    obtain ⟨buffer, -, heq⟩ := mem_map.mp hp
    cases heq

theorem Relay.advance_inv (hp : pools.Drained)
    (hl : List.Forall₂ (fun ends lane => ∃ sent, Carrying ends lane sent) call.ends relay.lanes)
    (backend : RelayBackend) (hphase : relay.phase = .running backend) (i : Nat) :
    (relay.advance pools backend i).1.Drained ∧
      PhaseInv call (relay.advance pools backend i).2.lanes (relay.advance pools backend i).2.phase := by
  have hn := carrying_modify relay.sourceResetIsEof hl i
  unfold Relay.advance
  rcases hj : (relay.pollLane i).joined backend with _ | result
  · refine ⟨hp, ?_⟩
    show PhaseInv call (relay.pollLane i).lanes relay.phase
    rw [hphase]
    exact .running hn
  · refine ⟨hp, .finishing (Accounted.of_carrying hn).release fun done hok => ?_⟩
    subst hok
    exact .of_joined (Accounted.of_carrying hn) hj

theorem Relay.settle_inv (hp : pools.Drained) (inspected : Bool) {pipes : List Pipe} {next : Resume}
    (h : PhaseInv call relay.lanes (.returning pipes next)) :
    (relay.settle pools inspected pipes next).1.Drained ∧
      PhaseInv call (relay.settle pools inspected pipes next).2.lanes (relay.settle pools inspected pipes next).2.phase := by
  obtain ⟨eof, lanes, phase⟩ := relay
  cases pipes with
  | cons pipe pipes =>
    refine ⟨hp.giveBack inspected pipe, ?_⟩
    cases h with
    | declining => exact .declining
    | finishing hl hok => exact .finishing hl hok
  | nil =>
    refine ⟨by cases next <;> exact hp, ?_⟩
    cases h with
    | declining => exact .decline rfl _
    | finishing hl hok => exact .ended hl hok

theorem Relay.cancel_inv (hp : pools.Drained) (hl : Accounted call relay.lanes) :
    (relay.cancel pools).1.Drained ∧ PhaseInv call (relay.cancel pools).2.lanes (relay.cancel pools).2.phase :=
  ⟨hp, .dropped hl.release⟩

end Actions

theorem Relay.act_inv {turn : Turn} {pools : TcpRelay size} {next : TcpRelay size × Relay size} (hpools : pools.Drained)
    (h : PhaseInv call relay.lanes relay.phase) (ha : relay.act turn pools = some next) :
    next.1.Drained ∧ PhaseInv call next.2.lanes next.2.phase := by
  obtain ⟨eof, lanes, phase⟩ := relay
  dsimp only at h
  unfold Relay.act at ha
  split at ha
  · next order permit hph =>
    cases hph
    cases ha
    cases h
    exact ⟨hpools, Relay.select_inv rfl permit order⟩
  · next later pipes opened hph =>
    obtain ⟨splice, hs, rfl⟩ := map_eq_some_iff.mp ha
    cases hph
    cases h with
    | leasing he => exact Relay.lease_inv rfl hpools hs opened later he
  · next allocates hph =>
    cases hph
    cases ha
    cases h
    exact ⟨hpools, Relay.acquire_inv rfl pools.buffers allocates⟩
  · next backend i hph =>
    cases hph
    cases ha
    cases h with
    | running hl => exact Relay.advance_inv hpools hl backend rfl i
  · next pipes resume inspected hph =>
    cases hph
    cases ha
    exact Relay.settle_inv hpools inspected h
  · next hph =>
    cases hph
    cases ha
    exact Relay.cancel_inv hpools h.accounted
  · next backend hph =>
    cases hph
    cases ha
    exact Relay.cancel_inv hpools h.accounted
  · cases ha

/-! ### Every run -/

/-- What holds of a relay in every state of a run: each direction has delivered a part of its own source from the front
and counted it, a relay that is about to try a backend has consumed nothing, and one that reports its completion has
delivered everything. -/
structure RelayedExactly (call : RelayCall) (relay : Relay size) : Prop where
  lanes : List.Forall₂ (fun ends lane => ∃ sent, Sent ends lane sent) call.ends relay.lanes
  untouched : ∀ order, relay.phase = .trying order → relay.lanes = call.ends.map fresh
  completed : ∀ done, relay.phase = .ended (.ok done) → Finished call relay.lanes done

theorem PhaseInv.exactly (h : PhaseInv call relay.lanes relay.phase) :
    RelayedExactly call relay := by
  obtain ⟨eof, lanes, phase⟩ := relay
  refine ⟨h.accounted, ?_, ?_⟩
  · rintro order ⟨⟩
    cases h
    rfl
  · rintro done ⟨⟩
    cases h with
    | ended hl hok => exact hok done rfl

def relaysAfter {ι : Type} [DecidableEq ι] (config : TcpRelayConfig) (calls : ι → RelayCall) (schedule : List (ι × Turn)) :
    Config ι (TcpRelay config.bufferBytes) (Relay config.bufferBytes) :=
  (execute relayProgram ⟨TcpRelay.new config, fun i => Relay.start (calls i)⟩ schedule).1

/-- What every action keeps: the pools are drained and every relay is as its phase says. -/
def RelaysInv {ι : Type} (calls : ι → RelayCall) (state : Config ι (TcpRelay size) (Relay size)) : Prop :=
  state.shared.Drained ∧ ∀ i, PhaseInv (calls i) (state.tasks i).lanes (state.tasks i).phase

theorem relaysAfter_inv {ι : Type} [DecidableEq ι] (config : TcpRelayConfig) (calls : ι → RelayCall)
    (schedule : List (ι × Turn)) : RelaysInv calls (relaysAfter config calls schedule) := by
  refine @execute_invariant ι Turn _ _ Empty _ relayProgram (fun state _ => RelaysInv calls state) ?_ _
    ⟨.new config, fun i => .trying⟩ schedule
  intro state history i turn pools relay event hi hp
  obtain ⟨next, ha, hn⟩ := map_eq_some_iff.mp hp
  cases hn
  obtain ⟨hpo, hr⟩ := Relay.act_inv hi.1 (hi.2 i) ha
  refine ⟨hpo, fun j => ?_⟩
  by_cases hij : j = i
  · subst hij
    dsimp only
    rw [Function.update_self]
    exact hr
  · dsimp only
    rw [Function.update_of_ne hij]
    exact hi.2 j

/-- Any number of relays over one set of pools, in any interleaving, with any of them dropped at any await: each is
exact, and whatever is taken from the pipe pool is empty. -/
theorem raw_relay_exact {ι : Type} [DecidableEq ι] (config : TcpRelayConfig) (calls : ι → RelayCall)
    (schedule : List (ι × Turn)) :
    (∀ i, RelayedExactly (calls i) ((relaysAfter config calls schedule).tasks i)) ∧
      ∀ splice pool, (relaysAfter config calls schedule).shared.splice = some splice → splice.pipes = some pool →
        ∀ opened pipe, (pool.take opened).2 = some pipe → pipe.queued = [] := by
  obtain ⟨hpo, hr⟩ := relaysAfter_inv config calls schedule
  refine ⟨fun i => (hr i).exactly, fun splice pool hs hp opened pipe hpp => ?_⟩
  exact ((hpo splice pool hs hp).take opened).2 pipe hpp

/-! ### A ledger that is full -/

section Full

variable {first : UInt8} {more : Bytes} {source : Source} {written : Bytes} {moved : Nat} {buffer : Buffer size}

def bulkLane (source : Source) (written : Bytes) (moved : Nat) (buffer : Buffer size) (stage : Stage) : Lane size :=
  ⟨⟨source, ⟨written, [], false⟩, moved⟩, some (.buffer buffer), stage⟩

theorem poll_bulk_read (hs : (first :: more).length = size) :
    (bulkLane (.data first more :: source) written moved buffer .reading).poll false =
      bulkLane source written moved (buffer.fill (first :: more)) (.copying (first :: more)) := by
  have hr : Source.read (.data first more :: source) size = (source, .ok (first :: more)) := by
    rw [Source.read, ← hs, drop_length, take_length]
    rfl
  simp only [bulkLane, Lane.poll, Lane.read, hr, Buffer.take_fill buffer (Nat.le_of_eq hs)]
  rw [if_neg (cons_ne_nil _ _)]

theorem poll_bulk_write (hf : moved + (first :: more).length < 2 ^ 64) :
    (bulkLane source written moved buffer (.copying (first :: more))).poll false =
      bulkLane source (written ++ first :: more) (moved + (first :: more).length) buffer .reading := by
  have ho : Pump.offer ⟨source, ⟨written, [], false⟩, moved⟩ (first :: more) =
      (⟨source, ⟨written ++ first :: more, [], false⟩, moved + (first :: more).length⟩, (first :: more).length, .ok ()) := by
    rw [length_cons] at hf
    simp only [Pump.offer, Sink.write, length_cons, addCount, if_pos hf]
  simp only [bulkLane, poll, ho, drop_length, if_pos]

theorem poll_bulk_full (hf : 2 ^ 64 ≤ moved + (first :: more).length) :
    (bulkLane source written moved buffer (.copying (first :: more))).poll false =
      bulkLane source (written ++ first :: more) moved buffer (.ended (.error (.io .other))) := by
  have ho : Pump.offer ⟨source, ⟨written, [], false⟩, moved⟩ (first :: more) =
      (⟨source, ⟨written ++ first :: more, [], false⟩, moved⟩, (first :: more).length, .error (.io .other)) := by
    rw [length_cons] at hf
    simp only [Pump.offer, Sink.write, length_cons, addCount, if_neg (Nat.not_lt.mpr hf)]
  simp only [bulkLane, poll, ho]

def bulkState (pools : TcpRelay size) (lane : Lane size) : Config Unit (TcpRelay size) (Relay size) :=
  ⟨pools, fun _ => ⟨false, [lane], .running .buffered⟩⟩

theorem act_bulk {pools : TcpRelay size} {lane' : Lane size} (hp : lane.poll false = lane')
    (hfail : lane'.failure = none) (hf : lane'.finished = false) :
    (act relayProgram (bulkState pools lane) ((), .poll 0)).1 = bulkState pools lane' := by
  have hl : Relay.pollLane ⟨false, [lane], .running .buffered⟩ 0 = ⟨false, [lane'], .running .buffered⟩ := by
    rw [← hp]
    rfl
  have hj : Relay.joined ⟨false, [lane'], .running .buffered⟩ .buffered = none := by
    simp [Relay.joined, hfail, hf]
  have ha : relayProgram () (.poll 0) (bulkState pools lane).shared ((bulkState pools lane).tasks ()) =
      some (pools, ⟨false, [lane'], .running .buffered⟩, none) := by
    simp only [relayProgram, bulkState, Relay.act, Relay.advance, hl, hj, map_some]
  rw [act_of_some ha]
  rfl

theorem execute_bulk_chunk (hs : (first :: more).length = size) (hf : moved + (first :: more).length < 2 ^ 64)
    (pools : TcpRelay size) (schedule : List (Unit × Turn)) :
    (execute relayProgram (bulkState pools (bulkLane (.data first more :: source) written moved buffer .reading))
        (((), .poll 0) :: ((), .poll 0) :: schedule)).1 =
      (execute relayProgram (bulkState pools (bulkLane source (written ++ first :: more)
        (moved + (first :: more).length) (buffer.fill (first :: more)) .reading)) schedule).1 := by
  show (execute relayProgram (act relayProgram (act relayProgram _ _).1 _).1 schedule).1 = _
  rw [act_bulk (poll_bulk_read hs) rfl rfl, act_bulk (poll_bulk_write hf) rfl rfl]

theorem execute_bulk (hs : (first :: more).length = size) (pools : TcpRelay size) {n : Nat}
    (hf : moved + n * (first :: more).length < 2 ^ 64) :
    ∃ schedule written' buffer', written'.length = written.length + n * (first :: more).length ∧
      (execute relayProgram (bulkState pools (bulkLane (List.replicate n (.data first more) ++ source) written moved buffer
        .reading)) schedule).1 =
        bulkState pools (bulkLane source written' (moved + n * (first :: more).length) buffer' .reading) := by
  induction n generalizing written moved buffer with
  | zero => exact ⟨[], written, buffer, by simp, by simp [execute]⟩
  | succ n ih =>
    rw [Nat.succ_mul] at hf
    obtain ⟨schedule, written', buffer', hl, hr⟩ :=
      @ih (written ++ first :: more) (moved + (first :: more).length) (buffer.fill (first :: more)) (by omega)
    refine ⟨((), .poll 0) :: ((), .poll 0) :: schedule, written', buffer', ?_, ?_⟩
    · rw [hl, length_append, Nat.succ_mul]
      omega
    · rw [replicate_succ, cons_append, execute_bulk_chunk hs (by omega), hr, Nat.succ_mul]
      congr 2
      omega

theorem execute_bulk_start (config : TcpRelayConfig) (source : Source) (schedule : List (Unit × Turn)) :
    relaysAfter config (fun _ => .direction (.explicit .buffered) (source, Sink.fresh []))
        (((), .select true) :: ((), .acquire fun _ => true) :: schedule) =
      (execute relayProgram (bulkState (TcpRelay.new config)
        (bulkLane source [] 0 (Buffer.zeroed config.bufferBytes) .reading)) schedule).1 := rfl

theorem execute_bulk_last (hs : (first :: more).length = size) (hf : 2 ^ 64 ≤ moved + (first :: more).length)
    (pools : TcpRelay size) :
    ((execute relayProgram (bulkState pools (bulkLane [.data first more] written moved buffer .reading))
        [((), .poll 0), ((), .poll 0)]).1.tasks ()).lanes =
      [(bulkLane [] (written ++ first :: more) moved (buffer.fill (first :: more))
        (.ended (.error (.io .other)))).release] := by
  show ((act relayProgram (act relayProgram _ _).1 _).1.tasks ()).lanes = _
  rw [act_bulk (poll_bulk_read hs) rfl rfl]
  have hl : Relay.pollLane ⟨false, [bulkLane [] written moved (buffer.fill (first :: more)) (.copying (first :: more))],
      .running .buffered⟩ 0 = ⟨false, [bulkLane [] (written ++ first :: more) moved (buffer.fill (first :: more))
        (.ended (.error (.io .other)))], .running .buffered⟩ := by
    rw [← poll_bulk_full hf]
    rfl
  simp only [act, relayProgram, bulkState, Relay.act, Relay.advance, hl, map_some]
  rfl

end Full

def bulkConfig : TcpRelayConfig := ⟨⟨32768, by decide⟩, 4096, true, true, 256⟩

/-- A source of `2 ^ 64` bytes. -/
def bulkCall : RelayCall :=
  .direction (.explicit .buffered) (List.replicate (2 ^ 49) (.data 0 (List.replicate 32767 0)), Sink.fresh [])

/-- All bytes arrive, and the ledger is one buffer short of them. -/
theorem ledger_misses_last_write : ∃ schedule : List (Unit × Turn),
    ((relaysAfter bulkConfig (fun _ => bulkCall) schedule).tasks ()).lanes.map
      (fun lane => (lane.pump.sink.written.length, lane.pump.moved)) = [(2 ^ 64, 2 ^ 64 - 32768)] := by
  have hs : ((0 : UInt8) :: List.replicate 32767 0).length = bulkConfig.bufferBytes := by
    rw [length_cons, length_replicate]
    rfl
  have hle : ((0 : UInt8) :: List.replicate 32767 0).length = 32768 := by
    rw [length_cons, length_replicate]
  obtain ⟨schedule, written, buffer, hw, hr⟩ :=
    @execute_bulk bulkConfig.bufferBytes 0 (List.replicate 32767 0) [.data 0 (List.replicate 32767 0)] [] 0
      (Buffer.zeroed _) hs (TcpRelay.new bulkConfig) (2 ^ 49 - 1) (by rw [hle]; decide)
  refine ⟨((), .select true) :: ((), .acquire fun _ => true) :: (schedule ++ [((), .poll 0), ((), .poll 0)]), ?_⟩
  have hso : List.replicate (2 ^ 49) (ReadEvent.data 0 (List.replicate 32767 0)) =
      List.replicate (2 ^ 49 - 1) (.data 0 (List.replicate 32767 0)) ++ [.data 0 (List.replicate 32767 0)] := by
    rw [← replicate_succ', Nat.sub_add_cancel Nat.one_le_two_pow]
  rw [bulkCall, hso, execute_bulk_start, execute_append]
  dsimp only
  rw [hr, execute_bulk_last hs (by rw [hle]; decide), hle]
  rw [hle] at hw
  simp only [map_cons, map_nil, release, bulkLane, length_append, hw, hle]
  rfl

end RustReality.Transport
