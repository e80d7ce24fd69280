import RustReality.Tls.RecordExact
import RustReality.Tls.Export

/-!
# The buffered and the record-exact reader agree

The buffered reader answers every call as the record-exact one does, up to the first call that fails
inside a record: the bytes of a partial record are gone from the record-exact reader and still
buffered in the other. What the buffered reader hands over always continues the records it has taken.
-/

namespace RustReality.Tls
open Net TlsApplicationReader Source List Option

/-! ### The buffered reader across failures -/

namespace TlsApplicationReader

variable {S K : Type} (crypto : RecordCrypto S K)

/-- All that is buffered or arrives before the first failure is buffered, and the failure has been reported. -/
structure Stopped (r r' : TlsApplicationReader S K) : Prop where
  inv : Inv r'
  buffered : r'.buffered = r.wire
  io : r'.io = r.io.after
  state : r'.state = r.state
  heap : r'.heap <:+ r.heap

variable {r r' : TlsApplicationReader S K} {result : Except TlsApplicationIoError Unit}

/-- Moving bytes to the buffer first makes no difference to where a failure leaves the reader. -/
theorem Kept.stopped {mid : TlsApplicationReader S K} (h : Kept r mid) (ha : mid.io.after = r.io.after)
    (hstop : Stopped mid r') : Stopped r r' :=
  ⟨hstop.inv, hstop.buffered.trans h.wire, hstop.io.trans ha, hstop.state.trans h.state,
    hstop.heap.trans h.heap⟩

theorem fetch_stopped (hr : Inv r) (hroom : r.bufferedEnd < r.socketBuffer.length) (h : r.fetch = (r', result)) :
    (result = .ok () → r'.io.after = r.io.after) ∧ (result ≠ .ok () → Stopped r r') := by
  unfold fetch at h
  have hc := Nat.sub_pos_of_lt hroom
  have hrd := read_spec r.io hc
  rcases hio : r.io.read (r.socketBuffer.length - r.bufferedEnd) with ⟨io, outcome⟩
  rw [hio] at hrd
  simp only [hio] at h
  obtain ⟨chunk, hne, rfl, ha⟩ | ⟨hn, ha⟩ := read_after hc hio
  · dsimp only at h
    rw [if_neg hne] at h
    cases h
    exact ⟨fun _ => ha, fun hf => absurd rfl hf⟩
  · have hs : r.io.bytes = [] → Stopped r { r with io } := fun hby =>
      ⟨⟨hr.start_le, hr.end_le, hr.cap⟩, by rw [wire, hby, append_nil]; rfl, ha, rfl, suffix_refl _⟩
    cases hrd with
    | eof hby he =>
      cases h
      exact ⟨by rintro ⟨⟩, fun _ => hs hby⟩
    | fail hby he =>
      cases h
      exact ⟨by rintro ⟨⟩, fun _ => hs hby⟩
    | data hne => exact absurd (hn _ rfl) hne

/-- With every growth granted, a refill that fails has used up the failure of the script. -/
theorem refill_stopped (hr : Inv r) (hheap : false ∉ r.heap) (hshort : r.buffered.length < maxTlsRecordWireLen)
    (h : r.refill = (r', result)) :
    (result = .ok () → r'.io.after = r.io.after) ∧ (result ≠ .ok () → Stopped r r') := by
  unfold refill at h
  rcases he : r.ensureSocketBuffer with ⟨r₁, outcome⟩
  simp only [he] at h
  obtain ⟨rfl, hrf⟩ | ⟨rfl, hs, hp⟩ := ensureSocketBuffer_spec hr he
  · exact absurd hrf hheap
  obtain ⟨hc, hrm⟩ := compact_spec hs.inv hp (by rw [hs.buffered]; exact hshort)
  have hs := hs.trans hc
  rcases hg : r₁.compact.grow with ⟨r₂, outcome⟩
  simp only [hg] at h
  obtain ⟨rfl, hrf⟩ | ⟨rfl, hgr, hrm⟩ := grow_spec hc.inv hrm hg
  · exact absurd (hs.heap.mem hrf) hheap
  have hs := hs.trans hgr
  obtain ⟨hok, hf⟩ := fetch_stopped hgr.inv hrm h
  have ha : r₂.io.after = r.io.after := by rw [hs.io]
  exact ⟨fun h => (hok h).trans ha, fun h => hs.kept.stopped ha (hf h)⟩

theorem fill_stopped {need fuel : Nat} (hr : Inv r) (hg : false ∉ r.heap) (hn : need ≤ maxTlsRecordWireLen)
    (h : fill need fuel r = (r', result)) :
    (result = .ok () → r'.io.after = r.io.after) ∧ (result ≠ .ok () → Stopped r r') := by
  induction fuel generalizing r with
  | zero =>
    cases h
    exact ⟨fun _ => rfl, fun hfa => absurd rfl hfa⟩
  | succ fuel ih =>
    have hl := hr.length_buffered
    rw [fill] at h
    by_cases hm : r.bufferedEnd - r.bufferedStart < need
    · rw [if_pos hm] at h
      rcases hrf : r.refill with ⟨mid, outcome⟩
      simp only [hrf] at h
      have hsp := refill_spec hr (by omega) hrf
      obtain ⟨hok, hfa⟩ := refill_stopped hr hg (by omega) hrf
      obtain ⟨rfl, hre⟩ | ⟨rfl, -⟩ | ⟨rfl, hk, -⟩ := hsp
      · exact absurd hre hg
      · cases h
        exact ⟨by rintro ⟨⟩, fun _ => hfa (by rintro ⟨⟩)⟩
      · obtain ⟨hok', hfa'⟩ := ih hk.inv (fun hre => hg (hk.heap.mem hre)) h
        exact ⟨fun hd => (hok' hd).trans (hok rfl), fun hs => hk.stopped (hok rfl) (hfa' hs)⟩
    · rw [if_neg hm] at h
      cases h
      exact ⟨fun _ => rfl, fun hfa => absurd rfl hfa⟩

/-- What a call of the buffered reader can come to when every growth is granted. -/
inductive ReadsNext (r : TlsApplicationReader S K) :
    TlsApplicationReader S K → Except TlsApplicationIoError Bytes → Prop
  | ended {r' : TlsApplicationReader S K} (hnext : nextRecord r.wire = .incomplete) (hstopped : Stopped r r') :
      ReadsNext r r' (.error (endError r.wire r.io.ending))
  | tooLarge {r' : TlsApplicationReader S K} {header : Bytes} (hnext : nextRecord r.wire = .tooLarge header)
      (hkept : Kept r r') (hafter : r'.io.after = r.io.after) : ReadsNext r r' (.error (.read .recordTooLarge header))
  | record {r' : TlsApplicationReader S K} {record : Bytes} (hnext : nextRecord r.wire = .record record r'.wire)
      (hinv : Inv r') (hstate : r'.state = (r.state.process crypto record).1)
      (hending : r'.io.ending = r.io.ending) (hafter : r'.io.after = r.io.after) (hheap : r'.heap <:+ r.heap) :
      ReadsNext r r' (r.state.process crypto record).2

theorem readApplication_next {result : Except TlsApplicationIoError Bytes}
    (hr : Inv r) (hg : false ∉ r.heap) (h : r.readApplication crypto = (r', result)) :
    ReadsNext crypto r r' result := by
  have hra := readApplication_spec crypto hr h
  unfold readApplication at h
  rcases hf : fill headerLen headerLen r with ⟨r₁, outcome⟩
  simp only [hf] at h
  obtain ⟨hok, hfa⟩ := fill_stopped hr hg (by decide) hf
  obtain ⟨rfl, hre⟩ | ⟨rfl, hs⟩ | ⟨rfl, hk, hhe⟩ :=
    fill_spec hr (by decide) (Nat.le_add_right _ _) hf
  · exact absurd hre hg
  · cases h
    exact .ended (by rw [nextRecord, if_pos hs]) (hfa (by rintro ⟨⟩))
  have hl : ¬r.wire.length < headerLen := by
    rw [← hk.wire, wire, length_append]
    omega
  simp only [header_eq hk.inv hhe, hk.wire, bodyLen_take (Nat.le_refl headerLen)] at h
  by_cases hb : bodyLen r.wire = 0 ∨ bodyLen r.wire > maxCiphertextLen
  · rw [if_pos hb] at h
    cases h
    exact .tooLarge (by rw [nextRecord, if_neg hl, if_pos hb]) hk (hok rfl)
  rw [if_neg hb] at h
  have hbo : headerLen + bodyLen r.wire ≤ maxTlsRecordWireLen := by
    unfold maxTlsRecordWireLen
    omega
  have hg₁ : false ∉ r₁.heap := fun hre => hg (hk.heap.mem hre)
  rcases hsc : fill (headerLen + bodyLen r.wire) (headerLen + bodyLen r.wire) r₁ with ⟨r₂, outcome⟩
  simp only [hsc] at h
  obtain ⟨hok', hfa'⟩ := fill_stopped hk.inv hg₁ hbo hsc
  obtain ⟨rfl, hre⟩ | ⟨rfl, hs⟩ | ⟨rfl, hk', hfl⟩ :=
    fill_spec hk.inv hbo (Nat.le_add_right _ _) hsc
  · exact absurd hre hg₁
  · cases h
    rw [hk.wire, hk.ending]
    rw [hk.wire] at hs
    exact .ended (by rw [nextRecord, if_neg hl, if_neg hb, if_pos hs])
      (hk.stopped (hok rfl) (hfa' (by rintro ⟨⟩)))
  -- The record is complete, so of what a call can come to only the processed record is left.
  have hw : ¬r.wire.length < headerLen + bodyLen r.wire := by
    rw [← hk.wire, ← hk'.wire, wire, length_append, Nat.not_lt] at *
    omega
  have hn : nextRecord r.wire = .record (r.wire.take (headerLen + bodyLen r.wire))
      (r.wire.drop (headerLen + bodyLen r.wire)) := by
    rw [nextRecord, if_neg hl, if_neg hb, if_neg hw]
  obtain ⟨-, -, -, -, hio, -⟩ := openBuffered_spec crypto hk'.inv hfl
  dsimp only at h hio
  rw [h] at hio
  have ha : r'.io.after = r.io.after := by
    rw [hio]
    exact (hok' rfl).trans (hok rfl)
  cases hra with
  | refused hre => exact absurd hre hg
  | ended hin => exact absurd (hn.symm.trans hin) (by rintro ⟨⟩)
  | tooLarge hlr => exact absurd (hn.symm.trans hlr) (by rintro ⟨⟩)
  | record hrc hi hst he hh => exact .record hrc hi hst he ha hh

/-! ### Sequences of calls -/

/-- The reader after `n` calls, whatever they returned. -/
def afterCalls (r : TlsApplicationReader S K) : Nat → TlsApplicationReader S K
  | 0 => r
  | n + 1 => ((afterCalls r n).readApplication crypto).1

/-- The result of call `n`, counted from zero. -/
def resultOf (r : TlsApplicationReader S K) (n : Nat) : Except TlsApplicationIoError Bytes :=
  ((r.afterCalls crypto n).readApplication crypto).2

def refills (r : TlsApplicationReader S K) : Except TlsApplicationIoError Unit :=
  match fill headerLen headerLen r with
  | (_, .error e) => .error e
  | (r, .ok ()) =>
    let header := slice r.socketBuffer r.bufferedStart (r.bufferedStart + headerLen)
    if bodyLen header = 0 ∨ bodyLen header > maxCiphertextLen then .ok ()
    else (fill (headerLen + bodyLen header) (headerLen + bodyLen header) r).2

def takes (r : TlsApplicationReader S K) : Option Bytes :=
  match nextRecord r.wire with
  | .record record _ => some record
  | _ => none

/-- Everything the peer has sent or will ever send, as far as no call has taken it. -/
def left (r : TlsApplicationReader S K) : Bytes := r.buffered ++ r.io.stream

theorem left_eq (r : TlsApplicationReader S K) : r.left = r.wire ++ r.io.after.stream := by
  rw [left, wire, stream_eq, append_assoc]

theorem endError_ne (wire : Bytes) (ending : Option Failure) (e : Tls13RecordError) :
    endError wire ending ≠ .record e := by
  rcases ending with _ | failure
  · rintro ⟨⟩
  · cases failure <;> rintro ⟨⟩

theorem refills_room (hr : Inv r) : r.refills ≠ .error (.record .invalidLength) := by
  have he : ∀ {need fuel : Nat} {r r' : TlsApplicationReader S K} {result : Except TlsApplicationIoError Unit},
      Inv r → need ≤ maxTlsRecordWireLen → need ≤ fuel → fill need fuel r = (r', result) →
        result ≠ .error (.record .invalidLength) := by
    intro need fuel r r' result hr hn hfl h
    obtain ⟨rfl, -⟩ | ⟨rfl, -⟩ | ⟨rfl, -⟩ := fill_spec hr hn (Nat.le_add_right_of_le hfl) h
    · rintro ⟨⟩
    · exact fun heq => endError_ne _ _ _ (Except.error.inj heq)
    · rintro ⟨⟩
  unfold refills
  rcases hf : fill headerLen headerLen r with ⟨r₁, _ | _⟩
  · exact fun heq => he hr (by decide) (Nat.le_refl _) hf (by rw [Except.error.inj heq])
  · dsimp only
    split_ifs with hb
    · rintro ⟨⟩
    obtain ⟨hrf, -⟩ | ⟨hen, -⟩ | ⟨-, hk, -⟩ := fill_spec hr (by decide) (Nat.le_add_right _ _) hf
    · cases hrf
    · cases hen
    · exact he hk.inv (by unfold maxTlsRecordWireLen; omega) (Nat.le_refl _) rfl

def Interrupted : Except TlsApplicationIoError Bytes → Prop
  | .error (.read _ _) => True
  | .error .timeout => True
  | .error .dropped => True
  | _ => False

theorem interrupted_endError (wire : Bytes) (ending : Option Failure) : Interrupted (.error (endError wire ending)) := by
  rcases ending with _ | failure
  · trivial
  · cases failure <;> trivial

/-- A call takes a record off what is left and answers with what that record means, or takes nothing. -/
structure Taken (r r' : TlsApplicationReader S K) (result : Except TlsApplicationIoError Bytes) : Prop where
  inv : Inv r'
  granted : false ∉ r'.heap
  left : r.left = r.takes.getD [] ++ r'.left
  record : ∀ {record}, r.takes = some record → result = (r.state.process crypto record).2
  interrupted : r.takes = none → Interrupted result

theorem ReadsNext.taken {result : Except TlsApplicationIoError Bytes}
    (hg : false ∉ r.heap) (h : ReadsNext crypto r r' result) : Taken crypto r r' result := by
  cases h with
  | ended hn hst =>
    have hta : r.takes = none := by rw [takes, hn]
    refine ⟨hst.inv, fun hre => hg (hst.heap.mem hre), ?_, ?_, fun _ => ?_⟩
    · rw [hta, getD_none, nil_append, left, left,
        hst.buffered, hst.io, wire, stream_eq, append_assoc]
    · intro record hs
      rw [hta] at hs
      cases hs
    · exact interrupted_endError _ _
  | tooLarge hn hk ha =>
    have hta : r.takes = none := by rw [takes, hn]
    refine ⟨hk.inv, fun hre => hg (hk.heap.mem hre), ?_, ?_, fun _ => trivial⟩
    · rw [hta, getD_none, nil_append, left_eq, left_eq, hk.wire, ha]
    · intro record hs
      rw [hta] at hs
      cases hs
  | @record record hn hi hsa he ha hh =>
    have hta : r.takes = some record := by rw [takes, hn]
    refine ⟨hi, fun hre => hg (hh.mem hre), ?_, ?_, ?_⟩
    · rw [hta, getD_some, left_eq, left_eq, (nextRecord_record hn).1, ha, append_assoc]
    · intro other hs
      rw [hta] at hs
      cases hs
      rfl
    · intro hnn
      rw [hta] at hnn
      cases hnn

/-- The cursors stay in the buffer and growth stays granted over any number of calls. -/
theorem afterCalls_inv (hr : Inv r) (hg : false ∉ r.heap) (n : Nat) :
    Inv (r.afterCalls crypto n) ∧ false ∉ (r.afterCalls crypto n).heap := by
  induction n with
  | zero => exact ⟨hr, hg⟩
  | succ n ih =>
    have ht := (readApplication_next crypto ih.1 ih.2 rfl).taken crypto ih.2
    exact ⟨ht.inv, ht.granted⟩

theorem afterCalls_taken (hr : Inv r) (hg : false ∉ r.heap) (n : Nat) :
    Taken crypto (r.afterCalls crypto n) (r.afterCalls crypto (n + 1)) (r.resultOf crypto n) := by
  obtain ⟨hi, hg⟩ := afterCalls_inv crypto hr hg n
  exact (readApplication_next crypto hi hg rfl).taken crypto hg

theorem afterCalls_left (hr : Inv r) (hg : false ∉ r.heap) (n : Nat) :
    r.left = ((List.range n).filterMap fun m => (r.afterCalls crypto m).takes).flatten ++
      (r.afterCalls crypto n).left := by
  induction n with
  | zero => rfl
  | succ n ih =>
    have hs := (afterCalls_taken crypto hr hg n).left
    rw [range_succ, filterMap_append, flatten_append, append_assoc, ih, hs]
    cases ht : (r.afterCalls crypto n).takes <;> simp [ht]

end TlsApplicationReader

def TlsApplicationIo.afterCalls {S K : Type} (crypto : RecordCrypto S K) (e : TlsApplicationIo S K) :
    Nat → TlsApplicationIo S K
  | 0 => e
  | n + 1 => ((afterCalls crypto e n).readApplication crypto).1

def TlsApplicationIo.resultOf {S K : Type} (crypto : RecordCrypto S K) (e : TlsApplicationIo S K) (n : Nat) :
    Except TlsApplicationIoError Bytes := ((e.afterCalls crypto n).readApplication crypto).2

/-! ### The two readers side by side -/

variable {S K : Type} (crypto : RecordCrypto S K)

/-- The same bytes are ahead of both readers, and both are at the same place of the record layer. -/
structure Beside (r : TlsApplicationReader S K) (e : TlsApplicationIo S K) : Prop where
  inv : r.Inv
  granted : false ∉ r.heap
  ready : e.Ready
  wire : e.io.bytes = r.wire
  ending : e.io.ending = r.io.ending
  after : e.io.after = r.io.after
  state : e.state = r.state

/-- Results that leave no partial record behind: all but failures inside a record. -/
def Settled : Except TlsApplicationIoError Bytes → Prop
  | .error (.read _ consumed) => consumed = []
  | .error .timeout => False
  | .error .dropped => False
  | _ => True

theorem settled_endError {wire : Bytes} {ending : Option Failure}
    (h : Settled (.error (endError wire ending))) : wire = [] := by
  rcases ending with _ | failure
  · exact h
  · cases failure with
    | timeout => exact h
    | io kind => exact h
    | unarmed => exact h.elim
    | dropped => exact h.elim

/-- One call on both sides gives one result, and a settled one leaves the readers side by side. -/
theorem Beside.call {r : TlsApplicationReader S K} {e : TlsApplicationIo S K} (h : Beside r e) :
    (r.readApplication crypto).2 = (e.readApplication crypto).2 ∧
      (Settled (r.readApplication crypto).2 → Beside (r.readApplication crypto).1 (e.readApplication crypto).1) := by
  rcases hb : r.readApplication crypto with ⟨r', result⟩
  rcases hex : e.readApplication crypto with ⟨e', result'⟩
  have hr := TlsApplicationReader.readApplication_next crypto h.inv h.granted hb
  have he := TlsApplicationIo.readApplication_next crypto h.ready hex
  have hg := (hr.taken crypto h.granted).granted
  -- What stands at the front of the wire decides the branch, and it is the same for both.
  cases hr with
  | ended hn hs =>
    cases he with
    | ended hn' hre hst hio =>
      refine ⟨by rw [h.wire, h.ending], fun hse => ?_⟩
      have hb : r'.buffered = [] := hs.buffered.trans (settled_endError hse)
      have hio' : e'.io = r'.io := by rw [hio, h.after, hs.io]
      exact ⟨hs.inv, hg, hre, by rw [hio', TlsApplicationReader.wire, hb]; rfl, by rw [hio'],
        by rw [hio'], by rw [hst, h.state, hs.state]⟩
    | tooLarge hn' => rw [h.wire, hn] at hn'; cases hn'
    | record hn' => rw [h.wire, hn] at hn'; cases hn'
  | tooLarge hn hk ha =>
    cases he with
    | ended hn' => rw [h.wire, hn] at hn'; cases hn'
    | tooLarge hn' =>
      rw [h.wire, hn] at hn'
      cases hn'
      refine ⟨rfl, fun hse => ?_⟩
      unfold nextRecord at hn
      split_ifs at hn with hsh
      cases hn
      have hem : r.wire.take headerLen = [] := hse
      have hl := congrArg List.length hem
      rw [length_take, length_nil] at hl
      unfold headerLen at *
      omega
    | record hn' => rw [h.wire, hn] at hn'; cases hn'
  | record hn hi hst hen ha hh =>
    cases he with
    | ended hn' => rw [h.wire, hn] at hn'; cases hn'
    | tooLarge hn' => rw [h.wire, hn] at hn'; cases hn'
    | record hn' hre hst' hen' ha' =>
      rw [h.wire, hn] at hn'
      obtain ⟨rfl, hrs⟩ := NextRecord.record.inj hn'
      refine ⟨by rw [h.state], fun _ => ⟨hi, hg, hre, hrs.symm, ?_, ?_, ?_⟩⟩
      · rw [hen', h.ending, hen]
      · rw [ha', h.after, ha]
      · rw [hst', h.state, hst]

theorem Beside.afterCalls {r : TlsApplicationReader S K} {e : TlsApplicationIo S K} (h : Beside r e) {n : Nat}
    (hs : ∀ m < n, Settled (r.resultOf crypto m)) : Beside (r.afterCalls crypto n) (e.afterCalls crypto n) := by
  induction n with
  | zero => exact h
  | succ n ih =>
    have hb := ih fun m hm => hs m (Nat.lt_succ_of_lt hm)
    exact (hb.call crypto).2 (hs n (Nat.lt_succ_self n))

/-- A reader with some ciphertext read ahead is beside one with all of it still to come. -/
theorem Beside.init (io : Source) (records : Tls13RecordLayer S K) (pending : Bytes) (spare : Nat) :
    Beside (.new io records pending (pending.length + spare) []) (.new (io.unread pending) records []) := by
  refine ⟨.init _ _ (Nat.le_add_right _ _) _, not_mem_nil, ⟨Nat.le_refl _, .inl rfl, rfl⟩, ?_, ?_, ?_, rfl⟩
  · exact (bytes_unread _ _).trans (congrArg (· ++ io.bytes) (slice_whole pending).symm)
  · exact ending_unread _ _
  · exact after_unread _ _

/-- Buffered reading of a stream behind some pending bytes, against record-exact reading of both. -/
structure RecordExactReading (pending : Bytes) (io : Source) (r : TlsApplicationReader S K) (e : TlsApplicationIo S K) :
    Prop where
  /-- The results agree, up to and including the first failure inside a record. -/
  same : ∀ n, (∀ m < n, Settled (r.resultOf crypto m)) → r.resultOf crypto n = e.resultOf crypto n
  room : ∀ n, (r.afterCalls crypto n).refills ≠ .error (.record .invalidLength)
  /-- A call that takes a record answers with what the record means. -/
  record : ∀ n record, (r.afterCalls crypto n).takes = some record →
    r.resultOf crypto n = ((r.afterCalls crypto n).state.process crypto record).2
  /-- A call that takes none reports how reading failed. -/
  interrupted : ∀ n, (r.afterCalls crypto n).takes = none → TlsApplicationReader.Interrupted (r.resultOf crypto n)
  /-- What is handed over and what is still unread follow the records taken so far. -/
  handed : ∀ n rest unread,
    ((r.afterCalls crypto n).intoInnerWithPending = (rest, unread) ∨
      ∃ records, (r.afterCalls crypto n).intoHandoffParts = (rest, unread, records)) →
    pending ++ io.stream =
      ((List.range n).filterMap fun m => (r.afterCalls crypto m).takes).flatten ++ (rest ++ unread.stream)

/-- Buffered reading is record-exact reading until a call fails inside a record, and it never loses or repeats a
byte. -/
theorem buffered_reading (io : Source) (records : Tls13RecordLayer S K) (pending : Bytes) (spare : Nat) :
    RecordExactReading crypto pending io (.new io records pending (pending.length + spare) [])
      (.new (io.unread pending) records []) := by
  have hbe := Beside.init io records pending spare
  have ht := afterCalls_taken crypto hbe.inv hbe.granted
  refine ⟨fun n hst => ((hbe.afterCalls crypto hst).call crypto).1, fun n => ?_,
    fun n record => (ht n).record, fun n => (ht n).interrupted, fun n rest unread hh => ?_⟩
  · exact refills_room (afterCalls_inv crypto hbe.inv hbe.granted n).1
  · have hl := afterCalls_left crypto hbe.inv hbe.granted n
    have hs : left (.new io records pending (pending.length + spare) []) =
        pending ++ io.stream := congrArg (· ++ io.stream) (slice_whole pending)
    rw [hs] at hl
    rw [hl]
    obtain hi | ⟨_, hp⟩ := hh
    · cases hi
      rfl
    · cases hp
      rfl

def sampleLayer : Tls13RecordLayer Unit Unit := ⟨.aes128GcmSha256, (), Vector.replicate 12 0, some (), 0, false⟩

/-- At the end of the stream a partial record is reported, and stays buffered, call after call. -/
theorem partial_again {r : TlsApplicationReader S K} (hr : r.Inv) (hg : false ∉ r.heap) (hio : r.io = [])
    (hn : nextRecord r.buffered = .incomplete) :
    r.readApplication crypto = ((r.readApplication crypto).1, .error (.read .unexpectedEof r.buffered)) ∧
      (r.readApplication crypto).1.Inv ∧ false ∉ (r.readApplication crypto).1.heap ∧
      (r.readApplication crypto).1.io = [] ∧ (r.readApplication crypto).1.buffered = r.buffered := by
  have hw : r.wire = r.buffered := by
    rw [wire, hio]
    exact append_nil _
  rcases hrd : r.readApplication crypto with ⟨r', result⟩
  have hs := readApplication_next crypto hr hg hrd
  have ht := hs.taken crypto hg
  cases hs with
  | ended _ hst =>
    refine ⟨?_, ht.inv, ht.granted, ?_, hst.buffered.trans hw⟩
    · rw [hw, hio]
      rfl
    · rw [hst.io, hio]
      rfl
  | tooLarge hl =>
    rw [hw, hn] at hl
    cases hl
  | record hrc =>
    rw [hw, hn] at hrc
    cases hrc

/-- A stream that ends inside a record: the buffered reader reports the partial record again, the record-exact
one has dropped it. A record that does not open: it is taken, although it was never returned. -/
theorem buffered_reading_differs :
    let r : TlsApplicationReader Unit Unit := .new [] sampleLayer [23] 1 []
    let e : TlsApplicationIo Unit Unit := .new (unread [23] []) sampleLayer []
    let rejected : TlsApplicationReader Unit Unit := .new [] sampleLayer [20, 3, 3, 0, 1, 1] 6 []
    r.resultOf .null 1 = .error (.read .unexpectedEof [23]) ∧
      e.resultOf .null 1 = .error (.read .unexpectedEof []) ∧
      rejected.resultOf .null 0 = .error (.record .invalidHeader) ∧
      (rejected.afterCalls .null 1).intoInnerWithPending = ([], []) := by
  intro r e rejected
  refine ⟨?_, by decide +kernel, by decide +kernel, by decide +kernel⟩
  have hr : r.Inv := .init _ _ (Nat.le_refl 1) _
  have hp : r.buffered = [23] := rfl
  have hpr : nextRecord [23] = .incomplete := by decide
  obtain ⟨-, hi, hg, hio, hb⟩ :=
    partial_again .null hr not_mem_nil rfl (by rw [hp]; exact hpr)
  rw [hp] at hb
  obtain ⟨hs, -⟩ := partial_again .null hi hg hio (by rw [hb]; exact hpr)
  rw [resultOf, afterCalls, afterCalls, hs,
    hb]

end RustReality.Tls
