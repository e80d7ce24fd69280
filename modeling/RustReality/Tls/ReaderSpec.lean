import RustReality.Tls.Reader

/-!
# Buffered reading is record-exact reading

The wire of a reader is what it has buffered followed by what its transport still delivers.
`readApplication` takes exactly the next record off that wire and processes it, or reports how the
wire ends before one is complete (`readApplication_spec`). Chunks, compaction and growth of the buffer
never show.
-/

namespace RustReality.Tls
open Net List

/-! ### Records on the wire -/

inductive NextRecord
  | record (bytes rest : Bytes)
  /-- The header declares a length outside the bounds. -/
  | tooLarge (header : Bytes)
  | incomplete
  deriving DecidableEq, Repr

def nextRecord (wire : Bytes) : NextRecord :=
  if wire.length < headerLen then .incomplete
  else if bodyLen wire = 0 ∨ bodyLen wire > maxCiphertextLen then .tooLarge (wire.take headerLen)
  else if wire.length < headerLen + bodyLen wire then .incomplete
  else .record (wire.take (headerLen + bodyLen wire)) (wire.drop (headerLen + bodyLen wire))

theorem bodyLen_take {wire : Bytes} {n : Nat} (h : headerLen ≤ n) : bodyLen (wire.take n) = bodyLen wire := by
  have h5 : min 5 n = 5 := Nat.min_eq_left h
  simp only [bodyLen, slice, take_take, h5]

theorem bodyLen_append {wire more : Bytes} (h : headerLen ≤ wire.length) :
    bodyLen (wire ++ more) = bodyLen wire := by
  have ht : (wire ++ more).take 5 = wire.take 5 := take_append_of_le_length h
  rw [bodyLen, bodyLen, slice, slice, ht]

theorem nextRecord_record {wire record rest : Bytes} (h : nextRecord wire = .record record rest) :
    wire = record ++ rest ∧ headerLen < record.length ∧ record.length ≤ maxTlsRecordWireLen := by
  unfold nextRecord at h
  split_ifs at h with hs hb hl
  cases h
  refine ⟨(take_append_drop _ _).symm, ?_, ?_⟩ <;>
    rw [length_take] <;> unfold maxTlsRecordWireLen at * <;> omega

theorem nextRecord_append {wire record rest : Bytes} (h : nextRecord wire = .record record rest) (extra : Bytes) :
    nextRecord (wire ++ extra) = .record record (rest ++ extra) := by
  unfold nextRecord at h
  split_ifs at h with hs hb hl
  cases h
  have hbd : bodyLen (wire ++ extra) = bodyLen wire := bodyLen_append (Nat.le_of_not_lt hs)
  have hle : headerLen + bodyLen wire ≤ wire.length := Nat.le_of_not_lt hl
  rw [nextRecord, hbd, length_append, if_neg (by omega), if_neg hb, if_neg (by omega),
    take_append_of_le_length hle, drop_append_of_le_length hle]

/-! ### What a record does -/

theorem processOpenedRecord_applicationData {S K : Type} (crypto : RecordCrypto S K)
    {records records' : Tls13RecordLayer S K} {keyUpdate keyUpdate' : Bytes}
    {opened : Tls13RecordLayer.OpenedRecord} {len : Nat}
    (h : processOpenedRecord crypto records keyUpdate opened = (records', keyUpdate', .ok (.applicationData len))) :
    len = opened.plaintext.length := by
  unfold processOpenedRecord at h
  repeat' split at h
  all_goals cases h
  rfl

structure RecordState (S K : Type) where
  records : Tls13RecordLayer S K
  keyUpdate : Bytes
  responseObserved : Bool

variable {S K : Type} (crypto : RecordCrypto S K)

def RecordState.process (st : RecordState S K) (record : Bytes) :
    RecordState S K × Except TlsApplicationIoError Bytes :=
  match st.records.openInPlace crypto record with
  | (records, _, .error e) => ({ st with records }, .error (.record e))
  | (records, _, .ok opened) =>
    match processOpenedRecord crypto records st.keyUpdate opened with
    | (records, keyUpdate, .error e) => ({ st with records, keyUpdate }, .error e)
    | (records, keyUpdate, .ok (.applicationData _)) => ({ st with records, keyUpdate }, .ok opened.plaintext)
    | (records, keyUpdate, .ok (.control requested)) =>
      (⟨records, keyUpdate, st.responseObserved || requested⟩, .ok [])

structure RecordState.Agree (st st' : RecordState S K) : Prop where
  records : st'.records = st.records
  keyUpdate : st'.keyUpdate = st.keyUpdate

theorem RecordState.Agree.process {st st' : RecordState S K} (h : st.Agree st') (record : Bytes) :
    (st'.process crypto record).2 = (st.process crypto record).2 ∧
      (st.process crypto record).1.Agree (st'.process crypto record).1 := by
  unfold RecordState.process
  rw [h.records, h.keyUpdate]
  rcases st.records.openInPlace crypto record with ⟨records, storage, result⟩
  cases result with
  | error e => exact ⟨rfl, rfl, rfl⟩
  | ok opened =>
    dsimp only
    rcases processOpenedRecord crypto records st.keyUpdate opened with ⟨records', keyUpdate, outcome⟩
    cases outcome with
    | error e => exact ⟨rfl, rfl, rfl⟩
    | ok outcome => cases outcome <;> exact ⟨rfl, rfl, rfl⟩

namespace TlsApplicationReader

variable (r : TlsApplicationReader S K)

def state : RecordState S K := ⟨r.records, r.keyUpdate, r.responseObserved⟩

/-- Everything the peer has sent or will send, as far as it is not consumed. -/
def wire : Bytes := r.buffered ++ r.io.bytes

def endError (wire : Bytes) : Option Failure → TlsApplicationIoError
  | none => .read .unexpectedEof wire
  | some failure => refillFailure wire failure

theorem Inv.init (io : Source) (records : Tls13RecordLayer S K) {pending : Bytes} {capacity : Nat}
    (h : pending.length ≤ capacity) (heap : List Bool) : Inv (new io records pending capacity heap) :=
  ⟨Nat.zero_le _, Nat.le_refl _, h⟩

variable {r r' : TlsApplicationReader S K} {result : Except TlsApplicationIoError Unit}

theorem Inv.length_buffered (h : Inv r) :
    r.buffered.length = r.bufferedEnd - r.bufferedStart := by
  obtain ⟨_, x, _, _, _, hx, hs⟩ := cut_buffer r.socketBuffer h.start_le h.end_le
  rw [buffered, hs, hx]

/-- Storage changes that do not show: the buffered bytes, the transport and the record state stay, and
the allocator's remaining answers are some of the ones before. -/
structure Same (r r' : TlsApplicationReader S K) : Prop where
  inv : Inv r'
  buffered : r'.buffered = r.buffered
  io : r'.io = r.io
  state : r'.state = r.state
  heap : r'.heap <:+ r.heap

theorem Same.trans {r'' : TlsApplicationReader S K} (h : Same r r') (h' : Same r' r'') : Same r r'' :=
  ⟨h'.inv, h'.buffered.trans h.buffered, h'.io.trans h.io, h'.state.trans h.state, h'.heap.trans h.heap⟩

theorem grant_spec (r : TlsApplicationReader S K) :
    ∃ heap, r.grant.1 = { r with heap } ∧ heap <:+ r.heap ∧ (r.grant.2 = false → false ∈ r.heap) := by
  obtain ⟨io, records, socketBuffer, capacity, start, stop, keyUpdate, observed, heap⟩ := r
  cases heap with
  | nil => exact ⟨[], rfl, suffix_refl _, by simp [grant]⟩
  | cons granted heap => exact ⟨heap, rfl, suffix_cons _ _, fun h => h ▸ mem_cons_self⟩

theorem Inv.cursors_of_empty (hr : Inv r) (h : r.socketBuffer = []) :
    r.bufferedStart = 0 ∧ r.bufferedEnd = 0 := by
  have := hr.end_le
  have := hr.start_le
  rw [h] at *
  simp only [length_nil] at *
  omega

theorem Inv.replace_empty (hr : Inv r) (h : r.socketBuffer = []) (n : Nat)
    {heap : List Bool} (hh : heap <:+ r.heap) :
    Same r { r with socketBuffer := List.replicate n 0, capacity := n, heap } := by
  obtain ⟨hs, he⟩ := hr.cursors_of_empty h
  refine ⟨⟨hr.start_le, by simp [he], by simp⟩, ?_, rfl, rfl, hh⟩
  simp [buffered, hs, he, slice_self]

theorem ensureSocketBuffer_spec (hr : Inv r) (h : r.ensureSocketBuffer = (r', result)) :
    (result = .error (.record .bufferAllocation) ∧ false ∈ r.heap) ∨
      (result = .ok () ∧ Same r r' ∧ 0 < r'.socketBuffer.length) := by
  unfold ensureSocketBuffer at h
  split_ifs at h with hc hn
  · have hn : r.socketBuffer = [] := length_eq_zero_iff.mp (by have := hr.cap; omega)
    obtain ⟨heap, hgr, hh, hrf⟩ := grant_spec r
    cases hg : r.grant with
    | mk mid granted =>
      rw [hg] at hgr hrf
      simp only [hg] at h
      cases granted with
      | false =>
        cases h
        exact .inl ⟨rfl, hrf rfl⟩
      | true =>
        cases h
        cases hgr
        exact .inr ⟨rfl, hr.replace_empty hn socketBufferCapacity hh, by simp; decide⟩
  · cases h
    exact .inr ⟨rfl, hr.replace_empty hn r.capacity (suffix_refl _), by simp; omega⟩
  · cases h
    exact .inr ⟨rfl, ⟨hr, rfl, rfl, rfl, suffix_refl _⟩, length_pos_of_ne_nil hn⟩

/-- After compaction there is room behind the end cursor, or the buffer is full and short. -/
theorem compact_spec (hr : Inv r) (hp : 0 < r.socketBuffer.length)
    (hshort : r.buffered.length < maxTlsRecordWireLen) :
    Same r r.compact ∧ (r.compact.bufferedEnd < r.compact.socketBuffer.length ∨
      (r.compact.bufferedEnd = r.compact.socketBuffer.length ∧
        r.compact.socketBuffer.length < maxTlsRecordWireLen)) := by
  have hl := hr.length_buffered
  unfold compact
  split_ifs with he ht
  · refine ⟨⟨⟨Nat.le_refl _, Nat.zero_le _, hr.cap⟩, ?_, rfl, rfl, suffix_refl _⟩, .inl hp⟩
    simp only [buffered, he, slice_self]
  · have hle := hr.end_le
    have hs : (overwrite r.socketBuffer 0 r.buffered).length = r.socketBuffer.length :=
      length_overwrite (by omega)
    have hf : slice (overwrite r.socketBuffer 0 r.buffered) 0 (r.bufferedEnd - r.bufferedStart) =
        r.buffered := by
      have := slice_middle [] r.buffered (r.socketBuffer.drop r.buffered.length)
      simpa [overwrite, hl] using this
    have hi : r.bufferedEnd - r.bufferedStart ≤ r.socketBuffer.length := by omega
    refine ⟨⟨⟨Nat.zero_le _, hs.symm ▸ hi, hs.symm ▸ hr.cap⟩, hf, rfl, rfl,
      suffix_refl _⟩, ?_⟩
    simp only [hs]
    omega
  · refine ⟨⟨hr, rfl, rfl, rfl, suffix_refl _⟩, .inl ?_⟩
    omega

theorem grow_spec (hr : Inv r) (hroom : r.bufferedEnd < r.socketBuffer.length ∨
      (r.bufferedEnd = r.socketBuffer.length ∧ r.socketBuffer.length < maxTlsRecordWireLen)) (h : r.grow = (r', result)) :
    (result = .error (.record .bufferAllocation) ∧ false ∈ r.heap) ∨
      (result = .ok () ∧ Same r r' ∧ r'.bufferedEnd < r'.socketBuffer.length) := by
  have hm : maxTlsRecordWireLen < socketBufferCapacity := by decide
  unfold grow at h
  split_ifs at h with hf hn
  · omega
  · obtain ⟨heap, hgr, hh, hrf⟩ := grant_spec r
    cases hg : r.grant with
    | mk mid granted =>
      rw [hg] at hgr hrf
      simp only [hg] at h
      cases granted with
      | false =>
        cases h
        exact .inl ⟨rfl, hrf rfl⟩
      | true =>
        cases h
        cases hgr
        refine .inr ⟨rfl, ⟨⟨hr.start_le, ?_, ?_⟩, ?_, rfl, rfl, hh⟩, ?_⟩
        · simp only [length_append]
          omega
        · simp only [length_append, length_replicate]
          omega
        · simp only [buffered, slice, take_append_of_le_length hr.end_le]
        · simp only [length_append, length_replicate]
          omega
  · cases h
    exact .inr ⟨rfl, ⟨hr, rfl, rfl, rfl, suffix_refl _⟩, by omega⟩

structure Kept (r r' : TlsApplicationReader S K) : Prop where
  inv : Inv r'
  wire : r'.wire = r.wire
  ending : r'.io.ending = r.io.ending
  state : r'.state = r.state
  heap : r'.heap <:+ r.heap

theorem Kept.trans {r'' : TlsApplicationReader S K} (h : Kept r r') (h' : Kept r' r'') : Kept r r'' :=
  ⟨h'.inv, h'.wire.trans h.wire, h'.ending.trans h.ending, h'.state.trans h.state, h'.heap.trans h.heap⟩

theorem Same.kept (h : Same r r') : Kept r r' :=
  ⟨h.inv, by rw [wire, wire, h.buffered, h.io], by rw [h.io], h.state, h.heap⟩

theorem fetch_spec (hr : Inv r) (hroom : r.bufferedEnd < r.socketBuffer.length) (h : r.fetch = (r', result)) :
    (result = .error (endError r.wire r.io.ending) ∧ r.io.bytes = []) ∨
      (result = .ok () ∧ Kept r r' ∧ r.buffered.length < r'.buffered.length) := by
  unfold fetch at h
  have hrd := Source.read_spec r.io (Nat.sub_pos_of_lt hroom)
  cases hio : r.io.read (r.socketBuffer.length - r.bufferedEnd) with
  | mk io outcome =>
    rw [hio] at hrd
    simp only [hio] at h
    cases hrd with
    | eof hby hen =>
      cases h
      exact .inl ⟨by simp [endError, hen, wire, hby], hby⟩
    | fail hby hen =>
      cases h
      exact .inl ⟨by simp [endError, hen, wire, hby], hby⟩
    | data hne hl hby hen =>
      rename_i chunk
      dsimp only at h
      rw [if_neg hne] at h
      cases h
      have hf : r.bufferedEnd + chunk.length ≤ r.socketBuffer.length := by omega
      have hg := slice_overwrite_append hr.start_le hf
      have hp := length_pos_of_ne_nil hne
      refine .inr ⟨rfl, ⟨⟨?_, ?_, ?_⟩, ?_, hen, rfl, suffix_refl _⟩, ?_⟩
      · exact Nat.le_trans hr.start_le (Nat.le_add_right _ _)
      · exact (length_overwrite hf).symm ▸ hf
      · exact (length_overwrite hf).symm ▸ hr.cap
      · simp only [wire, buffered, hg, hby, append_assoc]
      · simp only [buffered, hg, length_append]
        omega

theorem refill_spec (hr : Inv r) (hshort : r.buffered.length < maxTlsRecordWireLen) (h : r.refill = (r', result)) :
    (result = .error (.record .bufferAllocation) ∧ false ∈ r.heap) ∨
      (result = .error (endError r.wire r.io.ending) ∧ r.io.bytes = []) ∨
      (result = .ok () ∧ Kept r r' ∧ r.buffered.length < r'.buffered.length) := by
  unfold refill at h
  cases hen : r.ensureSocketBuffer with
  | mk r₁ outcome =>
    simp only [hen] at h
    obtain ⟨rfl, hrf⟩ | ⟨rfl, hs, hp⟩ := ensureSocketBuffer_spec hr hen
    · cases h
      exact .inl ⟨rfl, hrf⟩
    obtain ⟨hc, hrm⟩ := compact_spec hs.inv hp (by rw [hs.buffered]; exact hshort)
    have hs := hs.trans hc
    cases hg : r₁.compact.grow with
    | mk r₂ outcome =>
      simp only [hg] at h
      obtain ⟨rfl, hrf⟩ | ⟨rfl, hgr, hrm⟩ := grow_spec hc.inv hrm hg
      · cases h
        exact .inl ⟨rfl, hs.heap.mem hrf⟩
      have hs := hs.trans hgr
      obtain ⟨he, hed⟩ | ⟨hok, hk, hgn⟩ := fetch_spec hgr.inv hrm h
      · rw [hs.kept.wire, hs.io] at he
        rw [hs.io] at hed
        exact .inr (.inl ⟨he, hed⟩)
      · rw [hs.buffered] at hgn
        exact .inr (.inr ⟨hok, hs.kept.trans hk, hgn⟩)

theorem fill_spec {need fuel : Nat} (hr : Inv r) (hn : need ≤ maxTlsRecordWireLen)
    (hfuel : need ≤ fuel + r.buffered.length) (h : fill need fuel r = (r', result)) :
    (result = .error (.record .bufferAllocation) ∧ false ∈ r.heap) ∨
      (result = .error (endError r.wire r.io.ending) ∧ r.wire.length < need) ∨
      (result = .ok () ∧ Kept r r' ∧ need ≤ r'.buffered.length) := by
  induction fuel generalizing r with
  | zero =>
    cases h
    exact .inr (.inr ⟨rfl, ⟨hr, rfl, rfl, rfl, suffix_refl _⟩, by omega⟩)
  | succ fuel ih =>
    have hl := hr.length_buffered
    rw [fill] at h
    split_ifs at h with hm
    · cases hrl : r.refill with
      | mk mid outcome =>
        simp only [hrl] at h
        obtain ⟨rfl, hrf⟩ | ⟨rfl, hen⟩ | ⟨rfl, hk, hg⟩ := refill_spec hr (by omega) hrl
        · cases h
          exact .inl ⟨rfl, hrf⟩
        · cases h
          refine .inr (.inl ⟨rfl, ?_⟩)
          rw [wire, hen, append_nil]
          omega
        · have hrs := ih hk.inv (by omega) h
          rw [hk.wire, hk.ending] at hrs
          obtain ⟨he, hrf⟩ | hen | ⟨hok, hk', hf⟩ := hrs
          · exact .inl ⟨he, hk.heap.mem hrf⟩
          · exact .inr (.inl hen)
          · exact .inr (.inr ⟨hok, hk.trans hk', hf⟩)
    · cases h
      exact .inr (.inr ⟨rfl, ⟨hr, rfl, rfl, rfl, suffix_refl _⟩, by omega⟩)

theorem openBuffered_spec (hr : Inv r) {n : Nat} (hn : n ≤ r.buffered.length) :
    let step := r.openBuffered crypto n
    let spec := r.state.process crypto (r.buffered.take n)
    step.2 = spec.2 ∧ step.1.state = spec.1 ∧ Inv step.1 ∧ step.1.buffered = r.buffered.drop n ∧
      step.1.io = r.io ∧ step.1.heap = r.heap := by
  have hl := hr.length_buffered
  have hsa := hr.start_le
  have he := hr.end_le
  have hrc : r.buffered.take n = slice r.socketBuffer r.bufferedStart (r.bufferedStart + n) :=
    take_slice (by omega)
  have hs : (r.buffered.take n).length = n := by
    rw [length_take, Nat.min_eq_left hn]
  simp only [openBuffered, ← hrc, RecordState.process, state]
  rcases ho : r.records.openInPlace crypto (r.buffered.take n) with ⟨layer, storage, result⟩
  obtain ⟨hst, hpl⟩ := Tls13RecordLayer.openInPlace_spec crypto ho
  rw [hs] at hst
  have hrm : r.bufferedStart + storage.length ≤ r.socketBuffer.length := by omega
  have hsm := length_overwrite hrm
  have hi : r.bufferedStart + n ≤ r.bufferedEnd ∧
      r.bufferedEnd ≤ (overwrite r.socketBuffer r.bufferedStart storage).length ∧
      (overwrite r.socketBuffer r.bufferedStart storage).length ≤ r.capacity := by
    rw [hsm]
    exact ⟨by omega, he, hr.cap⟩
  have hrs : slice (overwrite r.socketBuffer r.bufferedStart storage) (r.bufferedStart + n) r.bufferedEnd =
      r.buffered.drop n := by
    rw [slice_overwrite_after hrm (by omega), buffered, drop_slice]
  cases result with
  | error e => exact ⟨rfl, rfl, ⟨hi.1, hi.2.1, hi.2.2⟩, hrs, rfl, rfl⟩
  | ok opened =>
    obtain ⟨hf, hsl⟩ := hpl opened rfl
    dsimp only
    rcases hp : processOpenedRecord crypto layer r.keyUpdate opened with ⟨layer', keyUpdate, outcome⟩
    match outcome with
    | .error e => exact ⟨rfl, rfl, ⟨hi.1, hi.2.1, hi.2.2⟩, hrs, rfl, rfl⟩
    | .ok (.control requested) => exact ⟨rfl, rfl, ⟨hi.1, hi.2.1, hi.2.2⟩, hrs, rfl, rfl⟩
    | .ok (.applicationData len) =>
      have hl : len = opened.plaintext.length := processOpenedRecord_applicationData crypto hp
      refine ⟨?_, rfl, ⟨hi.1, hi.2.1, hi.2.2⟩, hrs, rfl, rfl⟩
      rw [hl]
      simp only [Nat.add_assoc]
      rw [slice_overwrite_inside hrm (by omega), hsl]

theorem header_eq (hr : Inv r) (h : headerLen ≤ r.buffered.length) :
    slice r.socketBuffer r.bufferedStart (r.bufferedStart + headerLen) = r.wire.take headerLen := by
  have hl := hr.length_buffered
  have hp : 0 < headerLen := by decide
  rw [wire, take_append_of_le_length h, buffered, take_slice (by omega)]

inductive Reads (r : TlsApplicationReader S K) :
    TlsApplicationReader S K → Except TlsApplicationIoError Bytes → Prop
  | refused {r' : TlsApplicationReader S K} (hrefused : false ∈ r.heap) :
      Reads r r' (.error (.record .bufferAllocation))
  | ended {r' : TlsApplicationReader S K} (hnext : nextRecord r.wire = .incomplete) :
      Reads r r' (.error (endError r.wire r.io.ending))
  | tooLarge {r' : TlsApplicationReader S K} {header : Bytes} (hnext : nextRecord r.wire = .tooLarge header) :
      Reads r r' (.error (.read .recordTooLarge header))
  | record {r' : TlsApplicationReader S K} {record : Bytes}
      (hnext : nextRecord r.wire = .record record r'.wire) (hinv : Inv r')
      (hstate : r'.state = (r.state.process crypto record).1) (hending : r'.io.ending = r.io.ending)
      (hheap : r'.heap <:+ r.heap) : Reads r r' (r.state.process crypto record).2

theorem readApplication_spec {result : Except TlsApplicationIoError Bytes}
    (hr : Inv r) (h : r.readApplication crypto = (r', result)) : Reads crypto r r' result := by
  unfold readApplication at h
  rcases hfr : fill headerLen headerLen r with ⟨r₁, outcome⟩
  simp only [hfr] at h
  obtain ⟨rfl, hrf⟩ | ⟨rfl, hsh⟩ | ⟨rfl, hk, hhe⟩ :=
    fill_spec hr (by decide) (Nat.le_add_right _ _) hfr
  · cases h
    exact .refused hrf
  · cases h
    exact .ended (by rw [nextRecord, if_pos hsh])
  have hl : ¬r.wire.length < headerLen := by
    rw [← hk.wire, wire, length_append]
    omega
  simp only [header_eq hk.inv hhe, hk.wire, bodyLen_take (Nat.le_refl headerLen)] at h
  split_ifs at h with hb
  · cases h
    exact .tooLarge (by rw [nextRecord, if_neg hl, if_pos hb])
  have hbo : headerLen + bodyLen r.wire ≤ maxTlsRecordWireLen := by
    unfold maxTlsRecordWireLen
    omega
  rcases hsc : fill (headerLen + bodyLen r.wire) (headerLen + bodyLen r.wire) r₁ with ⟨r₂, outcome⟩
  simp only [hsc] at h
  have hsp := fill_spec hk.inv hbo (Nat.le_add_right _ _) hsc
  rw [hk.wire, hk.ending] at hsp
  obtain ⟨rfl, hrf⟩ | ⟨rfl, hsh⟩ | ⟨rfl, hk', hf⟩ := hsp
  · cases h
    exact .refused (hk.heap.mem hrf)
  · cases h
    exact .ended (by rw [nextRecord, if_neg hl, if_neg hb, if_pos hsh])
  have hk := hk.trans hk'
  obtain ⟨hrs, hs, hi, hre, hio, hh⟩ := openBuffered_spec crypto hk'.inv hf
  have hwh : ¬r.wire.length < headerLen + bodyLen r.wire := by
    rw [← hk.wire, wire, length_append, Nat.not_lt] at *
    omega
  have ht : r₂.buffered.take (headerLen + bodyLen r.wire) = r.wire.take (headerLen + bodyLen r.wire) := by
    calc r₂.buffered.take (headerLen + bodyLen r.wire) = r₂.wire.take (headerLen + bodyLen r.wire) :=
          (take_append_of_le_length hf).symm
      _ = _ := by rw [hk.wire]
  dsimp only at h
  rw [h] at hrs hs hi hre hio hh
  rw [hk.state, ht] at hrs hs
  rw [show result = _ from hrs]
  have hw : r'.wire = r.wire.drop (headerLen + bodyLen r.wire) := by
    calc r'.wire = r₂.buffered.drop (headerLen + bodyLen r.wire) ++ r₂.io.bytes :=
          congrArg₂ (· ++ Source.bytes ·) hre hio
      _ = r₂.wire.drop (headerLen + bodyLen r.wire) := (drop_append_of_le_length hf).symm
      _ = _ := by rw [hk.wire]
  refine .record ?_ hi hs (hio ▸ hk.ending) (hh ▸ hk.heap)
  rw [nextRecord, if_neg hl, if_neg hb, if_neg hwh, hw]

end TlsApplicationReader

end RustReality.Tls
