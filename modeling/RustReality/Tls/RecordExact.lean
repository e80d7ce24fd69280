import RustReality.Tls.ReaderSpec

/-!
# Record-exact reading

Before it is split, a connection reads one record at a time and never past its end: the header into
record storage, then the body the header declares. A call takes the next record off the transport and
processes it, or reports how the transport fails before one is complete (`readApplication_next`).
-/

namespace RustReality.Tls
open Net TlsApplicationReader List

/-! ### The record-exact reader -/

inductive ReadStop
  /-- The allocator refused to extend the storage. -/
  | refused
  | eof
  | failed (failure : Failure)
  deriving DecidableEq, Repr

/-- The loop of `read_exact_into`: fill `output` from `filled` to `target`; a failure cuts it to the bytes
that were read. -/
def readExactLoop : Nat → Source → Bytes → Nat → Nat → Source × Bytes × Option ReadStop
  | 0, io, output, _, _ => (io, output, none)
  | fuel + 1, io, output, filled, target =>
    if filled < target then
      match io.read (target - filled) with
      | (io, .error failure) => (io, output.take filled, some (.failed failure))
      | (io, .ok chunk) =>
        if chunk = [] then (io, output.take filled, some .eof)
        else readExactLoop fuel io (overwrite output filled chunk) (filled + chunk.length) target
    else (io, output, none)

/-- The read side of a connection that is not split. -/
structure TlsApplicationIo (S K : Type) where
  io : Source
  records : Tls13RecordLayer S K
  /-- Storage of the last record; bytes behind that record are stale. -/
  readRecord : Bytes
  capacity : Nat
  keyUpdate : Bytes
  responseObserved : Bool
  /-- The allocator's answers to growth requests, granted once they run out. -/
  heap : List Bool

namespace TlsApplicationIo

variable {S K : Type} (crypto : RecordCrypto S K)

def new (io : Source) (records : Tls13RecordLayer S K) (heap : List Bool) : TlsApplicationIo S K :=
  { io, records, readRecord := [], capacity := 0, keyUpdate := [], responseObserved := false, heap }

variable (self : TlsApplicationIo S K)

def grant : TlsApplicationIo S K × Bool :=
  match self.heap with
  | [] => (self, true)
  | granted :: heap => ({ self with heap }, granted)

def ensureRecordStorage : TlsApplicationIo S K × Except TlsApplicationIoError Unit :=
  if self.capacity = 0 then
    match self.grant with
    | (self, false) => (self, .error (.record .bufferAllocation))
    | (self, true) => ({ self with readRecord := [], capacity := maxTlsRecordWireLen }, .ok ())
  else (self, .ok ())

/-- Extend the storage to `target` bytes. -/
def resize (target : Nat) : TlsApplicationIo S K × Bool :=
  if self.readRecord.length < target then
    let (self, granted) := if target > self.capacity then self.grant else (self, true)
    if granted then
      ({ self with
        readRecord := self.readRecord ++ List.replicate (target - self.readRecord.length) 0
        capacity := max self.capacity target }, true)
    else (self, false)
  else (self, true)

def readExactInto (start target : Nat) : TlsApplicationIo S K × Option ReadStop :=
  match self.resize target with
  | (self, false) => (self, some .refused)
  | (self, true) =>
    let (io, readRecord, stop) := readExactLoop (target - start) self.io self.readRecord start target
    ({ self with io, readRecord }, stop)

/-- The error of a failed record read, with the bytes consumed for it. -/
def consumedFailure (wire : Bytes) : ReadStop → TlsApplicationIoError
  | .refused => .read .recordTooLarge wire
  | .eof => .read .unexpectedEof wire
  | .failed failure => refillFailure wire failure

def readTlsRecordInto : TlsApplicationIo S K × Except TlsApplicationIoError Nat :=
  match self.readExactInto 0 headerLen with
  | (self, some stop) => (self, .error (consumedFailure self.readRecord stop))
  | (self, none) =>
    if bodyLen self.readRecord = 0 ∨ bodyLen self.readRecord > maxCiphertextLen then
      let wire := self.readRecord.take headerLen
      ({ self with readRecord := wire }, .error (.read .recordTooLarge wire))
    else
      let recordEnd := headerLen + bodyLen self.readRecord
      match self.readExactInto headerLen recordEnd with
      | (self, some stop) => (self, .error (consumedFailure self.readRecord stop))
      | (self, none) => (self, .ok recordEnd)

def openRecord (length : Nat) : TlsApplicationIo S K × Except TlsApplicationIoError Bytes :=
  let (records, opened, result) := self.records.openInPlace crypto (self.readRecord.take length)
  let self := { self with records, readRecord := overwrite self.readRecord 0 opened }
  match result with
  | .error e => (self, .error (.record e))
  | .ok opened =>
    let (records, keyUpdate, outcome) := processOpenedRecord crypto self.records self.keyUpdate opened
    let self := { self with records, keyUpdate }
    match outcome with
    | .error e => (self, .error e)
    | .ok (.applicationData plaintextLen) =>
      (self, .ok (slice self.readRecord headerLen (headerLen + plaintextLen)))
    | .ok (.control requested) =>
      ({ self with responseObserved := self.responseObserved || requested }, .ok [])

/-- `read_application_record`: read one record and process it. -/
def readApplication : TlsApplicationIo S K × Except TlsApplicationIoError Bytes :=
  match self.ensureRecordStorage with
  | (self, .error e) => (self, .error e)
  | (self, .ok ()) =>
    match self.readTlsRecordInto with
    | (self, .error e) => (self, .error e)
    | (self, .ok length) => self.openRecord crypto length

end TlsApplicationIo

/-! ### Filling record storage -/

def ReadStop.of : Option Failure → ReadStop
  | none => .eof
  | some failure => .failed failure

theorem consumedFailure_of (wire : Bytes) (ending : Option Failure) :
    TlsApplicationIo.consumedFailure wire (.of ending) = endError wire ending := by
  cases ending <;> rfl

/-- Filling storage up to `target` takes what is missing off the stream, or everything there is. -/
inductive ReadsExact (io : Source) (output : Bytes) (filled target : Nat) : Source × Bytes × Option ReadStop → Prop
  | full {io' : Source} {output' : Bytes} (hlen : target - filled ≤ io.bytes.length)
      (hbytes : io'.bytes = io.bytes.drop (target - filled)) (hending : io'.ending = io.ending)
      (hafter : io'.after = io.after) (hsize : output'.length = output.length)
      (hfront : output'.take target = output.take filled ++ io.bytes.take (target - filled)) :
      ReadsExact io output filled target (io', output', none)
  | short (hlen : io.bytes.length < target - filled) :
      ReadsExact io output filled target (io.after, output.take filled ++ io.bytes, some (.of io.ending))

theorem take_overwrite {buffer piece : Bytes} {offset : Nat} (h : offset ≤ buffer.length) :
    (overwrite buffer offset piece).take (offset + piece.length) = buffer.take offset ++ piece := by
  rw [overwrite, take_append_of_le_length, take_of_length_le] <;>
    rw [length_append, length_take, Nat.min_eq_left h]

theorem readExactLoop_spec {fuel : Nat} {io : Source} {output : Bytes} {filled target : Nat}
    (hfuel : target - filled ≤ fuel) (hle : filled ≤ target) (hs : target ≤ output.length) :
    ReadsExact io output filled target (readExactLoop fuel io output filled target) := by
  induction fuel generalizing io output filled with
  | zero =>
    have he : filled = target := by omega
    subst he
    exact .full (by omega) (by rw [Nat.sub_self, drop_zero]) rfl rfl rfl (by simp)
  | succ fuel ih =>
    rw [readExactLoop]
    by_cases hm : filled < target
    · rw [if_pos hm]
      have hn : 0 < target - filled := Nat.sub_pos_of_lt hm
      have hrd := Source.read_spec io hn
      rcases hio : io.read (target - filled) with ⟨mid, outcome⟩
      rw [hio] at hrd
      have haf := Source.read_after hn hio
      cases hrd with
      | eof hby hen =>
        obtain ⟨chunk, hne, hok, -⟩ | ⟨-, hr⟩ := haf
        · cases hok
          exact absurd rfl hne
        have h := @ReadsExact.short io output filled target (by rw [hby]; exact hn)
        rw [hby, hen, append_nil, ← hr] at h
        exact h
      | fail hby hen =>
        obtain ⟨chunk, hne, hok, -⟩ | ⟨-, hr⟩ := haf
        · cases hok
        have h := @ReadsExact.short io output filled target (by rw [hby]; exact hn)
        rw [hby, hen, append_nil, ← hr] at h
        exact h
      | data hne hl hby hen =>
        rename_i chunk
        obtain ⟨_, -, -, haf⟩ | ⟨hnn, -⟩ := haf
        swap
        · exact absurd (hnn chunk rfl) hne
        dsimp only
        rw [if_neg hne]
        have hf : filled + chunk.length ≤ target := by omega
        have hw : (overwrite output filled chunk).length = output.length := length_overwrite (by omega)
        have hp := length_pos_of_ne_nil hne
        have ht := @ih mid (overwrite output filled chunk) (filled + chunk.length) (by omega) hf
          (by rw [hw]; exact hs)
        have hby' : io.bytes = chunk ++ mid.bytes := hby
        have hfr := @take_overwrite output chunk filled (by omega)
        have hsb : target - (filled + chunk.length) = target - filled - chunk.length := by omega
        generalize readExactLoop fuel mid (overwrite output filled chunk) (filled + chunk.length) target = result
          at ht ⊢
        cases ht with
        | full hl' hr hsm haf' hs' hfr' =>
          rw [hsb] at hl' hr hfr'
          refine .full ?_ ?_ (hsm.trans hen) (haf'.trans haf) (hs'.trans hw) ?_
          · rw [hby', length_append]
            omega
          · rw [hr, hby', drop_append, drop_eq_nil_of_le hl, nil_append]
          · rw [hfr', hfr, hby', take_append, take_of_length_le hl, append_assoc]
        | short hl' =>
          have h := @ReadsExact.short io output filled target (by rw [hby', length_append]; omega)
          rw [hby', ← append_assoc, ← hfr, ← hen, ← haf] at h
          exact h
    · rw [if_neg hm]
      have he : filled = target := by omega
      subst he
      exact .full (by omega) (by rw [Nat.sub_self, drop_zero]) rfl rfl rfl (by simp)

namespace TlsApplicationIo

variable {S K : Type} (crypto : RecordCrypto S K)

def state (e : TlsApplicationIo S K) : RecordState S K := ⟨e.records, e.keyUpdate, e.responseObserved⟩

/-- The storage is inside its capacity, which has room for every record once there is any; the allocator grants
every request. -/
structure Ready (e : TlsApplicationIo S K) : Prop where
  len_le : e.readRecord.length ≤ e.capacity
  cap : e.capacity = 0 ∨ maxTlsRecordWireLen ≤ e.capacity
  heap : e.heap = []

structure Idle (e e' : TlsApplicationIo S K) : Prop where
  ready : Ready e'
  state : e'.state = e.state
  capacity : e'.capacity = e.capacity

variable {e e' : TlsApplicationIo S K}

theorem ensureRecordStorage_spec {result : Except TlsApplicationIoError Unit}
    (he : Ready e) (h : e.ensureRecordStorage = (e', result)) :
    result = .ok () ∧ Ready e' ∧ maxTlsRecordWireLen ≤ e'.capacity ∧ e'.io = e.io ∧ e'.state = e.state := by
  unfold ensureRecordStorage grant at h
  rw [he.heap] at h
  split_ifs at h with hc
  · cases h
    exact ⟨rfl, ⟨Nat.zero_le _, .inr (Nat.le_refl _), he.heap⟩, Nat.le_refl _, rfl, rfl⟩
  · cases h
    exact ⟨rfl, he, he.cap.resolve_left hc, rfl, rfl⟩

/-- Inside the capacity the storage is extended without the allocator, and its bytes stay in front. -/
theorem resize_spec {e : TlsApplicationIo S K} {target : Nat} (he : Ready e) (ht : target ≤ e.capacity) :
    ∃ more, e.resize target = ({ e with readRecord := e.readRecord ++ more }, true) ∧
      target ≤ (e.readRecord ++ more).length ∧ (e.readRecord ++ more).length ≤ e.capacity := by
  have hl := he.len_le
  unfold resize
  by_cases hs : e.readRecord.length < target
  · refine ⟨List.replicate (target - e.readRecord.length) 0, ?_, ?_, ?_⟩
    · rw [if_pos hs, if_neg (Nat.not_lt_of_le ht)]
      simp only [if_true, Nat.max_eq_left ht]
    · rw [length_append, length_replicate]
      omega
    · rw [length_append, length_replicate]
      omega
  · refine ⟨[], ?_, ?_, ?_⟩
    · rw [if_neg hs, append_nil]
    · rw [append_nil]
      omega
    · rw [append_nil]
      exact hl

theorem readExactInto_spec {start target : Nat} {stop : Option ReadStop} (he : Ready e)
    (hstart : start ≤ e.readRecord.length) (hle : start ≤ target) (htarget : target ≤ e.capacity)
    (h : e.readExactInto start target = (e', stop)) :
    Idle e e' ∧
      ((target - start ≤ e.io.bytes.length ∧ stop = none ∧ e'.io.bytes = e.io.bytes.drop (target - start) ∧
          e'.io.ending = e.io.ending ∧ e'.io.after = e.io.after ∧ target ≤ e'.readRecord.length ∧
          e'.readRecord.take target = e.readRecord.take start ++ e.io.bytes.take (target - start)) ∨
        (e.io.bytes.length < target - start ∧ stop = some (.of e.io.ending) ∧ e'.io = e.io.after ∧
          e'.readRecord = e.readRecord.take start ++ e.io.bytes)) := by
  obtain ⟨more, hrs, hr, hc⟩ := resize_spec he htarget
  unfold readExactInto at h
  rw [hrs] at h
  dsimp only at h
  have hsp := @readExactLoop_spec (target - start) e.io (e.readRecord ++ more) start target (Nat.le_refl _) hle hr
  have hf : (e.readRecord ++ more).take start = e.readRecord.take start := take_append_of_le_length hstart
  generalize readExactLoop (target - start) e.io (e.readRecord ++ more) start target = result at hsp h
  cases hsp with
  | full hl hb hen ha hs ht =>
    cases h
    rw [hf] at ht
    exact ⟨⟨⟨by rw [hs]; exact hc, he.cap, he.heap⟩, rfl, rfl⟩,
      .inl ⟨hl, rfl, hb, hen, ha, by rw [hs]; exact hr, ht⟩⟩
  | short hl =>
    cases h
    have hs : (e.readRecord.take start ++ e.io.bytes).length ≤ e.capacity := by
      rw [length_append, length_take]
      omega
    rw [hf]
    exact ⟨⟨⟨hs, he.cap, he.heap⟩, rfl, rfl⟩, .inr ⟨hl, rfl, rfl, rfl⟩⟩

inductive ReadsRecord (e : TlsApplicationIo S K) : TlsApplicationIo S K → Except TlsApplicationIoError Nat → Prop
  | ended {e' : TlsApplicationIo S K} (hnext : nextRecord e.io.bytes = .incomplete) (hidle : Idle e e')
      (hio : e'.io = e.io.after) :
      ReadsRecord e e' (.error (endError e.io.bytes e.io.ending))
  | tooLarge {e' : TlsApplicationIo S K} {header : Bytes} (hnext : nextRecord e.io.bytes = .tooLarge header) :
      ReadsRecord e e' (.error (.read .recordTooLarge header))
  | record {e' : TlsApplicationIo S K} {record : Bytes} (hnext : nextRecord e.io.bytes = .record record e'.io.bytes)
      (hidle : Idle e e') (hending : e'.io.ending = e.io.ending) (hafter : e'.io.after = e.io.after)
      (hsize : record.length ≤ e'.readRecord.length) (hfront : e'.readRecord.take record.length = record) :
      ReadsRecord e e' (.ok record.length)

theorem readTlsRecordInto_spec {result : Except TlsApplicationIoError Nat} (he : Ready e)
    (hc : maxTlsRecordWireLen ≤ e.capacity) (h : e.readTlsRecordInto = (e', result)) : ReadsRecord e e' result := by
  unfold readTlsRecordInto at h
  rcases hf : e.readExactInto 0 headerLen with ⟨e₁, stop⟩
  simp only [hf] at h
  have hh : headerLen ≤ e.capacity := Nat.le_trans (by decide) hc
  obtain ⟨hi, ⟨hl, rfl, hby, hen, ha, hr, hfr⟩ | ⟨hs, rfl, hio, hw⟩⟩ :=
    readExactInto_spec he (Nat.zero_le _) (Nat.zero_le _) hh hf
  swap
  · cases h
    rw [Nat.sub_zero] at hs
    rw [hw, take_zero, nil_append, consumedFailure_of]
    exact .ended (by rw [nextRecord, if_pos hs]) hi hio
  rw [take_zero, nil_append, Nat.sub_zero] at hfr
  rw [Nat.sub_zero] at hl hby
  have hbd : bodyLen e₁.readRecord = bodyLen e.io.bytes := by
    rw [← bodyLen_take (Nat.le_refl headerLen), hfr, bodyLen_take (Nat.le_refl headerLen)]
  simp only [hbd] at h
  by_cases hb : bodyLen e.io.bytes = 0 ∨ bodyLen e.io.bytes > maxCiphertextLen
  · rw [if_pos hb] at h
    cases h
    rw [hfr]
    exact .tooLarge (by rw [nextRecord, if_neg (Nat.not_lt_of_le hl), if_pos hb])
  rw [if_neg hb] at h
  have hft : headerLen + bodyLen e.io.bytes ≤ e₁.capacity := by
    have hm : headerLen + bodyLen e.io.bytes ≤ maxTlsRecordWireLen := by
      unfold maxTlsRecordWireLen
      omega
    rw [hi.capacity]
    exact Nat.le_trans hm hc
  rcases hsc : e₁.readExactInto headerLen (headerLen + bodyLen e.io.bytes) with ⟨e₂, stop⟩
  simp only [hsc] at h
  have hsp := readExactInto_spec hi.ready hr (Nat.le_add_right _ _) hft hsc
  rw [Nat.add_sub_cancel_left, hby, hfr, hen, ha, length_drop] at hsp
  obtain ⟨hi', ⟨hal, rfl, hrs, hen', ha', hr', hfr'⟩ | ⟨hs, rfl, hio, hw⟩⟩ := hsp
  · cases h
    have hwh : ¬e.io.bytes.length < headerLen + bodyLen e.io.bytes := by omega
    have hrc : e'.readRecord.take (headerLen + bodyLen e.io.bytes) =
        e.io.bytes.take (headerLen + bodyLen e.io.bytes) := by
      rw [hfr', ← take_add]
    have hln : (e.io.bytes.take (headerLen + bodyLen e.io.bytes)).length = headerLen + bodyLen e.io.bytes := by
      rw [length_take]
      omega
    have hn : nextRecord e.io.bytes = .record (e.io.bytes.take (headerLen + bodyLen e.io.bytes)) e'.io.bytes := by
      rw [nextRecord, if_neg (Nat.not_lt_of_le hl), if_neg hb, if_neg hwh, hrs, drop_drop]
    have hd := ReadsRecord.record hn
      ⟨hi'.ready, hi'.state.trans hi.state, hi'.capacity.trans hi.capacity⟩ hen' ha'
      (by rw [hln]; exact hr') (by rw [hln]; exact hrc)
    rw [hln] at hd
    exact hd
  · cases h
    have hn : nextRecord e.io.bytes = .incomplete := by
      rw [nextRecord, if_neg (Nat.not_lt_of_le hl), if_neg hb, if_pos (by omega)]
    rw [hw, take_append_drop, consumedFailure_of]
    exact .ended hn ⟨hi'.ready, hi'.state.trans hi.state, hi'.capacity.trans hi.capacity⟩ hio

theorem openRecord_spec {e : TlsApplicationIo S K} (he : Ready e) {n : Nat} (hn : n ≤ e.readRecord.length) :
    let step := e.openRecord crypto n
    let spec := e.state.process crypto (e.readRecord.take n)
    step.2 = spec.2 ∧ step.1.state = spec.1 ∧ Ready step.1 ∧ step.1.io = e.io := by
  have hs : (e.readRecord.take n).length = n := by
    rw [length_take, Nat.min_eq_left hn]
  simp only [openRecord, RecordState.process, state]
  rcases ho : e.records.openInPlace crypto (e.readRecord.take n) with ⟨layer, storage, result⟩
  obtain ⟨hst, hpl⟩ := Tls13RecordLayer.openInPlace_spec crypto ho
  rw [hs] at hst
  have hrm : 0 + storage.length ≤ e.readRecord.length := by omega
  have hr : (overwrite e.readRecord 0 storage).length ≤ e.capacity := by
    rw [length_overwrite hrm]
    exact he.len_le
  cases result with
  | error error => exact ⟨rfl, rfl, ⟨hr, he.cap, he.heap⟩, rfl⟩
  | ok opened =>
    obtain ⟨hf, hsl⟩ := hpl opened rfl
    dsimp only
    rcases hp : processOpenedRecord crypto layer e.keyUpdate opened with ⟨layer', keyUpdate, outcome⟩
    rcases outcome with error | ⟨len⟩ | ⟨requested⟩
    · exact ⟨rfl, rfl, ⟨hr, he.cap, he.heap⟩, rfl⟩
    · have hl : len = opened.plaintext.length := processOpenedRecord_applicationData crypto hp
      refine ⟨?_, rfl, ⟨hr, he.cap, he.heap⟩, rfl⟩
      have hi := @slice_overwrite_inside e.readRecord storage 0 headerLen (headerLen + len) hrm (by omega)
      rw [Nat.zero_add, Nat.zero_add] at hi
      exact congrArg Except.ok (by rw [hi, hl, hsl])
    · exact ⟨rfl, rfl, ⟨hr, he.cap, he.heap⟩, rfl⟩

inductive ReadsNext (e : TlsApplicationIo S K) : TlsApplicationIo S K → Except TlsApplicationIoError Bytes → Prop
  | ended {e' : TlsApplicationIo S K} (hnext : nextRecord e.io.bytes = .incomplete) (hready : Ready e')
      (hstate : e'.state = e.state) (hio : e'.io = e.io.after) :
      ReadsNext e e' (.error (endError e.io.bytes e.io.ending))
  | tooLarge {e' : TlsApplicationIo S K} {header : Bytes} (hnext : nextRecord e.io.bytes = .tooLarge header) :
      ReadsNext e e' (.error (.read .recordTooLarge header))
  | record {e' : TlsApplicationIo S K} {record : Bytes} (hnext : nextRecord e.io.bytes = .record record e'.io.bytes)
      (hready : Ready e') (hstate : e'.state = (e.state.process crypto record).1)
      (hending : e'.io.ending = e.io.ending) (hafter : e'.io.after = e.io.after) :
      ReadsNext e e' (e.state.process crypto record).2

theorem readApplication_next {result : Except TlsApplicationIoError Bytes} (he : Ready e)
    (h : e.readApplication crypto = (e', result)) : ReadsNext crypto e e' result := by
  unfold readApplication at h
  rcases hs : e.ensureRecordStorage with ⟨e₁, outcome⟩
  simp only [hs] at h
  obtain ⟨rfl, hr, hc, hio, hst⟩ := ensureRecordStorage_spec he hs
  rcases hrd : e₁.readTlsRecordInto with ⟨e₂, outcome⟩
  simp only [hrd] at h
  have hsp := readTlsRecordInto_spec hr hc hrd
  cases hsp with
  | ended hn hi hrs =>
    cases h
    rw [hio] at hn hrs ⊢
    exact .ended hn hi.ready (hi.state.trans hst) hrs
  | tooLarge hn =>
    cases h
    rw [hio] at hn
    exact .tooLarge hn
  | record hn hi hen ha hsz hf =>
    rename_i record
    obtain ⟨hre, hp, hr', hio'⟩ := openRecord_spec crypto hi.ready hsz
    dsimp only at h hre
    rw [h] at hre hp hr' hio'
    rw [hf, hi.state, hst] at hre hp
    have hre' : result = _ := hre
    rw [hre']
    rw [hio, ← hio'] at hn
    exact .record hn hr' hp (by rw [hio', hen, hio]) (by rw [hio', ha, hio])

end TlsApplicationIo

end RustReality.Tls
