import RustReality.Lib.Mealy
import RustReality.Tls.Export
import RustReality.Tls.WriteHistory

/-!
# Histories of a writing direction

Calls of any write path follow one another on one writer, with KeyUpdates that the reader's side asks for
in between and interruptions anywhere. The records sealed over such a history use no pair of generation
and sequence number twice, and a peer that starts from the same secret opens what arrives to what was
written.
-/

namespace RustReality.Tls
open Net Tls13RecordLayer RecordCrypto List

variable {S K : Type} (crypto : RecordCrypto S K)

/-! ### The peer -/

def SealUse.opened (use : SealUse) : Tls13RecordLayer.OpenedRecord := ⟨use.contentType, use.plaintext⟩

/-- A record layer that opens a wire record by record and follows the key updates on it. -/
def peerOpen : Nat → Tls13RecordLayer S K → Bytes → List Tls13RecordLayer.OpenedRecord
  | 0, _, _ => []
  | fuel + 1, layer, wire =>
    match nextRecord wire with
    | .record record rest =>
      match layer.openInPlace crypto record with
      | (_, _, .error _) => []
      | (next, _, .ok opened) =>
        if opened = ⟨.handshake, keyUpdateResponse⟩ then
          match next.updateTrafficSecret crypto with
          | .error _ => [opened]
          | .ok updated => opened :: peerOpen fuel updated rest
        else opened :: peerOpen fuel next rest
    | _ => []

variable {crypto}

theorem peerOpen_front {layer next : Tls13RecordLayer S K} {type : ContentType} {plaintext record wire sent : Bytes} {fuel : Nat}
    (hseal : layer.sealRecord crypto type plaintext = .ok (next, record)) (hs : sent <+: record ++ wire)
    (hfuel : sent.length < fuel) :
    (∃ tail fuel', sent = record ++ tail ∧ tail <+: wire ∧ fuel = fuel' + 1 ∧ tail.length < fuel' ∧
        peerOpen crypto fuel layer sent =
          if (⟨type, plaintext⟩ : Tls13RecordLayer.OpenedRecord) = ⟨.handshake, keyUpdateResponse⟩ then
            match next.updateTrafficSecret crypto with
            | .error _ => [⟨type, plaintext⟩]
            | .ok updated => ⟨type, plaintext⟩ :: peerOpen crypto fuel' updated tail
          else ⟨type, plaintext⟩ :: peerOpen crypto fuel' next tail) ∨
      ¬record <+: sent ∧ peerOpen crypto fuel layer sent = [] := by
  obtain ⟨hw, storage, ho⟩ := openInPlace_sealRecord hseal
  obtain ⟨fuel, rfl⟩ : ∃ n, fuel = n + 1 := ⟨fuel - 1, by omega⟩
  by_cases hf : record <+: sent
  · obtain ⟨tail, rfl⟩ := hf
    have hp := hw.length_pos
    rw [length_append] at hfuel
    refine .inl ⟨tail, fuel, rfl, (prefix_append_right_inj record).mp hs, rfl, by omega, ?_⟩
    rw [peerOpen, hw.nextRecord]
    simp only [ho]
  · have hi : sent <+: record := (List.prefix_or_prefix_of_prefix hs (prefix_append _ _)).resolve_right hf
    have hne : sent ≠ record := fun heq => hf (heq ▸ prefix_refl _)
    refine .inr ⟨hf, ?_⟩
    rw [peerOpen, hw.nextRecord_cut hi hne]

variable {layer : Tls13RecordLayer S K}

/-- The peer opens the records that arrived whole, and all of them when everything arrived. -/
theorem Sealing.opened {g : Nat} {log : List SealUse}
    {final : Option (Nat × Tls13RecordLayer S K)} (h : Sealing crypto g layer log final) {sent : Bytes}
    (hsent : sent <+: sealedWire log) {fuel : Nat} (hf : sent.length < fuel) :
    ∃ got, got <+: log ∧ peerOpen crypto fuel layer sent = got.map (·.opened) ∧ (sent = sealedWire log → got = log) := by
  induction h generalizing sent fuel with
  | stop g layer =>
    obtain rfl := prefix_nil.mp hsent
    refine ⟨[], prefix_refl _, ?_, fun _ => rfl⟩
    cases fuel <;> rfl
  | @torn g layer next record hs =>
    obtain ⟨tail, fuel', rfl, ht, rfl, -, ho⟩ | ⟨hc, ho⟩ := peerOpen_front hs hsent hf
    · refine ⟨_, prefix_refl _, ?_, fun _ => rfl⟩
      obtain rfl := prefix_nil.mp ht
      rw [ho, if_pos rfl]
      cases next.updateTrafficSecret crypto with
      | error e => rfl
      | ok updated => cases fuel' <;> rfl
    · exact ⟨[], nil_prefix, ho, fun heq => absurd (heq ▸ prefix_append _ _) hc⟩
  | @content g layer next type plaintext record log final hfr hty hs hrs ih =>
    obtain ⟨tail, fuel', rfl, ht, rfl, hl, ho⟩ | ⟨hc, ho⟩ := peerOpen_front hs hsent hf
    · obtain ⟨got, hg, hr, ha⟩ := ih ht hl
      refine ⟨_ :: got, cons_prefix_cons.mpr ⟨rfl, hg⟩, ?_, fun heq => ?_⟩
      · rw [ho, if_neg (by simp [hty]), hr]
        rfl
      · rw [ha (append_cancel_left heq)]
    · exact ⟨[], nil_prefix, ho, fun heq => absurd (heq ▸ prefix_append _ _) hc⟩
  | @keyUpdate g layer next updated record log final hs hu hrs ih =>
    obtain ⟨tail, fuel', rfl, ht, rfl, hl, ho⟩ | ⟨hc, ho⟩ := peerOpen_front hs hsent hf
    · obtain ⟨got, hg, hr, ha⟩ := ih ht hl
      refine ⟨_ :: got, cons_prefix_cons.mpr ⟨rfl, hg⟩, ?_, fun heq => ?_⟩
      · rw [ho, if_pos rfl, hu]
        dsimp only
        rw [hr]
        rfl
      · rw [ha (append_cancel_left heq)]
    · exact ⟨[], nil_prefix, ho, fun heq => absurd (heq ▸ prefix_append _ _) hc⟩

/-! ### Calls -/

/-- A reader with the outcome of its next read; a read gets what fits its buffers. -/
def oneRead : VectoredRead (Except Failure Bytes) where
  read outcome size := (outcome, outcome.map (·.take size))
  readVectored outcome sizes := (outcome, outcome.map (·.take sizes.sum))

/-- A call on the writer; `read` is the outcome of the read that a relaying call makes. -/
inductive WriteCall
  | application (plaintext : Bytes)
  | assembled (plaintext : Bytes)
  | readFrom (read : Except Failure Bytes)
  | readFromBatched (read : Except Failure Bytes)
  | filledStorage (storageLen : Nat) (plaintext : Bytes)
  | takeStorage
  | shutdown

namespace TlsApplicationWriter

variable (w : TlsApplicationWriter S K)

def plaintextOf : WriteCall → Bytes
  | .application plaintext => plaintext
  | .assembled plaintext => plaintext
  | .readFrom read => delivered (oneRead.read read maxPlaintextLen).2
  | .readFromBatched read => batchedRead oneRead w read
  | .filledStorage _ plaintext => plaintext
  | .takeStorage => []
  | .shutdown => []

variable (crypto) in
def call : WriteCall → TlsApplicationWriter S K × Except TlsApplicationIoError Unit
  | .application plaintext =>
    let (w, result) := w.writeApplication crypto plaintext
    (w, result.map fun _ => ())
  | .assembled plaintext => w.writeAssembled crypto plaintext
  | .readFrom read =>
    let (w, _, result) := w.writeApplicationReadFrom crypto oneRead read
    (w, result.map fun _ => ())
  | .readFromBatched read =>
    let (w, _, result) := w.writeApplicationReadFromBatched crypto oneRead read
    (w, result.map fun _ => ())
  | .filledStorage storageLen plaintext => w.writeFilledStorage crypto storageLen plaintext
  | .takeStorage => (w.takeWriteStorage, .ok ())
  | .shutdown => w.shutdown crypto

theorem Leaves.map {α β : Type} {w w' : TlsApplicationWriter S K} {data : Bytes}
    {result : Except TlsApplicationIoError α} (f : α → β) (h : Leaves crypto w data w' result) :
    Leaves crypto w data w' (result.map f) := by
  cases h with
  | done hse hwr hd => exact .done hse hwr hd
  | kept hse hwr hd => exact .kept hse hwr hd
  | torn hn hse hs hwr hd hf => exact .torn hn hse hs hwr hd hf

theorem length_delivered_oneRead (read : Except Failure Bytes) :
    (delivered (oneRead.readVectored read (List.replicate batchedSlotCount maxPlaintextLen)).2).length ≤
      batchedSlotCount * maxPlaintextLen := by
  cases read with
  | error failure => exact Nat.zero_le _
  | ok bytes =>
    show (bytes.take (List.replicate batchedSlotCount maxPlaintextLen).sum).length ≤ _
    exact length_take_le _ _

theorem call_leaves (w : TlsApplicationWriter S K) (c : WriteCall) :
    Leaves crypto w (w.plaintextOf c) (w.call crypto c).1 (w.call crypto c).2 := by
  cases c with
  | application plaintext => exact (writeApplication_leaves (Prod.eta _).symm).map _
  | assembled plaintext => exact writeAssembled_leaves (Prod.eta _).symm
  | readFrom read =>
    have hc : w.writeApplicationReadFrom crypto oneRead read = (_, _, _) := rfl
    exact (writeApplicationReadFrom_leaves hc).map _
  | readFromBatched read =>
    have hc : w.writeApplicationReadFromBatched crypto oneRead read = (_, _, _) := rfl
    exact (writeApplicationReadFromBatched_leaves (length_delivered_oneRead read) hc).map _
  | filledStorage storageLen plaintext => exact writeFilledStorage_leaves (Prod.eta _).symm
  | takeStorage => exact .skipped ⟨rfl, rfl, rfl, rfl⟩
  | shutdown => exact shutdown_leaves (Prod.eta _).symm

theorem call_failed {w : TlsApplicationWriter S K} (hf : w.records.writeFailed = true) (c : WriteCall) :
    Same w (w.call crypto c).1 ∧ (c ≠ .takeStorage → ∃ e, (w.call crypto c).2 = .error e) := by
  have hr := ensureWriteReady_failed hf
  have hu : w.writeKeyUpdateIfNeeded crypto = _ := writeKeyUpdateIfNeeded_failed hf
  cases c with
  | application plaintext => simp [call, writeApplication, hr, Except.map, Same.rfl]
  | assembled plaintext => simp [call, writeAssembled, hu, Same.rfl]
  | readFrom read => simp [call, writeApplicationReadFrom, hr, Except.map, Same.rfl]
  | readFromBatched read => simp [call, writeApplicationReadFromBatched, hr, Except.map, Same.rfl]
  | filledStorage storageLen plaintext =>
    simp only [call, writeFilledStorage, hr]
    split <;> simp [Same.rfl]
  | takeStorage => exact ⟨⟨rfl, rfl, rfl, rfl⟩, fun hne => absurd rfl hne⟩
  | shutdown => simp [call, TlsApplicationWriter.shutdown, hu, Same.rfl]

/-! ### Histories -/

abbrev CallRecord := Bytes × Except TlsApplicationIoError Unit

variable (crypto) in
def callStep (c : WriteCall) : TlsApplicationWriter S K × CallRecord :=
  ((w.call crypto c).1, (w.plaintextOf c, (w.call crypto c).2))

variable (crypto) in
def runCalls (calls : List WriteCall) : TlsApplicationWriter S K × List CallRecord :=
  Mealy.run (callStep crypto) w calls

/-- The part of a call's plaintext that was sealed: all of it when the call succeeded. -/
def SealedPart (record : CallRecord) (part : Bytes) : Prop := part <+: record.1 ∧ (record.2 = .ok () → part = record.1)

variable (crypto) in
/-- The records sealed by the calls made so far. What is on the wire is the front of them, and all of them
unless the direction has failed. -/
structure Wrought (start : TlsApplicationWriter S K) (w : TlsApplicationWriter S K) (records : List CallRecord) (log : List SealUse)
    (parts : List Bytes) (final : Option (Nat × Tls13RecordLayer S K)) (sent : Bytes) : Prop where
  noted : w.log = start.log ++ log
  sealing : Sealing crypto start.generation start.records log final
  covers : List.Forall₂ SealedPart records parts
  data : sealedData log = parts.flatten
  written : w.io.written = start.io.written ++ sent
  front : sent <+: sealedWire log
  usable : w.records.writeFailed = false → sent = sealedWire log ∧ final = some (w.generation, w.records)

variable {start w : TlsApplicationWriter S K} {records : List CallRecord} {log : List SealUse} {parts : List Bytes}
  {final : Option (Nat × Tls13RecordLayer S K)} {sent : Bytes}

theorem SealedPart.concat {record : CallRecord} {part : Bytes} (h : List.Forall₂ SealedPart records parts)
    (hp : SealedPart record part) : List.Forall₂ SealedPart (records ++ [record]) (parts ++ [part]) :=
  rel_append h (.cons hp .nil)

theorem Wrought.extend {w' : TlsApplicationWriter S K} {record : CallRecord} {more : List SealUse}
    {final' : Option (Nat × Tls13RecordLayer S K)} {sent' : Bytes}
    (h : Wrought crypto start w records log parts (some (w.generation, w.records)) (sealedWire log))
    (hnoted : w'.log = w.log ++ more) (hs : Sealing crypto w.generation w.records more final')
    (hp : SealedPart record (sealedData more)) (hw : w'.io.written = w.io.written ++ sent') (hf : sent' <+: sealedWire more)
    (hu : w'.records.writeFailed = false → sent' = sealedWire more ∧ final' = some (w'.generation, w'.records)) :
    Wrought crypto start w' (records ++ [record]) (log ++ more) (parts ++ [sealedData more]) final' (sealedWire log ++ sent') where
  noted := by rw [hnoted, h.noted, append_assoc]
  sealing := h.sealing.append hs
  covers := SealedPart.concat h.covers hp
  data := by simp [h.data]
  written := by rw [hw, h.written, append_assoc]
  front := by
    rw [sealedWire_append]
    exact (prefix_append_right_inj _).mpr hf
  usable ho := ⟨by rw [sealedWire_append, (hu ho).1], (hu ho).2⟩

theorem Wrought.step (h : Wrought crypto start w records log parts final sent) (c : WriteCall) :
    ∃ log' parts' final' sent',
      Wrought crypto start (w.call crypto c).1 (records ++ [(w.plaintextOf c, (w.call crypto c).2)]) log' parts' final' sent' := by
  cases ho : w.records.writeFailed with
  | true =>
    obtain ⟨hsame, her⟩ : Same w (w.call crypto c).1 ∧ _ := call_failed ho c
    refine ⟨log, parts ++ [[]], final, sent, hsame.log.trans h.noted, h.sealing,
      SealedPart.concat h.covers ⟨List.nil_prefix, fun hok => ?_⟩,
      by rw [h.data]; simp, by rw [hsame.io]; exact h.written, h.front, fun hfa => ?_⟩
    · by_cases hs : c = .takeStorage
      · rw [hs]
        rfl
      · obtain ⟨e, he⟩ := her hs
        rw [he] at hok
        cases hok
    · rw [hsame.records, ho] at hfa
      cases hfa
  | false =>
    obtain ⟨rfl, rfl⟩ := h.usable ho
    have hl : Leaves crypto w _ _ _ := call_leaves w c
    generalize w.call crypto c = outcome at hl ⊢
    obtain ⟨w', result⟩ := outcome
    cases hl with
    | done hse hwr hd =>
      exact ⟨_, _, _, _, h.extend hse.noted hse.sealing ⟨hd ▸ prefix_refl _, fun _ => hd⟩ hwr (prefix_refl _)
        fun _ => ⟨rfl, rfl⟩⟩
    | kept hse hwr hd =>
      exact ⟨_, _, _, _, h.extend hse.noted hse.sealing ⟨hd, fun hok => by cases hok⟩ hwr (prefix_refl _)
        fun _ => ⟨rfl, rfl⟩⟩
    | torn hn hse hsn hwr hd hf =>
      refine ⟨_, _, _, _, h.extend hn hse ⟨hd, fun hok => by cases hok⟩ hwr hsn fun hfa => ?_⟩
      rw [hf] at hfa
      cases hfa

variable (crypto) in
def Recorded (start w : TlsApplicationWriter S K) (trace : List (WriteCall × CallRecord)) : Prop :=
  ∃ log parts final sent, Wrought crypto start w (trace.map Prod.snd) log parts final sent

theorem recorded_run (start : TlsApplicationWriter S K) (calls : List WriteCall) :
    ∃ log parts final sent,
      Wrought crypto start (start.runCalls crypto calls).1 (start.runCalls crypto calls).2 log parts final sent := by
  have hst : Recorded crypto start start [] :=
    ⟨[], [], _, [], (append_nil _).symm, .stop _ start.records, .nil, rfl, (append_nil _).symm, prefix_refl _,
      fun _ => ⟨rfl, rfl⟩⟩
  have hs : ∀ w trace c, Recorded crypto start w trace →
      Recorded crypto start (callStep crypto w c).1 (trace ++ [(c, (callStep crypto w c).2)]) := by
    rintro w trace c ⟨log, parts, final, sent, h⟩
    rw [Recorded, map_append]
    exact h.step c
  have hr := Mealy.run_trace_invariant hs hst calls
  rw [Recorded, nil_append, map_snd_zip (Nat.le_of_eq (Mealy.length_outputs _ _))] at hr
  exact hr

theorem runCalls_failed (hf : w.records.writeFailed = true) (calls : List WriteCall) :
    Same w (w.runCalls crypto calls).1 := by
  have hs : ∀ (now : TlsApplicationWriter S K) c, Same w now → Same w (callStep crypto now c).1 := by
    intro now c h
    obtain ⟨h', -⟩ : Same now (now.call crypto c).1 ∧ _ := call_failed (h.records ▸ hf) c
    exact ⟨h'.io.trans h.io, h'.records.trans h.records, h'.generation.trans h.generation, h'.log.trans h.log⟩
  exact Mealy.run_invariant hs .rfl calls

end TlsApplicationWriter

def openedData (opened : List Tls13RecordLayer.OpenedRecord) : Bytes :=
  opened.flatMap fun record => if record.contentType = .applicationData then record.plaintext else []

theorem openedData_opened (log : List SealUse) : openedData (log.map (·.opened)) = sealedData log := by
  rw [openedData, flatMap_map]
  rfl

open TlsApplicationWriter

variable (crypto) in
/-- A history of calls on a writer that starts as `start` and has become `w`: the records sealed are `log`, the
calls have sealed `parts` of their plaintexts, and `sent` went out. -/
structure WriteHistory (start w : TlsApplicationWriter S K) (records : List CallRecord) (log : List SealUse)
    (parts : List Bytes) (sent : Bytes) : Prop where
  noted : w.log = start.log ++ log
  sealing : ∃ final, Sealing crypto start.generation start.records log final
  /-- No pair of generation and sequence number seals two records. -/
  distinct : log.Pairwise fun use use' => (use.generation, use.sequence) ≠ (use'.generation, use'.sequence)
  below : ∀ use ∈ log, use.sequence < start.records.keyUsageLimit
  /-- A direction that can be used is where its seals lead. -/
  usable : w.records.writeFailed = false → w.records.sequence < w.records.keyUsageLimit ∧
    Sealing crypto start.generation start.records log (some (w.generation, w.records))
  /-- Between generations stands a KeyUpdate. -/
  generations : log.IsChain NextUse
  covers : List.Forall₂ SealedPart records parts
  written : w.io.written = start.io.written ++ sent
  front : sent <+: sealedWire log
  /-- A peer that starts from the same state opens the records that arrived whole. -/
  opened : ∀ fuel, sent.length < fuel → ∃ got, got <+: log ∧ peerOpen crypto fuel start.records sent = got.map (·.opened) ∧
    openedData (peerOpen crypto fuel start.records sent) <+: parts.flatten ∧
    (w.records.writeFailed = false → openedData (peerOpen crypto fuel start.records sent) = parts.flatten)
  /-- A direction with records that did not go out is interrupted for good. -/
  interrupted : sent ≠ sealedWire log → w.records.writeFailed = true
  silent : w.records.writeFailed = true → ∀ calls, Same w (w.runCalls crypto calls).1 ∧
    (w.runCalls crypto calls).1.records.intoExportedState = .error .writeFailed ∧
    ∀ c, c ≠ .takeStorage → ∃ e, ((w.runCalls crypto calls).1.call crypto c).2 = .error e

/-- A layer that was built from a secret has not failed, and a record of its key is left. -/
theorem usable_of_fromExportedState {state : ExportedRecordState S}
    (h : fromExportedState crypto state = .ok layer) :
    layer.writeFailed = false ∧ layer.sequence < layer.keyUsageLimit := by
  unfold fromExportedState at h
  split at h
  · cases h
  · dsimp only at h
    split at h
    · cases h
    · next hk =>
      cases h
      unfold ensureKeyAvailable ensureWriteReady at hk
      split at hk
      · cases hk
      · next ho =>
        refine ⟨Bool.not_eq_true _ ▸ ho, ?_⟩
        by_contra hl
        rw [if_neg hl] at hk
        cases hk

theorem intoExportedState_failed (h : layer.writeFailed = true) :
    layer.intoExportedState = .error .writeFailed := by
  rw [intoExportedState, ensureWriteReady, if_pos h]

theorem tls_write_history {state : ExportedRecordState S} {start : TlsApplicationWriter S K}
    (hstart : fromExportedState crypto state = .ok start.records) (calls : List WriteCall) :
    ∃ log parts sent, WriteHistory crypto start (start.runCalls crypto calls).1 (start.runCalls crypto calls).2 log parts sent := by
  obtain ⟨log, parts, final, sent, h⟩ : ∃ log parts final sent, Wrought crypto start (start.runCalls crypto calls).1 _ log parts
    final sent := recorded_run start calls
  generalize start.runCalls crypto calls = result at h ⊢
  obtain ⟨w, records⟩ := result
  obtain ⟨hop, hk⟩ := usable_of_fromExportedState hstart
  obtain ⟨hb, hfn⟩ := h.sealing.within hop hk
  refine ⟨log, parts, sent, h.noted, ⟨final, h.sealing⟩, h.sealing.distinct, hb, fun hus => ?_, h.sealing.chain, h.covers,
    h.written, h.front, fun fuel hfl => ?_, fun hct => ?_, fun hf calls => ?_⟩
  · obtain ⟨-, rfl⟩ := h.usable hus
    obtain ⟨-, hlm, hlt⟩ := hfn w.generation w.records rfl
    rw [hlm]
    exact ⟨hlt, h.sealing⟩
  · obtain ⟨got, hg, ho, ha⟩ := h.sealing.opened h.front hfl
    refine ⟨got, hg, ho, ?_, fun hus => ?_⟩
    · obtain ⟨rest, rfl⟩ := hg
      rw [ho, openedData_opened, ← h.data, sealedData_append]
      exact prefix_append _ _
    · rw [ho, openedData_opened, ha (h.usable hus).1, h.data]
  · cases hus : w.records.writeFailed with
    | true => rfl
    | false => exact absurd (h.usable hus).1 hct
  · have hsame : Same w (w.runCalls crypto calls).1 := runCalls_failed hf calls
    refine ⟨hsame, by rw [hsame.records]; exact intoExportedState_failed hf, fun c hc => ?_⟩
    obtain ⟨-, he⟩ : Same _ ((w.runCalls crypto calls).1.call crypto c).1 ∧ _ :=
      call_failed (by rw [hsame.records]; exact hf) c
    exact he hc

/-- A writer with the cipher that only appends a tag, at the last record of its first key. -/
def sampleWriter : TlsApplicationWriter Unit Unit :=
  { io := .fresh [.accept 2, .accept 99, .accept 99, .fail .dropped]
    records := ⟨.aes128GcmSha256, (), Vector.replicate 12 0, some (), aesGcmRecordLimit - 1, false⟩
    owed := false
    requests := [false, true]
    capacity := 0
    heap := [] }

theorem fromExportedState_sample :
    fromExportedState null ⟨.aes128GcmSha256, (), aesGcmRecordLimit - 1⟩ =
      .ok sampleWriter.records := rfl

/-- A KeyUpdate for the used up key, a record, and a write that is interrupted. -/
theorem tls_write_history_sample :
    fromExportedState null ⟨.aes128GcmSha256, (), aesGcmRecordLimit - 1⟩ =
        .ok sampleWriter.records ∧
      (sampleWriter.runCalls null [.assembled [7], .application [8]]).1.records.writeFailed = true ∧
      ∃ log parts sent, WriteHistory null sampleWriter
        (sampleWriter.runCalls null [.assembled [7], .application [8]]).1
        (sampleWriter.runCalls null [.assembled [7], .application [8]]).2 log parts sent :=
  ⟨fromExportedState_sample, by decide +kernel, tls_write_history fromExportedState_sample _⟩

end RustReality.Tls
