import RustReality.Tls.WriterSpec

/-!
# The records a writer has sealed

Whatever a writer does is a chain of seals: content while more than one record of the key is left, and
KeyUpdates with the change of secret behind them (`Sealing`). What is on the wire is the front of the
sealed records, and all of them unless the writer was interrupted, which it does not survive (`Leaves`).
-/

namespace RustReality.Tls
open Net Tls13RecordLayer List

variable {S K : Type}

def SealUse.data (use : SealUse) : Bytes := if use.contentType = .applicationData then use.plaintext else []

def SealUse.isKeyUpdate (use : SealUse) : Prop := use.contentType = .handshake ∧ use.plaintext = keyUpdateResponse

def sealedWire (log : List SealUse) : Bytes := log.flatMap (·.record)

def sealedData (log : List SealUse) : Bytes := log.flatMap (·.data)

@[simp] theorem sealedWire_nil : sealedWire [] = [] := rfl

@[simp] theorem sealedWire_cons (use : SealUse) (log : List SealUse) :
    sealedWire (use :: log) = use.record ++ sealedWire log := rfl

@[simp] theorem sealedWire_append (log log' : List SealUse) :
    sealedWire (log ++ log') = sealedWire log ++ sealedWire log' := flatMap_append

@[simp] theorem sealedData_nil : sealedData [] = [] := rfl

@[simp] theorem sealedData_cons (use : SealUse) (log : List SealUse) :
    sealedData (use :: log) = use.data ++ sealedData log := rfl

@[simp] theorem sealedData_append (log log' : List SealUse) :
    sealedData (log ++ log') = sealedData log ++ sealedData log' := flatMap_append

section Sealing

variable (crypto : RecordCrypto S K)

/-- `Sealing g layer log final`: from generation `g` in the state `layer` the records of `log` are sealed one
after the other. The final state is there unless the change of secret behind a KeyUpdate did not happen. -/
inductive Sealing : Nat → Tls13RecordLayer S K → List SealUse → Option (Nat × Tls13RecordLayer S K) → Prop
  | stop (g : Nat) (layer : Tls13RecordLayer S K) : Sealing g layer [] (some (g, layer))
  | torn {g : Nat} {layer next : Tls13RecordLayer S K} {record : Bytes}
      (hseal : layer.sealRecord crypto .handshake keyUpdateResponse = .ok (next, record)) :
      Sealing g layer [⟨g, layer.sequence, .handshake, keyUpdateResponse, record⟩] none
  | content {g : Nat} {layer next : Tls13RecordLayer S K} {type : ContentType} {plaintext record : Bytes}
      {log : List SealUse} {final : Option (Nat × Tls13RecordLayer S K)} (hfresh : layer.needsKeyUpdate = false)
      (htype : type ≠ .handshake) (hseal : layer.sealRecord crypto type plaintext = .ok (next, record))
      (hrest : Sealing g next log final) : Sealing g layer (⟨g, layer.sequence, type, plaintext, record⟩ :: log) final
  | keyUpdate {g : Nat} {layer next updated : Tls13RecordLayer S K} {record : Bytes} {log : List SealUse}
      {final : Option (Nat × Tls13RecordLayer S K)}
      (hseal : layer.sealRecord crypto .handshake keyUpdateResponse = .ok (next, record))
      (hupdate : next.updateTrafficSecret crypto = .ok updated) (hrest : Sealing (g + 1) updated log final) :
      Sealing g layer (⟨g, layer.sequence, .handshake, keyUpdateResponse, record⟩ :: log) final

variable {crypto} {layer : Tls13RecordLayer S K} {log : List SealUse} {final : Option (Nat × Tls13RecordLayer S K)}

theorem Sealing.append {g g' : Nat} {layer' : Tls13RecordLayer S K} {log' : List SealUse}
    (h : Sealing crypto g layer log (some (g', layer'))) (h' : Sealing crypto g' layer' log' final) :
    Sealing crypto g layer (log ++ log') final := by
  generalize hl : some (g', layer') = last at h
  induction h with
  | stop g layer =>
    cases hl
    exact h'
  | torn hs => cases hl
  | content hf ht hs _ ih => exact .content hf ht hs (ih hl)
  | keyUpdate hs hu _ ih => exact .keyUpdate hs hu (ih hl)

theorem Sealing.position {g : Nat} (h : Sealing crypto g layer log final) :
    ∀ use ∈ log, g < use.generation ∨ g = use.generation ∧ layer.sequence ≤ use.sequence := by
  induction h with
  | stop g layer => simp
  | @torn g layer next record hs =>
    intro use hm
    obtain rfl := mem_singleton.mp hm
    exact .inr ⟨rfl, Nat.le_refl _⟩
  | @content g layer next type plaintext record log final hf ht hs _ ih =>
    intro use hm
    have hn := advance_ok (sealRecord_ok hs).2.2.1
    rcases mem_cons.mp hm with rfl | hm
    · exact .inr ⟨rfl, Nat.le_refl _⟩
    · refine (ih use hm).imp_right fun hl => ⟨hl.1, ?_⟩
      rw [hn] at hl
      exact Nat.le_of_succ_le hl.2
  | @keyUpdate g layer next updated record log final hs hu _ ih =>
    intro use hm
    rcases mem_cons.mp hm with rfl | hm
    · exact .inr ⟨rfl, Nat.le_refl _⟩
    · left
      rcases ih use hm with hl | ⟨hsm, -⟩ <;> omega

theorem Sealing.distinct {g : Nat} (h : Sealing crypto g layer log final) :
    log.Pairwise fun use use' => (use.generation, use.sequence) ≠ (use'.generation, use'.sequence) := by
  induction h with
  | stop g layer => exact .nil
  | torn hs => exact pairwise_singleton _ _
  | content hf ht hs hr ih =>
    have hn := advance_ok (sealRecord_ok hs).2.2.1
    refine pairwise_cons.mpr ⟨fun use hm heq => ?_, ih⟩
    obtain ⟨hg, hsq⟩ := Prod.mk.inj heq
    rcases hr.position use hm with hla | ⟨-, hla⟩
    · exact absurd hg (Nat.ne_of_lt hla)
    · rw [hn] at hla
      exact absurd hsq (Nat.ne_of_lt hla)
  | keyUpdate hs hu hr ih =>
    refine pairwise_cons.mpr ⟨fun use hm heq => ?_, ih⟩
    obtain ⟨hg, -⟩ := Prod.mk.inj heq
    dsimp only at hg
    rcases hr.position use hm with hla | ⟨hla, -⟩ <;> omega

theorem Sealing.within {g : Nat} (h : Sealing crypto g layer log final) (ho : layer.writeFailed = false)
    (hk : layer.sequence < layer.keyUsageLimit) :
    (∀ use ∈ log, use.sequence < layer.keyUsageLimit) ∧
      ∀ g' layer', final = some (g', layer') → layer'.writeFailed = false ∧ layer'.keyUsageLimit = layer.keyUsageLimit ∧
        layer'.sequence < layer.keyUsageLimit := by
  induction h with
  | stop g layer =>
    refine ⟨by simp, fun g' layer' hfi => ?_⟩
    cases hfi
    exact ⟨ho, rfl, hk⟩
  | torn hs =>
    refine ⟨fun use hm => ?_, fun g' layer' hfi => by cases hfi⟩
    obtain rfl := mem_singleton.mp hm
    exact hk
  | @content g layer next type plaintext record log final hf ht hs hr ih =>
    obtain rfl := advance_ok (sealRecord_ok hs).2.2.1
    obtain ⟨hu, hfi⟩ := ih ho (TlsApplicationWriter.needsKeyUpdate_eq_false.mp hf)
    refine ⟨fun use hm => ?_, hfi⟩
    rcases mem_cons.mp hm with rfl | hm
    · exact hk
    · exact hu use hm
  | @keyUpdate g layer next updated record log final hs hup hr ih =>
    obtain rfl := advance_ok (sealRecord_ok hs).2.2.1
    obtain ⟨hz, hsu, ho', -⟩ := updateTrafficSecret_ok hup
    have hl : updated.keyUsageLimit = layer.keyUsageLimit := by
      unfold keyUsageLimit
      rw [hsu]
    rw [hl] at ih
    obtain ⟨hu, hfi⟩ := ih (ho'.trans ho) (by omega)
    refine ⟨fun use hm => ?_, hfi⟩
    rcases mem_cons.mp hm with rfl | hm
    · exact hk
    · exact hu use hm

/-- From one record to the next the generation stays, or goes on by one behind a KeyUpdate. -/
def NextUse (use use' : SealUse) : Prop :=
  use'.generation = use.generation ∧ use'.sequence = use.sequence + 1 ∨
    use'.generation = use.generation + 1 ∧ use'.sequence = 0 ∧ use.isKeyUpdate

theorem Sealing.head {g : Nat} (h : Sealing crypto g layer log final) :
    ∀ use ∈ log.head?, use.generation = g ∧ use.sequence = layer.sequence := by
  cases h with
  | stop => simp
  | torn hs =>
    rintro _ ⟨⟩
    exact ⟨rfl, rfl⟩
  | content hf ht hs hr =>
    rintro _ ⟨⟩
    exact ⟨rfl, rfl⟩
  | keyUpdate hs hu hr =>
    rintro _ ⟨⟩
    exact ⟨rfl, rfl⟩

theorem Sealing.chain {g : Nat} (h : Sealing crypto g layer log final) : log.IsChain NextUse := by
  induction h with
  | stop => exact .nil
  | torn hs => exact .singleton _
  | content hf ht hs hr ih =>
    have hn := advance_ok (sealRecord_ok hs).2.2.1
    refine isChain_cons.mpr ⟨fun use hm => ?_, ih⟩
    obtain ⟨hg, hsq⟩ := hr.head use hm
    exact .inl ⟨hg, by rw [hsq, hn]⟩
  | keyUpdate hs hu hr ih =>
    refine isChain_cons.mpr ⟨fun use hm => ?_, ih⟩
    obtain ⟨hg, hsq⟩ := hr.head use hm
    exact .inr ⟨hg, hsq.trans (updateTrafficSecret_ok hu).1, rfl, rfl⟩

end Sealing

/-! ### What the operations seal -/

namespace TlsApplicationWriter

variable (crypto : RecordCrypto S K)

/-- From `w` to `w'` the records of `log` were sealed. -/
structure Seals (w w' : TlsApplicationWriter S K) (log : List SealUse) : Prop where
  noted : w'.log = w.log ++ log
  sealing : Sealing crypto w.generation w.records log (some (w'.generation, w'.records))

/-- What an operation leaves that is to send `data`. It succeeds with all of it sealed and written, it fails
with everything sealed written, or it is interrupted and the direction with it. -/
inductive Leaves (w : TlsApplicationWriter S K) (data : Bytes) {α : Type} :
    TlsApplicationWriter S K → Except TlsApplicationIoError α → Prop
  | done {w' : TlsApplicationWriter S K} {a : α} {log : List SealUse} (hseals : Seals crypto w w' log)
      (hwritten : w'.io.written = w.io.written ++ sealedWire log) (hdata : sealedData log = data) :
      Leaves w data w' (.ok a)
  | kept {w' : TlsApplicationWriter S K} {e : TlsApplicationIoError} {log : List SealUse} (hseals : Seals crypto w w' log)
      (hwritten : w'.io.written = w.io.written ++ sealedWire log) (hdata : sealedData log <+: data) :
      Leaves w data w' (.error e)
  | torn {w' : TlsApplicationWriter S K} {e : TlsApplicationIoError} {log : List SealUse}
      {final : Option (Nat × Tls13RecordLayer S K)} {sent : Bytes} (hnoted : w'.log = w.log ++ log)
      (hsealing : Sealing crypto w.generation w.records log final)
      (hsent : sent <+: sealedWire log) (hwritten : w'.io.written = w.io.written ++ sent)
      (hdata : sealedData log <+: data) (hfailed : w'.records.writeFailed = true) : Leaves w data w' (.error e)

variable {crypto}
  {w w' mid : TlsApplicationWriter S K} {e : TlsApplicationIoError}
  {result : Except TlsApplicationIoError Unit} {plaintext : Bytes}

theorem Seals.same (h : Same w w') : Seals crypto w w' [] where
  noted := by rw [h.log, append_nil]
  sealing := by
    rw [h.generation, h.records]
    exact .stop _ _

theorem Seals.trans {log log' : List SealUse} (h : Seals crypto w mid log) (h' : Seals crypto mid w' log') :
    Seals crypto w w' (log ++ log') where
  noted := by rw [h'.noted, h.noted, append_assoc]
  sealing := h.sealing.append h'.sealing

theorem Seals.content {type : ContentType} {records : Tls13RecordLayer S K} {record : Bytes}
    (hfresh : w.records.needsKeyUpdate = false) (htype : type ≠ .handshake)
    (hseal : w.records.sealRecord crypto type plaintext = .ok (records, record)) :
    Seals crypto w (w.noteSeal type plaintext record records) [⟨w.generation, w.records.sequence, type, plaintext, record⟩] :=
  ⟨rfl, .content hfresh htype hseal (.stop _ _)⟩

theorem Leaves.refused {α : Type} {data : Bytes} (h : Same w w') : Leaves crypto w data w' (.error e : Except _ α) :=
  .kept (.same h) (by rw [h.io, sealedWire_nil, append_nil]) nil_prefix

theorem Leaves.skipped {α : Type} {a : α} (h : Same w w') : Leaves crypto w [] w' (.ok a) :=
  .done (.same h) (by rw [h.io, sealedWire_nil, append_nil]) rfl

theorem Leaves.after {α : Type} {log : List SealUse} {data : Bytes}
    {result : Except TlsApplicationIoError α} (hseals : Seals crypto w mid log)
    (hwritten : mid.io.written = w.io.written ++ sealedWire log) (h : Leaves crypto mid data w' result) :
    Leaves crypto w (sealedData log ++ data) w' result := by
  cases h with
  | done hs hw hd =>
    refine .done (hseals.trans hs) ?_ (by rw [sealedData_append, hd])
    rw [hw, hwritten, sealedWire_append, append_assoc]
  | kept hs hw hd =>
    refine .kept (hseals.trans hs) ?_ (by rw [sealedData_append]; exact (prefix_append_right_inj _).mpr hd)
    rw [hw, hwritten, sealedWire_append, append_assoc]
  | torn hn hs hsent hw hd hfailed =>
    have hfront := (prefix_append_right_inj (sealedWire log)).mpr hsent
    rw [← sealedWire_append] at hfront
    refine .torn (by rw [hn, hseals.noted, append_assoc]) (hseals.sealing.append hs) hfront ?_ ?_ hfailed
    · rw [hw, hwritten, append_assoc]
    · rw [sealedData_append]
      exact (prefix_append_right_inj _).mpr hd

theorem Leaves.failed_first {α β : Type} {data data' : Bytes}
    (h : Leaves crypto w data w' (.error e : Except _ α)) (hle : data <+: data') :
    Leaves crypto w data' w' (.error e : Except _ β) := by
  cases h with
  | kept hs hw hd => exact .kept hs hw (hd.trans hle)
  | torn hn hs hsn hw hd hfailed => exact .torn hn hs hsn hw (hd.trans hle) hfailed

theorem Leaves.of_same {α : Type} {data : Bytes} {result : Except TlsApplicationIoError α}
    (hsame : Same w mid) (h : Leaves crypto mid data w' result) : Leaves crypto w data w' result :=
  .after (.same hsame) (by rw [hsame.io, sealedWire_nil, append_nil]) h

theorem transmit_leaves {log : List SealUse} (hs : Seals crypto w mid log) (hio : mid.io = w.io)
    (h : mid.transmit (sealedWire log) = (w', result)) : Leaves crypto w (sealedData log) w' result := by
  obtain ⟨rfl, hw', hw, -⟩ | ⟨e, sent, rfl, hw', hsn, hw, -⟩ := transmit_spec h
  · rw [hio] at hw
    rw [hw'] at hw ⊢
    exact .done ⟨hs.noted, hs.sealing⟩ hw rfl
  · rw [hio] at hw
    rw [hw'] at hw ⊢
    exact .torn hs.noted hs.sealing hsn hw (prefix_refl _) rfl

theorem sealAndTransmit_leaves {type : ContentType} (hf : Fresh w) (ht : type ≠ .handshake)
    (h : w.sealAndTransmit crypto type plaintext = (w', result)) :
    Leaves crypto w (if type = .applicationData then plaintext else []) w' result := by
  unfold sealAndTransmit at h
  cases hs : w.records.sealRecord crypto type plaintext with
  | error e =>
    simp only [hs] at h
    cases h
    exact .refused .rfl
  | ok sealed =>
    obtain ⟨records, record⟩ := sealed
    simp only [hs] at h
    have hl := transmit_leaves (.content hf ht hs) rfl ((congrArg _ (append_nil record)).trans h)
    rw [sealedData_cons, sealedData_nil, append_nil] at hl
    exact hl

theorem writeKeyUpdateIfNeeded_leaves {result : Except TlsApplicationIoError Bool}
    (h : w.writeKeyUpdateIfNeeded crypto = (w', result)) :
    Leaves crypto w [] w' result ∧ ∀ sent, result = .ok sent → Fresh w' := by
  unfold writeKeyUpdateIfNeeded at h
  cases hwt : w.records.ensureWriteReady with
  | error e =>
    simp only [hwt] at h
    cases h
    exact ⟨.refused .rfl, by simp⟩
  | ok u =>
    simp only [hwt] at h
    have ho := observe_spec w
    generalize w.observe.requests = requests at ho
    rw [ho] at h
    split_ifs at h with hi
    · cases h
      have hf : w.records.needsKeyUpdate = false := by simpa using (Bool.and_eq_true_iff.mp hi).2
      exact ⟨.skipped ⟨rfl, rfl, rfl, rfl⟩, fun _ _ => hf⟩
    · cases hs : w.records.sealRecord crypto .handshake keyUpdateResponse with
      | error e =>
        simp only [hs] at h
        cases h
        exact ⟨.refused ⟨rfl, rfl, rfl, rfl⟩, by simp⟩
      | ok sealed =>
        obtain ⟨records, record⟩ := sealed
        simp only [hs] at h
        have htorn := Sealing.torn (g := w.generation) hs
        have hwire : sealedWire [⟨w.generation, w.records.sequence, .handshake, keyUpdateResponse, record⟩] = record :=
          append_nil _
        generalize hsealed : ({ noteSeal _ .handshake keyUpdateResponse record records with owed := false } :
          TlsApplicationWriter S K) = now at h
        rcases ht : now.transmit record with ⟨mid, outcome⟩
        simp only [ht] at h
        obtain ⟨rfl, hm, hw, -⟩ | ⟨e, sent, rfl, hm, hsn, hw, -⟩ := transmit_spec ht
        · obtain ⟨updated, rfl, hu, rfl⟩ | ⟨e, rfl, hu, rfl⟩ := rekey_spec h
          · rw [hm] at hu hw ⊢
            subst hsealed
            have hb := updated.keyUsageLimit_bounds.1
            have hz := (updateTrafficSecret_ok hu).1
            refine ⟨.done ⟨rfl, .keyUpdate hs hu (.stop _ updated)⟩ (by rw [hwire]; exact hw) rfl, fun _ _ => ?_⟩
            exact needsKeyUpdate_eq_false.mpr (show updated.sequence + 1 < updated.keyUsageLimit by omega)
          · rw [hm] at hw ⊢
            subst hsealed
            exact ⟨.torn rfl htorn (prefix_refl _) (by rw [hwire]; exact hw) nil_prefix rfl, by simp⟩
        · cases h
          rw [hm] at hw ⊢
          subst hsealed
          exact ⟨.torn rfl htorn (by rw [hwire]; exact hsn) hw nil_prefix rfl, by simp⟩

theorem writeContent_leaves {type : ContentType} (hf : Fresh w) (ht : type ≠ .handshake)
    (h : w.writeContent crypto type plaintext = (w', result)) :
    Leaves crypto w (if type = .applicationData then plaintext else []) w' result := by
  unfold writeContent at h
  split at h
  · cases h
    exact .refused .rfl
  · obtain ⟨hsame, -⟩ := reserve_spec w (headerLen + (plaintext.length + 1 + tagLen))
    rcases hrs : w.reserve (headerLen + (plaintext.length + 1 + tagLen)) with ⟨mid, granted⟩
    rw [hrs] at hsame
    simp only [hrs] at h
    cases granted with
    | false =>
      cases h
      exact .refused hsame
    | true =>
      have hf' : Fresh mid := by
        rw [Fresh, hsame.records]
        exact hf
      exact (sealAndTransmit_leaves hf' ht h).of_same hsame

theorem keyUpdate_then {α : Type} {updated : Bool} {data : Bytes}
    {result : Except TlsApplicationIoError α} (hu : w.writeKeyUpdateIfNeeded crypto = (mid, .ok updated))
    (h : Fresh mid → Leaves crypto mid data w' result) : Leaves crypto w data w' result := by
  obtain ⟨hl, hf⟩ := writeKeyUpdateIfNeeded_leaves hu
  cases hl with
  | done hs hw hd =>
    have := (h (hf _ rfl)).after hs hw
    rw [hd] at this
    exact this

theorem writeAssembled_leaves (h : w.writeAssembled crypto plaintext = (w', result)) :
    Leaves crypto w plaintext w' result := by
  unfold writeAssembled at h
  rcases hu : w.writeKeyUpdateIfNeeded crypto with ⟨mid, outcome⟩
  simp only [hu] at h
  cases outcome with
  | error e =>
    cases h
    exact (writeKeyUpdateIfNeeded_leaves hu).1.failed_first nil_prefix
  | ok updated => exact keyUpdate_then hu fun hf => writeContent_leaves hf (by decide) h

variable {filled : Bytes}

theorem writeFilled_leaves (h : w.writeFilled crypto filled = (w', result)) :
    Leaves crypto w filled w' result := by
  unfold writeFilled at h
  rcases hu : w.writeKeyUpdateIfNeeded crypto with ⟨mid, outcome⟩
  simp only [hu] at h
  cases outcome with
  | error e =>
    cases h
    exact (writeKeyUpdateIfNeeded_leaves hu).1.failed_first nil_prefix
  | ok updated => exact keyUpdate_then hu fun hf => sealAndTransmit_leaves hf (by decide) h

theorem writeChunks_leaves {chunks : List Bytes} (h : writeChunks crypto chunks w = (w', result)) :
    Leaves crypto w chunks.flatten w' result := by
  induction chunks generalizing w with
  | nil =>
    cases h
    exact .skipped .rfl
  | cons chunk chunks ih =>
    rw [writeChunks] at h
    rcases hu : w.writeKeyUpdateIfNeeded crypto with ⟨mid, outcome⟩
    simp only [hu] at h
    cases outcome with
    | error e =>
      cases h
      exact (writeKeyUpdateIfNeeded_leaves hu).1.failed_first nil_prefix
    | ok updated =>
      dsimp only at h
      rcases hc : mid.writeContent crypto .applicationData chunk with ⟨last, outcome⟩
      simp only [hc] at h
      refine keyUpdate_then hu fun hf => ?_
      have hl := writeContent_leaves hf (by decide) hc
      rw [if_pos rfl] at hl
      cases outcome with
      | error e =>
        cases h
        exact hl.failed_first (prefix_append _ _)
      | ok u =>
        cases hl with
        | done hs hw hd =>
          have hr := (ih h).after hs hw
          rw [hd] at hr
          exact hr

theorem writeApplication_leaves {result : Except TlsApplicationIoError ApplicationWriteStats}
    (h : w.writeApplication crypto plaintext = (w', result)) : Leaves crypto w plaintext w' result := by
  unfold writeApplication at h
  split at h
  · cases h
    exact .refused .rfl
  · rcases hc : writeChunks crypto (Vec.chunks maxPlaintextLen plaintext) w with ⟨mid, outcome⟩
    have hl := writeChunks_leaves hc
    rw [Vec.flatten_chunks (by decide)] at hl
    simp only [hc] at h
    cases hl with
    | done hse hwr hd =>
      cases h
      exact .done hse hwr hd
    | kept hse hwr hd =>
      cases h
      exact .kept hse hwr hd
    | torn hn hse hs hwr hd hfailed =>
      cases h
      exact .torn hn hse hs hwr hd hfailed

theorem shutdown_leaves (h : w.shutdown crypto = (w', result)) : Leaves crypto w [] w' result := by
  unfold TlsApplicationWriter.shutdown at h
  rcases hu : w.writeKeyUpdateIfNeeded crypto with ⟨mid, outcome⟩
  simp only [hu] at h
  cases outcome with
  | error e =>
    cases h
    exact (writeKeyUpdateIfNeeded_leaves hu).1.failed_first nil_prefix
  | ok updated =>
    dsimp only at h
    rcases hc : mid.writeContent crypto .alert [1, 0] with ⟨last, outcome⟩
    simp only [hc] at h
    refine keyUpdate_then hu fun hf => ?_
    have hl := writeContent_leaves hf (by decide) hc
    rw [if_neg (by decide)] at hl
    cases outcome with
    | error e =>
      cases h
      exact hl
    | ok u =>
      cases hl with
      | done hse hw hd =>
        dsimp only at h
        have hs := Sink.written_shutdown last.io
        generalize last.io.shutdown = outcome at h hs
        obtain ⟨io, failure | u⟩ := outcome
        · cases h
          exact .torn hse.noted hse.sealing (prefix_refl _) (hs.trans hw) (hd ▸ prefix_refl _) rfl
        · cases h
          exact .done ⟨hse.noted, hse.sealing⟩ (hs.trans hw) hd

/-! ### Batches -/

/-- Where a batch is: what went out and what is sealed and waits are the records of `log`, and nothing
waits before the first slot is sealed. -/
structure Batch (crypto : RecordCrypto S K) (w : TlsApplicationWriter S K) (armed : Bool) (unsent : Bytes)
    (log : List SealUse) (now : TlsApplicationWriter S K) : Prop where
  seals : Seals crypto w now log
  wire : ∃ out, now.io.written = w.io.written ++ out ∧ out ++ unsent = sealedWire log
  idle : armed = false → unsent = []

theorem Leaves.guarded {α : Type} {data : Bytes} (armed : Bool)
    (h : Leaves crypto w data w' (.error e : Except _ α)) :
    Leaves crypto w data (if armed then w'.fail else w') (.error e : Except _ α) := by
  cases armed with
  | false => exact h
  | true =>
    cases h with
    | kept hs hw hd => exact .torn hs.noted hs.sealing (prefix_refl _) hw hd rfl
    | torn hn hs hsn hw hd hfailed => exact .torn hn hs hsn hw hd rfl

section Batch

variable {w now w' : TlsApplicationWriter S K} {armed : Bool} {unsent data : Bytes} {log : List SealUse}

theorem Batch.failed {α : Type} (hb : Batch crypto w armed unsent log now)
    (hd : sealedData log <+: data) :
    Leaves crypto w data (if armed then now.fail else now) (.error e : Except _ α) := by
  obtain ⟨out, ho, hw⟩ := hb.wire
  cases armed with
  | false =>
    rw [hb.idle rfl, append_nil] at hw
    exact .kept hb.seals (hw ▸ ho) hd
  | true => exact .torn hb.seals.noted hb.seals.sealing ⟨unsent, hw⟩ ho hd rfl

theorem Batch.flush (hb : Batch crypto w armed unsent log now)
    (h : now.transmit unsent = (w', result)) :
    Leaves crypto w (sealedData log) w' result ∧ (result = .ok () → Batch crypto w armed [] log w') := by
  obtain ⟨out, ho, hwr⟩ := hb.wire
  obtain ⟨rfl, hw', hw, -⟩ | ⟨e, sent, rfl, hw', hsn, hw, -⟩ := transmit_spec h
  · have hs : Seals crypto w w' log := by
      rw [hw']
      exact ⟨hb.seals.noted, hb.seals.sealing⟩
    have ha : w'.io.written = w.io.written ++ sealedWire log := by rw [hw, ho, ← hwr, append_assoc]
    exact ⟨.done hs ha rfl, fun _ => ⟨hs, ⟨_, ha, append_nil _⟩, fun _ => rfl⟩⟩
  · have hf : out ++ sent <+: sealedWire log := hwr ▸ (prefix_append_right_inj out).mpr hsn
    refine ⟨.torn ?_ hb.seals.sealing hf ?_ (prefix_refl _) (by rw [hw']; rfl), by simp⟩
    · rw [hw']
      exact hb.seals.noted
    · rw [hw, ho, append_assoc]

theorem Batch.rekey {result : Except TlsApplicationIoError Bytes} (hbatch : Batch crypto w armed unsent log now)
    (hle : sealedData log <+: data) (h : now.rekeyBatch crypto unsent = (w', result)) :
    (∃ unsent' log', result = .ok unsent' ∧ Batch crypto w armed unsent' log' w' ∧
        sealedData log' = sealedData log ∧ Fresh w') ∨
      ∃ e, result = .error e ∧
        Leaves crypto w data (if armed then w'.fail else w') (.error e : Except TlsApplicationIoError Unit) := by
  unfold rekeyBatch at h
  have ho := observe_spec now
  generalize now.observe.owed = owed at ho
  generalize now.observe.requests = requests at ho
  rw [ho] at h
  have hba' : Batch crypto w armed unsent log { now with owed, requests } :=
    ⟨⟨hbatch.seals.noted, hbatch.seals.sealing⟩, hbatch.wire, hbatch.idle⟩
  dsimp only at h
  split_ifs at h with hdu
  · rcases ht : transmit { now with owed, requests } unsent with ⟨mid, outcome⟩
    obtain ⟨hl, hfl⟩ := hba'.flush ht
    simp only [ht] at h
    cases outcome with
    | error e =>
      cases h
      exact .inr ⟨e, rfl, (hl.failed_first hle).guarded armed⟩
    | ok u =>
      obtain ⟨hs, ⟨out, hot, hw⟩, -⟩ := hfl rfl
      rw [append_nil] at hw
      rw [hw] at hot
      dsimp only at h
      rcases hu : mid.writeKeyUpdateIfNeeded crypto with ⟨last, outcome⟩
      obtain ⟨hup, hf⟩ := writeKeyUpdateIfNeeded_leaves hu
      have ha := hup.after hs hot
      rw [append_nil] at ha
      simp only [hu] at h
      cases outcome with
      | error e =>
        cases h
        exact .inr ⟨e, rfl, (ha.failed_first hle).guarded armed⟩
      | ok updated =>
        cases h
        cases ha with
        | done hs' hwr hd =>
          exact .inl ⟨[], _, rfl, ⟨hs', ⟨_, hwr, append_nil _⟩, fun _ => rfl⟩, hd, hf _ rfl⟩
  · cases h
    have hf : now.records.needsKeyUpdate = false := by
      cases hn : now.records.needsKeyUpdate with
      | false => rfl
      | true => simp [hn] at hdu
    exact .inl ⟨unsent, log, rfl, hba', rfl, hf⟩

theorem batchLoop_leaves {slots : Nat} (hbatch : Batch crypto w armed unsent log now)
    (hslots : filled.length ≤ slots * maxPlaintextLen)
    (h : batchLoop crypto slots now armed unsent filled = (w', result)) :
    Leaves crypto w (sealedData log ++ filled) w' result := by
  induction slots generalizing now armed unsent log filled with
  | zero =>
    obtain rfl : filled = [] := length_eq_zero_iff.mp (by omega)
    rw [append_nil]
    exact (hbatch.flush h).1
  | succ slots ih =>
    rw [batchLoop] at h
    by_cases he : filled = []
    · rw [if_pos he] at h
      rw [he, append_nil]
      exact (hbatch.flush h).1
    rw [if_neg he] at h
    rcases hrk : now.rekeyBatch crypto unsent with ⟨mid, outcome⟩
    simp only [hrk] at h
    obtain ⟨unsent', log', rfl, hba', hd, hf⟩ | ⟨e, rfl, hl⟩ :=
      hbatch.rekey (prefix_append _ filled) hrk
    · dsimp only at h
      rw [← hd]
      cases hs : mid.records.sealRecord crypto .applicationData (filled.take maxPlaintextLen) with
      | error e =>
        simp only [hs] at h
        cases h
        exact hba'.failed (prefix_append _ _)
      | ok sealed =>
        obtain ⟨records, record⟩ := sealed
        simp only [hs] at h
        obtain ⟨out, ho, hw⟩ := hba'.wire
        have hn : Batch crypto w true (unsent' ++ record) _ (mid.noteSeal .applicationData _ record records) :=
          ⟨hba'.seals.trans (.content hf (by decide) hs), ⟨out, ho, by rw [sealedWire_append, ← hw]; simp⟩, fun hfl => by cases hfl⟩
        have hr := ih hn (by rw [length_drop]; rw [Nat.succ_mul] at hslots; omega) h
        rw [sealedData_append, sealedData_cons, sealedData_nil, append_nil, append_assoc] at hr
        rw [← take_append_drop maxPlaintextLen filled]
        exact hr
    · cases h
      exact hl

end Batch

theorem writeFilledBatch_leaves (hs : filled.length ≤ batchedSlotCount * maxPlaintextLen)
    (h : w.writeFilledBatch crypto filled = (w', result)) : Leaves crypto w filled w' result := by
  unfold writeFilledBatch at h
  split at h
  · cases h
    exact .refused .rfl
  · have hb : Batch crypto w false [] [] w :=
      ⟨.same .rfl, ⟨[], (append_nil _).symm, rfl⟩, fun _ => rfl⟩
    exact batchLoop_leaves hb hs h

theorem writeFilledStorage_leaves {storageLen : Nat}
    (h : w.writeFilledStorage crypto storageLen plaintext = (w', result)) : Leaves crypto w plaintext w' result := by
  unfold writeFilledStorage at h
  dsimp only at h
  by_cases hs : (plaintext.length + (maxPlaintextLen - 1)) / maxPlaintextLen = 0 ∨
      (plaintext.length + (maxPlaintextLen - 1)) / maxPlaintextLen > 2 ∨
      storageLen < (plaintext.length + (maxPlaintextLen - 1)) / maxPlaintextLen * recordSlotWireCapacity
  · rw [if_pos hs] at h
    cases h
    exact .refused .rfl
  · rw [if_neg hs] at h
    split at h
    · cases h
      exact .refused .rfl
    · refine writeFilledBatch_leaves ?_ h
      have ht : (plaintext.length + (maxPlaintextLen - 1)) / maxPlaintextLen ≤ 2 := by omega
      have hf := (Nat.div_le_iff_le_mul (by decide)).mp ht
      rw [batchedSlotCount]
      omega

/-! ### Relayed reads -/

section Relay

variable {ρ : Type} {io : VectoredRead ρ}

def delivered (outcome : Except Failure Bytes) : Bytes := outcome.toOption.getD []

theorem writeApplicationReadFrom_leaves {reader reader' : ρ} {result : Except TlsApplicationIoError Nat}
    (h : w.writeApplicationReadFrom crypto io reader = (w', reader', result)) :
    Leaves crypto w (delivered (io.read reader maxPlaintextLen).2) w' result := by
  unfold writeApplicationReadFrom at h
  split at h
  · cases h
    exact .refused .rfl
  · obtain ⟨hsame, -⟩ := reserve_spec w recordSlotWireCapacity
    rcases hr : w.reserve recordSlotWireCapacity with ⟨mid, granted⟩
    rw [hr] at hsame
    simp only [hr] at h
    cases granted with
    | false =>
      cases h
      exact .refused hsame
    | true =>
      rcases hrd : io.read reader maxPlaintextLen with ⟨next, outcome⟩
      simp only [hrd] at h
      cases outcome with
      | error failure =>
        cases h
        exact .refused hsame
      | ok filled =>
        dsimp only at h
        by_cases he : filled = []
        · rw [if_pos he] at h
          cases h
          rw [he]
          exact .skipped hsame
        · rw [if_neg he] at h
          rcases hw : mid.writeFilled crypto filled with ⟨last, written⟩
          have hl := (writeFilled_leaves hw).of_same hsame
          simp only [hw] at h
          cases written with
          | error e =>
            cases h
            exact hl.failed_first (prefix_refl _)
          | ok u =>
            cases h
            cases hl with
            | done hs hwr hd => exact .done hs hwr hd

/-- The bytes of the read behind a batched relay: of one buffer until the storage has grown. -/
def batchedRead (io : VectoredRead ρ) (w : TlsApplicationWriter S K) (reader : ρ) : Bytes :=
  if w.capacity < batchedWireCapacity then delivered (io.read reader maxPlaintextLen).2
  else delivered (io.readVectored reader (List.replicate batchedSlotCount maxPlaintextLen)).2

theorem writeApplicationReadFromBatched_leaves {reader reader' : ρ}
    {result : Except TlsApplicationIoError Nat}
    (hf : (delivered (io.readVectored reader (List.replicate batchedSlotCount maxPlaintextLen)).2).length ≤
      batchedSlotCount * maxPlaintextLen)
    (h : w.writeApplicationReadFromBatched crypto io reader = (w', reader', result)) :
    Leaves crypto w (batchedRead io w reader) w' result := by
  unfold writeApplicationReadFromBatched at h
  unfold batchedRead
  split at h
  · cases h
    exact .refused .rfl
  by_cases hs : w.capacity < batchedWireCapacity
  · rw [if_pos hs] at h ⊢
    rcases hsn : w.writeApplicationReadFrom crypto io reader with ⟨mid, next, outcome⟩
    have hle := writeApplicationReadFrom_leaves hsn
    simp only [hsn] at h
    cases outcome with
    | error e =>
      cases h
      exact hle
    | ok read =>
      obtain ⟨-, hsame, hg⟩ := growBatched_spec h
      cases hle with
      | done hse hwr hd =>
        replace hse := hse.trans (.same hsame)
        rw [append_nil] at hse
        rw [← hsame.io] at hwr
        obtain ⟨rfl, -⟩ | ⟨e, rfl, -⟩ := hg
        · exact .done hse hwr hd
        · exact .kept hse hwr (hd ▸ prefix_refl _)
  · rw [if_neg hs] at h ⊢
    rcases hr : io.readVectored reader (List.replicate batchedSlotCount maxPlaintextLen) with ⟨next, outcome⟩
    rw [hr] at hf
    simp only [hr] at h
    cases outcome with
    | error failure =>
      cases h
      exact .refused .rfl
    | ok filled =>
      dsimp only at h
      by_cases he : filled = []
      · rw [if_pos he] at h
        cases h
        rw [he]
        exact .skipped .rfl
      · rw [if_neg he] at h
        rcases hw : w.writeFilledBatch crypto filled with ⟨last, written⟩
        have hle := writeFilledBatch_leaves hf hw
        simp only [hw] at h
        cases written with
        | error e =>
          cases h
          exact hle.failed_first (prefix_refl _)
        | ok u =>
          cases h
          cases hle with
          | done hse hwr hd => exact .done hse hwr hd

end Relay

/-! ### An interrupted direction -/

section Failed

variable {w : TlsApplicationWriter S K} (hfailed : w.records.writeFailed = true)

include hfailed

theorem ensureWriteReady_failed : w.records.ensureWriteReady = .error .writeFailed := if_pos hfailed

theorem writeKeyUpdateIfNeeded_failed : w.writeKeyUpdateIfNeeded crypto = (w, .error (.record .writeFailed)) := by
  rw [writeKeyUpdateIfNeeded, ensureWriteReady_failed hfailed]

end Failed

end TlsApplicationWriter

end RustReality.Tls
