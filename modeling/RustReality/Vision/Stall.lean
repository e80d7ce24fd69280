import RustReality.Vision.Uplink

/-!
# A raw relay whose destination stalls

The relay reports a stalled write as a timeout, and as an abort once its ledger has counted a byte. Bytes that
wait in the buffer or in the pipe are in no ledger: where the first chunk stalls, the session takes the
truncated transfer for an idle close (`stalled_transfer_fails_iff`).
-/

namespace RustReality.Vision
open Net Transport

/-- The destination stalled, and bytes taken off the source have not arrived. -/
def Truncated (source : Source) (sink : Sink) (p : Pump) (result : Except RelayError Unit) : Prop :=
  result = .error (.io .timedOut) ∧
    p.source.bytes.length + (p.sink.written.length - sink.written.length) < source.bytes.length

instance (source : Source) (sink : Sink) (p : Pump) (result : Except RelayError Unit) :
    Decidable (Truncated source sink p result) := inferInstanceAs (Decidable (_ ∧ _))

/-- The session ends with an error that is neither a benign teardown nor an idle timeout. -/
def Fails (result : Except VisionSessionError DirectionStats) : Prop :=
  ∃ e, result = .error (.relay e) ∧ isBenignTeardown e = false ∧ e ≠ .io .timedOut

theorem fails_iff (untouched : Bool) (stats : DirectionStats) :
    Fails (if isBenignTeardown (relayError untouched (.io .timedOut)) then .ok stats
      else .error (.relay (relayError untouched (.io .timedOut)))) ↔ untouched = false := by
  cases untouched with
  | false => exact iff_of_true ⟨_, rfl, rfl, by decide⟩ rfl
  | true => exact iff_of_false (by rintro ⟨e, ⟨⟩, -⟩) (by decide)

/-- The ledger is touched exactly if there was a byte to read and the first write took one. -/
theorem moved_iff {backend : RelayBackend} {capacity : Capacity} {eof : Bool} {source : Source} {sink : Sink}
    {p : Pump} {result : Except RelayError Unit} (hp : runPump backend capacity eof source sink = (p, result))
    (hcounted : result = .error (.io .timedOut) ∨ source.bytes.length < 2 ^ 64) :
    p.moved ≠ 0 ↔ source.bytes ≠ [] ∧ sink.Accepts := by
  obtain ⟨sent, hsent⟩ := runPump_spec hp
  have hcount : p.moved = 0 + sent.length := hsent.count (hcounted.imp (by rintro rfl; decide) (by simp))
  rw [← hsent.started, hcount, Nat.zero_add, ne_eq, List.length_eq_zero_iff]

theorem stalled_transfer_fails_iff (pools : Pools) (backend : RelayBackend) (capacity : Capacity)
    (hselect : pools.select = .ok (backend, capacity)) (bytes : BoundaryBytes) :
    (∀ source sink p result, runPump backend capacity false source sink = (p, result) →
      Truncated source sink p result → (Fails (runDirectional pools source sink bytes).2 ↔ sink.Accepts)) ∧
    ∀ upFirst up down p q upResult downResult, up.1.bytes.length < 2 ^ 64 → down.1.bytes.length < 2 ^ 64 →
      runPump backend capacity false up.1 up.2 = (p, upResult) → runPump backend capacity false down.1 down.2 = (q, downResult) →
      tryJoin upFirst upResult downResult = .error (.io .timedOut) →
      Truncated up.1 up.2 p upResult ∨ Truncated down.1 down.2 q downResult →
      (Fails (runHandoff pools upFirst up down bytes).2.2 ↔
        up.1.bytes ≠ [] ∧ up.2.Accepts ∨ down.1.bytes ≠ [] ∧ down.2.Accepts) := by
  refine ⟨fun source sink p result hp h => ?_, fun upFirst up down p q upResult downResult hfew hfew' hup hdown hjoin _ => ?_⟩
  · have hmoved := moved_iff hp (.inl h.1)
    obtain ⟨rfl, hlost⟩ := h
    have hne : source.bytes ≠ [] := List.ne_nil_of_length_pos (by omega)
    have hfails := fails_iff (p.moved == 0) (.ofDirect bytes.total none none bytes.directAt)
    rw [beq_eq_false_iff_ne, hmoved, and_iff_right hne] at hfails
    rw [← hfails]
    simp only [runDirectional, relayDirection, hselect, hp]
    split_ifs <;> rfl
  · have hfails := fails_iff (p.moved == 0 && q.moved == 0) (.ofDirect bytes.total none none bytes.directAt)
    rw [Bool.and_eq_false_iff, beq_eq_false_iff_ne, beq_eq_false_iff_ne, moved_iff hup (.inr hfew), moved_iff hdown (.inr hfew')] at hfails
    rw [← hfails]
    simp only [runHandoff, relayOwned, hselect, hup, hdown, hjoin]
    split_ifs <;> rfl

/-- The destination takes one byte of a chunk and stalls: the session fails. -/
theorem stall_after_first_byte_fails :
    Fails (runDirectional ⟨none, .ok ⟨4, by decide⟩⟩ [.data 1 [2, 3]] (.fresh [.accept 0, .fail .timeout]) ⟨0, 0⟩).2 :=
  ((stalled_transfer_fails_iff ⟨none, .ok ⟨4, by decide⟩⟩ .buffered ⟨4, by decide⟩ rfl ⟨0, 0⟩).1 [.data 1 [2, 3]]
    (.fresh [.accept 0, .fail .timeout]) _ _ rfl (by decide)).2 (by rintro _ ⟨⟩; exact ⟨0, rfl⟩)

/-- One chunk is read and the destination takes none of it: the direction is closed as if it had been idle. -/
theorem first_chunk_stall_closes :
    let pools : Pools := ⟨none, .ok ⟨4, by decide⟩⟩
    let sink := Sink.fresh [.fail .timeout]
    let (p, result) := runPump .buffered ⟨4, by decide⟩ false [.data 1 [2, 3]] sink
    Truncated [.data 1 [2, 3]] sink p result ∧
      (runDirectional pools [.data 1 [2, 3]] sink ⟨0, 0⟩).2 = .ok (.ofDirect 0 none none 0) := by
  decide

end RustReality.Vision
