import RustReality.Tls.Stream

/-!
# Small steps of the writer

Each helper of the writer by what it does to the socket, the record state and the buffers. None of them
fails when sockets, allocator and cryptography do their part (`Ready`).
-/

namespace RustReality.Tls
open Net

variable {S K : Type} {crypto : RecordCrypto S K}

namespace Tls13RecordLayer

theorem keyUsageLimit_bounds (self : Tls13RecordLayer S K) :
    2 ≤ self.keyUsageLimit ∧ self.keyUsageLimit < 2 ^ 64 := by
  unfold keyUsageLimit aesGcmRecordLimit chacha20Poly1305RecordLimit
  split <;> omega

variable {self self' : Tls13RecordLayer S K}

theorem advance_ok (h : self.advance = .ok self') :
    self' = { self with sequence := self.sequence + 1 } := by
  unfold advance at h
  split_ifs at h
  exact (Except.ok.inj h).symm

theorem updateTrafficSecret_eq (h : self.updateTrafficSecret crypto = .ok self') :
    ∃ secret key iv, crypto.keys self.suite secret = some (key, iv) ∧
      self' = { self with key, iv, traffic := some secret, sequence := 0 } := by
  unfold updateTrafficSecret at h
  cases hre : self.ensureWriteReady with
  | error e => simp [hre, bind, Except.bind] at h
  | ok u =>
    cases ht : self.traffic with
    | none => simp [hre, ht, bind, Except.bind, throw, throwThe, MonadExceptOf.throw] at h
    | some current =>
      cases hu : crypto.updated current with
      | none => simp [hre, ht, hu, bind, Except.bind, pure, Except.pure, throw, throwThe,
          MonadExceptOf.throw] at h
      | some secret =>
        cases hk : crypto.keys self.suite secret with
        | none => simp [hre, ht, hu, hk, bind, Except.bind, pure, Except.pure, throw, throwThe,
            MonadExceptOf.throw] at h
        | some keys =>
          simp only [hre, ht, hu, hk, bind, Except.bind, pure, Except.pure, Except.ok.injEq] at h
          exact ⟨secret, keys.1, keys.2, hk, h.symm⟩

theorem updateTrafficSecret_ok (h : self.updateTrafficSecret crypto = .ok self') :
    self'.sequence = 0 ∧ self'.suite = self.suite ∧ self'.writeFailed = self.writeFailed ∧ self'.traffic.isSome := by
  obtain ⟨secret, key, iv, -, rfl⟩ := updateTrafficSecret_eq h
  exact ⟨rfl, rfl, rfl, rfl⟩

end Tls13RecordLayer

namespace TlsApplicationWriter

structure Ready (w : TlsApplicationWriter S K) : Prop where
  accepts : w.io.Healthy
  grants : none ∉ w.heap
  writable : w.records.writeFailed = false
  secret : w.records.traffic.isSome
  key : w.records.sequence < w.records.keyUsageLimit

/-! ### Small steps -/

variable {w w' : TlsApplicationWriter S K}

theorem transmit_spec {wire : Bytes} {result : Except TlsApplicationIoError Unit} (h : w.transmit wire = (w', result)) :
    (result = .ok () ∧ w' = { w with io := w'.io } ∧ w'.io.written = w.io.written ++ wire ∧
        (w.io.Healthy → w'.io.Healthy)) ∨
      ∃ e sent, result = .error e ∧ w' = fail { w with io := w'.io } ∧ sent <+: wire ∧
        w'.io.written = w.io.written ++ sent ∧ ¬w.io.Healthy := by
  unfold transmit at h
  rcases hw : w.io.writeAll wire with ⟨io, outcome⟩
  obtain ⟨sent, hwr, hf, ha⟩ := Sink.writeAll_spec hw
  have hh := fun hs : w.io.Healthy => Sink.writeAll_healthy hs wire
  rw [hw] at hh
  simp only [hw] at h
  cases outcome with
  | error failure =>
    cases h
    exact .inr ⟨_, sent, rfl, rfl, hf, hwr, fun hs => by simpa using (hh hs).2⟩
  | ok u =>
    cases h
    exact .inl ⟨rfl, rfl, by rw [← ha rfl, hwr], fun hs => (hh hs).1⟩

theorem observe_spec (w : TlsApplicationWriter S K) :
    w.observe = { w with owed := w.observe.owed, requests := w.observe.requests } := by
  obtain ⟨io, records, owed, requests, capacity, heap, generation, log⟩ := w
  cases requests <;> rfl

/-- Nothing was sealed or written. -/
structure Same (w w' : TlsApplicationWriter S K) : Prop where
  io : w'.io = w.io
  records : w'.records = w.records
  generation : w'.generation = w.generation
  log : w'.log = w.log

theorem Same.rfl : Same w w := ⟨Eq.refl _, Eq.refl _, Eq.refl _, Eq.refl _⟩

theorem reserve_spec (w : TlsApplicationWriter S K) (size : Nat) :
    Same w (w.reserve size).1 ∧ (Ready w → Ready (w.reserve size).1 ∧ (w.reserve size).2 = true) := by
  obtain ⟨io, records, owed, requests, capacity, heap, generation, log⟩ := w
  unfold reserve
  split_ifs with hr
  · exact ⟨.rfl, fun h => ⟨h, rfl⟩⟩
  · match heap with
    | [] => exact ⟨⟨rfl, rfl, rfl, rfl⟩, fun h => ⟨⟨h.accepts, h.grants, h.writable, h.secret, h.key⟩, rfl⟩⟩
    | none :: heap => exact ⟨⟨rfl, rfl, rfl, rfl⟩, fun h => absurd List.mem_cons_self h.grants⟩
    | some spare :: heap =>
      exact ⟨⟨rfl, rfl, rfl, rfl⟩,
        fun h => ⟨⟨h.accepts, fun hm => h.grants (.tail _ hm), h.writable, h.secret, h.key⟩, rfl⟩⟩

theorem needsKeyUpdate_eq_false {records : Tls13RecordLayer S K} :
    records.needsKeyUpdate = false ↔ records.sequence + 1 < records.keyUsageLimit := by
  simp only [Tls13RecordLayer.needsKeyUpdate, decide_eq_false_iff_not]
  omega

/-- More than the last record of the key is left, as after a look at it. -/
def Fresh (w : TlsApplicationWriter S K) : Prop := w.records.needsKeyUpdate = false

/-! ### Operations -/

theorem rekey_spec {result : Except TlsApplicationIoError Bool} (h : w.rekey crypto = (w', result)) :
    (∃ records, result = .ok true ∧ w.records.updateTrafficSecret crypto = .ok records ∧
        w' = { w with records, generation := w.generation + 1 }) ∨
      ∃ e, result = .error (.record e) ∧ w.records.updateTrafficSecret crypto = .error e ∧ w' = w.fail := by
  unfold rekey at h
  cases hu : w.records.updateTrafficSecret crypto with
  | error e =>
    simp only [hu] at h
    cases h
    exact .inr ⟨e, rfl, rfl, rfl⟩
  | ok records =>
    simp only [hu] at h
    cases h
    exact .inl ⟨records, rfl, rfl, rfl⟩

theorem growBatched_spec {ρ : Type} {reader reader' : ρ} {read : Nat}
    {result : Except TlsApplicationIoError Nat} (h : w.growBatched reader read = (w', reader', result)) :
    reader' = reader ∧ Same w w' ∧
      ((result = .ok read ∧ (Ready w → Ready w')) ∨ ∃ e, result = .error e ∧ ¬Ready w) := by
  unfold growBatched at h
  split_ifs at h with hf
  · obtain ⟨hsame, hready⟩ := reserve_spec w batchedWireCapacity
    rcases hrs : w.reserve batchedWireCapacity with ⟨mid, granted⟩
    rw [hrs] at hsame hready
    simp only [hrs] at h
    cases granted with
    | false =>
      cases h
      exact ⟨rfl, hsame, .inr ⟨_, rfl, fun hr => by simpa using (hready hr).2⟩⟩
    | true =>
      cases h
      exact ⟨rfl, hsame, .inl ⟨rfl, fun hr => (hready hr).1⟩⟩
  · cases h
    exact ⟨rfl, .rfl, .inl ⟨rfl, id⟩⟩

end TlsApplicationWriter

end RustReality.Tls
