import RustReality.Tls.WriterSpec

/-!
# Record layers that change hands

A direction leaves its node as a traffic secret and a sequence number and is rebuilt from them on
another one. Key and IV are not sent: the rebuilt layer is the exported one because a live layer holds
the keys of its secret at all times (`Live`).
-/

namespace RustReality.Tls
open Net

variable {S K : Type} (crypto : RecordCrypto S K)

structure ExportedRecordState (S : Type) where
  suite : CipherSuite
  trafficSecret : S
  sequence : Nat

namespace Tls13RecordLayer

def fromTrafficSecret (suite : CipherSuite) (trafficSecret : S) : Except Tls13RecordError (Tls13RecordLayer S K) :=
  match crypto.keys suite trafficSecret with
  | none => .error .invalidKey
  | some (key, iv) => .ok { suite, key, iv, traffic := some trafficSecret, sequence := 0, writeFailed := false }

def intoExportedState (self : Tls13RecordLayer S K) : Except Tls13RecordError (ExportedRecordState S) :=
  match self.ensureWriteReady with
  | .error e => .error e
  | .ok () =>
    match self.traffic with
    | none => .error .keyUpdateUnavailable
    | some trafficSecret => .ok { suite := self.suite, trafficSecret, sequence := self.sequence }

def fromExportedState (state : ExportedRecordState S) : Except Tls13RecordError (Tls13RecordLayer S K) :=
  match fromTrafficSecret crypto state.suite state.trafficSecret with
  | .error e => .error e
  | .ok layer =>
    let layer := { layer with sequence := state.sequence }
    match layer.ensureKeyAvailable with
    | .error e => .error e
    | .ok () => .ok layer

end Tls13RecordLayer

structure EstablishedTls (S K : Type) where
  suite : CipherSuite
  clientRecords : Tls13RecordLayer S K
  serverRecords : Tls13RecordLayer S K

def EstablishedTls.fromExportedState (client server : ExportedRecordState S) :
    Except Tls13RecordError (EstablishedTls S K) :=
  if client.suite ≠ server.suite then .error .invalidKey
  else
    match Tls13RecordLayer.fromExportedState crypto client with
    | .error e => .error e
    | .ok clientRecords =>
      match Tls13RecordLayer.fromExportedState crypto server with
      | .error e => .error e
      | .ok serverRecords => .ok { suite := client.suite, clientRecords, serverRecords }

theorem EstablishedTls.fromExportedState_ok {client server : ExportedRecordState S} {tls : EstablishedTls S K}
    (h : EstablishedTls.fromExportedState crypto client server = .ok tls) :
    Tls13RecordLayer.fromExportedState crypto client = .ok tls.clientRecords ∧
      Tls13RecordLayer.fromExportedState crypto server = .ok tls.serverRecords := by
  unfold EstablishedTls.fromExportedState at h
  split at h
  · cases h
  split at h
  · cases h
  next hclient =>
  split at h
  · cases h
  next hserver =>
  cases h
  exact ⟨hclient, hserver⟩

/-! ### The two halves of a connection -/

/-- `TlsApplicationReader::into_handoff_parts`: the bytes read ahead, the transport and the records. -/
def TlsApplicationReader.intoHandoffParts (self : TlsApplicationReader S K) :
    Bytes × Source × Tls13RecordLayer S K := (self.buffered, self.io, self.records)

/-- `TlsApplicationWriter::into_handoff_parts`: the transport, the records and the response that is owed. -/
def TlsApplicationWriter.intoHandoffParts (self : TlsApplicationWriter S K) :
    Sink × Tls13RecordLayer S K × Bool := (self.io, self.records, self.owed)

structure HalvesEnv where
  /-- Capacity of the read-ahead storage behind its bytes. -/
  spare : Nat
  readerHeap : List Bool
  requests : List Bool
  writerHeap : List (Option Nat)

def resumeApplicationHalves (env : HalvesEnv) (reader : Source) (pendingCiphertext : Bytes) (writer : Sink)
    (tls : EstablishedTls S K) (keyUpdateResponsePending : Bool) :
    TlsApplicationReader S K × TlsApplicationWriter S K :=
  (.new reader tls.clientRecords pendingCiphertext (pendingCiphertext.length + env.spare) env.readerHeap,
    { io := writer
      records := tls.serverRecords
      owed := keyUpdateResponsePending
      requests := env.requests
      capacity := 0
      heap := env.writerHeap })

/-! ### Live layers -/

namespace Tls13RecordLayer

/-- The key and the IV are those of the secret, and the sequence fits its counter. -/
structure Live (layer : Tls13RecordLayer S K) : Prop where
  keyed : ∀ secret ∈ layer.traffic, crypto.keys layer.suite secret = some (layer.key, layer.iv)
  sequence_lt : layer.sequence < 2 ^ 64

variable {crypto}

theorem Live.of_fromTrafficSecret {suite : CipherSuite} {secret : S} {layer : Tls13RecordLayer S K}
    (h : fromTrafficSecret crypto suite secret = .ok layer) : layer.Live crypto ∧ layer.suite = suite := by
  unfold fromTrafficSecret at h
  split at h
  · cases h
  · next key iv hk =>
    cases h
    refine ⟨⟨?_, Nat.two_pow_pos 64⟩, rfl⟩
    rintro _ ⟨⟩
    exact hk

variable {self self' : Tls13RecordLayer S K}

theorem Live.advance (hl : self.Live crypto) (h : self.advance = .ok self') :
    self'.Live crypto ∧ self'.suite = self.suite := by
  unfold Tls13RecordLayer.advance at h
  split at h
  · next hlt =>
    cases h
    exact ⟨⟨hl.keyed, hlt⟩, rfl⟩
  · cases h

theorem Live.updateTrafficSecret (h : self.updateTrafficSecret crypto = .ok self') :
    self'.Live crypto ∧ self'.suite = self.suite := by
  obtain ⟨secret, key, iv, hk, rfl⟩ := updateTrafficSecret_eq h
  refine ⟨⟨?_, Nat.two_pow_pos 64⟩, rfl⟩
  rintro _ ⟨⟩
  exact hk

theorem Live.openInPlace {record opened : Bytes}
    {result : Except Tls13RecordError OpenedRecord} (hl : self.Live crypto)
    (h : self.openInPlace crypto record = (self', opened, result)) :
    self'.Live crypto ∧ self'.suite = self.suite := by
  unfold Tls13RecordLayer.openInPlace at h
  split at h
  · cases h
    exact ⟨hl, rfl⟩
  · split at h
    · cases h
      exact ⟨hl, rfl⟩
    · split at h
      · cases h
        exact ⟨hl, rfl⟩
      · next ha =>
        cases h
        exact hl.advance ha

theorem intoExportedState_ok {self : Tls13RecordLayer S K} {state : ExportedRecordState S}
    (h : self.intoExportedState = .ok state) : state.suite = self.suite ∧ state.sequence = self.sequence := by
  unfold intoExportedState at h
  split at h
  · cases h
  · split at h
    · cases h
    · cases h
      exact ⟨rfl, rfl⟩

theorem fromExportedState_intoExportedState {self layer : Tls13RecordLayer S K} {state : ExportedRecordState S}
    (hl : self.Live crypto) (he : self.intoExportedState = .ok state)
    (hr : fromExportedState crypto state = .ok layer) : layer = self := by
  obtain ⟨suite, key, iv, traffic, sequence, writeFailed⟩ := self
  cases writeFailed with
  | true => cases he
  | false =>
    cases traffic with
    | none => cases he
    | some secret =>
      cases he
      have hk : crypto.keys suite secret = some (key, iv) := hl.keyed secret rfl
      simp only [fromExportedState, fromTrafficSecret, hk] at hr
      split at hr
      · cases hr
      · cases hr
        rfl

end Tls13RecordLayer

/-! ### Reading keeps a layer live -/

variable {crypto}

theorem processOpenedRecord_live {records records' : Tls13RecordLayer S K} {keyUpdate keyUpdate' : Bytes}
    {opened : Tls13RecordLayer.OpenedRecord} {result : Except TlsApplicationIoError OpenedRecordOutcome}
    (hl : records.Live crypto)
    (h : processOpenedRecord crypto records keyUpdate opened = (records', keyUpdate', result)) :
    records'.Live crypto ∧ records'.suite = records.suite := by
  have hk : records.Live crypto ∧ records.suite = records.suite := ⟨hl, rfl⟩
  unfold processOpenedRecord at h
  repeat' split at h
  all_goals cases h
  all_goals first
    | exact hk
    | exact Tls13RecordLayer.Live.updateTrafficSecret (by assumption)

namespace RecordState

theorem process_live {st : RecordState S K} (hl : st.records.Live crypto) (record : Bytes) :
    (st.process crypto record).1.records.Live crypto ∧
      (st.process crypto record).1.records.suite = st.records.suite := by
  unfold process
  rcases hop : st.records.openInPlace crypto record with ⟨records, storage, result⟩
  obtain ⟨ho, hs⟩ := hl.openInPlace hop
  cases result with
  | error e => exact ⟨ho, hs⟩
  | ok opened =>
    rcases hp : processOpenedRecord crypto records st.keyUpdate opened with ⟨records', keyUpdate, outcome⟩
    obtain ⟨hpr, hs'⟩ := processOpenedRecord_live ho hp
    have hb := And.intro hpr (hs'.trans hs)
    dsimp only
    rw [hp]
    cases outcome with
    | error e => exact hb
    | ok outcome => cases outcome <;> exact hb

/-- Only application data has content, and none is accepted inside a split KeyUpdate. -/
theorem process_keyUpdate_nil {st : RecordState S K} {record plaintext : Bytes}
    (h : (st.process crypto record).2 = .ok plaintext) (hne : plaintext ≠ []) :
    (st.process crypto record).1.keyUpdate = [] := by
  unfold process at h ⊢
  rcases ho : st.records.openInPlace crypto record with ⟨records, storage, result⟩
  rw [ho] at h
  cases result with
  | error e => cases h
  | ok opened =>
    rcases hpr : processOpenedRecord crypto records st.keyUpdate opened with ⟨records', keyUpdate, outcome⟩
    dsimp only at h ⊢
    rw [hpr] at h
    rw [hpr]
    cases outcome with
    | error e => cases h
    | ok outcome =>
      cases outcome with
      | control requested =>
        cases h
        exact absurd rfl hne
      | applicationData len =>
        unfold processOpenedRecord at hpr
        repeat' split at hpr
        all_goals cases hpr
        next hn => exact not_not.mp hn

end RecordState

end RustReality.Tls
