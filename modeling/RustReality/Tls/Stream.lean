import RustReality.Tls.ReaderSpec
import RustReality.Tls.Writer

/-!
# Streams of records

A record is whole by its header alone, a wire that stops inside one holds none, and a sealed record is
one that a receiver in the sealer's state opens to what was sealed.
-/

namespace RustReality.Tls
open List

variable {S K : Type} (crypto : RecordCrypto S K)

structure WholeRecord (record : Bytes) : Prop where
  length : record.length = headerLen + bodyLen record
  pos : 0 < bodyLen record
  le : bodyLen record ≤ maxCiphertextLen

theorem WholeRecord.nextRecord {record : Bytes} (h : WholeRecord record) (rest : Bytes) :
    nextRecord (record ++ rest) = .record record rest := by
  have hl := h.length
  have hp := h.pos
  have hle := h.le
  have hb : bodyLen (record ++ rest) = bodyLen record := bodyLen_append (by omega)
  rw [Tls.nextRecord, hb, length_append, if_neg (by omega), if_neg (by omega), if_neg (by omega),
    ← hl, take_left, drop_left]

theorem WholeRecord.nextRecord_cut {record sent : Bytes} (h : WholeRecord record) (hs : sent <+: record)
    (hne : sent ≠ record) : Tls.nextRecord sent = .incomplete := by
  obtain ⟨more, rfl⟩ := hs
  have hm : 0 < more.length := length_pos_of_ne_nil fun hn => hne (by simp [hn])
  have hl := h.length
  have hp := h.pos
  have hle := h.le
  rw [length_append] at hl
  unfold Tls.nextRecord
  split_ifs with hsh hb hln
  · rfl
  · rw [bodyLen_append (by omega)] at hp hle
    omega
  · rfl
  · rw [bodyLen_append (by omega)] at hl
    omega

theorem WholeRecord.length_pos {record : Bytes} (h : WholeRecord record) : 0 < record.length := by
  have := h.length
  have := h.pos
  omega

/-! ### Sealed records -/

namespace Tls13RecordLayer

variable {crypto}

theorem splitInner_padded (plaintext : Bytes) (type : ContentType) (padding : Nat) :
    splitInner (plaintext ++ type.wireValue :: List.replicate padding 0) = some (type.wireValue, plaintext) := by
  have hne : (type.wireValue == 0) = false := beq_false_of_ne type.wireValue_ne_zero
  have hz : (List.replicate padding (0 : UInt8)).dropWhile (· == 0) = [] := by
    rw [dropWhile_eq_nil_iff]
    intro byte hb
    rw [eq_of_mem_replicate hb]
    rfl
  rw [splitInner, reverse_append, reverse_cons, reverse_replicate, append_assoc,
    dropWhile_append, hz, isEmpty_nil, if_pos rfl, singleton_append, dropWhile_cons, hne]
  simp

variable {self self' : Tls13RecordLayer S K}

theorem sealRecord_ok {type : ContentType} {plaintext record : Bytes}
    (h : self.sealRecord crypto type plaintext = .ok (self', record)) :
    self.ensureKeyAvailable = .ok () ∧ plaintext.length ≤ maxPlaintextLen ∧ self.advance = .ok self' ∧
      ∃ body, crypto.sealBody self.key self.nonce (recordHeader (plaintext.length + 1 + tagLen))
          (plaintext ++ [type.wireValue]) = some body ∧
        record = recordHeader (plaintext.length + 1 + tagLen) ++ body := by
  unfold sealRecord at h
  cases hk : self.ensureKeyAvailable with
  | error e => simp [hk, bind, Except.bind] at h
  | ok u =>
    simp only [hk, bind, Except.bind] at h
    split_ifs at h with hl
    simp only [pure, Except.pure, length_append, length_singleton] at h
    split at h
    · cases h
    · rename_i body hb
      cases ha : self.advance with
      | error e => simp [ha] at h
      | ok next =>
        simp only [ha, Except.ok.injEq, Prod.mk.injEq] at h
        obtain ⟨rfl, rfl⟩ := h
        exact ⟨rfl, by omega, rfl, body, hb, rfl⟩

theorem length_recordHeader (n : Nat) : (recordHeader n).length = headerLen := by
  simp [recordHeader, legacyRecordVersion, headerLen]

theorem bodyLen_recordHeader {n : Nat} (h : n < 2 ^ 16) (body : Bytes) : bodyLen (recordHeader n ++ body) = n := by
  have hs : slice (recordHeader n ++ body) 3 5 = beBytes 2 n :=
    slice_middle (outerApplicationData :: legacyRecordVersion) (beBytes 2 n) body
  rw [bodyLen, hs, ofBe_beBytes h]

theorem openInPlace_sealed (type : ContentType) (plaintext : Bytes) (padding : Nat)
    {body : Bytes} (hk : self.ensureKeyAvailable = .ok ())
    (hlen : plaintext.length + 1 + padding ≤ maxInnerPlaintextLen) (ha : self.advance = .ok self')
    (hs : crypto.sealBody self.key self.nonce (recordHeader (plaintext.length + 1 + padding + tagLen))
      (plaintext ++ type.wireValue :: List.replicate padding 0) = some body) :
    WholeRecord (recordHeader (plaintext.length + 1 + padding + tagLen) ++ body) ∧
      ∃ storage, self.openInPlace crypto (recordHeader (plaintext.length + 1 + padding + tagLen) ++ body) =
        (self', storage, .ok ⟨type, plaintext⟩) := by
  have hm : maxInnerPlaintextLen + tagLen < 2 ^ 16 := by decide
  have hb := crypto.seal_length hs
  rw [length_append, length_cons, length_replicate] at hb
  generalize hsz : plaintext.length + 1 + padding + tagLen = size at *
  have hd : bodyLen (recordHeader size ++ body) = size := bodyLen_recordHeader (by omega) body
  have hw : WholeRecord (recordHeader size ++ body) := by
    refine ⟨?_, ?_, ?_⟩
    · rw [hd, length_append, length_recordHeader]
      omega
    · omega
    · unfold maxCiphertextLen
      omega
  have hf : checkFraming (recordHeader size ++ body) = .ok () := by
    have hl := hw.length
    rw [checkFraming, hd, hl, if_neg (by omega), if_neg (by simp [recordHeader, legacyRecordVersion, slice]),
      if_neg (by unfold maxCiphertextLen; omega)]
  have ht : (recordHeader size ++ body).take headerLen = recordHeader size := take_left' (length_recordHeader _)
  have hdr : (recordHeader size ++ body).drop headerLen = body := drop_left' (length_recordHeader _)
  have hi : readInner (plaintext ++ type.wireValue :: List.replicate padding 0) = .ok ⟨type, plaintext⟩ := by
    rw [readInner, splitInner_padded]
    simp
  refine ⟨hw, overwrite (recordHeader size ++ body) headerLen
    (plaintext ++ type.wireValue :: List.replicate padding 0), ?_⟩
  simp only [openInPlace, hk, bind, Except.bind, hf, ht, hdr, crypto.open_seal hs, ha, hi]

theorem openInPlace_sealRecord {type : ContentType} {plaintext record : Bytes}
    (h : self.sealRecord crypto type plaintext = .ok (self', record)) :
    WholeRecord record ∧ ∃ storage, self.openInPlace crypto record = (self', storage, .ok ⟨type, plaintext⟩) := by
  obtain ⟨hk, hl, ha, body, hs, rfl⟩ := sealRecord_ok h
  exact openInPlace_sealed type plaintext 0 hk (Nat.succ_le_succ hl) ha hs

end Tls13RecordLayer

end RustReality.Tls
