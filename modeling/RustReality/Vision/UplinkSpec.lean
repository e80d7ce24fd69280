import RustReality.Vision.Uplink
import RustReality.Vision.Fragmentation
import RustReality.Tls.ReaderSpec

/-!
# What the uplink delivers

The client's stream determines what should arrive: the one-shot decoding of the plaintext of its
records up to the Direct boundary, then the raw bytes behind it (`expected`). Staging, batching,
borrowed decoding and read-ahead do not change it; an error only cuts it short.
-/

namespace RustReality.Vision
open VisionDecoder Phase DirectionStats DirectHandoff List Option
open Vless (UserId)
open Net Tls Transport

variable {S K : Type} (crypto : RecordCrypto S K)

/-! ### The client's stream -/

inductive ClientEnd
  /-- At the Direct boundary, before these raw bytes. -/
  | direct (raw : Bytes)
  | closed
  | broken
  deriving DecidableEq, Repr

def ClientEnd.raw : ClientEnd → Bytes
  | .direct raw => raw
  | _ => []

def ClientEnd.ofError : TlsApplicationIoError → ClientEnd
  | .peerAlert _ description => if description = 0 then .closed else .broken
  | _ => .broken

theorem ClientEnd.ofError_ne_direct (e : TlsApplicationIoError) (raw : Bytes) : ClientEnd.ofError e ≠ .direct raw := by
  unfold ofError
  split
  · split <;> simp
  · simp

/-- The plaintext of the records up to the end of the framing, read record by record. -/
def clientStream : Nat → RecordState S K → Phase → Bytes → Bytes × ClientEnd
  | 0, _, _, _ => ([], .broken)
  | fuel + 1, st, ph, wire =>
    if ph = .done .direct then ([], .direct wire)
    else if ph.error?.isSome then ([], .broken)
    else
      match nextRecord wire with
      | .record record rest =>
        match st.process crypto record with
        | (st, .ok plaintext) =>
          let (tail, ending) := clientStream fuel st (ph.feedAll plaintext).1 rest
          (plaintext ++ tail, ending)
        | (_, .error e) => ([], .ofError e)
      | _ => ([], .broken)

def decodeOnce (userId : UserId) (stream : Bytes) : Bytes := ((new userId).decode true stream []).2.1

theorem decodeOnce_eq (userId : UserId) (stream : Bytes) :
    decodeOnce userId stream = ((init userId).feedAll stream).2 := by
  have hi : VisionDecoder.Tracks (.new userId) (.init userId) := .ready (.new userId)
  obtain ⟨d, emitted, result, heq, hs⟩ := decodeAppend_spec hi true stream []
  rw [decodeOnce, decode, heq]
  exact (hs.resolve_left (by simp)).yielded

theorem decodeOnce_front (userId : UserId) (stream more : Bytes) :
    decodeOnce userId stream <+: decodeOnce userId (stream ++ more) := by
  rw [decodeOnce_eq, decodeOnce_eq, feedAll_append]
  exact prefix_append _ _

/-! ### Counters -/

theorem saturatingAdd_min (n k : Nat) : saturatingAdd (min n (2 ^ 64 - 1)) k = min (n + k) (2 ^ 64 - 1) := by
  unfold saturatingAdd
  omega

namespace Stage

def Grants (s : Stage) : Prop := none ∉ s.heap

theorem tryReserve_spec (s : Stage) (additional : Nat) :
    (s.tryReserve additional).1.bytes = s.bytes ∧
      (s.Grants → (s.tryReserve additional).1.Grants ∧ (s.tryReserve additional).2 = true) := by
  obtain ⟨bytes, capacity, heap⟩ := s
  unfold tryReserve
  split_ifs with hr
  · exact ⟨rfl, fun h => ⟨h, rfl⟩⟩
  · match heap with
    | [] => exact ⟨rfl, fun h => ⟨h, rfl⟩⟩
    | none :: heap => exact ⟨rfl, fun h => absurd mem_cons_self h⟩
    | some spare :: heap => exact ⟨rfl, fun h => ⟨fun hm => h (.tail _ hm), rfl⟩⟩

end Stage

variable {ph : Phase}

namespace Uplink

def out (u : Uplink S K) : Bytes := u.destination.written ++ u.stage.bytes

def Counted (u : Uplink S K) : Prop := u.bytes = min u.destination.written.length (2 ^ 64 - 1)

/-- The destination takes every write and the allocator grants everything. -/
structure Sound (u : Uplink S K) : Prop where
  accepts : u.destination.Healthy
  grants : u.stage.Grants

structure Progress (u u' : Uplink S K) (emitted : Bytes) : Prop where
  out : u'.out = u.out ++ emitted
  counted : u.Counted → u'.Counted
  sound : u.Sound → u'.Sound
  script : u'.destination.script <:+ u.destination.script

/-- A step that failed has written part of what was decoded before. -/
def Cut (u u' : Uplink S K) : Prop := u'.destination.written <+: u.out

variable {u u' : Uplink S K} {result : Except VisionSessionError UplinkStep}

theorem Progress.trans {u'' : Uplink S K} {a b : Bytes} (h : Progress u u' a) (h' : Progress u' u'' b) :
    Progress u u'' (a ++ b) :=
  ⟨by rw [h'.out, h.out, append_assoc], fun hc => h'.counted (h.counted hc), fun hs => h'.sound (h.sound hs),
    h'.script.trans h.script⟩

theorem Progress.cut {u'' : Uplink S K} {a : Bytes} (h : Progress u u' a) (h' : Cut u' u'') :
    u''.destination.written <+: u.out ++ a := h.out ▸ h'

theorem Progress.refl : Progress u u [] := ⟨by simp, id, id, suffix_rfl⟩

theorem flushUplink_spec {result : Except VisionSessionError Unit}
    (h : u.flushUplink = (u', result)) :
    (∃ e, result = .error e ∧ Cut u u' ∧ ¬u.Sound) ∨
      (result = .ok () ∧ Progress u u' [] ∧ u'.stage.bytes = [] ∧ u'.client = u.client ∧ u'.decoder = u.decoder) := by
  unfold flushUplink at h
  split_ifs at h with he
  · cases h
    exact .inr ⟨rfl, .refl, he, rfl, rfl⟩
  rcases hw : u.destination.writeAll u.stage.bytes with ⟨destination, outcome⟩
  obtain ⟨sent, hsn, hf, ha⟩ := Sink.writeAll_spec hw
  have hh := fun hs : u.destination.Healthy => Sink.writeAll_healthy hs u.stage.bytes
  rw [hw] at hh
  simp only [hw] at h
  cases outcome with
  | error failure =>
    cases h
    refine .inl ⟨_, rfl, ?_, fun hs => by simpa using (hh hs.accepts).2⟩
    show destination.written <+: u.destination.written ++ u.stage.bytes
    rw [hsn]
    exact (prefix_append_right_inj _).mpr hf
  | ok x =>
    cases h
    obtain rfl := ha rfl
    refine .inr ⟨rfl, ⟨?_, fun hc => ?_, fun hs => ⟨(hh hs.accepts).1, hs.grants⟩, Sink.script_writeAll hw⟩, rfl, rfl, rfl⟩
    · simp [out, hsn]
    · rw [Counted] at hc ⊢
      simp only [hc, hsn, length_append, saturatingAdd_min]

theorem makeRoom_spec {n : Nat} {result : Except VisionSessionError Unit}
    (h : u.makeRoom n = (u', result)) :
    (∃ e, result = .error e ∧ Cut u u' ∧ ¬u.Sound) ∨
      (result = .ok () ∧ Progress u u' [] ∧ u'.client = u.client ∧ u'.decoder = u.decoder) := by
  unfold makeRoom at h
  split_ifs at h with hfl
  · rcases hf : u.flushUplink with ⟨mid, outcome⟩
    simp only [hf] at h
    obtain ⟨e, rfl, hct, hfa⟩ | ⟨rfl, hpr, he, hc, hd⟩ := flushUplink_spec hf
    · cases h
      exact .inl ⟨e, rfl, hct, hfa⟩
    dsimp only at h
    split_ifs at h with hsm
    · obtain ⟨hb, hg⟩ := Stage.tryReserve_spec mid.stage (uplinkStageCapacity - mid.stage.capacity)
      rcases hr : mid.stage.tryReserve (uplinkStageCapacity - mid.stage.capacity) with ⟨stage, granted⟩
      rw [hr] at hb hg
      simp only [hr] at h
      cases granted with
      | true =>
        cases h
        refine .inr ⟨rfl, ⟨?_, hpr.counted, fun hs => ?_, hpr.script⟩, hc, hd⟩
        · rw [← hpr.out, out, out, hb]
        · exact ⟨(hpr.sound hs).accepts, (hg (hpr.sound hs).grants).1⟩
      | false =>
        cases h
        refine .inl ⟨_, rfl, ?_, fun hs => by simpa using (hg (hpr.sound hs).grants).2⟩
        have ho := hpr.out
        rw [append_nil, out, he, append_nil] at ho
        exact ⟨[], (append_nil _).trans ho⟩
    · cases h
      exact .inr ⟨rfl, hpr, hc, hd⟩
  · cases h
    exact .inr ⟨rfl, .refl, rfl, rfl⟩

/-- Decoding a fragment from a phase: it fails with the decoder or for want of memory, or the stage has
gained what the byte machine emits. -/
def Decodes (u u' : Uplink S K) (ph : Phase) (input : Bytes) (result : Except VisionSessionError VisionMode) :
    Prop :=
  (∃ e, result = .error e ∧ Cut u u' ∧
      ¬(u.Sound ∧ (ph.feedAll input).1.error? = none)) ∨
    (result = .ok (ph.feedAll input).1.mode ∧ (ph.feedAll input).1.error? = none ∧
      VisionDecoder.Tracks u'.decoder (ph.feedAll input).1 ∧ Progress u u' (ph.feedAll input).2 ∧
      u'.client = u.client)

/-- A staging call on a stage that differs from the uplink's own only in its capacity. -/
theorem decodes_of_staged {input : Bytes} (hsound : ph.error? = none) {stage : Stage}
    {reserved : Bool} (hb : stage.bytes = u.stage.bytes)
    (hg : u.stage.Grants → stage.Grants ∧ reserved = true) {decoder : VisionDecoder} {emitted : Bytes}
    {result : Except VisionDecodeError VisionMode}
    (h : (reserved = false ∧ result = .error .allocationFailed) ∨
      VisionDecoder.Answers ph input decoder ⟨emitted, result⟩) :
    Decodes u { u with decoder, stage := { stage with bytes := stage.bytes ++ emitted } } ph input
      (result.mapError .visionDecode) := by
  have hc : u.destination.written <+: u.out := prefix_append _ _
  obtain ⟨rfl, rfl⟩ | ⟨ht, hy, hrs⟩ := h
  · exact .inl ⟨_, rfl, hc, fun hs => by simpa using (hg hs.1.grants).2⟩
  · obtain rfl : emitted = _ := hy
    obtain rfl : result = _ := hrs
    obtain ⟨hr, hn⟩ | ⟨e, hr, hsm⟩ := report_cases hsound (ph.feedAll input).1
    · rw [hr]
      refine .inr ⟨rfl, hn, ht, ⟨?_, id, fun hs => ⟨hs.accepts, (hg hs.grants).1⟩, suffix_rfl⟩, rfl⟩
      simp [out, hb]
    · rw [hr]
      exact .inl ⟨_, rfl, hc, fun hs => by simp [hs.2] at hsm⟩

theorem decodeInitial_spec {initial : Bytes} {result : Except VisionSessionError VisionMode}
    (hsound : ph.error? = none) (ht : VisionDecoder.Tracks u.decoder ph) (h : u.decodeInitial initial = (u', result)) :
    Decodes u u' ph initial result := by
  unfold decodeInitial at h
  obtain ⟨hb, hg⟩ := Stage.tryReserve_spec u.stage initial.length
  rcases hr : u.stage.tryReserve initial.length with ⟨stage, reserved⟩
  rw [hr] at hb hg
  obtain ⟨d, emitted, outcome, hdc, hs⟩ :=
    decodeAppend_spec ht reserved initial stage.bytes
  simp only [hr, hdc] at h
  have hd := decodes_of_staged hsound hb hg hs
  cases outcome <;> cases h <;> exact hd

theorem decodeRecord_spec {record : Bytes} {result : Except VisionSessionError VisionMode}
    (hsound : ph.error? = none) (ht : VisionDecoder.Tracks u.decoder ph) (h : u.decodeRecord record = (u', result)) :
    Decodes u u' ph record result := by
  unfold decodeRecord at h
  by_cases hb : u.decoder.Borrows
  · have ha := hb.answers ht record
    simp only [if_neg hb.2, decodeBorrowedAppend,
      borrowing_of_borrows hb] at h
    cases h
    have hr : .ok u.decoder.mode = report ph (ph.feedAll record).1 := ha.result
    have hy : record = (ph.feedAll record).2 := ha.yielded
    obtain ⟨hrp, hn⟩ | ⟨e, hrp, -⟩ := report_cases hsound (ph.feedAll record).1
    · rw [hrp] at hr
      refine .inr ⟨congrArg Except.ok (Except.ok.inj hr), hn, ha.tracks, ⟨?_, id, fun hs => ⟨hs.accepts, hs.grants⟩, suffix_rfl⟩, rfl⟩
      rw [← hy]
      simp [out, Stage.extend]
    · rw [hrp] at hr
      cases hr
  · obtain ⟨stage, reserved, hrs, hby, hg⟩ : ∃ stage reserved,
        (if u.decoder.mode = .framed then u.stage.tryReserve record.length else (u.stage, true)) =
          (stage, reserved) ∧ stage.bytes = u.stage.bytes ∧ (u.stage.Grants → stage.Grants ∧ reserved = true) := by
      split_ifs
      · exact ⟨_, _, rfl, Stage.tryReserve_spec u.stage record.length⟩
      · exact ⟨_, _, rfl, rfl, fun hs => ⟨hs, rfl⟩⟩
    obtain ⟨d, emitted, outcome, hdc, hsp⟩ :=
      decodeAppend_spec ht reserved record stage.bytes
    have hd := decodes_of_staged hsound hby hg hsp
    simp only [hrs, decodeBorrowedAppend,
      borrowing_of_not_borrows hb decodeAppend hdc] at h
    cases outcome <;> cases h <;> exact hd

theorem stageRecord_spec {record : Bytes} {result : Except VisionSessionError VisionMode}
    (hsound : ph.error? = none) (ht : VisionDecoder.Tracks u.decoder ph) (h : u.stageRecord record = (u', result)) :
    Decodes u u' ph record result := by
  unfold stageRecord at h
  rcases hr : u.makeRoom record.length with ⟨mid, outcome⟩
  simp only [hr] at h
  obtain ⟨e, rfl, hc, hf⟩ | ⟨rfl, hp, hcl, hd⟩ := makeRoom_spec hr
  · cases h
    exact .inl ⟨e, rfl, hc, fun hs => hf hs.1⟩
  · obtain ⟨e, rfl, hc, hf⟩ | ⟨hok, hn, ht', hst, hcl'⟩ :=
      decodeRecord_spec hsound (hd ▸ ht) h
    · refine .inl ⟨e, rfl, ?_, fun hs => hf ⟨hp.sound hs.1, hs.2⟩⟩
      simpa [Cut] using hp.cut hc
    · exact .inr ⟨hok, hn, ht', by simpa using hp.trans hst, hcl'.trans hcl⟩

theorem flushIdle_spec {result : Except VisionSessionError Unit} (h : u.flushIdle = (u', result)) :
    (∃ e, result = .error e ∧ Cut u u' ∧ ¬u.Sound) ∨
      (result = .ok () ∧ Progress u u' [] ∧ u'.client = u.client ∧ u'.decoder = u.decoder) := by
  unfold flushIdle at h
  split_ifs at h with hm
  · cases h
    exact .inr ⟨rfl, .refl, rfl, rfl⟩
  · obtain he | ⟨hok, hp, -, hc, hd⟩ := flushUplink_spec h
    · exact .inl he
    · exact .inr ⟨hok, hp, hc, hd⟩

/-- How the framed phase can end, given what the rest of the stream decodes to and how it ends. -/
inductive Delivers (u u' : Uplink S K) (emitted : Bytes) (ending : ClientEnd) :
    Except VisionSessionError UplinkStep → Prop
  | framed (hending : ending = .closed) (hwritten : u'.destination.written = u.out ++ emitted)
      (hcounted : u.Counted → u'.Counted) : Delivers u u' emitted ending (.ok (.framed u'.bytes))
  | direct (hending : ending = .direct u'.client.wire) (hwritten : u'.destination.written = u.out ++ emitted)
      (hcounted : u.Counted → u'.Counted) (hsound : u.Sound → u'.Sound)
      (hscript : u'.destination.script <:+ u.destination.script) :
      Delivers u u' emitted ending (.ok (.direct u'.bytes))
  | cut {e : VisionSessionError} (hcut : u'.destination.written <+: u.out ++ emitted)
      (hfault : ¬(u.Sound ∧ false ∉ u.client.heap ∧ ending ≠ .broken)) : Delivers u u' emitted ending (.error e)

theorem Delivers.after {mid : Uplink S K} {a b : Bytes} {ending : ClientEnd} (h : Progress u mid a)
    (hh : mid.client.heap <:+ u.client.heap) (h' : Delivers mid u' b ending result) :
    Delivers u u' (a ++ b) ending result := by
  have ho : mid.out ++ b = u.out ++ (a ++ b) := by rw [h.out, append_assoc]
  cases h' with
  | framed he hw hco => exact .framed he (ho ▸ hw) fun hc => hco (h.counted hc)
  | direct he hw hco hso hscript =>
    exact .direct he (ho ▸ hw) (fun hc => hco (h.counted hc)) (fun hs => hso (h.sound hs)) (hscript.trans h.script)
  | cut hct hf =>
    exact .cut (ho ▸ hct) fun hs => hf ⟨h.sound hs.1, fun hm => hs.2.1 (hh.mem hm), hs.2.2⟩

theorem Delivers.ofCut {emitted : Bytes} {ending : ClientEnd} {e : VisionSessionError}
    (hc : Cut u u') (hf : ¬(u.Sound ∧ false ∉ u.client.heap ∧ ending ≠ .broken)) :
    Delivers u u' emitted ending (.error e) :=
  .cut (hc.trans (prefix_append _ _)) hf

theorem closeUplink_spec (h : u.closeUplink = (u', result)) : Delivers u u' [] .closed result := by
  unfold closeUplink at h
  rcases hf : u.flushUplink with ⟨mid, outcome⟩
  simp only [hf] at h
  obtain ⟨e, rfl, hct, hfa⟩ | ⟨rfl, hp, he, -, -⟩ := flushUplink_spec hf
  · cases h
    exact .ofCut hct fun hs => hfa hs.1
  have hw : mid.destination.written = u.out ++ [] := by
    rw [← hp.out, out, he, append_nil]
  have hsh := Sink.written_shutdown mid.destination
  have hh := fun hs : mid.destination.Healthy => Sink.shutdown_healthy hs
  rcases hst : mid.destination.shutdown with ⟨destination, outcome⟩
  rw [hst] at hsh hh
  simp only [hst] at h
  cases outcome with
  | error failure =>
    cases h
    refine .cut ?_ fun hs => by simpa using (hh (hp.sound hs.1).accepts).2
    rw [← hw]
    exact hsh ▸ prefix_rfl
  | ok x =>
    cases h
    refine Delivers.framed rfl (hsh.trans hw) fun hc => ?_
    have := hp.counted hc
    rw [Counted] at this ⊢
    rw [this]
    exact congrArg (min ·.length _) hsh.symm

theorem stopDirect_spec (h : u.stopDirect = (u', result)) :
    Delivers u u' [] (.direct u.client.wire) result ∧ (∀ step, result = .ok step → u'.client = u.client) := by
  unfold stopDirect at h
  rcases hf : u.flushUplink with ⟨mid, outcome⟩
  simp only [hf] at h
  obtain ⟨e, rfl, hct, hfa⟩ | ⟨rfl, hp, he, hc, -⟩ := flushUplink_spec hf
  · cases h
    exact ⟨.ofCut hct fun hs => hfa hs.1, by simp⟩
  · cases h
    refine ⟨.direct (by rw [hc]) ?_ hp.counted hp.sound hp.script, fun _ _ => hc⟩
    rw [← hp.out, out, he, append_nil]

theorem readFailed_spec {e : TlsApplicationIoError} (h : u.readFailed e = (u', result)) :
    Delivers u u' [] (.ofError e) result ∧ ∀ b, result ≠ .ok (.direct b) := by
  unfold readFailed at h
  split at h
  · split_ifs at h with hc
    · rw [ClientEnd.ofError, if_pos hc]
      have hs := closeUplink_spec h
      refine ⟨hs, fun b hb => ?_⟩
      subst hb
      cases hs with
      | direct he => cases he
    · cases h
      rw [ClientEnd.ofError, if_neg hc]
      exact ⟨.ofCut (prefix_append _ _) (by simp), by simp⟩
  · rename_i ho
    cases h
    have hbr : ClientEnd.ofError e = .broken := by
      cases e with
      | peerAlert level description => exact absurd rfl (ho level description)
      | _ => rfl
    rw [hbr]
    exact ⟨.ofCut (prefix_append _ _) (by simp), by simp⟩

theorem ofError_endError (wire : Bytes) (ending : Option Failure) :
    ClientEnd.ofError (TlsApplicationReader.endError wire ending) = .broken := by
  match ending with
  | none => rfl
  | some .timeout => rfl
  | some .unarmed => rfl
  | some (.io _) => rfl
  | some .dropped => rfl

end Uplink

theorem Phase.mode_eq_direct : ph.mode = .direct ↔ ph = .done .direct := by
  cases ph <;> simp [mode]

theorem Phase.error?_init (userId : UserId) : (init userId).error? = none := by
  unfold init
  cases userId.toList <;> rfl

theorem Phase.mode_init (userId : UserId) : (init userId).mode = .framed := by
  unfold init
  cases userId.toList <;> rfl

theorem clientStream_failed {fuel : Nat} (st : RecordState S K) (wire : Bytes)
    (h : ph.error? ≠ none) : (clientStream crypto fuel st ph wire).2 = .broken := by
  cases fuel with
  | zero => rfl
  | succ fuel =>
    have hs : ph.error?.isSome = true := isSome_iff_ne_none.mpr h
    have hne : ph ≠ .done .direct := fun hph => h (by rw [hph]; rfl)
    rw [clientStream, if_neg hne, if_pos hs]

namespace Uplink

structure Advanced (r r' : TlsApplicationReader S K) : Prop where
  inv : r'.Inv
  ending : r'.io.ending = r.io.ending
  shorter : r'.wire.length ≤ r.wire.length

theorem Advanced.trans {r r' r'' : TlsApplicationReader S K} (h : Advanced r r') (h' : Advanced r' r'') :
    Advanced r r'' :=
  ⟨h'.inv, h'.ending.trans h.ending, Nat.le_trans h'.shorter h.shorter⟩

/-- The record loop delivers the decoding of the records up to the end of the framing. -/
theorem recordLoop_spec {fuel : Nat} {u u' : Uplink S K}
    {result : Except VisionSessionError UplinkStep} (hfuel : u.client.wire.length < fuel) (hi : u.client.Inv)
    (hsound : ph.error? = none) (hframed : ph ≠ .done .direct) (ht : VisionDecoder.Tracks u.decoder ph)
    (h : recordLoop crypto fuel u = (u', result)) :
    let stream := clientStream crypto fuel u.client.state ph u.client.wire
    Delivers u u' (ph.feedAll stream.1).2 stream.2 result ∧
      (∀ b, result = .ok (.direct b) → Advanced u.client u'.client) := by
  induction fuel generalizing u ph with
  | zero => omega
  | succ fuel ih =>
    rw [recordLoop] at h
    rcases hfs : u.flushIdle with ⟨mid, outcome⟩
    simp only [hfs] at h
    obtain ⟨e, rfl, hc, hf⟩ | ⟨rfl, hfl, hcl, hdc⟩ := flushIdle_spec hfs
    · cases h
      exact ⟨.ofCut hc fun hs => hf hs.1, by simp⟩
    dsimp only at h
    rw [hcl] at h
    rcases hrd : u.client.readApplication crypto with ⟨client, outcome⟩
    have hre := TlsApplicationReader.readApplication_spec crypto hi hrd
    simp only [hrd] at h
    have hpr : Progress u { mid with client } [] := ⟨hfl.out, hfl.counted, fun hs =>
      ⟨(hfl.sound hs).accepts, (hfl.sound hs).grants⟩, hfl.script⟩
    have hbr : ∀ {e : TlsApplicationIoError} {emitted : Bytes} {ending : ClientEnd}, ClientEnd.ofError e = .broken →
        readFailed { mid with client } e = (u', result) →
        ¬(u.Sound ∧ false ∉ u.client.heap ∧ ending ≠ .broken) → Delivers u u' emitted ending result :=
      fun hed hfa hf => by
        have hsp := (readFailed_spec hfa).1
        rw [hed] at hsp
        cases hsp with
        | framed hen => cases hen
        | direct hen => cases hen
        | cut hc => exact .ofCut (by simpa [Cut] using hpr.cut (by simpa [Cut] using hc)) hf
    rw [clientStream, if_neg hframed, if_neg (by simp [hsound])]
    cases hre with
    | refused hrf =>
      have hfa := (readFailed_spec h).2
      exact ⟨hbr rfl h fun hs => hs.2.1 hrf, fun b hb => absurd hb (hfa b)⟩
    | ended hn =>
      have hfa := (readFailed_spec h).2
      simp only [hn]
      exact ⟨hbr (ofError_endError _ _) h (by simp), fun b hb => absurd hb (hfa b)⟩
    | tooLarge hn =>
      have hfa := (readFailed_spec h).2
      simp only [hn]
      exact ⟨hbr rfl h (by simp), fun b hb => absurd hb (hfa b)⟩
    | record hn hi' hsa hen hh =>
      rename_i record
      obtain ⟨hw, hl, -⟩ := nextRecord_record hn
      have hsh : client.wire.length < fuel := by
        rw [hw, length_append] at hfuel
        omega
      have ha : Advanced u.client client := ⟨hi', hen, by rw [hw, length_append]; omega⟩
      rcases hp : u.client.state.process crypto record with ⟨st, opened⟩
      simp only [hn, hp] at h hsa ⊢
      cases opened with
      | error e =>
        obtain ⟨hsp, hfa⟩ := readFailed_spec h
        refine ⟨?_, fun b hb => absurd hb (hfa b)⟩
        simpa using hsp.after hpr hh
      | ok plaintext =>
        subst hsa
        dsimp only at h ⊢
        rw [feedAll_append]
        dsimp only
        by_cases he : plaintext = []
        · subst he
          rw [if_pos rfl] at h
          obtain ⟨hsp, ho⟩ := ih (u := { mid with client }) hsh hi' hsound hframed (hdc ▸ ht) h
          exact ⟨by simpa using hsp.after hpr hh, fun b hb => ha.trans (ho b hb)⟩
        rw [if_neg he] at h
        rcases hst : stageRecord { mid with client } plaintext with ⟨next, staged⟩
        simp only [hst] at h
        obtain ⟨e, rfl, hc, hf⟩ | ⟨rfl, hnn, ht', hsd, hcl'⟩ :=
          stageRecord_spec hsound (u := { mid with client }) (hdc ▸ ht) hst
        · cases h
          refine ⟨.cut ?_ fun hs => ?_, by simp⟩
          · refine List.IsPrefix.trans ?_ (prefix_append _ _)
            simpa using hpr.cut hc
          · by_cases hnn : (ph.feedAll plaintext).1.error? = none
            · exact hf ⟨hpr.sound hs.1, hnn⟩
            · exact hs.2.2 (clientStream_failed crypto _ _ hnn)
        dsimp only at h
        have hnx : Progress u next (ph.feedAll plaintext).2 := by
          simpa using hpr.trans hsd
        have hne : next.client.heap <:+ u.client.heap := by
          rw [hcl']
          exact hh
        by_cases hd : (ph.feedAll plaintext).1 = .done .direct
        · rw [if_pos (mode_eq_direct.mpr hd)] at h
          obtain ⟨hsp, hsm⟩ := stopDirect_spec h
          cases fuel with
          | zero => omega
          | succ fuel =>
            rw [clientStream, if_pos hd]
            refine ⟨?_, fun b hb => by rw [hsm _ hb, hcl']; exact ha⟩
            rw [hcl'] at hsp
            simpa using hsp.after hnx hne
        · rw [if_neg (fun hm => hd (mode_eq_direct.mp hm))] at h
          have hr := ih (u := next) (by rw [hcl']; exact hsh) (by rw [hcl']; exact hi') hnn
            hd ht' h
          rw [hcl'] at hr
          exact ⟨hr.1.after hnx hne, fun b hb => ha.trans (hr.2 b hb)⟩

theorem relayPrefetched_spec {u u' : Uplink S K} {prefetched : Bytes}
    {result : Except VisionSessionError VisionMode} (hsound : ph.error? = none) (hm : ph.mode = .framed)
    (hstage : u.stage.bytes = []) (ht : VisionDecoder.Tracks u.decoder ph)
    (h : u.relayPrefetched prefetched = (u', result)) :
    (∃ e, result = .error e ∧ u'.destination.written <+: u.out ++ (ph.feedAll prefetched).2 ∧
        ¬(u.Sound ∧ (ph.feedAll prefetched).1.error? = none)) ∨
      (result = .ok (ph.feedAll prefetched).1.mode ∧ (ph.feedAll prefetched).1.error? = none ∧
        VisionDecoder.Tracks u'.decoder (ph.feedAll prefetched).1 ∧ Progress u u' (ph.feedAll prefetched).2 ∧
        u'.stage.bytes = [] ∧ u'.client = u.client) := by
  unfold relayPrefetched at h
  split_ifs at h with he
  · cases h
    subst he
    exact .inr ⟨by rw [feedAll_nil, hm], hsound, ht, .refl, hstage, rfl⟩
  rcases hd : u.decodeInitial prefetched with ⟨mid, decoded⟩
  simp only [hd] at h
  obtain ⟨e, rfl, hc, hf⟩ | ⟨rfl, hn, ht', hst, hcl⟩ := decodeInitial_spec hsound ht hd
  · cases h
    exact .inl ⟨e, rfl, List.IsPrefix.trans hc (prefix_append _ _), hf⟩
  rcases hfl : mid.flushUplink with ⟨last, flushed⟩
  simp only [hfl] at h
  obtain ⟨e, rfl, hc, hf⟩ | ⟨rfl, hfs, hce, hcl', hdc⟩ := flushUplink_spec hfl
  · cases h
    exact .inl ⟨e, rfl, hst.cut hc, fun hs => hf (hst.sound hs.1)⟩
  · cases h
    exact .inr ⟨rfl, hn, hdc ▸ ht', by simpa using hst.trans hfs, hce,
      hcl'.trans hcl⟩

end Uplink

/-- The framed phase delivers the decoding of the prefetched bytes and the records behind them. -/
theorem relayUplinkFramed_spec {client : TlsApplicationReader S K} (hi : client.Inv) (destination : Sink)
    (userId : UserId) (prefetched : Bytes) (heap : List (Option Nat)) {u : Uplink S K}
    {result : Except VisionSessionError UplinkStep}
    (h : relayUplinkFramed crypto client destination userId prefetched heap = (u, result)) :
    let start : Uplink S K := ⟨client, destination, .new userId, .new heap, 0⟩
    let stream := clientStream crypto (client.wire.length + 1) client.state
      ((init userId).feedAll prefetched).1 client.wire
    Uplink.Delivers start u ((init userId).feedAll (prefetched ++ stream.1)).2 stream.2 result ∧
      (∀ b, result = .ok (.direct b) → Uplink.Advanced client u.client) := by
  intro start stream
  unfold relayUplinkFramed at h
  obtain ⟨hb, hg⟩ := Stage.tryReserve_spec (.new heap) maxPlaintextLen
  rcases hrs : (Stage.new heap).tryReserve maxPlaintextLen with ⟨stage, granted⟩
  rw [hrs] at hb hg
  simp only [hrs] at h
  cases granted with
  | false =>
    cases h
    exact ⟨.ofCut (prefix_append _ _) fun hs => by simpa using (hg hs.1.grants).2, by simp⟩
  | true =>
    have hr : Uplink.Progress start ⟨client, destination, .new userId, stage, 0⟩ [] :=
      ⟨by rw [append_nil]; exact congrArg (destination.written ++ ·) hb, id, fun hs => ⟨hs.accepts, (hg hs.grants).1⟩,
        suffix_rfl⟩
    rcases hf : Uplink.relayPrefetched ⟨client, destination, .new userId, stage, 0⟩ prefetched with ⟨mid, first⟩
    simp only [hf] at h
    rw [feedAll_append]
    obtain ⟨e, rfl, hc, hfa⟩ | ⟨rfl, hn, ht, hpr, he, hcl⟩ :=
      Uplink.relayPrefetched_spec (error?_init userId) (mode_init userId) hb (.ready (.new userId))
        hf
    · cases h
      refine ⟨.cut ?_ fun hs => ?_, by simp⟩
      · rw [hr.out, append_nil] at hc
        rw [← append_assoc]
        exact hc.trans (prefix_append _ _)
      · by_cases hn : ((init userId).feedAll prefetched).1.error? = none
        · exact hfa ⟨hr.sound hs.1, hn⟩
        · exact hs.2.2 (clientStream_failed crypto _ _ hn)
    have hpr : Uplink.Progress start mid ((init userId).feedAll prefetched).2 := by
      simpa using hr.trans hpr
    have hh : mid.client.heap <:+ start.client.heap := ⟨[], by rw [hcl]; rfl⟩
    dsimp only at h
    by_cases hd : ((init userId).feedAll prefetched).1 = .done .direct
    · rw [if_pos (mode_eq_direct.mpr hd)] at h
      cases h
      have hst : stream = ([], .direct client.wire) := by
        simp only [stream, clientStream, if_pos hd]
      rw [hst]
      refine ⟨.direct (by rw [hcl]) ?_ hpr.counted hpr.sound hpr.script, fun _ _ => by
        rw [hcl]
        exact ⟨hi, rfl, Nat.le_refl _⟩⟩
      have ho := hpr.out
      rw [Uplink.out, he, append_nil] at ho
      simpa using ho
    · rw [if_neg (fun hm => hd (mode_eq_direct.mp hm)), Uplink.relayRecords, hcl] at h
      have hl : client.buffered.length + client.io.bytes.length + 1 = client.wire.length + 1 := by
        rw [TlsApplicationReader.wire, length_append]
      rw [hl] at h
      have hsp := Uplink.recordLoop_spec crypto (by rw [hcl]; exact Nat.lt_succ_self _)
        (by rw [hcl]; exact hi) hn hd ht h
      rw [hcl] at hsp
      exact ⟨hsp.1.after hpr hh, hsp.2⟩

/-! ### The raw phase -/

structure RawEnv.Sound (env : RawEnv) : Prop where
  pools : ∃ run, env.pools.select = .ok run
  reunites : env.reunites = true
  arrives : env.downlink.state ≠ none
  finishes : ∃ stats, env.downlink.result = .ok stats
  peer : Faultless env.downlink.halves.1 env.downlink.halves.2

/-- A socket of the direction may answer with a broken pipe or a reset. -/
def MayReset (source : Source) (sink : Sink) : Prop :=
  ∃ kind, (kind = .brokenPipe ∨ kind = .connectionReset) ∧ (source.ending = some (.io kind) ∨ .fail (.io kind) ∈ sink.script)

/-- A socket of the raw phase may: one of the uplink, or of the downlink where the two are relayed together. -/
def RawEnv.MayReset (env : RawEnv) (client : Source) (destination : Sink) : Prop :=
  Vision.MayReset client destination ∨ (env.downlink.state = some .rawReady ∨ env.downlink.state = some .pairPending) ∧
    Vision.MayReset env.downlink.halves.1 env.downlink.halves.2

/-- What a raw phase comes to: it sends bytes from the front of the client's stream. With `some` count in its report all of
them were sent and counted; with `none` the relay was torn down and none is counted. That takes a reset, if some were sent. -/
def RawSpec {α : Type} (client : Source) (destination : Sink) (Reports : Option Nat → α → Prop) (starts reset : Prop) :
    Sink → Except VisionSessionError α → Bytes → Prop :=
  Delivery client destination (fun n r => ∃ stats, r = .ok stats ∧ Reports (some n) stats)
    (fun started r => ∀ stats, r = .ok stats → Reports none stats ∧ (started → reset)) starts

variable {client : Source} {destination : Sink} {bytes : BoundaryBytes} {starts reset starts' reset' : Prop} {after : Sink}
  {sent : Bytes}

theorem RawSpec.failed {α : Type} {Reports : Option Nat → α → Prop} {e : VisionSessionError} (h : ¬starts) :
    RawSpec client destination Reports starts reset destination (.error e) [] :=
  .refused (by rintro _ _ _ ⟨⟩) h

theorem RawSpec.map {α β : Type} {Reports : Option Nat → α → Prop} {Reports' : Option Nat → β → Prop} {f : α → β}
    {result : Except VisionSessionError α} (h : RawSpec client destination Reports starts reset after result sent)
    (hstarts : starts' → starts) (hreset : reset → reset') (hreports : ∀ count stats, Reports count stats → Reports' count (f stats)) :
    RawSpec client destination Reports' starts' reset' after (result.map f) sent := by
  refine h.imp hstarts ?_ fun started hstopped => ?_
  · rintro n ⟨stats, rfl, hn⟩
    exact ⟨f stats, rfl, hreports _ _ hn⟩
  · cases result with
    | error e => rintro _ ⟨⟩
    | ok stats =>
      rintro _ ⟨⟩
      exact (hstopped stats rfl).imp (hreports _ _) fun h hs => hreset (h hs)

/-- A directional relay counts by itself. -/
def DirectionStats.Directional (bytes : BoundaryBytes) : Option Nat → DirectionStats → Prop
  | none, stats => stats = .ofDirect bytes.total none none bytes.directAt
  | some n, stats => ∃ backend, stats = .ofDirect (saturatingAdd bytes.total n) none (some backend) bytes.directAt

/-- The outcome of a pair relay is added by the session. -/
def DirectionStats.Paired (bytes : BoundaryBytes) : Option Nat → DirectionStats → Prop
  | none, stats => stats = .ofDirect bytes.total none none bytes.directAt
  | some n, stats => ∃ backend m, stats = .ofDirect bytes.total (some ⟨backend, n, m⟩) (some backend) bytes.directAt

def VisionRelayStats.Counts (total : Nat) (count : Option Nat) (stats : VisionRelayStats) : Prop :=
  stats.uplinkDirect = true ∧ (stats.uplinkBackend = none ↔ count = none) ∧ stats.uplinkBytes = saturatingAdd total (count.getD 0)

theorem reset_of_caused {cause : ErrorKind → Prop} {e : RelayError} (h : e.Caused cause) (hbenign : isBenignTeardown e = true) :
    ∃ kind, (kind = .brokenPipe ∨ kind = .connectionReset) ∧ cause kind := by
  obtain ⟨e, rfl, hcause⟩ := h
  cases e with
  | dropped => cases hbenign
  | io kind => cases kind <;> first | cases hbenign; done | exact ⟨_, by simp, hcause _ rfl⟩

theorem mayReset_of_causes {kind : ErrorKind} (hkind : kind = .brokenPipe ∨ kind = .connectionReset)
    (h : Causes client destination kind) : MayReset client destination := by
  refine ⟨kind, hkind, ?_⟩
  rcases h with rfl | rfl | rfl | h
  iterate 3 exact absurd hkind (by decide)
  exact h

theorem runDirectional_spec {pools : Pools} {p : Pump} {result : Except VisionSessionError DirectionStats}
    (h : runDirectional pools client destination bytes = (p, result)) :
    ∃ sent, RawSpec client destination (Directional bytes) (∃ run, pools.select = .ok run) (MayReset client destination)
      p.sink result sent := by
  unfold runDirectional at h
  rcases hrl : relayDirection pools client destination with ⟨q, outcome⟩
  obtain ⟨sent, hd⟩ := relayDirection_spec hrl
  refine ⟨sent, ?_⟩
  simp only [hrl] at h
  cases outcome with
  | ok outcome =>
    cases h
    refine hd.imp id ?_ ?_
    · rintro n ⟨backend, ⟨⟩⟩
      exact ⟨_, rfl, backend, rfl⟩
    · rintro started ⟨e, ⟨⟩, -⟩
  | error e =>
    dsimp only at h
    split_ifs at h with hb <;> cases h <;> refine hd.imp id (by rintro n ⟨backend, ⟨⟩⟩) ?_
    · rintro started ⟨_, ⟨⟩, hc⟩ _ ⟨⟩
      refine ⟨rfl, fun hs => ?_⟩
      obtain ⟨kind, hkind, hcause⟩ := reset_of_caused (hc hs) hb
      exact mayReset_of_causes hkind hcause
    · rintro started - _ ⟨⟩

theorem runHandoff_spec {pools : Pools} {upFirst : Bool} {up down : Source × Sink}
    {p q : Pump} {result : Except VisionSessionError DirectionStats}
    (h : runHandoff pools upFirst up down bytes = (p, q, result)) :
    ∃ sent, RawSpec up.1 up.2 (Paired bytes) ((∃ run, pools.select = .ok run) ∧ Faultless down.1 down.2)
      (MayReset up.1 up.2 ∨ MayReset down.1 down.2) p.sink result sent := by
  unfold runHandoff at h
  rcases hrl : relayOwned pools false upFirst up down with ⟨p', q', outcome⟩
  obtain ⟨sent, -, hd, -⟩ := relayOwned_spec hrl
  refine ⟨sent, ?_⟩
  simp only [hrl] at h
  cases outcome with
  | ok outcome =>
    cases h
    refine hd.imp id ?_ ?_
    · rintro n ⟨backend, m, ⟨⟩⟩
      exact ⟨_, rfl, backend, m, rfl⟩
    · rintro started ⟨e, ⟨⟩, -⟩
  | error e =>
    dsimp only at h
    split_ifs at h with hb <;> cases h <;> refine hd.imp id (by rintro n ⟨backend, m, ⟨⟩⟩) ?_
    · rintro started ⟨_, ⟨⟩, hc⟩ _ ⟨⟩
      refine ⟨rfl, fun hs => ?_⟩
      obtain ⟨kind, hkind, hcause⟩ := reset_of_caused (hc hs) hb
      exact hcause.imp (mayReset_of_causes hkind) (mayReset_of_causes hkind)
    · rintro started - _ ⟨⟩

theorem joinDirections_settled {env : RawEnv} {Reports : Option Nat → DirectionStats → Prop}
    {stats : Except VisionSessionError DirectionStats} (h : RawSpec client destination Reports starts reset after stats sent)
    (hstarts : starts' → env.Sound ∧ starts) (hreset : reset → reset')
    (hreports : ∀ count (up down : DirectionStats), Reports count up → (sessionStats up { down with handoff := none }).Counts bytes.total count) :
    RawSpec client destination (VisionRelayStats.Counts bytes.total) starts' reset' (joinDirections env (.settled after stats)).1
      (joinDirections env (.settled after stats)).2 sent := by
  cases hd : env.downlink.result with
  | error e =>
    obtain ⟨e', he⟩ : ∃ e', joinDirections env (.settled after stats) = (after, .error e') := by
      cases stats with
      | error e => exact ⟨e, rfl⟩
      | ok up => exact ⟨e, by simp only [joinDirections, hd]; rfl⟩
    rw [he]
    refine ⟨h.written, h.front, .inr (by rintro _ ⟨⟩), fun hs => ?_⟩
    obtain ⟨down, hok⟩ := (hstarts hs).1.finishes
    cases hd.symm.trans hok
  | ok down =>
    rw [show joinDirections env (.settled after stats) =
        (after, stats.map fun up => sessionStats up { down with handoff := none }) by
      cases stats <;> simp only [joinDirections, hd] <;> rfl]
    exact h.map (fun hs => (hstarts hs).2) hreset fun count up hr => hreports count up down hr

theorem counts_directional (count : Option Nat) (up down : DirectionStats) (h : Directional bytes count up) :
    (sessionStats up { down with handoff := none }).Counts bytes.total count := by
  cases count with
  | none => simp_all [Directional, sessionStats, ofDirect, VisionRelayStats.Counts]
  | some n =>
    obtain ⟨backend, rfl⟩ := h
    refine ⟨rfl, by simp [sessionStats, ofDirect], ?_⟩
    simp only [sessionStats, ofDirect, saturatingAdd, or_none, map_none, getD_none, getD_some]
    omega

theorem counts_paired (count : Option Nat) (up down : DirectionStats) (h : Paired bytes count up) :
    (sessionStats up { down with handoff := none }).Counts bytes.total count := by
  cases count with
  | none => simp_all [Paired, sessionStats, ofDirect, VisionRelayStats.Counts]
  | some n =>
    obtain ⟨backend, m, rfl⟩ := h
    exact ⟨rfl, by simp [sessionStats, ofDirect], rfl⟩

/-- The downlink ran the pair relay. -/
theorem counts_deposited {bytes' : BoundaryBytes} (count : Option Nat) (down : DirectionStats) (h : Paired bytes' count down) :
    (sessionStats (.ofDirect bytes.total none none bytes.directAt) down).Counts bytes.total count := by
  cases count with
  | none => simp_all [Paired, sessionStats, ofDirect, VisionRelayStats.Counts]
  | some n =>
    obtain ⟨backend, m, rfl⟩ := h
    exact ⟨rfl, by simp [sessionStats, ofDirect], rfl⟩

theorem joinDirections_deposited {env : RawEnv} (hstarts : starts → env.Sound)
    (hreset : MayReset client destination ∨ MayReset env.downlink.halves.1 env.downlink.halves.2 → reset) :
    let outcome : UplinkOutcome := .deposited client destination (.ofDirect bytes.total none none bytes.directAt)
    ∃ sent, RawSpec client destination (VisionRelayStats.Counts bytes.total) starts reset (joinDirections env outcome).1
      (joinDirections env outcome).2 sent := by
  intro outcome
  simp only [outcome, joinDirections]
  cases hd : env.downlink.result with
  | error e =>
    refine ⟨[], .failed fun hs => ?_⟩
    obtain ⟨down, hok⟩ := (hstarts hs).finishes
    cases hd.symm.trans hok
  | ok down =>
    dsimp only
    split_ifs with hre
    · rcases hrn : runHandoff env.pools env.upFirst (client, destination) env.downlink.halves
        ⟨down.bytes, down.directAtBytes⟩ with ⟨p, q, stats⟩
      obtain ⟨sent, hrun⟩ := runHandoff_spec hrn
      exact ⟨sent, hrun.map (fun hs => ⟨(hstarts hs).pools, (hstarts hs).peer⟩) hreset counts_deposited⟩
    · exact ⟨[], .failed fun hs => hre (hstarts hs).reunites⟩

theorem runRaw_spec (env : RawEnv) (handoff : DirectHandoff) (hpeer : env.downlink.state = some (handoff.state .downlink))
    (client : Source) (destination : Sink) (bytes : BoundaryBytes) :
    let joined := joinDirections env (runRaw env handoff client destination bytes)
    ∃ sent, RawSpec client destination (VisionRelayStats.Counts bytes.total) (env.Sound ∧ handoff.state .uplink = .rawReady)
      (env.MayReset client destination) joined.1 joined.2 sent := by
  unfold runRaw
  cases hdc : handoff.decide .uplink with
  | error e =>
    refine ⟨[], .failed fun hs => ?_⟩
    obtain ⟨after, decision, hok⟩ := decide_of_rawReady hs.2
    simp [hdc] at hok
  | ok decided =>
    obtain ⟨after, decision⟩ := decided
    cases decision with
    | directional =>
      rcases hr : runDirectional env.pools client destination bytes with ⟨p, stats⟩
      obtain ⟨sent, hrun⟩ := runDirectional_spec hr
      exact ⟨sent, joinDirections_settled hrun (fun hs => ⟨hs.1, hs.1.pools⟩) .inl counts_directional⟩
    | pair =>
      have hpair : MayReset client destination ∨ MayReset env.downlink.halves.1 env.downlink.halves.2 →
          env.MayReset client destination := by
        refine Or.imp_right fun h => ⟨?_, h⟩
        rw [hpeer, some_inj, some_inj]
        exact peer_of_decide_pair hdc
      rcases hd : after.deposit .uplink with ⟨last, complete⟩
      cases complete with
      | false =>
        simpa only [hd] using joinDirections_deposited (fun hs => hs.1) hpair
      | true =>
        simp only [hd]
        split_ifs with hre
        · rcases hr : runHandoff env.pools env.upFirst (client, destination) env.downlink.halves bytes with ⟨p, q, stats⟩
          obtain ⟨sent, hrun⟩ := runHandoff_spec hr
          exact ⟨sent, joinDirections_settled hrun (fun hs => ⟨hs.1, hs.1.pools, hs.1.peer⟩) hpair counts_paired⟩
        · exact ⟨[], .failed fun hs => hre hs.1.reunites⟩

theorem drainPending_spec {after : Sink} {pending : Bytes} {result : Except Failure Unit}
    (h : drainPending destination pending = (after, result)) :
    ∃ sent, after.written = destination.written ++ sent ∧ sent <+: pending ∧ (result = .ok () → sent = pending) ∧
      (destination.Healthy → after.Healthy ∧ result = .ok ()) ∧ after.script <:+ destination.script := by
  unfold drainPending at h
  split_ifs at h with he
  · cases h
    exact ⟨[], by simp, nil_prefix, fun _ => he.symm, fun hs => ⟨hs, rfl⟩, suffix_rfl⟩
  · obtain ⟨sent, hw, hf, ha⟩ := Sink.writeAll_spec h
    refine ⟨sent, hw, hf, ha, fun hs => ?_, Sink.script_writeAll h⟩
    have := Sink.writeAll_healthy hs pending
    rwa [h] at this

theorem finishUplinkDirect_spec (env : RawEnv) (client : TlsApplicationReader S K) (destination : Sink) (bytes : Nat) :
    let joined := joinDirections env (finishUplinkDirect env .new client destination bytes)
    (∃ e, joined.2 = .error e ∧ joined.1.written <+: destination.written ++ client.buffered ∧
        ¬(env.Sound ∧ destination.Healthy)) ∨
      ∃ start sent, drainPending destination client.buffered = (start, .ok ()) ∧
        (destination.Healthy → start.Healthy) ∧ start.script <:+ destination.script ∧
        RawSpec client.io start (VisionRelayStats.Counts (saturatingAdd bytes client.buffered.length)) env.Sound
          (env.MayReset client.io start) joined.1 joined.2 sent := by
  have hp : (new.advance .uplink .directPending) =
      .ok (new.setState .uplink .directPending) := rfl
  have hre : ((new.setState .uplink .directPending).advance .uplink .rawReady) =
      .ok ((new.setState .uplink .directPending).setState .uplink .rawReady) := rfl
  unfold finishUplinkDirect
  simp only [hp, TlsApplicationReader.intoInnerWithPending]
  rcases hd : drainPending destination client.buffered with ⟨start, drained⟩
  obtain ⟨sent, hw, hf, ha, hh, hscript⟩ := drainPending_spec hd
  cases drained with
  | error failure =>
    refine .inl ⟨_, rfl, ?_, fun hs => by simpa using (hh hs.2).2⟩
    show start.written <+: _
    rw [hw]
    exact (prefix_append_right_inj _).mpr hf
  | ok x =>
    simp only [hre]
    cases hst : env.downlink.state with
    | none =>
      refine .inl ⟨_, rfl, ?_, fun hs => hs.1.arrives hst⟩
      show start.written <+: _
      rw [hw]
      exact (prefix_append_right_inj _).mpr hf
    | some peer =>
      obtain ⟨moved, hr⟩ := runRaw_spec env
        { ((new.setState .uplink .directPending).setState .uplink .rawReady).setState .downlink peer with
          deposited := fun d => d = .downlink && env.downlink.deposited }
        hst client.io start { total := saturatingAdd bytes client.buffered.length, directAt := bytes }
      exact .inr ⟨start, moved, rfl, fun hs => (hh hs).1, hscript, hr.imp (fun hs => ⟨hs, rfl⟩) (fun _ => id) fun _ => id⟩

end RustReality.Vision
