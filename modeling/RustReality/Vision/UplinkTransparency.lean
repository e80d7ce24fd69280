import RustReality.Vision.UplinkSpec

/-!
# Uplink transparency

The destination receives exactly the decoding of the client's plaintext followed by the raw bytes
behind the Direct boundary, or a part from the front of it when something fails. The byte counter of
the session agrees with it, except after a raw relay that was torn down: its bytes are not counted.
-/

namespace RustReality.Vision
open List
open Vless (UserId)
open Net Tls Transport

variable {S K : Type} (crypto : RecordCrypto S K)

/-- A stream that is cut short has the front of the plaintext, and the front of the raw bytes. -/
theorem clientStream_append {fuel fuel' : Nat} {st st' : RecordState S K} {ph : Phase} {wire extra : Bytes}
    (ha : st.Agree st') (hf : wire.length < fuel) (hf' : (wire ++ extra).length < fuel') :
    (∃ more, (clientStream crypto fuel' st' ph (wire ++ extra)).1 = (clientStream crypto fuel st ph wire).1 ++ more) ∧
      ∀ raw, (clientStream crypto fuel st ph wire).2 = .direct raw →
        clientStream crypto fuel' st' ph (wire ++ extra) =
          ((clientStream crypto fuel st ph wire).1, .direct (raw ++ extra)) := by
  induction fuel generalizing fuel' st st' ph wire with
  | zero => omega
  | succ fuel ih =>
    cases fuel' with
    | zero => omega
    | succ fuel' =>
      rw [clientStream, clientStream]
      by_cases hdi : ph = .done .direct
      · rw [if_pos hdi, if_pos hdi]
        refine ⟨⟨[], rfl⟩, ?_⟩
        rintro raw ⟨⟩
        rfl
      rw [if_neg hdi, if_neg hdi]
      by_cases he : ph.error?.isSome
      · rw [if_pos he, if_pos he]
        exact ⟨⟨[], rfl⟩, by rintro raw ⟨⟩⟩
      rw [if_neg he, if_neg he]
      cases hn : nextRecord wire with
      | incomplete => exact ⟨⟨_, rfl⟩, by rintro raw ⟨⟩⟩
      | tooLarge header => exact ⟨⟨_, rfl⟩, by rintro raw ⟨⟩⟩
      | record record rest =>
        obtain ⟨hw, hl, -⟩ := nextRecord_record hn
        obtain ⟨hrs, ha'⟩ := ha.process crypto record
        rw [nextRecord_append hn extra]
        dsimp only
        rw [← Prod.eta (st'.process crypto record), ← Prod.eta (st.process crypto record), hrs]
        cases (st.process crypto record).2 with
        | error e =>
          refine ⟨⟨[], rfl⟩, fun raw hr => ?_⟩
          exact absurd hr (ClientEnd.ofError_ne_direct e raw)
        | ok plaintext =>
          rw [hw] at hf hf'
          simp only [length_append] at hf hf'
          obtain ⟨⟨more, hm⟩, hr⟩ := @ih fuel' _ _ (ph.feedAll plaintext).1 rest ha' (by omega)
            (by rw [length_append]; omega)
          refine ⟨⟨more, ?_⟩, fun raw hdi => ?_⟩
          · dsimp only
            rw [hm, append_assoc]
          · dsimp only
            rw [hr raw hdi]

namespace UplinkInput

variable (input : UplinkInput S K)

/-- The plaintext of the client's records behind the prefetched bytes, and how the framing ends. -/
def framedStream : Bytes × ClientEnd :=
  clientStream crypto (input.client.wire.length + 1) input.client.state
    ((Phase.init input.userId).feedAll input.prefetched).1 input.client.wire

/-- What the destination should receive: the one-shot decoding of the whole plaintext, then the raw bytes. -/
def expected : Bytes :=
  decodeOnce input.userId (input.prefetched ++ (input.framedStream crypto).1) ++ (input.framedStream crypto).2.raw

/-- What a cut stream makes the destination expect is the front of what the whole stream does. -/
theorem expected_front {input input' : UplinkInput S K} (ha : input.client.state.Agree input'.client.state)
    (hu : input'.userId = input.userId) (hp : input'.prefetched = input.prefetched)
    (hw : input.client.wire <+: input'.client.wire) : input.expected crypto <+: input'.expected crypto := by
  obtain ⟨extra, he⟩ := hw
  obtain ⟨⟨more, hm⟩, hr⟩ := @clientStream_append _ _ crypto (input.client.wire.length + 1)
    (input'.client.wire.length + 1) _ _ ((Phase.init input.userId).feedAll input.prefetched).1 _ extra ha
    (Nat.lt_succ_self _) (by rw [he]; exact Nat.lt_succ_self _)
  rw [he] at hm hr
  have hs : (input'.framedStream crypto).1 = (input.framedStream crypto).1 ++ more := by
    rw [framedStream, hu, hp]
    exact hm
  rw [expected, expected, hu, hp, hs]
  cases hen : (input.framedStream crypto).2 with
  | direct raw =>
    have hb : input'.framedStream crypto = ((input.framedStream crypto).1, .direct (raw ++ extra)) := by
      rw [framedStream, hu, hp]
      exact hr raw hen
    rw [← hs, hb]
    exact (prefix_append_right_inj _).mpr (prefix_append _ _)
  | closed | broken =>
    show decodeOnce _ _ ++ [] <+: _
    rw [append_nil, ← append_assoc]
    exact (decodeOnce_front _ _ _).trans (prefix_append _ _)

/-- Nothing fails: neither a socket nor the allocator, a pool, the other direction or the client. -/
structure Sound (input : UplinkInput S K) : Prop where
  accepts : (Sink.fresh input.script).Healthy
  grants : none ∉ input.heap
  buffers : false ∉ input.client.heap
  ends : input.client.io.ending = none
  countable : input.client.wire.length < 2 ^ 64
  stream : (input.framedStream crypto).2 ≠ .broken
  env : input.env.Sound

/-- What arrives at the destination, whatever is counted: a part of the expected bytes from the front,
all of them when the session ends without an error of its raw relay, which happens when nothing fails. -/
structure Arrives (input : UplinkInput S K) : Prop where
  front : (session crypto input).1.written <+: input.expected crypto
  exact : ∀ stats, (session crypto input).2 = .ok stats →
    (stats.uplinkDirect = true → stats.uplinkBackend ≠ none) →
    (session crypto input).1.written = input.expected crypto
  completes : input.Sound crypto → ∃ stats, (session crypto input).2 = .ok stats ∧
    (stats.uplinkDirect = true → stats.uplinkBackend ≠ none)

def decoded : Bytes :=
  decodeOnce input.userId (input.prefetched ++ (input.framedStream crypto).1)

theorem framed_cases (input : UplinkInput S K) :
    let run := relayUplinkFramed crypto input.client (.fresh input.script) input.userId input.prefetched input.heap
    (∃ u e, run = (u, .error e) ∧ u.destination.written <+: input.decoded crypto ∧ ¬input.Sound crypto) ∨
      (∃ u, run = (u, .ok (.framed u.bytes)) ∧ (input.framedStream crypto).2 = .closed ∧
        u.destination.written = input.decoded crypto ∧ u.Counted) ∨
      ∃ u, run = (u, .ok (.direct u.bytes)) ∧ (input.framedStream crypto).2 = .direct u.client.wire ∧
        u.destination.written = input.decoded crypto ∧ u.Counted ∧
        (u.client.io.ending = input.client.io.ending ∧ u.destination.script <:+ input.script) ∧
        (input.Sound crypto → u.destination.Healthy ∧ u.client.io.ending = none ∧ u.client.wire.length < 2 ^ 64) := by
  intro run
  rcases hr : run with ⟨u, result⟩
  obtain ⟨hd, ha⟩ := relayUplinkFramed_spec crypto input.client_inv _ _ _ _ hr
  have hso : input.Sound crypto → Uplink.Sound (S := S) (K := K)
      ⟨input.client, .fresh input.script, .new input.userId, .new input.heap, 0⟩ := fun hs => ⟨hs.accepts, hs.grants⟩
  have hco : Uplink.Counted (S := S) (K := K)
      ⟨input.client, .fresh input.script, .new input.userId, .new input.heap, 0⟩ := rfl
  rw [← decodeOnce_eq] at hd
  cases hd with
  | cut hct hf =>
    exact .inl ⟨u, _, rfl, hct, fun hs => hf ⟨hso hs, hs.buffers, hs.stream⟩⟩
  | framed he hw hc =>
    exact .inr (.inl ⟨u, rfl, he, hw, hc hco⟩)
  | direct he hw hc hk hscript =>
    have had := ha _ rfl
    exact .inr (.inr ⟨u, rfl, he, hw, hc hco, ⟨had.ending, hscript⟩, fun hs => ⟨(hk (hso hs)).accepts,
      had.ending.trans hs.ends, Nat.lt_of_le_of_lt had.shorter hs.countable⟩⟩)

variable {input : UplinkInput S K} {u : Uplink S K} {bytes : Nat}

theorem session_framed
    (h : relayUplinkFramed crypto input.client (.fresh input.script) input.userId input.prefetched input.heap =
      (u, .ok (.framed bytes))) :
    (session crypto input).1 = u.destination ∧
      (∀ stats, (session crypto input).2 = .ok stats →
        stats.uplinkDirect = false ∧ stats.uplinkBytes = saturatingAdd bytes 0) ∧
      ((∃ down, input.env.downlink.result = .ok down) →
        ∃ stats, (session crypto input).2 = .ok stats ∧ stats.uplinkDirect = false) := by
  simp only [session, relayUplink, h, joinDirections]
  refine ⟨trivial, fun stats hok => ?_, ?_⟩
  · cases hd : input.env.downlink.result with
    | error e => simp [hd, Except.map] at hok
    | ok down =>
      simp only [hd, Except.map, Except.ok.injEq] at hok
      subst hok
      exact ⟨rfl, rfl⟩
  · rintro ⟨down, hd⟩
    exact ⟨_, by simp only [hd, Except.map]; rfl, rfl⟩

theorem session_direct
    (h : relayUplinkFramed crypto input.client (.fresh input.script) input.userId input.prefetched input.heap =
      (u, .ok (.direct bytes))) :
    (∃ e, (session crypto input).2 = .error e ∧
        (session crypto input).1.written <+: u.destination.written ++ u.client.buffered ∧
        ¬(input.env.Sound ∧ u.destination.Healthy)) ∨
      ∃ start sent, start.written = u.destination.written ++ u.client.buffered ∧
        (u.destination.Healthy → start.Healthy) ∧ start.script <:+ u.destination.script ∧
        RawSpec u.client.io start (VisionRelayStats.Counts (saturatingAdd bytes u.client.buffered.length)) input.env.Sound
          (input.env.MayReset u.client.io start) (session crypto input).1 (session crypto input).2 sent := by
  have hf := finishUplinkDirect_spec input.env u.client u.destination bytes
  simp only [session, relayUplink, h]
  obtain he | ⟨start, sent, hd, hh, hscript, hr⟩ := hf
  · exact .inl he
  · obtain ⟨drained, hw, -, ha, -⟩ := drainPending_spec hd
    obtain rfl := ha rfl
    exact .inr ⟨start, sent, hw, hh, hscript, hr⟩

theorem session_error {e : VisionSessionError}
    (h : relayUplinkFramed crypto input.client (.fresh input.script) input.userId input.prefetched input.heap =
      (u, .error e)) : session crypto input = (u.destination, .error e) := by
  simp only [session, relayUplink, h, joinDirections]

theorem Arrives.of_error {e : VisionSessionError} (he : (session crypto input).2 = .error e)
    (hf : (session crypto input).1.written <+: input.expected crypto) (hfail : ¬input.Sound crypto) :
    input.Arrives crypto :=
  ⟨hf, by simp [he], fun hs => absurd hs hfail⟩

theorem arrives_of_raw {start : Sink} {source : Source} {sent : Bytes} {reset : Prop}
    (he : input.expected crypto = start.written ++ source.bytes)
    (hf : input.Sound crypto → Faultless source start)
    (hr : RawSpec source start (VisionRelayStats.Counts bytes) input.env.Sound reset (session crypto input).1
      (session crypto input).2 sent) :
    input.Arrives crypto := by
  refine ⟨?_, fun stats hok hb => ?_, fun hs => ?_⟩
  · rw [hr.written, he]
    exact (prefix_append_right_inj _).mpr hr.front
  · rcases hr.ends with ⟨hall, -⟩ | htorn
    · rw [hr.written, hall, he]
    · obtain ⟨hd, hnone, -⟩ := (htorn stats hok).1
      exact absurd (hnone.2 rfl) (hb hd)
  · obtain ⟨stats, hok, -, hsome, -⟩ := hr.completes hs.env (hf hs)
    exact ⟨stats, hok, fun _ => by simp [hsome]⟩

theorem session_arrives (input : UplinkInput S K) : input.Arrives crypto := by
  have hex : input.expected crypto = input.decoded crypto ++ (input.framedStream crypto).2.raw := rfl
  obtain ⟨u, e, hr, hc, hf⟩ | ⟨u, hr, hen, hwr, -⟩ |
    ⟨u, hr, hen, hwr, -, -, hso⟩ := framed_cases crypto input
  · have hss := session_error crypto hr
    refine .of_error crypto (congrArg Prod.snd hss) ?_ hf
    rw [hss, hex]
    exact hc.trans (prefix_append _ _)
  · obtain ⟨hd, -, he⟩ := session_framed crypto hr
    have ha : (session crypto input).1.written = input.expected crypto := by
      rw [hd, hwr, hex, hen]
      simp [ClientEnd.raw]
    refine ⟨ha ▸ prefix_rfl, fun _ _ _ => ha, fun hs => ?_⟩
    obtain ⟨stats, hok, hfa⟩ := he hs.env.finishes
    exact ⟨stats, hok, by simp [hfa]⟩
  · have hw : input.expected crypto = (u.destination.written ++ u.client.buffered) ++ u.client.io.bytes := by
      rw [hex, hen, hwr, append_assoc]
      rfl
    obtain ⟨e, her, hfr, hf⟩ | ⟨start, sent, hb, hh, -, hrw⟩ := session_direct crypto hr
    · refine .of_error crypto her ?_ fun hs => hf ⟨hs.env, (hso hs).1⟩
      rw [hw]
      exact hfr.trans (prefix_append _ _)
    · rw [← hb] at hw
      refine arrives_of_raw crypto hw (fun hs => ?_) hrw
      obtain ⟨hac, he, hco⟩ := hso hs
      rw [TlsApplicationReader.wire, length_append] at hco
      exact ⟨hh hac, he, by omega⟩

end UplinkInput

open UplinkInput

/-- A client that sends one framed byte with a Direct command, and one raw byte behind it. -/
def rawByte (ending : List ReadEvent) : UplinkInput Unit Unit where
  userId := Vector.replicate 16 0
  prefetched := List.replicate 16 0 ++ [2, 0, 1, 0, 0, 42]
  client := .new (.data 7 [] :: ending) ⟨.aes128GcmSha256, (), Vector.replicate 12 0, some (), 0, false⟩ [] 0 []
  client_inv := ⟨le_rfl, le_rfl, Nat.zero_le _⟩
  script := []
  heap := []
  env :=
    { pools := ⟨none, .ok ⟨1024, by decide⟩⟩
      downlink := ⟨some .framed, false, ([], .fresh []), .ok (.ofFramed 0)⟩
      reunites := true
      upFirst := true }

/-- The client resets the connection behind its raw byte. -/
def resetAfterRawByte : UplinkInput Unit Unit := rawByte [.fail (.io .connectionReset)]

end RustReality.Vision
