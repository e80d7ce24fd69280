import RustReality.Vision.Phase

/-!
# The decoder refines the byte machine

`phase` reads off the fields of a decoder which bytes it expects next. Every turn of the decode loop
moves the phase as the byte machine does over the piece the turn consumes, so a call moves it as the
machine does over the whole input, and so does a run of calls over the concatenated input.
-/

namespace RustReality.Vision
open Phase List
open Vless (UserId)

namespace VisionDecoder

/-- What the fields of a decoder that has not failed say it expects. A complete frame that is not
yet finished counts as finished. -/
def phase (d : VisionDecoder) : Phase :=
  if d.mode ≠ .framed then .done d.mode
  else if d.firstFrame && d.uuidRead < uuidSize then .expect (d.userId.toList.drop d.uuidRead)
  else if d.headerRead < headerSize then .header d.firstFrame (d.header.take d.headerRead)
  else
    match d.command with
    | some command => .enter command d.contentRemaining d.paddingRemaining
    | none => .failed .decoderFailed

structure Valid (d : VisionDecoder) : Prop where
  ok : d.failed = false
  header_length : d.header.length = headerSize
  headerRead_le : d.headerRead ≤ headerSize
  /-- No header byte is read before the user id is complete. -/
  uuid_first : d.firstFrame = true → d.uuidRead < uuidSize → d.headerRead = 0
  /-- A complete header has been checked. -/
  command : d.mode = .framed → d.headerRead = headerSize → d.command.isSome
  /-- No frame is open once the framing has ended. -/
  ended : d.mode ≠ .framed → d.command = none

theorem Valid.new (userId : UserId) : Valid (new userId) :=
  ⟨rfl, by simp [VisionDecoder.new], by simp [VisionDecoder.new], fun _ _ => rfl,
    by simp [VisionDecoder.new, headerSize], fun _ => rfl⟩

variable {d : VisionDecoder}

theorem phase_of_not_framed (h : d.mode ≠ .framed) : d.phase = .done d.mode := if_pos h

/-- In framed mode the phase is that of the first part of the frame that is not complete. -/
theorem phase_of_framed (h : d.mode = .framed) :
    d.phase = if d.firstFrame && d.uuidRead < uuidSize then .expect (d.userId.toList.drop d.uuidRead)
      else if d.headerRead < headerSize then .header d.firstFrame (d.header.take d.headerRead)
      else match d.command with
        | some command => .enter command d.contentRemaining d.paddingRemaining
        | none => .failed .decoderFailed :=
  if_neg (not_not.mpr h)

theorem mode_phase (hs : d.frameComplete = false) (hv : d.Valid) :
    d.phase.mode = d.mode := by
  by_cases hm : d.mode = .framed
  · rw [phase_of_framed hm, hm]
    split_ifs with hu hh
    · cases d.userId.toList.drop d.uuidRead <;> rfl
    · rfl
    · have hr : d.headerRead = headerSize := Nat.le_antisymm hv.headerRead_le (Nat.not_lt.mp hh)
      cases hc : d.command with
      | none => rfl
      | some command =>
        cases hcn : d.contentRemaining with
        | succ n => rfl
        | zero =>
          cases hp : d.paddingRemaining with
          | succ n => rfl
          | zero => simp [frameComplete, hr, hc, hcn, hp] at hs
  · rw [phase_of_not_framed hm]
    rfl

/-! ### The small steps -/

theorem startFrame_eq (d : VisionDecoder) :
    d.startFrame = match readHeader d.firstFrame d.header with
      | .error e => .error e
      | .ok (command, content, padding) =>
        .ok { d with command := some command, contentRemaining := content, paddingRemaining := padding } := by
  unfold startFrame
  cases readHeader d.firstFrame d.header <;> rfl

theorem finishFrame_spec (hv : d.Valid) (hf : d.mode = .framed)
    (hcomplete : d.frameComplete = true) :
    d.finishFrame.Valid ∧ d.finishFrame.phase = d.phase ∧ d.finishFrame.frameComplete = false := by
  simp only [frameComplete, Bool.and_eq_true, beq_iff_eq, Option.isSome_iff_exists] at hcomplete
  obtain ⟨⟨⟨hr, hcn⟩, hpd⟩, command, hc⟩ := hcomplete
  have hu : (d.firstFrame && decide (d.uuidRead < uuidSize)) = false := by
    by_contra hno
    simp only [Bool.not_eq_false, Bool.and_eq_true, decide_eq_true_eq] at hno
    have := hv.uuid_first hno.1 hno.2
    rw [hr] at this
    cases this
  have hp : d.phase = .finish command := by
    rw [phase_of_framed hf, hu]
    simp [hr, hc, hcn, hpd, enter]
  refine ⟨?_, ?_, ?_⟩
  · constructor <;> simp [finishFrame, hc, hv.ok, headerSize]
  · rw [hp]
    cases command <;> simp [finishFrame, hc, phase, VisionCommand.mode, finish, headerSize]
  · simp [finishFrame, hc, frameComplete, headerSize]

/-! ### One turn -/

theorem uuid_turn (hv : d.Valid) (hframed : d.mode = .framed)
    (hf : d.firstFrame = true) (hr : d.uuidRead < uuidSize) {piece : Bytes}
    (hl : piece.length ≤ uuidSize - d.uuidRead) :
    let next : VisionDecoder := { d with uuidRead := d.uuidRead + piece.length }
    (piece ≠ (d.userId.toList.drop d.uuidRead).take piece.length →
      d.phase.feedAll piece = (.failed .userIdMismatch, [])) ∧
    (piece = (d.userId.toList.drop d.uuidRead).take piece.length →
      d.phase.feedAll piece = (next.phase, []) ∧ next.Valid ∧ next.frameComplete = false) := by
  intro next
  have hz := hv.uuid_first hf hr
  have hp : d.phase = .expect (d.userId.toList.drop d.uuidRead) := by
    rw [phase_of_framed hframed, if_pos (by simp [hf, hr])]
  rw [hp]
  refine ⟨fun hne => feedAll_mismatch _ _ ?_ hne, fun heq => ⟨?_, ?_, ?_⟩⟩
  · simpa [uuidSize] using hl
  · have hs : d.userId.toList.drop d.uuidRead =
        piece ++ d.userId.toList.drop (d.uuidRead + piece.length) := by
      conv_lhs => rw [← take_append_drop piece.length (d.userId.toList.drop d.uuidRead)]
      rw [← heq, drop_drop]
    rw [hs, feedAll_expect, phase_of_framed (d := next) hframed]
    congr 1
    by_cases hm : d.uuidRead + piece.length < uuidSize
    · simp [next, hf, hm]
    · have hd : d.userId.toList.drop (d.uuidRead + piece.length) = [] := by
        simpa [uuidSize] using hm
      simp [next, hf, hm, hd, hz, expect, headerSize]
  · exact ⟨hv.ok, hv.header_length, hv.headerRead_le, fun _ _ => hz, hv.command, hv.ended⟩
  · simp [next, frameComplete, hz, headerSize]

theorem header_turn (hv : d.Valid) (hframed : d.mode = .framed)
    (hu : (d.firstFrame && decide (d.uuidRead < uuidSize)) = false) (hr : d.headerRead < headerSize)
    {piece : Bytes} (hpos : 0 < piece.length) (hlen : piece.length ≤ headerSize - d.headerRead) :
    let next : VisionDecoder := { d with
      header := overwrite d.header d.headerRead piece
      headerRead := d.headerRead + piece.length }
    next.header.length = headerSize ∧
    (next.headerRead ≠ headerSize →
      d.phase.feedAll piece = (next.phase, []) ∧ next.Valid ∧ next.frameComplete = false) ∧
    (next.headerRead = headerSize → d.phase.feedAll piece = (.start next.firstFrame next.header, [])) := by
  intro next
  have hph : d.phase = .header d.firstFrame (d.header.take d.headerRead) := by
    rw [phase_of_framed hframed, hu]
    simp [hr]
  have hs : (d.header.take d.headerRead).length = d.headerRead := by
    rw [length_take, hv.header_length]
    omega
  have ht : next.header.take next.headerRead = d.header.take d.headerRead ++ piece :=
    overwrite_take (by rw [hv.header_length]; omega)
  have hl : next.header.length = headerSize := by
    rw [← hv.header_length]
    exact length_overwrite (by rw [hv.header_length]; omega)
  rw [hph]
  refine ⟨hl, fun hp => ?_, fun hf => ?_⟩
  · have hlt : next.headerRead < headerSize := by
      have : next.headerRead = d.headerRead + piece.length := rfl
      omega
    refine ⟨?_, ⟨hv.ok, hl, Nat.le_of_lt hlt, fun h1 h2 => ?_, fun _ h => absurd h hp,
      hv.ended⟩, ?_⟩
    · rw [feedAll_header (by rw [hs]; exact hlt), phase_of_framed (d := next) hframed,
        if_neg (by simpa [next] using hu), if_pos hlt, ht]
    · simp [show d.firstFrame = true from h1, show d.uuidRead < uuidSize from h2] at hu
    · simp [frameComplete, hp]
  · have hw : next.header = d.header.take d.headerRead ++ piece := by
      rw [← ht, hf, ← hl, take_length]
    rw [feedAll_header_full hpos (by rw [hs]; exact hf), hw]

theorem startFrame_spec (hok : d.failed = false) (hl : d.header.length = headerSize)
    (hr : d.headerRead = headerSize) (hf : d.mode = .framed)
    (hu : (d.firstFrame && decide (d.uuidRead < uuidSize)) = false) :
    match d.startFrame with
    | .error e => start d.firstFrame d.header = .failed e
    | .ok started => start d.firstFrame d.header = started.phase ∧ started.Valid ∧
        started.mode = .framed := by
  rw [startFrame_eq, start]
  cases readHeader d.firstFrame d.header with
  | error e => rfl
  | ok out =>
    refine ⟨?_, ⟨hok, hl, Nat.le_of_eq hr, fun h1 h2 => ?_, fun _ _ => rfl,
      fun h => absurd hf h⟩, hf⟩
    · rw [phase_of_framed (by exact hf), if_neg (by simpa using hu), if_neg (by simp [hr])]
    · simp [show d.firstFrame = true from h1, show d.uuidRead < uuidSize from h2] at hu

theorem body_phase (hv : d.Valid) (hframed : d.mode = .framed)
    (hu : (d.firstFrame && decide (d.uuidRead < uuidSize)) = false) (hr : ¬d.headerRead < headerSize) :
    d.headerRead = headerSize ∧ ∃ command, d.command = some command ∧
      d.phase = .enter command d.contentRemaining d.paddingRemaining := by
  have hf : d.headerRead = headerSize := Nat.le_antisymm hv.headerRead_le (Nat.not_lt.mp hr)
  obtain ⟨command, hc⟩ := Option.isSome_iff_exists.mp (hv.command hframed hf)
  refine ⟨hf, command, hc, ?_⟩
  rw [phase_of_framed hframed, hu]
  simp [hr, hc]

/-- Twice the unread input, plus one for a frame that waits to be finished. -/
def fuelNeeded (d : VisionDecoder) (input : Bytes) : Nat :=
  2 * input.length + if d.frameComplete then 1 else 0

variable {input : Bytes}

theorem fuelNeeded_lt_of_consumed {d' : VisionDecoder} {n : Nat} (hn : 0 < n)
    (hl : n ≤ input.length) : d'.fuelNeeded (input.drop n) < d.fuelNeeded input := by
  simp only [fuelNeeded, length_drop]
  split_ifs <;> omega

def TurnSpec (d : VisionDecoder) (input : Bytes) : Turn → Prop
  | .next d' consumed emitted => d'.Valid ∧ d'.mode = .framed ∧
      d.phase.feedAll (input.take consumed) = (d'.phase, emitted) ∧
      d'.fuelNeeded (input.drop consumed) < d.fuelNeeded input
  | .leave d' emitted (.ok ()) => d'.Valid ∧ d.phase.feedAll input = (d'.phase, emitted)
  | .leave d' emitted (.error e) => d'.failed = false ∧ d'.mode = .framed ∧
      d.phase.feedAll input = (.failed e, emitted)

theorem feedAll_of_failed {ph : Phase} {n : Nat} {e : VisionDecodeError}
    (h : ph.feedAll (input.take n) = (.failed e, [])) : ph.feedAll input = (.failed e, []) := by
  rw [← take_append_drop n input, feedAll_append, h]
  simp

theorem bodyTurn_spec (hv : d.Valid) (hframed : d.mode = .framed)
    (hu : (d.firstFrame && decide (d.uuidRead < uuidSize)) = false) (hr : ¬d.headerRead < headerSize)
    (hp : 0 < input.length) :
    TurnSpec d input (d.bodyTurn input) := by
  obtain ⟨hf, command, hc, hph⟩ := body_phase hv hframed hu hr
  -- within the body only the two remaining lengths change
  have hb : ∀ content padding, ({ d with contentRemaining := content, paddingRemaining := padding } :
      VisionDecoder).Valid ∧ ({ d with contentRemaining := content, paddingRemaining := padding } :
      VisionDecoder).phase = .enter command content padding := fun content padding => by
    have hv' : ({ d with contentRemaining := content, paddingRemaining := padding } : VisionDecoder).Valid :=
      ⟨hv.ok, hv.header_length, hv.headerRead_le, hv.uuid_first, hv.command, hv.ended⟩
    obtain ⟨-, command', hc', hph'⟩ := body_phase hv' hframed hu hr
    obtain rfl : command = command' := Option.some.inj (hc.symm.trans hc')
    exact ⟨hv', hph'⟩
  unfold bodyTurn
  split_ifs with hcn hpd hm
  · have hl : (input.take (min input.length d.contentRemaining)).length =
        min input.length d.contentRemaining := by rw [length_take]; omega
    obtain ⟨hv', hph'⟩ := hb (d.contentRemaining - min input.length d.contentRemaining) d.paddingRemaining
    refine ⟨hv', hframed, ?_, fuelNeeded_lt_of_consumed (by omega) (by omega)⟩
    rw [hph, hph', feedAll_content (by omega), hl]
  · have hz : d.contentRemaining = 0 := by omega
    have hl : (input.take (min input.length d.paddingRemaining)).length =
        min input.length d.paddingRemaining := by rw [length_take]; omega
    obtain ⟨hv', hph'⟩ := hb d.contentRemaining (d.paddingRemaining - min input.length d.paddingRemaining)
    refine ⟨hv', hframed, ?_, fuelNeeded_lt_of_consumed (by omega) (by omega)⟩
    rw [hph, hph', hz, feedAll_padding (by omega), hl]
  all_goals
    have hcm : d.frameComplete = true := by
      simp [frameComplete, hf, hc]
      omega
    obtain ⟨hv', hph', hs⟩ := finishFrame_spec hv hframed hcm
  · refine ⟨hv', ?_⟩
    rw [← hph', phase_of_not_framed hm, feedAll_done]
  · refine ⟨hv', not_not.mp hm, ?_, ?_⟩
    · rw [hph', take_zero, feedAll_nil]
    · simp [fuelNeeded, hcm, hs]

theorem decodeTurn_spec (hv : d.Valid) (hframed : d.mode = .framed)
    (hpos : 0 < input.length) : TurnSpec d input (d.decodeTurn input) := by
  have htk : ∀ n, (input.take (min input.length n)).length = min input.length n := fun n => by
    rw [length_take]
    omega
  unfold decodeTurn
  cases hu : (d.firstFrame && decide (d.uuidRead < uuidSize)) with
  | true =>
    obtain ⟨hfi, hr⟩ : d.firstFrame = true ∧ d.uuidRead < uuidSize := by simpa using hu
    have hc := htk (uuidSize - d.uuidRead)
    obtain ⟨hb, hg⟩ := @uuid_turn d hv hframed hfi hr
      (input.take (min input.length (uuidSize - d.uuidRead))) (by omega)
    rw [hc] at hb hg
    simp only [if_true]
    split_ifs with heq
    · exact ⟨hv.ok, hframed, feedAll_of_failed (hb heq)⟩
    · obtain ⟨ht, hv', -⟩ := hg (not_not.mp heq)
      exact ⟨hv', hframed, ht, fuelNeeded_lt_of_consumed (by omega) (by omega)⟩
  | false =>
    simp only [Bool.false_eq_true, if_false]
    by_cases hr : d.headerRead < headerSize
    · have hc := htk (headerSize - d.headerRead)
      obtain ⟨hl, hp, hf⟩ := @header_turn d hv hframed hu hr
        (input.take (min input.length (headerSize - d.headerRead))) (by omega) (by omega)
      rw [hc] at hl hp hf
      simp only [hr, if_true]
      split_ifs with hw
      · have hs := startFrame_spec (d := { d with
          header := overwrite d.header d.headerRead (input.take (min input.length (headerSize - d.headerRead)))
          headerRead := d.headerRead + min input.length (headerSize - d.headerRead) }) hv.ok hl hw
          hframed hu
        have ht := hf hw
        split
        · rename_i e hsf
          rw [hsf] at hs
          exact ⟨hv.ok, hframed, feedAll_of_failed (ht.trans (by rw [hs]))⟩
        · rename_i started hsf
          rw [hsf] at hs
          obtain ⟨hph, hv', hfr'⟩ := hs
          exact ⟨hv', hfr', ht.trans (by rw [hph]), fuelNeeded_lt_of_consumed (by omega) (by omega)⟩
      · obtain ⟨ht, hv', -⟩ := hp hw
        exact ⟨hv', hframed, ht, fuelNeeded_lt_of_consumed (by omega) (by omega)⟩
    · simp only [hr, if_false]
      exact bodyTurn_spec hv hframed hu hr hpos

/-! ### The loop -/

theorem decodeLoop_spec (fuel : Nat) (hv : d.Valid) (hframed : d.mode = .framed)
    (input output : Bytes) (hfuel : d.fuelNeeded input < fuel) :
    ∃ d' emitted result, decodeLoop fuel d input output = some (d', output ++ emitted, result) ∧
      TurnSpec d input (.leave d' emitted result) := by
  induction fuel generalizing d input output with
  | zero => omega
  | succ fuel ih =>
    rw [decodeLoop]
    by_cases he : input = []
    · subst he
      exact ⟨d, [], .ok (), by simp, hv, rfl⟩
    have ht := decodeTurn_spec hv hframed (length_pos_iff.mpr he)
    simp only [List.isEmpty_iff, he, if_false]
    split
    · rename_i d₁ consumed emitted hd
      rw [hd] at ht
      obtain ⟨hv₁, hfr₁, hf, hlt⟩ := ht
      obtain ⟨d', rest, result, hl, hs⟩ :=
        ih hv₁ hfr₁ (input.drop consumed) (output ++ emitted) (by omega)
      refine ⟨d', emitted ++ rest, result, by rw [hl, append_assoc], ?_⟩
      have hsp := feedAll_append d.phase (input.take consumed) (input.drop consumed)
      rw [take_append_drop, hf] at hsp
      cases result with
      | ok u => exact ⟨hs.1, by rw [hsp, hs.2]⟩
      | error e => exact ⟨hs.1, hs.2.1, by rw [hsp, hs.2.2]⟩
    · rename_i d' emitted result hd
      rw [hd] at ht
      exact ⟨d', emitted, result, rfl, ht⟩

/-! ### Calls -/

structure Ready (d : VisionDecoder) : Prop extends Valid d where
  settled : d.frameComplete = false

theorem Ready.new (userId : UserId) : Ready (new userId) := ⟨.new userId, rfl⟩

theorem Ready.mode_phase (h : d.Ready) : d.phase.mode = d.mode :=
  VisionDecoder.mode_phase h.settled h.toValid

theorem decodeLoop_ends (h : d.Ready) (hf : d.mode = .framed) (input output : Bytes) :
    ∃ d' emitted result, decodeLoop (2 * input.length + 1) d input output =
      some (d', output ++ emitted, result) ∧ TurnSpec d input (.leave d' emitted result) :=
  decodeLoop_spec _ h.toValid hf input output (by simp [fuelNeeded, h.settled])

/-- A call reads its input as the byte machine does, and reports an error exactly when that fails. -/
theorem decodeInner_spec (h : d.Ready) (input output : Bytes) :
    ∃ d' emitted result, d.decodeInner input output = (d', output ++ emitted, result) ∧
      match result with
      | .ok mode => d'.Ready ∧ mode = d'.mode ∧ d.phase.feedAll input = (d'.phase, emitted)
      | .error e => d'.failed = false ∧ d'.mode = .framed ∧ d.phase.feedAll input = (.failed e, emitted) := by
  by_cases hfr : d.mode = .framed
  · obtain ⟨d', emitted, result, hl, hs⟩ := decodeLoop_ends h hfr input output
    simp only [decodeInner, hfr, ne_eq, not_true_eq_false, if_false, hl]
    cases result with
    | error e => exact ⟨d', emitted, .error e, rfl, hs⟩
    | ok u =>
      obtain ⟨hv, hf⟩ := hs
      by_cases hco : d'.frameComplete = true
      · have hfr' : d'.mode = .framed := by
          by_contra hno
          simp [frameComplete, hv.ended hno] at hco
        obtain ⟨hv', hp, hst⟩ := finishFrame_spec hv hfr' hco
        simp only [hco, if_true]
        exact ⟨_, emitted, _, rfl, ⟨hv', hst⟩, rfl, by rw [hp, hf]⟩
      · simp only [hco, Bool.false_eq_true, if_false]
        exact ⟨d', emitted, _, rfl, ⟨hv, by simpa using hco⟩, rfl, hf⟩
  · simp only [decodeInner, hfr, ne_eq, not_false_eq_true, if_true]
    refine ⟨d, input, _, rfl, h, rfl, ?_⟩
    rw [phase_of_not_framed hfr, feedAll_done]

end VisionDecoder

end RustReality.Vision
