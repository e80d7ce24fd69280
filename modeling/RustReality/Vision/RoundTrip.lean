import RustReality.Vision.Encoder
import RustReality.Vision.Fragmentation

/-!
# What the encoder frames, the decoder recovers

A frame the planner accepts takes the byte machine from the start of a frame to what its command
leaves behind, emitting exactly its content (`feedAll_frameBytes`). A sequence of frames therefore
takes it through all contents, and the decoder follows it under every fragmentation.
-/

namespace RustReality.Vision
open Phase VisionEncoder List Option
open Vless (UserId)

variable {ρ : Type} {rng : PaddingRng ρ}

/-! ### Plans -/

namespace VisionEncoder

/-- What an accepted plan promises about a frame for `content` bytes under `command`. -/
structure Planned (before after : VisionEncoder ρ) (content : Nat) (command : VisionCommand)
    (plan : VisionFramePlan) : Prop where
  same : after = { before with padding := after.padding }
  open_ : before.finished = false
  includeUserId : plan.includeUserId = before.firstFrame
  command : plan.command = command
  contentLength : plan.contentLength = content
  fits : plan.wireLen ≤ visionFrameSize

theorem choosePaddingLength_spec (rng : PaddingRng ρ) (self : VisionEncoder ρ) (content : Nat) (longPadding : Bool) (maximum : Nat) :
    ∃ padding result, self.choosePaddingLength rng content longPadding maximum =
      ({ self with padding }, result) ∧ ∀ n, result = .ok n → n ≤ maximum := by
  have hm : ∀ (f : Nat → Nat) (value : Except VisionEncodeError Nat) n,
      (value.map fun v => min (f v) maximum) = .ok n → n ≤ maximum := by
    intro f value n h
    cases value with
    | error e => cases h
    | ok v =>
      cases h
      exact Nat.min_le_right _ _
  have hd : ∀ upper, ∃ padding result, self.randomBelow rng upper = ({ self with padding }, result) := by
    intro upper
    unfold randomBelow
    split
    · exact ⟨self.padding, _, rfl⟩
    · exact ⟨_, _, rfl⟩
  unfold choosePaddingLength
  split_ifs
  · obtain ⟨padding, result, h⟩ := hd 500
    exact ⟨padding, _, by rw [h], hm (fun v => v + 900 - content) result⟩
  · obtain ⟨padding, result, h⟩ := hd 256
    exact ⟨padding, _, by rw [h]; rfl, hm id result⟩

variable {self : VisionEncoder ρ} {plan : VisionFramePlan}
  {content : Nat} {command : VisionCommand} {longPadding : Bool}

theorem planCapped_ok {self' : VisionEncoder ρ} {maximum : Nat}
    (h : self.planCapped rng content command longPadding maximum = (self', .ok plan)) :
    self' = { self with padding := self'.padding } ∧ plan.includeUserId = self.firstFrame ∧
      plan.command = command ∧ plan.contentLength = content ∧ plan.paddingLength ≤ maximum := by
  obtain ⟨padding, result, hch, hle⟩ := choosePaddingLength_spec rng self content longPadding maximum
  simp only [planCapped, hch] at h
  cases result with
  | error e => cases h
  | ok n =>
    simp only at h
    by_cases hc : content > 65535
    · simp [hc] at h
    by_cases hp : n > 65535
    · simp [hc, hp] at h
    rw [if_neg hc, if_neg hp] at h
    cases h
    exact ⟨rfl, rfl, rfl, rfl, hle n rfl⟩

theorem maximumFramePadding_ok {content maximum : Nat} (h : self.maximumFramePadding content = .ok maximum) :
    self.finished = false ∧ self.prefixLength + content + maximum = visionFrameSize := by
  unfold maximumFramePadding at h
  have hh : self.prefixLength ≤ visionFrameSize := by
    unfold prefixLength visionFrameSize headerSize uuidSize
    split_ifs <;> omega
  by_cases hf : self.finished = true
  · rw [if_pos hf] at h
    cases h
  by_cases hl : content > visionFrameSize - self.prefixLength ∨ content > 65535
  · simp [hf, hl] at h
  simp only [if_neg hf, if_neg hl, Except.ok.injEq] at h
  refine ⟨by simpa using hf, ?_⟩
  omega

theorem wireLen_eq (h : plan.includeUserId = self.firstFrame) :
    plan.wireLen = self.prefixLength + plan.contentLength + plan.paddingLength := by
  rw [VisionFramePlan.wireLen, VisionFramePlan.prefixLength, prefixLength, h]

theorem plan_ok {self' : VisionEncoder ρ}
    (h : self.plan rng content command longPadding = (self', .ok plan)) :
    Planned self self' content command plan := by
  unfold VisionEncoder.plan at h
  split at h
  · cases h
  · rename_i maximum hm
    obtain ⟨ho, hr⟩ := maximumFramePadding_ok hm
    obtain ⟨hs, hid, hcm, hc, hle⟩ := planCapped_ok h
    refine ⟨hs, ho, hid, hcm, hc, ?_⟩
    rw [wireLen_eq hid, hc]
    omega

theorem planWithin_ok {self' : VisionEncoder ρ} {budget : Nat}
    (h : self.planWithin rng content command longPadding budget = (self', .ok (some plan))) :
    Planned self self' content command plan ∧ plan.wireLen ≤ budget := by
  unfold planWithin at h
  split at h
  · cases h
  · rename_i maximum hm
    obtain ⟨ho, hr⟩ := maximumFramePadding_ok hm
    by_cases hh : budget < self.prefixLength
    · simp [hh] at h
    by_cases hf : budget - self.prefixLength < content
    · simp [hh, hf] at h
    rw [if_neg hh, if_neg hf] at h
    cases hcp : self.planCapped rng content command longPadding
        (min maximum (budget - self.prefixLength - content)) with
    | mk self'' result =>
      simp only [hcp] at h
      cases result with
      | error e => cases h
      | ok plan' =>
        cases h
        obtain ⟨hs, hid, hcm, hc, hle⟩ := planCapped_ok hcp
        refine ⟨⟨hs, ho, hid, hcm, hc, ?_⟩, ?_⟩ <;>
          rw [wireLen_eq hid, hc] <;> omega

end VisionEncoder

/-! ### One frame -/

def Phase.atFrame (userId : UserId) (first : Bool) : Phase :=
  if first then .init userId else .header false []

theorem readHeader_encoded {first : Bool} (command : VisionCommand) {content padding : Nat}
    (h : headerSize + (if first then uuidSize else 0) + content + padding ≤ visionFrameSize) :
    readHeader first ([command.toByte] ++ beBytes 2 content ++ beBytes 2 padding) =
      .ok (command, content, padding) := by
  have hs : visionFrameSize < 256 ^ 2 := by decide
  -- the two bytes read at each offset are the two bytes written there
  change (do
    let command ← VisionCommand.tryFrom command.toByte
    if headerSize + (if first then uuidSize else 0) + ofBe (beBytes 2 content) + ofBe (beBytes 2 padding) >
        visionFrameSize then
      throw (VisionDecodeError.frameTooLarge (ofBe (beBytes 2 content)) (ofBe (beBytes 2 padding)))
    return (command, ofBe (beBytes 2 content), ofBe (beBytes 2 padding))) = _
  rw [ofBe_beBytes (by omega), ofBe_beBytes (by omega), VisionCommand.tryFrom_toByte]
  exact if_neg (by omega)

theorem feedAll_frameBytes (userId : UserId) {plan : VisionFramePlan} {content : Bytes}
    (hc : content.length = plan.contentLength) (hf : plan.wireLen ≤ visionFrameSize) :
    (Phase.atFrame userId plan.includeUserId).feedAll (frameBytes userId plan content) =
      (Phase.finish plan.command, content) := by
  set header := [plan.command.toByte] ++ beBytes 2 plan.contentLength ++ beBytes 2 plan.paddingLength with hh
  have hl : header.length = headerSize := by simp [hh, headerSize]
  have hu : (Phase.atFrame userId plan.includeUserId).feedAll
      (if plan.includeUserId then userId.toList else []) = (.header plan.includeUserId [], []) := by
    cases plan.includeUserId with
    | false => rfl
    | true => simpa [Phase.atFrame, Phase.init, Phase.expect] using Phase.feedAll_expect userId.toList []
  have hr : (Phase.header plan.includeUserId []).feedAll header =
      (Phase.enter plan.command plan.contentLength plan.paddingLength, []) := by
    rw [Phase.feedAll_header_full (by rw [hl]; decide) (by rw [hl]; rfl), nil_append, Phase.start,
      hh, readHeader_encoded plan.command hf]
  have hb : (Phase.enter plan.command plan.contentLength plan.paddingLength).feedAll content =
      (Phase.enter plan.command 0 plan.paddingLength, content) := by
    rw [Phase.feedAll_content (Nat.le_of_eq hc), hc, Nat.sub_self]
  have hp : (Phase.enter plan.command 0 plan.paddingLength).feedAll (List.replicate plan.paddingLength 0) =
      (Phase.finish plan.command, []) := by
    rw [Phase.feedAll_padding (Nat.le_of_eq length_replicate), length_replicate, Nat.sub_self,
      Phase.enter]
  rw [frameBytes, ← hh, Phase.feedAll_append, Phase.feedAll_append, Phase.feedAll_append, hu]
  simp only [hr, hb, hp, nil_append, append_nil]

/-! ### A sequence of frames -/

/-- What a caller asks of the encoder for one frame; without a budget it uses `plan`. -/
structure FrameRequest where
  content : Bytes
  command : VisionCommand
  longPadding : Bool
  budget : Option Nat

structure Frame where
  plan : VisionFramePlan
  wire : Bytes

namespace VisionEncoder

variable (rng)

/-- The plan for a request; `none` when the planner refuses it. -/
def planFor (self : VisionEncoder ρ) (request : FrameRequest) : Option (VisionEncoder ρ × VisionFramePlan) :=
  match request.budget with
  | none =>
    match self.plan rng request.content.length request.command request.longPadding with
    | (self, .ok plan) => some (self, plan)
    | (_, .error _) => none
  | some budget =>
    match self.planWithin rng request.content.length request.command request.longPadding budget with
    | (self, .ok (some plan)) => some (self, plan)
    | (_, .ok none) => none
    | (_, .error _) => none

def encodeFrame (self : VisionEncoder ρ) (request : FrameRequest) : Option (VisionEncoder ρ × Frame) := do
  let (self, plan) ← self.planFor rng request
  let wire := self.assemble plan request.content (List.replicate plan.wireLen 0)
  return (self.commit plan, ⟨plan, wire⟩)

def encodeFrames (self : VisionEncoder ρ) : List FrameRequest → Option (VisionEncoder ρ × List Frame)
  | [] => some (self, [])
  | request :: requests => do
    let (self, frame) ← self.encodeFrame rng request
    let (self, frames) ← self.encodeFrames requests
    return (self, frame :: frames)

structure Encodes (before after : VisionEncoder ρ) (request : FrameRequest) (frame : Frame) : Prop where
  open_ : before.finished = false
  includeUserId : frame.plan.includeUserId = before.firstFrame
  command : frame.plan.command = request.command
  contentLength : request.content.length = frame.plan.contentLength
  fits : frame.plan.wireLen ≤ visionFrameSize
  within : ∀ budget, request.budget = some budget → frame.plan.wireLen ≤ budget
  wire : frame.wire = frameBytes before.userId frame.plan request.content
  userId : after.userId = before.userId
  firstFrame : after.firstFrame = false
  finished : after.finished = decide (request.command ≠ .continue)

variable {rng}
  {self self' : VisionEncoder ρ} {request : FrameRequest} {requests : List FrameRequest} {frames : List Frame}

theorem planFor_spec {plan : VisionFramePlan} (h : self.planFor rng request = some (self', plan)) :
    Planned self self' request.content.length request.command plan ∧
      ∀ budget, request.budget = some budget → plan.wireLen ≤ budget := by
  unfold planFor at h
  cases hbd : request.budget with
  | none =>
    rw [hbd] at h
    simp only at h
    split at h
    · rename_i hp
      cases h
      exact ⟨plan_ok hp, by simp⟩
    · cases h
  | some budget =>
    rw [hbd] at h
    simp only at h
    split at h
    · rename_i hp
      cases h
      obtain ⟨hpl, hle⟩ := planWithin_ok hp
      exact ⟨hpl, fun b hb => by cases hb; exact hle⟩
    all_goals cases h

theorem encodeFrame_spec {frame : Frame} (h : self.encodeFrame rng request = some (self', frame)) :
    Encodes self self' request frame := by
  cases hp : self.planFor rng request with
  | none => simp [encodeFrame, hp] at h
  | some planned =>
    obtain ⟨mid, plan⟩ := planned
    obtain ⟨hpl, hw⟩ := planFor_spec hp
    simp only [encodeFrame, hp, Option.bind_eq_bind, Option.bind_some, Option.pure_def, Option.some.injEq,
      Prod.mk.injEq] at h
    obtain ⟨rfl, rfl⟩ := h
    have hu : mid.userId = self.userId := by rw [hpl.same]
    refine ⟨hpl.open_, hpl.includeUserId, hpl.command, hpl.contentLength.symm,
      hpl.fits, hw, ?_, hu, rfl, ?_⟩
    · rw [← hu]
      exact assemble_eq mid hpl.contentLength.symm length_replicate
    · rw [← hpl.command]
      rfl

theorem encodeFrames_cons (h : self.encodeFrames rng (request :: requests) = some (self', frames)) :
    ∃ mid frame rest, Encodes self mid request frame ∧ mid.encodeFrames rng requests = some (self', rest) ∧
      frames = frame :: rest := by
  cases hf : self.encodeFrame rng request with
  | none => simp [encodeFrames, hf] at h
  | some encoded =>
    obtain ⟨mid, frame⟩ := encoded
    cases hr : mid.encodeFrames rng requests with
    | none => simp [encodeFrames, hf, hr] at h
    | some result =>
      obtain ⟨last, rest⟩ := result
      simp only [encodeFrames, hf, hr, Option.bind_eq_bind, Option.bind_some, Option.pure_def,
        Option.some.injEq, Prod.mk.injEq] at h
      obtain ⟨rfl, rfl⟩ := h
      exact ⟨mid, frame, rest, encodeFrame_spec hf, hr, rfl⟩

theorem finish_of_more {frame : Frame} (hf : Encodes self self' request frame) (ho : self'.finished = false)
    (userId : UserId) : finish request.command = atFrame userId self'.firstFrame := by
  have hc : request.command = .continue := by simpa [hf.finished] using ho
  rw [hc, hf.firstFrame]
  rfl

theorem feedAll_encodeFrames {last : FrameRequest} (h : self.encodeFrames rng requests = some (self', frames))
    (hl : requests.getLast? = some last) :
    (atFrame self.userId self.firstFrame).feedAll (frames.map Frame.wire).flatten =
      (finish last.command, (requests.map FrameRequest.content).flatten) := by
  -- each frame leaves the receiver where the encoder starts the next one
  induction requests generalizing self frames with
  | nil => cases hl
  | cons request requests ih =>
    obtain ⟨mid, frame, rest, hfr, hr, rfl⟩ := encodeFrames_cons h
    have ho : (atFrame self.userId self.firstFrame).feedAll frame.wire =
        (finish request.command, request.content) := by
      rw [hfr.wire, ← hfr.includeUserId, ← hfr.command]
      exact feedAll_frameBytes self.userId hfr.contentLength hfr.fits
    rw [map_cons, flatten_cons, feedAll_append, ho, map_cons, flatten_cons]
    cases requests with
    | nil =>
      cases hr
      cases hl
      simp
    | cons next requests =>
      obtain ⟨_, _, _, hn, _, _⟩ := encodeFrames_cons hr
      have hm := ih hr (by simpa using hl)
      rw [hfr.userId] at hm
      rw [finish_of_more hfr hn.open_ self.userId, hm]

theorem includeUserId_encodeFrames (h : self.encodeFrames rng (request :: requests) = some (self', frames)) :
    frames.map (fun frame => frame.plan.includeUserId) =
      self.firstFrame :: List.replicate requests.length false := by
  induction requests generalizing self request frames with
  | nil =>
    obtain ⟨mid, frame, rest, hf, hr, rfl⟩ := encodeFrames_cons h
    cases hr
    simp [hf.includeUserId]
  | cons next requests ih =>
    obtain ⟨mid, frame, rest, hf, hr, rfl⟩ := encodeFrames_cons h
    rw [map_cons, ih hr, hf.includeUserId, hf.firstFrame, length_cons,
      replicate_succ]

theorem forall₂_encodeFrames (h : self.encodeFrames rng requests = some (self', frames)) :
    List.Forall₂ (fun request frame => frame.wire = frameBytes self.userId frame.plan request.content ∧
      frame.wire.length ≤ visionFrameSize ∧
      ∀ budget, request.budget = some budget → frame.wire.length ≤ budget) requests frames := by
  induction requests generalizing self frames with
  | nil =>
    cases h
    exact .nil
  | cons request requests ih =>
    obtain ⟨mid, frame, rest, hfr, hr, rfl⟩ := encodeFrames_cons h
    have hl : frame.wire.length = frame.plan.wireLen := by
      rw [hfr.wire]
      exact length_frameBytes self.userId hfr.contentLength
    refine .cons ⟨hfr.wire, ?_, ?_⟩ ?_
    · rw [hl]
      exact hfr.fits
    · rw [hl]
      exact hfr.within
    · rw [← hfr.userId]
      exact ih hr

end VisionEncoder

/-! ### The round trip -/

/-- Frames the planner accepts, ended by `End` or `Direct` and followed by raw bytes, decode to the
contents and the raw bytes, however the wire is cut and whatever padding is drawn. -/
theorem vision_round_trip (rng : PaddingRng ρ) (userId : UserId) (seed : ρ) (requests : List FrameRequest)
    {encoder : VisionEncoder ρ} {frames : List Frame} {last : FrameRequest} (tail : Bytes) (calls : List Call)
    (haccepted : (new userId seed).encodeFrames rng requests = some (encoder, frames))
    (hlast : requests.getLast? = some last) (hends : last.command ≠ .continue)
    (hreserved : ∀ c ∈ calls, c.reserved = true)
    (hinput : (calls.map Call.input).flatten = (frames.map Frame.wire).flatten ++ tail) :
    let run := Mealy.run VisionDecoder.call (.new userId) calls
    (run.2.map Reply.yielded).flatten = (requests.map FrameRequest.content).flatten ++ tail ∧
      run.1.mode = last.command.mode ∧ firstError run.2 = none ∧
      frames.map (fun frame => frame.plan.includeUserId) =
        true :: List.replicate (requests.length - 1) false ∧
      List.Forall₂ (fun request frame =>
        frame.wire = frameBytes userId frame.plan request.content ∧
        frame.wire.length ≤ visionFrameSize ∧
        ∀ budget, request.budget = some budget → frame.wire.length ≤ budget) requests frames := by
  have hd : finish last.command = .done last.command.mode := by
    cases hc : last.command with
    | «continue» => exact absurd hc hends
    | «end» => rfl
    | direct => rfl
  have hf : (init userId).feedAll (frames.map Frame.wire).flatten =
      (.done last.command.mode, (requests.map FrameRequest.content).flatten) := by
    rw [← hd]
    exact feedAll_encodeFrames haccepted hlast
  have hw : (init userId).feedAll (calls.map Call.input).flatten =
      (.done last.command.mode, (requests.map FrameRequest.content).flatten ++ tail) := by
    rw [hinput, feedAll_append, hf, feedAll_done]
  have hi : VisionDecoder.Tracks (.new userId) (.init userId) := .ready (.new userId)
  obtain ⟨ht, hy, he⟩ := VisionDecoder.run_spec calls hi hreserved
  rw [hw] at ht hy he
  obtain ⟨request, rest, rfl⟩ := exists_cons_of_ne_nil (getLast?_isSome.mp (by rw [hlast]; rfl))
  exact ⟨hy, ht.mode_eq, he (VisionDecoder.phase_ne_failed (.new userId)), includeUserId_encodeFrames haccepted,
    forall₂_encodeFrames haccepted⟩

def zeroPadding : PaddingRng Unit where
  below state _ := some (0, state)
  below_lt hpos h := by
    cases h
    exact hpos

/-- Two frames, the second within a budget, and one raw byte, read in two pieces. -/
theorem vision_round_trip_two_frames :
    let run := Mealy.run VisionDecoder.call (.new (Vector.replicate 16 7))
      [⟨.decode, true, List.replicate 16 7 ++ [0, 0, 2], []⟩,
        ⟨.decodeBorrowed, true, [0, 0, 1, 2, 2, 0, 1, 0, 0, 3, 9], []⟩]
    (run.2.map Reply.yielded).flatten = [1, 2, 3, 9] ∧ run.1.mode = .direct :=
  have h := vision_round_trip zeroPadding (Vector.replicate 16 7) ()
    [⟨[1, 2], .continue, false, none⟩, ⟨[3], .direct, false, some 6⟩] [9]
    [⟨.decode, true, List.replicate 16 7 ++ [0, 0, 2], []⟩,
      ⟨.decodeBorrowed, true, [0, 0, 1, 2, 2, 0, 1, 0, 0, 3, 9], []⟩]
    rfl rfl (by decide) (by decide) (by decide)
  ⟨h.1, h.2.1⟩

end RustReality.Vision
