import RustReality.Handoff.Seal
import RustReality.Lib.Net
import RustReality.Nxr.OpenUnique

/-!
# One authenticated message per flow

A Handoff transfer and an NXR request are written to a warm socket if the pool has one, and to a dialled one if
that write fails. The write counts the bytes the socket has taken, so its failure says that the message is not
complete there, and the next attempt draws its own clock and entropy (`transfer_once`).
-/

namespace RustReality.Session

open Net Handoff

inductive WriteProgress
  | noBytesWritten
  | partialWrite (bytesWritten : Nat)
  | completeWrite

inductive RetryableProgress
  | noBytesWritten
  | partialWrite (bytesWritten : Nat)

structure CommittedWrite

namespace WriteProgress

def fromWritten (bytesWritten messageLen : Nat) : WriteProgress :=
  if bytesWritten ≥ messageLen then .completeWrite
  else if bytesWritten = 0 then .noBytesWritten
  else .partialWrite bytesWritten

def split : WriteProgress → Except RetryableProgress CommittedWrite
  | .noBytesWritten => .error .noBytesWritten
  | .partialWrite bytesWritten => .error (.partialWrite bytesWritten)
  | .completeWrite => .ok ⟨⟩

end WriteProgress

/-! ### The counted write -/

structure CountedWriteError where
  source : Failure
  progress : RetryableProgress

def failure (source : Failure) (written messageLen : Nat) : CountedWriteError :=
  match (WriteProgress.fromWritten written messageLen).split with
  | .error retryable => ⟨source, retryable⟩
  | .ok _ => ⟨source, .noBytesWritten⟩

/-- The loop; a turn that is not the last adds a byte to `written`. -/
def writeCounted (bytes : Bytes) : Nat → Sink → Nat → Sink × Except CountedWriteError CommittedWrite
  | 0, stream, written =>
    match (WriteProgress.fromWritten written bytes.length).split with
    | .ok committed => (stream, .ok committed)
    | .error retryable => (stream, .error ⟨.io .writeZero, retryable⟩)
  | fuel + 1, stream, written =>
    if written < bytes.length then
      match stream.write (bytes.drop written) with
      | (stream, .error source) => (stream, .error (failure source written bytes.length))
      | (stream, .ok 0) => (stream, .error (failure (.io .writeZero) written bytes.length))
      | (stream, .ok (n + 1)) => writeCounted bytes fuel stream (written + (n + 1))
    else writeCounted bytes 0 stream written

def writeAllCountedBefore (stream : Sink) (bytes : Bytes) : Sink × Except CountedWriteError CommittedWrite :=
  writeCounted bytes bytes.length stream 0

theorem writeCounted_zero {bytes : Bytes} {stream : Sink} {written : Nat} (h : bytes.length ≤ written) :
    writeCounted bytes 0 stream written = (stream, .ok ⟨⟩) := by
  simp [writeCounted, WriteProgress.fromWritten, h, WriteProgress.split]

theorem writeCounted_spec {bytes : Bytes} {fuel : Nat} {stream stream' : Sink} {written : Nat}
    {result : Except CountedWriteError CommittedWrite} (hf : bytes.length ≤ written + fuel)
    (h : writeCounted bytes fuel stream written = (stream', result)) :
    ∃ sent, stream'.written = stream.written ++ sent ∧ sent <+: bytes.drop written ∧
      (result.isOk ↔ sent = bytes.drop written) := by
  induction fuel generalizing stream written with
  | zero =>
    have he : bytes.length ≤ written := hf
    rw [writeCounted_zero he] at h
    cases h
    exact ⟨[], by simp, List.nil_prefix, by simp [Except.isOk, Except.toBool, List.drop_of_length_le he]⟩
  | succ fuel ih =>
    rw [writeCounted] at h
    split at h
    · next hlt =>
      have hne : bytes.drop written ≠ [] := by simpa using hlt
      rcases hwr : stream.write (bytes.drop written) with ⟨mid, outcome⟩
      rw [hwr] at h
      have hs := Sink.write_spec hwr
      cases outcome with
      | error source =>
        cases h
        obtain ⟨failure, -, hw⟩ | ⟨n, hok, -⟩ := hs
        · exact ⟨[], by simpa using hw, List.nil_prefix, by simp [Except.isOk, Except.toBool, hne.symm]⟩
        · cases hok
      | ok count =>
        obtain ⟨failure, her, -⟩ | ⟨n, hok, hle, hw⟩ := hs
        · cases her
        cases hok
        cases count with
        | zero =>
          cases h
          exact ⟨[], by simpa using hw, List.nil_prefix, by simp [Except.isOk, Except.toBool, hne.symm]⟩
        | succ n =>
          obtain ⟨sent, hsn, hfr, hr⟩ := ih (by omega) h
          have hsp : bytes.drop written = (bytes.drop written).take (n + 1) ++ bytes.drop (written + (n + 1)) := by
            rw [← List.drop_drop, List.take_append_drop]
          refine ⟨(bytes.drop written).take (n + 1) ++ sent, by rw [hsn, hw, List.append_assoc], ?_, ?_⟩
          · nth_rewrite 2 [hsp]
            exact (List.prefix_append_right_inj _).2 hfr
          · nth_rewrite 2 [hsp]
            rw [hr, List.append_right_inj]
    · next hlt =>
      rw [writeCounted_zero (Nat.not_lt.1 hlt)] at h
      cases h
      exact ⟨[], by simp, List.nil_prefix,
        by simp [Except.isOk, Except.toBool, List.drop_of_length_le (Nat.not_lt.1 hlt)]⟩

/-! ### Attempts -/

inductive AttemptTransport
  | warm | cold
  deriving DecidableEq

structure Attempt where
  transport : AttemptTransport
  /-- The draw of clock and entropy its message is made of. -/
  draw : Nat
  message : Bytes
  received : Bytes

abbrev Attempt.Complete (self : Attempt) : Prop := self.received = self.message

/-- What a flow meets: the warm socket, if a pool has one, whether the deadlines of the two attempts can be
represented, and the outcome of the dial. -/
structure Ways (ε : Type) where
  warm : Option Sink
  warmDeadline : Bool
  coldDeadline : Bool
  dial : Except ε Sink

section Transfer

variable {ε : Type} (timeout : ε) (connect : Failure → ε) (make : Nat → Except ε Bytes) (ways : Ways ε)
  (MadeOf : Nat → Bytes → Prop)

def attempt (transport : AttemptTransport) (draw : Nat) (stream : Sink) : Except ε (Attempt × Except Failure Sink) :=
  (make draw).map fun message =>
    let (after, result) := writeAllCountedBefore stream message
    (⟨transport, draw, message, after.written.drop stream.written.length⟩,
      match result with
      | .ok _ => .ok after
      | .error error => .error error.source)

/-- The required attempt, behind those that failed. -/
def coldTransfer (failed : List Attempt) : List Attempt × Except ε Sink :=
  if !ways.coldDeadline then (failed, .error timeout)
  else
    match ways.dial with
    | .error e => (failed, .error e)
    | .ok stream =>
      match attempt make .cold failed.length stream with
      | .error e => (failed, .error e)
      | .ok (made, .ok stream) => (failed ++ [made], .ok stream)
      | .ok (made, .error source) => (failed ++ [made], .error (connect source))

def transferMessage : List Attempt × Except ε Sink :=
  match ways.warm with
  | none => coldTransfer timeout connect make ways []
  | some stream =>
    if !ways.warmDeadline then ([], .error timeout)
    else
      match attempt make .warm 0 stream with
      | .error e => ([], .error e)
      | .ok (made, .ok stream) => ([made], .ok stream)
      | .ok (made, .error _) => coldTransfer timeout connect make ways [made]

/-- A run of at most two attempts, each with a message of its own draw, of which only the last may be complete;
it is when the run succeeds, and then alone. -/
structure Once (run : List Attempt × Except ε Sink) : Prop where
  fresh : ∀ made ∈ run.1, MadeOf made.draw made.message
  draws : (run.1.map Attempt.draw).Nodup
  alternate : (run.1.map Attempt.transport).Sublist [.warm, .cold]
  last : ∀ made ∈ run.1.dropLast, ¬made.Complete
  committed : ∀ stream, run.2 = .ok stream → ∃ made, run.1.getLast? = some made ∧ made.Complete
  failed : ∀ e, run.2 = .error e → ∀ made ∈ run.1, ¬made.Complete

variable {timeout connect make ways MadeOf}

section Made

variable (hmake : ∀ draw message, make draw = .ok message → MadeOf draw message)

include hmake

theorem attempt_spec {transport : AttemptTransport} {draw : Nat} {stream : Sink} {made : Attempt}
    {result : Except Failure Sink} (h : attempt make transport draw stream = .ok (made, result)) :
    made.transport = transport ∧ made.draw = draw ∧ MadeOf draw made.message ∧ (result.isOk ↔ made.Complete) := by
  unfold attempt at h
  cases hmade : make draw with
  | error e =>
    rw [hmade] at h
    cases h
  | ok message =>
    rw [hmade] at h
    rcases hw : writeAllCountedBefore stream message with ⟨after, outcome⟩
    simp only [Except.map, hw, Except.ok.injEq, Prod.mk.injEq] at h
    obtain ⟨rfl, rfl⟩ := h
    obtain ⟨sent, hsn, -, hr⟩ := writeCounted_spec (by simp) hw
    refine ⟨rfl, rfl, hmake _ _ hmade, ?_⟩
    rw [Attempt.Complete, hsn, List.drop_left]
    cases outcome <;> simpa [Except.isOk, Except.toBool] using hr

theorem once_cold {failed : List Attempt} (hfresh : ∀ made ∈ failed, MadeOf made.draw made.message)
    (hdraws : (failed.map Attempt.draw) = List.range failed.length)
    (hwarm : (failed.map Attempt.transport).Sublist [.warm]) (hfailed : ∀ made ∈ failed, ¬made.Complete) :
    Once MadeOf (coldTransfer timeout connect make ways failed) := by
  have hstop (e : ε) : Once MadeOf (failed, .error e) :=
    ⟨hfresh, hdraws ▸ List.nodup_range, hwarm.trans (by simp), fun made hm => hfailed made (List.mem_of_mem_dropLast hm),
      nofun, fun _ _ => hfailed⟩
  have hlast {made : Attempt} {stream : Sink} {result : Except Failure Sink} {run : Except ε Sink}
      (h : attempt make .cold failed.length stream = .ok (made, result)) (hr : run.isOk = result.isOk) :
      Once MadeOf (failed ++ [made], run) := by
    obtain ⟨hcold, hdraw, hmade, hcomplete⟩ := attempt_spec hmake h
    refine ⟨?_, ?_, ?_, ?_, ?_, ?_⟩
    · exact List.forall_mem_append.2 ⟨hfresh, by simpa [hdraw] using hmade⟩
    · rw [List.map_append, hdraws, List.map_singleton, hdraw, ← List.range_succ]
      exact List.nodup_range
    · simpa [hcold] using hwarm.append (List.Sublist.refl [AttemptTransport.cold])
    · simpa using hfailed
    · rintro stream rfl
      exact ⟨made, by simp, hcomplete.1 (hr ▸ rfl)⟩
    · rintro e rfl other ho
      rcases List.mem_append.1 ho with hold | hnew
      · exact hfailed other hold
      · obtain rfl := List.mem_singleton.1 hnew
        rw [← hcomplete, ← hr]
        nofun
  unfold coldTransfer
  split
  · exact hstop _
  split
  · exact hstop _
  split
  · exact hstop _
  · next h => exact hlast h rfl
  · next h => exact hlast h rfl

theorem once_transferMessage : Once MadeOf (transferMessage timeout connect make ways) := by
  have hnone (e : ε) : Once MadeOf ([], .error e) := ⟨nofun, by simp, by simp, nofun, nofun, nofun⟩
  unfold transferMessage
  split
  · exact once_cold hmake nofun rfl (by simp) nofun
  split
  · exact hnone _
  split
  · exact hnone _
  · next h =>
    obtain ⟨hwarm, hdraw, hmade, hcomplete⟩ := attempt_spec hmake h
    exact ⟨by simpa [hdraw] using hmade, by simp, by simp [hwarm], nofun, fun _ _ => ⟨_, rfl, hcomplete.1 rfl⟩, nofun⟩
  · next made _ h =>
    obtain ⟨hwarm, hdraw, hmade, hcomplete⟩ := attempt_spec hmake h
    exact once_cold hmake (by simpa [hdraw] using hmade) (by simp [hdraw]) (by simp [hwarm])
      (by simpa using fun hm => nomatch hcomplete.2 hm)

end Made

end Transfer

/-! ### Handoff and NXR -/

inductive HandoffLineError
  | descriptorBudget
  | timeout
  | connect (source : Failure)
  | clock
  | transfer (error : HandoffError)

structure HandoffLine where
  primitives : Primitives
  encrypt : Encrypt
  psk : HandoffPsk
  landingPublic : Vector UInt8 32

/-- What one draw gives: the time, the ephemeral secret and the nonce, and the allocator's answers. -/
structure Draw where
  timestamp : Option Nat
  random : SealRandom
  reserve : Nat → Bool

def HandoffLine.sealFresh (self : HandoffLine) (state : ContinuationState) (clientRandom : Vector UInt8 32) (draw : Draw) :
    Except HandoffLineError Bytes :=
  match draw.timestamp with
  | none => .error .clock
  | some timestamp =>
    (sealTransfer self.primitives self.encrypt draw.reserve draw.random state self.psk self.landingPublic clientRandom
      (UInt64.ofNat timestamp)).mapError .transfer

def HandoffLineError.ofWrite : Failure → HandoffLineError
  | .timeout | .io .timedOut => .timeout
  | source => .connect source

def HandoffLine.transfer (self : HandoffLine) (state : ContinuationState) (clientRandom : Vector UInt8 32)
    (draws : Nat → Draw) (ways : Ways HandoffLineError) : List Attempt × Except HandoffLineError Sink :=
  transferMessage .timeout .ofWrite (fun draw => self.sealFresh state clientRandom (draws draw)) ways

inductive OutboundConnectError
  | descriptorBudget
  | nxrTimeout
  | nxrConnect (source : Failure)
  | nxrClock
  | nxrRandom
  | nxrProtocol (error : Nxr.NxrProtocolError)

def freshNxrRequest (hmac : Nxr.Hmac) (key : Nxr.NxrKey) (destination : Vless.Destination) (draw : Draw) :
    Except OutboundConnectError Bytes :=
  match draw.timestamp, draw.random.nonce with
  | none, _ => .error .nxrClock
  | some _, none => .error .nxrRandom
  | some timestamp, some nonce =>
    match Nxr.encodeRequest hmac destination timestamp nonce key [] (draw.reserve Nxr.maxRequestLen) with
    | (_, .error error) => .error (.nxrProtocol error)
    | (request, .ok ()) => .ok request

def OutboundConnectError.ofWrite : Failure → OutboundConnectError
  | .timeout | .io .timedOut => .nxrTimeout
  | source => .nxrConnect source

def connectNxr (hmac : Nxr.Hmac) (key : Nxr.NxrKey) (destination : Vless.Destination) (draws : Nat → Draw)
    (ways : Ways OutboundConnectError) : List Attempt × Except OutboundConnectError Sink :=
  transferMessage .nxrTimeout .ofWrite (fun draw => freshNxrRequest hmac key destination (draws draw)) ways

/-! ### What a message is made of -/

/-- The message carries the draw's nonce and the public key of its ephemeral secret, and the body is encrypted under
the key agreed with that secret. -/
def HandoffLine.MadeOf (self : HandoffLine) (draw : Draw) (message : Bytes) : Prop :=
  ∃ ephemeral nonce header ciphertext tag, draw.random = ⟨some ephemeral, some nonce⟩ ∧ message = header ++ (ciphertext ++ tag) ∧
    slice header nonceOffset ephemeralOffset = nonce.toList ∧
    slice header ephemeralOffset clientRandomOffset = (self.primitives.publicKey ephemeral).toList ∧
    ∃ shared key aeadNonce blob, self.primitives.agree ephemeral self.landingPublic = some shared ∧
      deriveAead self.primitives header shared self.psk self.landingPublic = .ok (key, aeadNonce) ∧
      self.encrypt key aeadNonce header blob = some (ciphertext, tag)

/-- The request carries the draw's nonce. -/
def NxrMadeOf (draw : Draw) (request : Bytes) : Prop := draw.random.nonce = some (Nxr.nonceAt request)

theorem sealFresh_madeOf {line : HandoffLine} {state : ContinuationState} {clientRandom : Vector UInt8 32} {draw : Draw}
    {message : Bytes} (h : line.sealFresh state clientRandom draw = .ok message) : line.MadeOf draw message := by
  unfold HandoffLine.sealFresh at h
  split at h
  · cases h
  next timestamp _ =>
  obtain ⟨ephemeral, nonce, blob, shared, key, aeadNonce, ciphertext, tag, hrandom, -, -, hagree, hkey, hsealed, rfl⟩ :=
    sealTransfer_parts (Result.mapError_ok_iff.1 h)
  refine ⟨ephemeral, nonce, _, ciphertext, tag, hrandom, rfl, ?_, ?_, shared, key, aeadNonce, blob, hagree, hkey, hsealed⟩
  · rw [encodeHeader, List.append_assoc, List.append_assoc, List.append_assoc]
    exact slice_at (by simp; rfl) (by simp; rfl)
  · rw [encodeHeader, List.append_assoc, List.append_assoc]
    exact slice_at (by simp; rfl) (by simp; rfl)

theorem freshNxrRequest_madeOf {hmac : Nxr.Hmac} {key : Nxr.NxrKey} {destination : Vless.Destination} {draw : Draw}
    {request : Bytes} (h : freshNxrRequest hmac key destination draw = .ok request) : NxrMadeOf draw request := by
  unfold freshNxrRequest at h
  split at h
  · cases h
  · cases h
  · next timestamp nonce _ hnonce =>
    split at h
    · cases h
    · next hencode =>
      cases h
      obtain ⟨-, kind, addressLen, hlayout⟩ := Nxr.encodeRequest_ok_iff.1 hencode
      rw [NxrMadeOf, hnonce, ← Nxr.nonceAt_header, hlayout.take_header, Nxr.openHeader_nonce]

theorem transfer_once :
    (∀ (line : HandoffLine) state clientRandom draws ways,
      Once (fun draw => line.MadeOf (draws draw)) (line.transfer state clientRandom draws ways)) ∧
    ∀ hmac key destination draws ways,
      Once (fun draw => NxrMadeOf (draws draw)) (connectNxr hmac key destination draws ways) :=
  ⟨fun _ _ _ _ _ => once_transferMessage fun _ _ => sealFresh_madeOf,
    fun _ _ _ _ _ => once_transferMessage fun _ _ => freshNxrRequest_madeOf⟩

end RustReality.Session
