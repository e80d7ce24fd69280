import RustReality.Tls.Export
import RustReality.Vless.Addons
import RustReality.Vless.RequestRef

/-!
# Reading the Vision request

The server reads records until the VLESS request they carry is complete. What follows the request in
the last record is prefetched payload. The last record read carries application data, so a session that
leaves the server here leaves no KeyUpdate half read (`readVisionRequest_spec`).
-/

namespace RustReality.Vision
open Vless Tls

def maxRequestHeaderSize : Nat := 533

def maxRequestBufferSize : Nat := maxRequestHeaderSize + maxPlaintextLen

inductive RequestValidationError
  | shortIdOwnerMismatch
  | addons (error : AddonsDecodeError)
  | visionFlowRequired
  | unsupportedCommand (command : Command)
  | missingDestination
  | unexpectedMuxDestination
  deriving DecidableEq, Repr

inductive VisionRequestError
  | timeout
  | tls (error : TlsApplicationIoError)
  | requestTooLarge (limit : Nat)
  | allocationFailed
  | decode (error : DecodeError)
  | validate (error : RequestValidationError)
  deriving DecidableEq, Repr

/-! ### Authorization -/

variable (authenticated : UserId)

/-- The checks that both kinds of request start with. -/
def validateOwner (userId : UserId) (addons : Bytes) : Except RequestValidationError Unit :=
  if userId ≠ authenticated then .error .shortIdOwnerMismatch
  else
    match Addons.parse addons with
    | .error error => .error (.addons error)
    | .ok addons => if addons.flow ≠ some visionFlow then .error .visionFlowRequired else .ok ()

def validateAuthenticatedVisionFields (userId : UserId) (addons : Bytes) (command : Command) (hasDestination : Bool) :
    Except RequestValidationError Unit := do
  validateOwner authenticated userId addons
  if command ≠ .tcp then .error (.unsupportedCommand command)
  else if !hasDestination then .error .missingDestination
  else return

def authorizeAuthenticatedVisionXudp (request : RequestHeader) : Except RequestValidationError Unit := do
  validateOwner authenticated request.userId request.addons
  if request.command ≠ .mux then .error (.unsupportedCommand request.command)
  else if request.destination.isSome then .error .unexpectedMuxDestination
  else return

inductive AcceptedVisionRequest
  | tcp (userId : UserId) (destination : Destination) (prefetched : Bytes)
  | xudp (userId : UserId) (prefetched : Bytes)

/-- What the loop returns once the buffer decodes. -/
def acceptDecoded {buffer : Bytes} (decoded : DecodeRequestRef buffer) :
    Except VisionRequestError AcceptedVisionRequest := do
  let prefetched := buffer.drop (buffer.length - (decoded.payload.of buffer).length)
  match decoded.command with
  | .tcp =>
    (validateAuthenticatedVisionFields authenticated decoded.userId (decoded.addons.of buffer) decoded.command
      decoded.destination.isSome).mapError .validate
    match decoded.destination with
    | none => .error (.validate .missingDestination)
    | some destination => return .tcp decoded.userId destination.intoOwned prefetched
  | .mux =>
    let owned ← (decodeRequest buffer).mapError .decode
    (authorizeAuthenticatedVisionXudp authenticated owned.header).mapError .validate
    return .xudp decoded.userId prefetched
  | other => .error (.validate (.unsupportedCommand other))

/-- One turn of the loop: whether the deadline has passed, and the allocator's answer. -/
structure RequestTurn where
  late : Bool
  granted : Bool

variable {S K : Type} (crypto : RecordCrypto S K)

def requestLoop : Nat → List RequestTurn → TlsApplicationReader S K → Bytes →
    TlsApplicationReader S K × Except VisionRequestError AcceptedVisionRequest
  | 0, _, reader, _ => (reader, .error .timeout)
  | fuel + 1, turns, reader, buffer =>
    match decodeRequestRef buffer with
    | .ok decoded => (reader, acceptDecoded authenticated decoded)
    | .error (.unexpectedEnd ..) =>
      if buffer.length ≥ maxRequestHeaderSize then (reader, .error (.requestTooLarge maxRequestHeaderSize))
      else
        let turn := turns.headD ⟨false, true⟩
        if turn.late then (reader, .error .timeout)
        else
          match reader.readApplication crypto with
          | (reader, .error e) => (reader, .error (.tls e))
          | (reader, .ok record) =>
            if buffer.length + record.length > maxRequestBufferSize then
              (reader, .error (.requestTooLarge maxRequestBufferSize))
            else if !turn.granted then (reader, .error .allocationFailed)
            else requestLoop fuel turns.tail reader (buffer ++ record)
    | .error error => (reader, .error (.decode error))

def readVisionRequest (turns : List RequestTurn) (reader : TlsApplicationReader S K) :
    TlsApplicationReader S K × Except VisionRequestError AcceptedVisionRequest :=
  requestLoop authenticated crypto (reader.wire.length + 1) turns reader []

/-! ### The records that carry the request -/

inductive Received : TlsApplicationReader S K → List Bytes → TlsApplicationReader S K → Prop
  | nil {reader} : Received reader [] reader
  | cons {reader mid reader' record records} (h : reader.readApplication crypto = (mid, .ok record))
      (hr : Received mid records reader') : Received reader (record :: records) reader'

def Incomplete (buffer : Bytes) : Prop :=
  ∃ field needed remaining, decodeRequestRef buffer = .error (.unexpectedEnd field needed remaining)

def Accepts (wire : Bytes) (request : AcceptedVisionRequest) : Prop :=
  ∃ decoded : DecodeRequestRef wire, decodeRequestRef wire = .ok decoded ∧ acceptDecoded authenticated decoded = .ok request

/-- The last record completes a request within the buffer's limit, and none before it does. -/
structure Completes (buffer : Bytes) (records : List Bytes) (request : AcceptedVisionRequest) : Prop where
  fits : (buffer ++ records.flatten).length ≤ maxRequestBufferSize
  last : Accepts authenticated (buffer ++ records.flatten) request
  first : ∀ front, front <+: records → front ≠ records → Incomplete (buffer ++ front.flatten)

theorem requestLoop_completes {fuel : Nat} {turns : List RequestTurn} {reader reader' : TlsApplicationReader S K}
    {buffer : Bytes} {request : AcceptedVisionRequest} (hfits : buffer.length ≤ maxRequestBufferSize)
    (h : requestLoop authenticated crypto fuel turns reader buffer = (reader', .ok request)) :
    ∃ records, Received crypto reader records reader' ∧ Completes authenticated buffer records request := by
  induction fuel generalizing turns reader buffer with
  | zero => cases h
  | succ fuel ih =>
    rw [requestLoop] at h
    split at h
    · next decoded hdecoded =>
      obtain ⟨rfl, haccepted⟩ := Prod.mk.inj h
      have haccepts : Accepts authenticated buffer request := ⟨decoded, hdecoded, haccepted⟩
      exact ⟨[], .nil, by simpa using hfits, by simpa using haccepts, by simp⟩
    · next hend =>
      rcases hread : reader.readApplication crypto with ⟨mid, error | record⟩ <;> rw [hread] at h
      · grind
      · obtain ⟨records, hreceived, hf, hl, hu⟩ := @ih turns.tail mid (buffer ++ record) (by grind) (by grind)
        rw [List.append_assoc] at hf hl
        refine ⟨record :: records, .cons hread hreceived, hf, hl, fun front hfront hne => ?_⟩
        cases front with
        | nil => simpa using ⟨_, _, _, hend⟩
        | cons next front =>
          obtain ⟨rfl, hp⟩ := List.cons_prefix_cons.1 hfront
          simpa using hu front hp (by simpa using hne)
    · cases h

/-! ### Where the request ends -/

/-- A reader between two records of a session, with no KeyUpdate half read. -/
structure AtBoundary (reader : TlsApplicationReader S K) : Prop where
  inv : reader.Inv
  live : reader.records.Live crypto
  whole : reader.keyUpdate = []

variable {crypto}

theorem Received.kept {reader reader' : TlsApplicationReader S K} {records : List Bytes}
    (h : Received crypto reader records reader') (hinv : reader.Inv) (hlive : reader.records.Live crypto) :
    reader'.Inv ∧ reader'.records.Live crypto ∧ reader'.records.suite = reader.records.suite ∧
      ∀ last ∈ records.getLast?, last ≠ [] → reader'.keyUpdate = [] := by
  induction h with
  | nil => exact ⟨hinv, hlive, rfl, by simp⟩
  | @cons reader mid reader' record records hread hrest ih =>
    have hs := TlsApplicationReader.readApplication_spec crypto hinv hread
    generalize hout : Except.ok record = outcome at hs
    cases hs with
    | @record wire _ hmid hstate =>
      obtain ⟨hkept, hsuite⟩ := RecordState.process_live (show reader.state.records.Live crypto from hlive) wire
      rw [← hstate] at hkept hsuite
      obtain ⟨hinv', hlive', hsuite', hlast⟩ := ih hmid hkept
      refine ⟨hinv', hlive', hsuite'.trans hsuite, ?_⟩
      cases hrest with
      | nil =>
        rintro _ ⟨⟩ hne
        exact (congrArg RecordState.keyUpdate hstate).trans (RecordState.process_keyUpdate_nil hout.symm hne)
      | cons =>
        rw [List.getLast?_cons_cons]
        exact hlast
    | refused | ended | tooLarge => cases hout

/-- An empty record would leave the buffer as it was, so the record that completes a request has content. -/
theorem Completes.last_ne_nil {records : List Bytes} {request : AcceptedVisionRequest}
    (h : Completes authenticated [] records request) : ∃ last ∈ records.getLast?, last ≠ [] := by
  have hnot {wire : Bytes} (hend : Incomplete wire) : ¬Accepts authenticated wire request := by
    rintro ⟨decoded, hdecoded, -⟩
    obtain ⟨_, _, _, hend⟩ := hend
    cases hdecoded.symm.trans hend
  rcases records.eq_nil_or_concat with rfl | ⟨front, last, rfl⟩
  · exact absurd h.last (hnot ⟨_, _, _, rfl⟩)
  · refine ⟨last, by simp, ?_⟩
    rintro rfl
    exact hnot (h.first front (by simp) (by simp)) (by simpa using h.last)

variable (crypto)

theorem readVisionRequest_spec {turns : List RequestTurn} {reader reader' : TlsApplicationReader S K}
    {request : AcceptedVisionRequest} (hinv : reader.Inv) (hlive : reader.records.Live crypto)
    (h : readVisionRequest authenticated crypto turns reader = (reader', .ok request)) :
    AtBoundary crypto reader' ∧ reader'.records.suite = reader.records.suite := by
  obtain ⟨records, hreceived, hcompletes⟩ := requestLoop_completes authenticated crypto (Nat.zero_le _) h
  obtain ⟨hinv', hlive', hsuite, hwhole⟩ := hreceived.kept hinv hlive
  obtain ⟨last, hlast, hne⟩ := hcompletes.last_ne_nil
  exact ⟨⟨hinv', hlive', hwhole last hlast hne⟩, hsuite⟩

/-! ### What is accepted -/

/-- The bytes start with a request of the authenticated user for a destination, and `prefetched` is what
stands behind it. -/
structure CarriesTcp (wire : Bytes) (destination : Destination) (prefetched : Bytes)
    (request : DecodeRequestRef wire) : Prop where
  decoded : decodeRequestRef wire = .ok request
  command : request.command = .tcp
  user : request.userId = authenticated
  flow : ∃ addons, Addons.parse (request.addons.of wire) = .ok addons ∧ addons.flow = some visionFlow
  destination : request.destination.map (·.intoOwned) = some destination
  prefetched : prefetched = wire.drop request.payload.start

theorem validateOwner_ok {userId : UserId} {addons : Bytes} (h : validateOwner authenticated userId addons = .ok ()) :
    userId = authenticated ∧ ∃ parsed, Addons.parse addons = .ok parsed ∧ parsed.flow = some visionFlow := by
  unfold validateOwner at h
  split_ifs at h with howner
  split at h
  · cases h
  · next parsed hparsed =>
    split_ifs at h with hflow
    exact ⟨not_not.1 howner, parsed, hparsed, not_not.1 hflow⟩

theorem accepts_tcp {wire prefetched : Bytes} {userId : UserId} {destination : Destination}
    (h : Accepts authenticated wire (.tcp userId destination prefetched)) :
    userId = authenticated ∧ ∃ request, CarriesTcp authenticated wire destination prefetched request := by
  obtain ⟨request, hdecoded, haccepted⟩ := h
  obtain ⟨error, herror, -⟩ | ⟨_, hok, -, hle, hpayload⟩ := decodeRequestRef_cases wire
  · cases hdecoded.symm.trans herror
  cases hdecoded.symm.trans hok
  unfold acceptDecoded at haccepted
  dsimp only at haccepted
  split at haccepted
  · next hcommand =>
    obtain ⟨_, hvalid, haccepted⟩ := Result.bind_ok_iff.1 haccepted
    split at haccepted
    · cases haccepted
    · next destination hdestination =>
      cases haccepted
      obtain ⟨_, howner, -⟩ := Result.bind_ok_iff.1 (Result.mapError_ok_iff.1 hvalid)
      obtain ⟨huser, hflow⟩ := validateOwner_ok authenticated howner
      refine ⟨huser, request, hdecoded, hcommand, huser, hflow, by rw [hdestination]; rfl, ?_⟩
      rw [hpayload, List.length_drop, Nat.sub_sub_self hle]
  · obtain ⟨_, _, haccepted⟩ := Result.bind_ok_iff.1 haccepted
    obtain ⟨_, _, haccepted⟩ := Result.bind_ok_iff.1 haccepted
    cases haccepted
  · cases haccepted

end RustReality.Vision
