import RustReality.Handoff.Transfer
import RustReality.Handoff.Udp.Wire

/-!
# OPEN packets at LANDING

Every address a landing binds has one task that owns the channel socket, the sessions and a replay
cache for the nonces of OPENs. The task handles its packets one after another; a session ends by CLOSE
or when it is idle, and its id is free again.
-/

namespace RustReality.Handoff.Udp

open Clock Interleaving Replay

def openNonceLen : Nat := 16

def openClearLen : Nat := 8 + openNonceLen + 32

def openSealedLen : Nat := headerLen + openClearLen + 16 + tagLen

def openLen : Nat := openSealedLen + 16

def maxLandingUdpSessions : Nat := 4096

def openReplayCapacity : Nat := 65536

def maxOpenTimeDifference : Nat := 60

def openReplayRetention : Nat := (2 * maxOpenTimeDifference + 1) * nanosPerSecond

def openTimestampAt (packet : Bytes) : Nat := ofBe (slice packet headerLen (headerLen + 8))

def openNonceAt (packet : Bytes) : Nonce := vectorAt 16 packet (headerLen + 8)

/-! ### Admission and trials -/

def openFilterLabel : Bytes := "rust-reality/handoff-udp/v1/open-filter".toUTF8.data.toList

variable (primitives : Primitives)

def openFilterMatches (psk : HandoffPsk) (packet : Bytes) : Bool :=
  match primitives.hkdf openFilterLabel psk.toList [] 32 with
  | none => false
  | some key => (primitives.hmac key (packet.take openSealedLen)).take 16 = slice packet openSealedLen openLen

/-- `accept_open` up to the reservation: the session id and the nonce to reserve. -/
def admitOpen (keys : HandoffLandingKeys) (packet : Bytes) (now maximumTimeDifference : Nat) :
    Except UdpPacketError (SessionId × Nonce) :=
  if packet.length ≠ openLen then .error .length
  else
    match parseHeader packet with
    | .error error => .error error
    | .ok (packetType, sessionId, counter) =>
      if packetType ≠ .open ∨ counter ≠ 0 then .error .type
      else if absDiff (openTimestampAt packet) now > maximumTimeDifference then .error .timeWindow
      else if keys.candidates.all fun candidate => !openFilterMatches primitives candidate.1 packet then
        .error .authentication
      else .ok (sessionId, openNonceAt packet)

def hkdfLabel : Bytes := "rust-reality/handoff-udp/v1".toUTF8.data.toList

structure DerivedKeys where
  openKey : Bytes
  lineToLanding : Bytes
  landingToLine : Bytes
  deriving DecidableEq

def deriveKeys (openClear : Bytes) (shared psk landingPublic : Vector UInt8 32) : Except UdpPacketError DerivedKeys :=
  let salt := hkdfLabel ++ openClear.drop (headerLen + 8 + openNonceLen) ++ landingPublic.toList
  match primitives.hkdf salt (shared.toList ++ psk.toList) (openClear ++ landingPublic.toList) 96 with
  | none => .error .crypto
  | some okm => .ok ⟨okm.take 32, slice okm 32 64, okm.drop 64⟩

/-- `accept_open` after the reservation: the user id and the keys of the channel. -/
def trialOpen (primitives : Primitives) (packet : Bytes) :
    List (HandoffPsk × StaticX25519Key) → Except UdpPacketError (Bytes × DerivedKeys)
  | [] => .error .authentication
  | (psk, secret) :: candidates =>
    let clear := packet.take (headerLen + openClearLen)
    let body := slice packet (headerLen + openClearLen) (headerLen + openClearLen + 16)
    let tag := slice packet (openSealedLen - tagLen) openSealedLen
    if !openFilterMatches primitives psk packet then trialOpen primitives packet candidates
    else
      match primitives.agree secret (vectorAt 32 packet (headerLen + 8 + openNonceLen)) with
      | none => trialOpen primitives packet candidates
      | some shared =>
        match deriveKeys primitives clear shared psk (primitives.publicKey secret) with
        | .error error => .error error
        | .ok derived =>
          match primitives.decrypt derived.openKey (List.replicate 12 0) clear body tag with
          | some userId => .ok (userId, derived)
          | none => trialOpen primitives packet candidates

theorem admitOpen_ok {primitives : Primitives} {keys : HandoffLandingKeys} {packet : Bytes} {now difference : Nat}
    {sessionId : SessionId} {nonce : Nonce} (h : admitOpen primitives keys packet now difference = .ok (sessionId, nonce)) :
    nonce = openNonceAt packet ∧ absDiff (openTimestampAt packet) now ≤ difference := by
  unfold admitOpen at h
  obtain ⟨-, h⟩ := Result.ite_error_ok_iff.1 h
  split at h
  · cases h
  simp only [Result.ite_error_ok_iff] at h
  obtain ⟨-, hwindow, -, h⟩ := h
  cases h
  exact ⟨rfl, Nat.le_of_not_lt hwindow⟩

/-! ### One address -/

structure LandingUdpPolicy where
  keys : HandoffLandingKeys
  maximumTimeDifference : Nat
  directEgress : Bool

/-- What the task of an address handles, with its time. -/
inductive UdpInput
  /-- A packet; the answers are those of the allocator and the atomics to the reservation it may make. -/
  | received (packet : Bytes) (now : Nat) (policy : Option LandingUdpPolicy) (answers : List Answers)
  /-- The end of a session by CLOSE or by the idle bound. -/
  | ended (sessionId : SessionId) (now : Nat)

namespace UdpInput

def now : UdpInput → Nat
  | .received _ now _ _ => now
  | .ended _ now => now

def nonceCall : UdpInput → NonceCall
  | .received packet now _ _ => .reserve (openNonceAt packet) now
  | .ended _ now => .purge now

end UdpInput

abbrev Sessions := List (SessionId × Bytes)

structure UdpListener (n : Nat) where
  cache : Config (Fin n) (NonceStore (Fin n)) (NonceTask HandoffError)
  history : List (Fin n × NonceEvent HandoffError)
  sessions : Sessions
  /-- The inputs that created a session, the last one first. -/
  created : List (Fin n)

def openPolicy (lastInstant : Nat) : ReplayPolicy where
  capacity := openReplayCapacity
  retention := openReplayRetention
  lastInstant := lastInstant
  capacity_pos := by decide
  capacity_lt := by decide
  retention_pos := by decide

section Steps

variable (primitives : Primitives) (epoch lastInstant : Nat) {n : Nat} (listener : UdpListener n) (i : Fin n)

def UdpListener.reserve (answers : List Answers) : UdpListener n :=
  let result := execute (nonceStep handoffReplayErrors (openPolicy lastInstant)) listener.cache (answers.map (i, ·))
  { listener with cache := result.1, history := listener.history ++ result.2 }

def UdpListener.reserved (nonce : Nonce) (now : Nat) : Bool :=
  (i, NonceEvent.admitted nonce now) ∈ listener.history

def UdpListener.openSession (packet : Bytes) (now : Nat)
    (policy : Option LandingUdpPolicy) (answers : List Answers) : UdpListener n :=
  if packet.length ≠ openLen then listener
  else
    match policy with
    | none => listener
    | some policy =>
      if !policy.directEgress || listener.sessions.length ≥ maxLandingUdpSessions then listener
      else
        let difference := min policy.maximumTimeDifference maxOpenTimeDifference
        match admitOpen primitives policy.keys packet (unixSeconds epoch now) difference with
        | .error _ => listener
        | .ok (sessionId, nonce) =>
          let listener := listener.reserve lastInstant i answers
          if !listener.reserved i nonce now then listener
          else
            match trialOpen primitives packet policy.keys.candidates with
            | .error _ => listener
            | .ok _ =>
              if (listener.sessions.lookup sessionId).isSome || listener.sessions.length ≥ maxLandingUdpSessions then
                listener
              else
                { listener with sessions := (sessionId, packet) :: listener.sessions, created := i :: listener.created }

def UdpListener.handle : UdpInput → UdpListener n
  | .ended sessionId _ => { listener with sessions := listener.sessions.filter (·.1 ≠ sessionId) }
  | .received packet now policy answers =>
    match parseHeader packet with
    | .error _ => listener
    | .ok (packetType, sessionId, _) =>
      -- Packets of other types belong to a session; an OPEN of a live session is acknowledged again.
      if packetType ≠ .open then listener
      else if (listener.sessions.lookup sessionId).isSome then listener
      else listener.openSession primitives epoch lastInstant i packet now policy answers

end Steps

def runLandingUdp (epoch lastInstant : Nat) (inputs : List UdpInput) : UdpListener inputs.length :=
  (List.finRange inputs.length).foldl (fun listener i => listener.handle primitives epoch lastInstant i (inputs.get i))
    { cache := nonceStart fun i => (inputs.get i).nonceCall, history := [], sessions := [], created := [] }

end RustReality.Handoff.Udp
