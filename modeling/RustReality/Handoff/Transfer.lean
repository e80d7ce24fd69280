import RustReality.Lib.Clock
import RustReality.Handoff.Blob
import RustReality.Replay.NonceCache

/-!
# Opening a transfer message

LANDING checks the header and its timestamp, reserves the nonce, and only then tries every key pair it
accepts. `openTransfer` is cut at the reservation, which the replay cache answers. The cryptography is
a parameter.
-/

namespace RustReality.Handoff

open Clock Replay

/-- X25519, HKDF-SHA256, HMAC-SHA256 and the decryption of ChaCha20-Poly1305. -/
structure Primitives where
  publicKey : Vector UInt8 32 → Vector UInt8 32
  /-- The shared secret; `none` for a share that does not contribute. -/
  agree : Vector UInt8 32 → Vector UInt8 32 → Option (Vector UInt8 32)
  /-- Salt, key material, info and the length of the output. -/
  hkdf : Bytes → Bytes → Bytes → Nat → Option Bytes
  hmac : Bytes → Bytes → Bytes
  /-- Key, nonce, associated data, ciphertext and tag. -/
  decrypt : Bytes → Bytes → Bytes → Bytes → Bytes → Option Bytes

abbrev HandoffPsk := Vector UInt8 32

abbrev StaticX25519Key := Vector UInt8 32

structure HandoffLandingKeys where
  activePsk : HandoffPsk
  previousPsks : List HandoffPsk
  activeSecret : StaticX25519Key
  previousSecrets : List StaticX25519Key

def HandoffLandingKeys.candidates (keys : HandoffLandingKeys) : List (HandoffPsk × StaticX25519Key) :=
  (keys.activePsk :: keys.previousPsks).flatMap fun psk =>
    (keys.activeSecret :: keys.previousSecrets).map fun secret => (psk, secret)

/-! ### The header -/

def magic : Bytes := [72, 78, 68, 49]

def handoffProtocolVersion : UInt8 := 1

def headerLen : Nat := 114

def tagLen : Nat := 16

def maxMessageLen : Nat := headerLen + maxBlobLen + tagLen

def versionOffset : Nat := 4

def stateVersionOffset : Nat := 5

def timestampOffset : Nat := 6

def nonceOffset : Nat := 14

def ephemeralOffset : Nat := 30

def clientRandomOffset : Nat := 62

def userIdOffset : Nat := 94

def blobLenOffset : Nat := 110

structure TransferHeader where
  raw : Bytes
  timestamp : Nat
  nonce : Nonce
  ephemeralPublic : Vector UInt8 32
  clientRandom : Vector UInt8 32
  userId : Vector UInt8 16
  blobLen : Nat

def parseHeader (header : Bytes) : Except HandoffError TransferHeader :=
  if header.length ≠ headerLen then .error .length
  else if header.take magic.length ≠ magic then .error .version
  else if header.getD versionOffset 0 ≠ handoffProtocolVersion ∨
      header.getD stateVersionOffset 0 ≠ continuationStateVersion then .error .version
  else
    let blobLen := ofBe (slice header blobLenOffset headerLen)
    if blobLen > maxBlobLen then .error .length
    else .ok
      { raw := header
        timestamp := ofBe (slice header timestampOffset nonceOffset)
        nonce := vectorAt 16 header nonceOffset
        ephemeralPublic := vectorAt 32 header ephemeralOffset
        clientRandom := vectorAt 32 header clientRandomOffset
        userId := vectorAt 16 header userIdOffset
        blobLen }

def messageLenFromHeader (header : Bytes) : Except HandoffError Nat := do
  let parsed ← parseHeader header
  let len := headerLen + parsed.blobLen + tagLen
  if len ≤ maxMessageLen then .ok len else .error .length

/-! ### The key of a transfer -/

def hkdfSaltLabel : Bytes := "rust-reality/handoff/v1".toUTF8.data.toList

def deriveAead (primitives : Primitives) (header : Bytes) (shared psk landingPublic : Vector UInt8 32) :
    Except HandoffError (Bytes × Bytes) :=
  let salt := hkdfSaltLabel ++ slice header ephemeralOffset clientRandomOffset ++ landingPublic.toList
  let transcript := header.take clientRandomOffset ++ landingPublic.toList ++ slice header clientRandomOffset blobLenOffset
  match primitives.hkdf salt (shared.toList ++ psk.toList) transcript 44 with
  | none => .error .crypto
  | some okm => .ok (okm.take 32, okm.drop 32)

def tryCandidates (primitives : Primitives) (header : TransferHeader) (body tag : Bytes) :
    List (HandoffPsk × StaticX25519Key) → Except HandoffError (Option Bytes)
  | [] => .ok none
  | (psk, secret) :: candidates =>
    match primitives.agree secret header.ephemeralPublic with
    | none => tryCandidates primitives header body tag candidates
    | some shared =>
      match deriveAead primitives header.raw shared psk (primitives.publicKey secret) with
      | .error error => .error error
      | .ok (key, nonce) =>
        match primitives.decrypt key nonce header.raw body tag with
        | some blob => .ok (some blob)
        | none => tryCandidates primitives header body tag candidates

/-! ### Opening -/

def maxServerSequenceAtHandoff : UInt64 := 1

structure OpenedTransfer where
  timestamp : Nat
  clientRandom : Vector UInt8 32
  state : ContinuationState

variable (message : Bytes)

/-- `open_transfer` up to the reservation of the nonce. -/
def openTransferHeader (now maximumTimeDifference : Nat) : Except HandoffError TransferHeader :=
  if message.length < headerLen then .error .length
  else
    match messageLenFromHeader (message.take headerLen) with
    | .error error => .error error
    | .ok expected =>
      if message.length ≠ expected then .error .length
      else
        match parseHeader (message.take headerLen) with
        | .error error => .error error
        | .ok header =>
          if absDiff header.timestamp now > maximumTimeDifference then .error .timeWindow else .ok header

/-- `open_transfer` after the reservation; `reserve` answers for the allocator. -/
def openTransferBody (primitives : Primitives) (reserve : Nat → Bool) (keys : HandoffLandingKeys) (message : Bytes)
    (header : TransferHeader) : Except HandoffError OpenedTransfer :=
  let ciphertextEnd := headerLen + header.blobLen
  let body := slice message headerLen ciphertextEnd
  let tag := slice message ciphertextEnd (ciphertextEnd + tagLen)
  if !reserve header.blobLen then .error .allocation
  else do
    let decrypted ← tryCandidates primitives header body tag keys.candidates
    match decrypted with
    | none => .error .authentication
    | some blob =>
      let state ← decodeBlob reserve blob
      if state.serverSequence > maxServerSequenceAtHandoff ∨ state.userId ≠ header.userId then .error .state
      else .ok { timestamp := header.timestamp, clientRandom := header.clientRandom, state }

/-! ### What an accepted header says -/

def timestampAt : Nat := ofBe (slice message timestampOffset nonceOffset)

def nonceAt : Nonce := vectorAt 16 message nonceOffset

theorem parseHeader_eq {header : Bytes} {parsed : TransferHeader} (h : parseHeader header = .ok parsed) :
    parsed =
      { raw := header
        timestamp := timestampAt header
        nonce := nonceAt header
        ephemeralPublic := vectorAt 32 header ephemeralOffset
        clientRandom := vectorAt 32 header clientRandomOffset
        userId := vectorAt 16 header userIdOffset
        blobLen := ofBe (slice header blobLenOffset headerLen) } := by
  unfold parseHeader at h
  simp only [Result.ite_error_ok_iff] at h
  obtain ⟨-, -, -, -, h⟩ := h
  cases h
  rfl

theorem openTransferHeader_parsed {message : Bytes} {now difference : Nat} {header : TransferHeader}
    (h : openTransferHeader message now difference = .ok header) :
    parseHeader (message.take headerLen) = .ok header ∧ absDiff header.timestamp now ≤ difference := by
  unfold openTransferHeader at h
  obtain ⟨-, h⟩ := Result.ite_error_ok_iff.1 h
  split at h
  · cases h
  obtain ⟨-, h⟩ := Result.ite_error_ok_iff.1 h
  split at h
  · cases h
  next hparsed =>
  obtain ⟨hwindow, h⟩ := Result.ite_error_ok_iff.1 h
  cases h
  exact ⟨hparsed, Nat.le_of_not_lt hwindow⟩

/-- The nonce that is reserved and the timestamp that is checked are the ones in the message. -/
theorem openTransferHeader_ok {message : Bytes} {now difference : Nat} {header : TransferHeader}
    (h : openTransferHeader message now difference = .ok header) :
    header.nonce = nonceAt message ∧ absDiff (timestampAt message) now ≤ difference := by
  rcases openTransferHeader_parsed h with ⟨hp, hw⟩
  rw [parseHeader_eq hp] at hw ⊢
  rw [timestampAt, slice_take (by decide)] at hw
  exact ⟨vectorAt_take (by decide) message, hw⟩

end RustReality.Handoff
