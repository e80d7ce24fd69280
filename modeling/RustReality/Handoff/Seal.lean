import RustReality.Handoff.BlobRoundTrip
import RustReality.Handoff.Transfer

/-!
# Sealing a transfer message

LINE encodes the continuation state, encrypts it under a key of its own making and puts the header in
front. An authentic cipher is assumed: whatever key LANDING tries, a sealed blob decrypts to itself or
not at all. Then a transfer that LANDING opens is the state that LINE sealed (`openTransferBody_sealed`).
-/

namespace RustReality.Handoff

open Replay Cursor

/-- Key, nonce, associated data and plaintext; the ciphertext and its tag. -/
abbrev Encrypt := Bytes → Bytes → Bytes → Bytes → Option (Bytes × Bytes)

def encodeHeader (timestamp : UInt64) (nonce : Nonce) (ephemeralPublic clientRandom : Vector UInt8 32)
    (userId : Vector UInt8 16) (blobLen : Nat) : Bytes :=
  magic ++ [handoffProtocolVersion, continuationStateVersion] ++ beBytes 8 timestamp.toNat ++ nonce.toList ++
    ephemeralPublic.toList ++ clientRandom.toList ++ userId.toList ++ beBytes 4 blobLen

structure SealRandom where
  ephemeral : Option (Vector UInt8 32)
  nonce : Option Nonce

def sealTransfer (primitives : Primitives) (encrypt : Encrypt) (reserve : Nat → Bool) (random : SealRandom)
    (state : ContinuationState) (psk : HandoffPsk) (landingPublic clientRandom : Vector UInt8 32) (timestamp : UInt64) :
    Except HandoffError Bytes :=
  match random.ephemeral, random.nonce with
  | some ephemeral, some nonce =>
    match encodeBlob reserve state with
    | .error error => .error error
    | .ok blob =>
      if blob.length < 2 ^ 32 then
        let header := encodeHeader timestamp nonce (primitives.publicKey ephemeral) clientRandom state.userId blob.length
        match primitives.agree ephemeral landingPublic with
        | none => .error .authentication
        | some shared =>
          match deriveAead primitives header shared psk landingPublic with
          | .error error => .error error
          | .ok (key, aeadNonce) =>
            match encrypt key aeadNonce header blob with
            | none => .error .crypto
            | some (ciphertext, tag) =>
              if !reserve (headerLen + blob.length + tagLen) then .error .allocation
              else .ok (header ++ ciphertext ++ tag)
      else .error .length
  | _, _ => .error .random

/-- Authenticated encryption of fixed expansion: what a sealed blob decrypts to is what was sealed. -/
structure Authentic (primitives : Primitives) (encrypt : Encrypt) : Prop where
  ciphertext_length : ∀ {key nonce aad plaintext ciphertext tag},
    encrypt key nonce aad plaintext = some (ciphertext, tag) → ciphertext.length = plaintext.length
  tag_length : ∀ {key nonce aad plaintext ciphertext tag},
    encrypt key nonce aad plaintext = some (ciphertext, tag) → tag.length = tagLen
  decrypts : ∀ {key nonce aad plaintext ciphertext tag key' nonce' plaintext'},
    encrypt key nonce aad plaintext = some (ciphertext, tag) →
      primitives.decrypt key' nonce' aad ciphertext tag = some plaintext' → plaintext' = plaintext

/-! ### What is on the wire -/

theorem length_encodeHeader (timestamp : UInt64) (nonce : Nonce) (ephemeralPublic clientRandom : Vector UInt8 32)
    (userId : Vector UInt8 16) (blobLen : Nat) :
    (encodeHeader timestamp nonce ephemeralPublic clientRandom userId blobLen).length = headerLen := by
  simp only [encodeHeader, List.length_append, Vector.length_toList, length_beBytes]
  rfl

theorem blobLen_encodeHeader (timestamp : UInt64) (nonce : Nonce) (ephemeralPublic clientRandom : Vector UInt8 32)
    (userId : Vector UInt8 16) {blobLen : Nat} (h : blobLen < 2 ^ 32) :
    ofBe (slice (encodeHeader timestamp nonce ephemeralPublic clientRandom userId blobLen) blobLenOffset headerLen) =
      blobLen := by
  have hs := slice_middle (magic ++ [handoffProtocolVersion, continuationStateVersion] ++
    beBytes 8 timestamp.toNat ++ nonce.toList ++ ephemeralPublic.toList ++ clientRandom.toList ++ userId.toList)
    (beBytes 4 blobLen) []
  simp only [List.append_nil, List.length_append, Vector.length_toList, length_beBytes] at hs
  exact (congrArg ofBe hs).trans (ofBe_beBytes h)

structure Sealed (encrypt : Encrypt) (reserve : Nat → Bool) (state : ContinuationState) (header ciphertext tag : Bytes) :
    Prop where
  length : header.length = headerLen
  encrypted : ∃ blob key nonce, encodeBlob reserve state = .ok blob ∧
    encrypt key nonce header blob = some (ciphertext, tag) ∧ ofBe (slice header blobLenOffset headerLen) = blob.length

variable {primitives : Primitives} {encrypt : Encrypt}

section Parts

variable {reserve : Nat → Bool} {random : SealRandom} {state : ContinuationState} {psk : HandoffPsk}
  {landingPublic clientRandom : Vector UInt8 32} {timestamp : UInt64} {message : Bytes}

/-- Everything that went into a sealed transfer. -/
theorem sealTransfer_parts
    (h : sealTransfer primitives encrypt reserve random state psk landingPublic clientRandom timestamp = .ok message) :
    ∃ ephemeral nonce blob shared key aeadNonce ciphertext tag, random = ⟨some ephemeral, some nonce⟩ ∧
      encodeBlob reserve state = .ok blob ∧ blob.length < 2 ^ 32 ∧ primitives.agree ephemeral landingPublic = some shared ∧
      let header := encodeHeader timestamp nonce (primitives.publicKey ephemeral) clientRandom state.userId blob.length
      deriveAead primitives header shared psk landingPublic = .ok (key, aeadNonce) ∧
        encrypt key aeadNonce header blob = some (ciphertext, tag) ∧ message = header ++ (ciphertext ++ tag) := by
  obtain ⟨ephemeral, nonce⟩ := random
  unfold sealTransfer at h
  split at h
  · next ephemeral nonce he hn =>
    obtain rfl : _ = some ephemeral := he
    obtain rfl : _ = some nonce := hn
    split at h
    · cases h
    next blob hblob =>
    split at h
    · next hsmall =>
      dsimp only at h
      split at h
      · cases h
      next shared hagree =>
      split at h
      · cases h
      next key aeadNonce hkey =>
      split at h
      · cases h
      next ciphertext tag hsealed =>
      obtain ⟨-, h⟩ := Result.ite_error_ok_iff.1 h
      cases h
      exact ⟨ephemeral, nonce, blob, shared, key, aeadNonce, ciphertext, tag, rfl, hblob, hsmall, hagree, hkey, hsealed,
        List.append_assoc _ _ _⟩
    · cases h
  · cases h

theorem sealTransfer_ok
    (h : sealTransfer primitives encrypt reserve random state psk landingPublic clientRandom timestamp = .ok message) :
    ∃ header ciphertext tag, message = header ++ (ciphertext ++ tag) ∧
      Sealed encrypt reserve state header ciphertext tag := by
  obtain ⟨ephemeral, nonce, blob, shared, key, aeadNonce, ciphertext, tag, -, hblob, hsmall, -, -, hsealed, rfl⟩ := sealTransfer_parts h
  exact ⟨_, ciphertext, tag, rfl, length_encodeHeader _ _ _ _ _ _, blob, key, aeadNonce, hblob, hsealed,
    blobLen_encodeHeader _ _ _ _ _ hsmall⟩

end Parts

/-! ### Opening what was sealed -/

theorem tryCandidates_sealed (ha : Authentic primitives encrypt)
    {header : TransferHeader} {key nonce blob ciphertext tag : Bytes}
    (he : encrypt key nonce header.raw blob = some (ciphertext, tag))
    {candidates : List (HandoffPsk × StaticX25519Key)} {opened : Bytes}
    (h : tryCandidates primitives header ciphertext tag candidates = .ok (some opened)) : opened = blob := by
  induction candidates with
  | nil => cases h
  | cons candidate candidates ih =>
    rw [tryCandidates] at h
    split at h
    · exact ih h
    · split at h
      · cases h
      · split at h
        · next hd =>
          cases h
          exact ha.decrypts he hd
        · exact ih h

theorem openTransferBody_sealed {reserve reserve' : Nat → Bool}
    {state : ContinuationState} {header ciphertext tag : Bytes} {keys : HandoffLandingKeys} {parsed : TransferHeader}
    {opened : OpenedTransfer} (ha : Authentic primitives encrypt)
    (hpolicy : state.policy = .tcpPlaceholder state.destination)
    (hs : Sealed encrypt reserve state header ciphertext tag) (hp : parseHeader header = .ok parsed)
    (h : openTransferBody primitives reserve' keys (header ++ (ciphertext ++ tag)) parsed = .ok opened) :
    opened.state = state := by
  obtain ⟨blob, key, nonce, hbl, he, hl⟩ := hs.encrypted
  have hr : parsed.raw = header := by rw [parseHeader_eq hp]
  have hb : parsed.blobLen = ciphertext.length := by
    rw [parseHeader_eq hp, ha.ciphertext_length he]
    exact hl
  have hbd : slice (header ++ (ciphertext ++ tag)) headerLen (headerLen + parsed.blobLen) = ciphertext := by
    rw [hb, ← hs.length, ← List.append_assoc]
    exact slice_middle header ciphertext tag
  have ht : slice (header ++ (ciphertext ++ tag)) (headerLen + parsed.blobLen)
      (headerLen + parsed.blobLen + tagLen) = tag := by
    have hsl := slice_middle (header ++ ciphertext) tag []
    rw [List.append_nil, List.length_append, hs.length, ha.tag_length he, ← hb,
      List.append_assoc] at hsl
    exact hsl
  unfold openTransferBody at h
  dsimp only at h
  rw [hbd, ht] at h
  split at h
  · cases h
  · obtain ⟨decrypted, hd, h⟩ := Result.bind_ok_iff.1 h
    cases decrypted with
    | none => cases h
    | some plaintext =>
      rw [← hr] at he
      obtain rfl := tryCandidates_sealed ha he hd
      obtain ⟨decoded, hdc, h⟩ := Result.bind_ok_iff.1 h
      split at h
      · cases h
      · cases h
        exact decodeBlob_encodeBlob_tcp hpolicy hbl hdc

end RustReality.Handoff
