import RustReality.Lib.Clock
import RustReality.Tls.ServerHello
import RustReality.Vless.Types

/-!
# REALITY authentication of a ClientHello

The session id of an authentic ClientHello is a ciphertext under a key agreed with the server's static
key. It holds the client's version and clock and a short id that names the user.
-/

namespace RustReality.Tls.ClientHello

def mlkem768EncapKeyLen : Nat := 1184

def x25519Mlkem768ShareLen : Nat := mlkem768EncapKeyLen + 32

/-- Where the session id of a message stands: behind its type and length, the version, the random and a length. -/
def sessionIdOffset : Nat := 39

variable (self : ClientHello)

def sessionCiphertext : Option (Vector UInt8 32) :=
  if self.sessionId.length = sessionIdLen then some (vectorAt 32 self.sessionId 0) else none

def realityAad : Option Bytes :=
  self.sessionCiphertext.map fun _ => overwrite self.rawMessage sessionIdOffset (List.replicate sessionIdLen 0)

def peerX25519 : Option (Vector UInt8 32) :=
  match self.keyShares.find? fun share => share.group == x25519Group && share.data.length == 32 with
  | some share => some (vectorAt 32 share.data 0)
  | none =>
    let hybrid := self.keyShares.find? fun share =>
      share.group == x25519Mlkem768Group && share.data.length == x25519Mlkem768ShareLen
    hybrid.map fun share => vectorAt 32 share.data mlkem768EncapKeyLen

end RustReality.Tls.ClientHello

namespace RustReality.Reality

open Clock Vless Tls

/-- X25519, HKDF-SHA256, SHA-256, the decryption of AES-256-GCM, and a function of the source that is not
modelled here: the match of a server name. -/
structure Primitives where
  agree : Vector UInt8 32 → Vector UInt8 32 → Option (Vector UInt8 32)
  /-- Salt, key material and info. -/
  hkdf : Bytes → Bytes → Bytes → Option Bytes
  sha256 : Bytes → Vector UInt8 32
  /-- Key, nonce, associated data, ciphertext and tag. -/
  decrypt : Bytes → Bytes → Bytes → Bytes → Bytes → Option (Vector UInt8 16)
  serverNameMatches : Text → Text → Bool

structure RealityAuthenticator where
  privateKey : Vector UInt8 32
  serverNames : List Text
  shortIds : List (Vector UInt8 8 × UserId)
  maxTimeDiffMs : Nat

inductive RealityAuthError
  | unsupportedTls
  | serverName
  | missingKeyShare
  | nonContributoryKey
  | missingCiphertext
  | keyDerivation
  | openFailed
  | reservedByte
  | shortId
  | timeSkew
  deriving DecidableEq, Repr

structure RealityAuthResult where
  clientVersion : Bytes
  clientTime : Nat
  userId : UserId
  authKey : Bytes
  deriving DecidableEq

def sessionPlaintextLen : Nat := 16

def authKeyInfo : Bytes := "REALITY".toUTF8.data.toList

variable (primitives : Primitives)

def deriveAuthKey (sharedSecret : Vector UInt8 32) (clientRandom : Bytes) : Except RealityAuthError Bytes :=
  match primitives.hkdf (clientRandom.take 20) sharedSecret.toList authKeyInfo with
  | none => .error .keyDerivation
  | some key => .ok key

def openSessionId (authKey nonce : Bytes) (ciphertext : Vector UInt8 32) (aad : Bytes) :
    Except RealityAuthError (Vector UInt8 16) :=
  let body := ciphertext.toList.take sessionPlaintextLen
  let tag := ciphertext.toList.drop sessionPlaintextLen
  match primitives.decrypt authKey nonce aad body tag with
  | none => .error .openFailed
  | some plaintext => .ok plaintext

/-- `ok_or`. -/
def okOr {α : Type} (error : RealityAuthError) : Option α → Except RealityAuthError α
  | none => .error error
  | some value => .ok value

variable (authenticator : RealityAuthenticator)

/-- Everything `authenticate` does before it looks at the clock. -/
def openClientHello (hello : ClientHello) : Except RealityAuthError RealityAuthResult := do
  if !hello.offersTls13 then .error .unsupportedTls
  let serverName ← okOr .serverName (hello.serverName.bind Text.ofUtf8?)
  if !authenticator.serverNames.any (primitives.serverNameMatches · serverName) then .error .serverName
  let peer ← okOr .missingKeyShare hello.peerX25519
  let shared ← okOr .nonContributoryKey (primitives.agree authenticator.privateKey peer)
  let authKey ← deriveAuthKey primitives shared hello.random
  let ciphertext ← okOr .missingCiphertext hello.sessionCiphertext
  let aad ← okOr .missingCiphertext hello.realityAad
  let plaintext ← openSessionId primitives authKey (hello.random.drop 20) ciphertext aad
  if plaintext[3] ≠ 0 then .error .reservedByte
  let userId ← okOr .shortId (authenticator.shortIds.lookup (vectorAt 8 plaintext.toList 8))
  return { clientVersion := plaintext.toList.take 3, clientTime := ofBe (slice plaintext.toList 4 8), userId, authKey }

def authenticate (hello : ClientHello) (nowUnixSeconds : Nat) : Except RealityAuthError RealityAuthResult :=
  match openClientHello primitives authenticator hello with
  | .error error => .error error
  | .ok result =>
    let differenceMs := absDiff nowUnixSeconds result.clientTime * 1000
    if authenticator.maxTimeDiffMs ≠ 0 ∧ differenceMs > authenticator.maxTimeDiffMs then .error .timeSkew else .ok result

theorem authenticate_ok {primitives : Primitives} {authenticator : RealityAuthenticator} {hello : ClientHello}
    {epoch instant : Nat} {result : RealityAuthResult} (hc : authenticator.maxTimeDiffMs ≠ 0)
    (h : authenticate primitives authenticator hello (unixSeconds epoch instant) = .ok result) :
    openClientHello primitives authenticator hello = .ok result ∧
      Fresh epoch result.clientTime (authenticator.maxTimeDiffMs / 1000) instant := by
  unfold authenticate at h
  split at h
  · cases h
  · next opened ho =>
    dsimp only at h
    split at h
    · cases h
    · next hw =>
      cases h
      refine ⟨ho, ?_⟩
      have hle : absDiff (unixSeconds epoch instant) result.clientTime * 1000 ≤ authenticator.maxTimeDiffMs :=
        Nat.le_of_not_lt fun hlt => hw ⟨hc, hlt⟩
      unfold Fresh
      rw [absDiff_comm]
      exact (Nat.le_div_iff_mul_le (by decide)).2 hle

end RustReality.Reality
