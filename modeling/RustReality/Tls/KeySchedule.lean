import RustReality.Tls.Keys

/-!
# The TLS 1.3 key schedule

Without a pre-shared key: the handshake secrets come from the key agreement and the two hellos, the
application secrets from the transcript through the server's Finished. The hash functions are parameters
(`Hashing`); the labels and the order of the derivations are the source's.
-/

namespace RustReality.Tls

/-- The hash functions of the suites, and HMAC-SHA512 of the certificate binding. -/
structure Hashing where
  digest : HashAlgorithm → Bytes → Bytes
  /-- HKDF-Extract of a salt and an input. -/
  extract : HashAlgorithm → Bytes → Bytes → Bytes
  /-- HKDF-Expand of a pseudorandom key and an info to a length. -/
  expand : HashAlgorithm → Bytes → Bytes → Nat → Bytes
  hmac : HashAlgorithm → Bytes → Bytes → Bytes
  hmacSha512 : Bytes → Bytes → Vector UInt8 64
  length_digest : ∀ algorithm input, (digest algorithm input).length = algorithm.outputLen
  length_extract : ∀ algorithm salt input, (extract algorithm salt input).length = algorithm.outputLen
  length_expand : ∀ algorithm key info length, (expand algorithm key info length).length = length
  length_hmac : ∀ algorithm key input, (hmac algorithm key input).length = algorithm.outputLen

/-- Hash functions that answer with zeros; runs on concrete input use them. -/
def Hashing.null : Hashing where
  digest algorithm _ := List.replicate algorithm.outputLen 0
  extract algorithm _ _ := List.replicate algorithm.outputLen 0
  expand _ _ _ length := List.replicate length 0
  hmac algorithm _ _ := List.replicate algorithm.outputLen 0
  hmacSha512 _ _ := Vector.replicate 64 0
  length_digest _ _ := List.length_replicate
  length_extract _ _ _ := List.length_replicate
  length_expand _ _ _ _ := List.length_replicate
  length_hmac _ _ _ := List.length_replicate

inductive Tls13KeyScheduleError
  | hashMismatch
  | invalidLength
  | invalidSharedSecret
  | crypto
  deriving DecidableEq, Repr

structure TranscriptHash where
  algorithm : HashAlgorithm
  bytes : Bytes
  length_eq : bytes.length = algorithm.outputLen

structure FinishedVerifyData where
  algorithm : HashAlgorithm
  bytes : Bytes
  length_eq : bytes.length = algorithm.outputLen

/-- The running hash of the transcript: a snapshot is the digest of all updates. -/
structure TranscriptHasher where
  algorithm : HashAlgorithm
  messages : Bytes
  deriving DecidableEq

namespace TranscriptHasher

def new (algorithm : HashAlgorithm) : TranscriptHasher := ⟨algorithm, []⟩

def update (self : TranscriptHasher) (message : Bytes) : TranscriptHasher :=
  { self with messages := self.messages ++ message }

def snapshot (hashing : Hashing) (self : TranscriptHasher) : TranscriptHash where
  algorithm := self.algorithm
  bytes := hashing.digest self.algorithm self.messages
  length_eq := hashing.length_digest _ _

end TranscriptHasher

namespace HashAlgorithm

variable (hashing : Hashing)

def tls13LabelPrefix : Bytes := "tls13 ".toUTF8.data.toList

/-- A secret of the schedule is kept in the form of a traffic secret. -/
def extract (self : HashAlgorithm) (salt input : Bytes) : TrafficSecret where
  algorithm := self
  bytes := hashing.extract self salt input
  length_eq := hashing.length_extract _ _ _

def expandLabel (self : HashAlgorithm) (secret : TrafficSecret) (label context : Bytes) (length : Nat) :
    Except Tls13KeyScheduleError { output : Bytes // output.length = length } :=
  if secret.algorithm ≠ self then .error .hashMismatch
  else if length ≥ 2 ^ 16 ∨ tls13LabelPrefix.length + label.length ≥ 2 ^ 8 ∨ context.length ≥ 2 ^ 8 then
    .error .invalidLength
  -- HKDF expands to at most 255 blocks
  else if length > 255 * self.outputLen then .error .invalidLength
  else
    let info := beBytes 2 length ++ beBytes 1 (tls13LabelPrefix.length + label.length) ++ tls13LabelPrefix ++ label ++
      beBytes 1 context.length ++ context
    .ok ⟨hashing.expand self secret.bytes info length, hashing.length_expand _ _ _ _⟩

def deriveSecret (self : HashAlgorithm) (secret : TrafficSecret) (label : Bytes) (transcriptHash : TranscriptHash) :
    Except Tls13KeyScheduleError TrafficSecret :=
  if transcriptHash.algorithm ≠ self then .error .hashMismatch
  else do
    let output ← self.expandLabel hashing secret label transcriptHash.bytes self.outputLen
    return ⟨self, output.val, output.property⟩

end HashAlgorithm

structure Tls13KeySchedule where
  suite : CipherSuite
  master : TrafficSecret
  clientHandshake : TrafficSecret
  serverHandshake : TrafficSecret
  deriving DecidableEq

namespace Tls13KeySchedule

variable (hashing : Hashing)

def derivedLabel : Bytes := "derived".toUTF8.data.toList
def clientHandshakeLabel : Bytes := "c hs traffic".toUTF8.data.toList
def serverHandshakeLabel : Bytes := "s hs traffic".toUTF8.data.toList
def clientApplicationLabel : Bytes := "c ap traffic".toUTF8.data.toList
def serverApplicationLabel : Bytes := "s ap traffic".toUTF8.data.toList
def finishedLabel : Bytes := "finished".toUTF8.data.toList

def new (suite : CipherSuite) (sharedSecret : Bytes) (clientHelloServerHello : TranscriptHash) :
    Except Tls13KeyScheduleError Tls13KeySchedule :=
  if sharedSecret = [] ∨ sharedSecret.length > 128 then .error .invalidSharedSecret
  else if clientHelloServerHello.algorithm ≠ suite.hash then .error .hashMismatch
  else do
    let zero := List.replicate suite.hash.outputLen 0
    let early := suite.hash.extract hashing zero zero
    let emptyHash := (TranscriptHasher.new suite.hash).snapshot hashing
    let derivedEarly ← suite.hash.deriveSecret hashing early derivedLabel emptyHash
    let handshake := suite.hash.extract hashing derivedEarly.bytes sharedSecret
    let clientHandshake ← suite.hash.deriveSecret hashing handshake clientHandshakeLabel clientHelloServerHello
    let serverHandshake ← suite.hash.deriveSecret hashing handshake serverHandshakeLabel clientHelloServerHello
    let derivedHandshake ← suite.hash.deriveSecret hashing handshake derivedLabel emptyHash
    let master := suite.hash.extract hashing derivedHandshake.bytes zero
    return { suite, master, clientHandshake, serverHandshake }

def finishedVerifyData (self : Tls13KeySchedule) (trafficSecret : TrafficSecret) (transcriptHash : TranscriptHash) :
    Except Tls13KeyScheduleError FinishedVerifyData :=
  if trafficSecret.algorithm ≠ self.suite.hash ∨ transcriptHash.algorithm ≠ self.suite.hash then .error .hashMismatch
  else do
    let finishedKey ← self.suite.hash.expandLabel hashing trafficSecret finishedLabel [] self.suite.hash.outputLen
    return ⟨self.suite.hash, hashing.hmac self.suite.hash finishedKey.val transcriptHash.bytes, hashing.length_hmac _ _ _⟩

def applicationTrafficSecrets (self : Tls13KeySchedule) (transcriptThroughServerFinished : TranscriptHash) :
    Except Tls13KeyScheduleError (TrafficSecret × TrafficSecret) :=
  if transcriptThroughServerFinished.algorithm ≠ self.suite.hash then .error .hashMismatch
  else do
    let client ← self.suite.hash.deriveSecret hashing self.master clientApplicationLabel transcriptThroughServerFinished
    let server ← self.suite.hash.deriveSecret hashing self.master serverApplicationLabel transcriptThroughServerFinished
    return (client, server)

end Tls13KeySchedule

end RustReality.Tls
