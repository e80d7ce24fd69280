import RustReality.Tls.Keys
import RustReality.Vless.Types

/-!
# The continuation state of a handoff

What LINE seals for LANDING: the traffic secrets and sequences of both directions, the bytes it had
read ahead, the session's destination and a snapshot of the policy. The snapshot can be built with
rewrites allowed exactly when some rule or the default allows, and the state only within its bounds,
so both carry these facts.
-/

namespace RustReality.Handoff

open Vless Tls

inductive HandoffError
  | length
  | version
  | timeWindow
  | replay
  | authentication
  | state
  | allocation
  | random
  | crypto
  deriving DecidableEq, Repr

def maxInboundTagLen : Nat := 64

def maxPendingCiphertextLen : Nat := 4 * (5 + 16384 + 1 + 16)

def maxPrefetchedPlaintextLen : Nat := 533 + 16384

inductive SessionKind
  | tcp
  | xudp
  deriving DecidableEq, Repr

namespace SessionKind

def wire : SessionKind → UInt8
  | .tcp => 0
  | .xudp => 1

def fromWire (value : UInt8) : Option SessionKind :=
  if value = 0 then some .tcp else if value = 1 then some .xudp else none

@[simp] theorem fromWire_wire (kind : SessionKind) : fromWire kind.wire = some kind := by
  cases kind <;> rfl

end SessionKind

/-! ### The sealed policy -/

inductive SealedDomainMatcher
  | full (value : Text)
  | suffix (value : Text)
  | keyword (value : Text)
  deriving DecidableEq, Repr

inductive SealedIpNetwork
  | v4 (network : BitVec 32) (prefixLen : UInt8)
  | v6 (network : BitVec 128) (prefixLen : UInt8)
  deriving DecidableEq, Repr

structure SealedPortRange where
  start : UInt16
  stop : UInt16
  deriving DecidableEq, Repr

structure SealedHandoffRouteRule where
  allow : Bool
  domains : List SealedDomainMatcher
  ips : List SealedIpNetwork
  ports : List SealedPortRange
  deriving DecidableEq, Repr

structure HandoffPolicySnapshot where
  initialDestination : Destination
  allowDestinationRewrites : Bool
  rules : List SealedHandoffRouteRule
  defaultAllow : Bool
  derived : allowDestinationRewrites = (defaultAllow || rules.any (·.allow))
  deriving DecidableEq, Repr

namespace HandoffPolicySnapshot

variable (destination : Destination)

def tcpPlaceholder : HandoffPolicySnapshot :=
  { initialDestination := destination, allowDestinationRewrites := false, rules := [], defaultAllow := false,
    derived := rfl }

def xudpInitial : HandoffPolicySnapshot :=
  { initialDestination := destination, allowDestinationRewrites := false, rules := [], defaultAllow := false,
    derived := rfl }

def xudpWithSealedRules (rules : List SealedHandoffRouteRule) (defaultAllow : Bool) : HandoffPolicySnapshot :=
  { initialDestination := destination, allowDestinationRewrites := defaultAllow || rules.any (·.allow), rules,
    defaultAllow, derived := rfl }

end HandoffPolicySnapshot

/-! ### The state -/

def isAscii (bytes : Bytes) : Bool := bytes.all (· < 128)

structure ContinuationState where
  suite : CipherSuite
  clientTrafficSecret : TrafficSecret
  serverTrafficSecret : TrafficSecret
  clientSequence : UInt64
  serverSequence : UInt64
  keyUpdateResponsePending : Bool
  sessionKind : SessionKind
  userId : UserId
  inboundTag : Text
  destination : Destination
  pendingCiphertext : Bytes
  prefetchedPlaintext : Bytes
  policy : HandoffPolicySnapshot
  client_hash : clientTrafficSecret.algorithm = suite.hash
  server_hash : serverTrafficSecret.algorithm = suite.hash
  tag_le : inboundTag.bytes.length ≤ maxInboundTagLen
  tag_ascii : isAscii inboundTag.bytes = true
  pending_le : pendingCiphertext.length ≤ maxPendingCiphertextLen
  prefetched_le : prefetchedPlaintext.length ≤ maxPrefetchedPlaintextLen
  deriving DecidableEq, Repr

/-- `ContinuationState::new`: every check gives the same error. -/
def ContinuationState.new (suite : CipherSuite) (clientTrafficSecret : TrafficSecret) (clientSequence : UInt64)
    (serverTrafficSecret : TrafficSecret) (serverSequence : UInt64) (keyUpdateResponsePending : Bool)
    (sessionKind : SessionKind) (userId : UserId) (inboundTag : Text) (destination : Destination)
    (pendingCiphertext prefetchedPlaintext : Bytes) (policy : HandoffPolicySnapshot) :
    Except HandoffError ContinuationState :=
  if h : clientTrafficSecret.algorithm = suite.hash ∧ serverTrafficSecret.algorithm = suite.hash then
    if hlen : inboundTag.bytes.length ≤ maxInboundTagLen ∧ pendingCiphertext.length ≤ maxPendingCiphertextLen ∧
        prefetchedPlaintext.length ≤ maxPrefetchedPlaintextLen then
      if hascii : isAscii inboundTag.bytes = true then
        .ok { suite, clientTrafficSecret, serverTrafficSecret, clientSequence, serverSequence,
              keyUpdateResponsePending, sessionKind, userId, inboundTag, destination, pendingCiphertext,
              prefetchedPlaintext, policy, client_hash := h.1, server_hash := h.2, tag_le := hlen.1,
              tag_ascii := hascii, pending_le := hlen.2.1, prefetched_le := hlen.2.2 }
      else .error .state
    else .error .state
  else .error .state

end RustReality.Handoff
