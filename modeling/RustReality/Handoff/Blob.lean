import RustReality.Lib.Cursor
import RustReality.Handoff.State

/-!
# The continuation blob

`encode_blob` writes a continuation state field by field behind a check of its length and
`decode_blob` reads it back, checking every field again. The allocator is asked once by the encoder
and once for every bounded byte string of the decoder; `reserve` is its answer to a request.
-/

namespace RustReality.Handoff

open Vless Tls Cursor

def continuationStateVersion : UInt8 := 3

def maxBlobLen : Nat := 96 * 1024

def maxDomainLen : Nat := 253

def userIdLen : Nat := 16

def addressIpv4 : UInt8 := 1

def addressDomain : UInt8 := 2

def addressIpv6 : UInt8 := 3

def maxPolicySnapshotLen : Nat := 1024

def maxSealedHandoffRules : Nat := 32

def handoffPolicySnapshotVersion : UInt8 := 2

def handoffPolicySnapshotVersionV1 : UInt8 := 1

/-! ### Encoding -/

def flagByte (flag : Bool) : UInt8 := if flag then 1 else 0

/-- `u8::try_from` of a length. -/
def countByte (count : Nat) : Except HandoffError Bytes :=
  if count < 2 ^ 8 then .ok [UInt8.ofNat count] else .error .length

def boundedAddressLength (destination : Destination) : Except HandoffError Nat :=
  match destination.address with
  | .ipv4 _ => .ok 4
  | .domain domain =>
    if domain.bytes.length = 0 ∨ domain.bytes.length > maxDomainLen then .error .state
    else .ok domain.bytes.length
  | .ipv6 _ => .ok 16

/-- A domain name too long for its length field is written with a length of zero. -/
def encodeAddress (destination : Destination) : Bytes :=
  match destination.address with
  | .ipv4 address => addressIpv4 :: beBytes 2 4 ++ ipv4Octets address
  | .domain domain =>
    let length := if domain.bytes.length < 2 ^ 16 then domain.bytes.length else 0
    addressDomain :: beBytes 2 length ++ domain.bytes
  | .ipv6 address => addressIpv6 :: beBytes 2 16 ++ ipv6Octets address

def encodeBoundedBytes (bytes : Bytes) : Bytes :=
  let length := if bytes.length < 2 ^ 32 then bytes.length else 2 ^ 32 - 1
  beBytes 4 length ++ bytes

def encodeShortBytes (bytes : Bytes) : Except HandoffError Bytes :=
  if bytes.length > maxInboundTagLen then .error .state
  else if bytes.length < 2 ^ 8 then .ok (UInt8.ofNat bytes.length :: bytes)
  else .error .state

def SealedDomainMatcher.wire : SealedDomainMatcher → UInt8 × Text
  | .full value => (1, value)
  | .suffix value => (2, value)
  | .keyword value => (3, value)

def encodeSealedDomain (domain : SealedDomainMatcher) : Except HandoffError Bytes :=
  let (kind, value) := domain.wire
  if value.bytes.length > 255 then .error .length
  else do
    let length ← countByte value.bytes.length
    return kind :: length ++ value.bytes

def encodeSealedIp : SealedIpNetwork → Except HandoffError Bytes
  | .v4 network prefixLen => .ok (4 :: prefixLen :: ipv4Octets network)
  | .v6 network prefixLen => .ok (6 :: prefixLen :: ipv6Octets network)

def encodeSealedPort (port : SealedPortRange) : Except HandoffError Bytes :=
  .ok (portBytes port.start ++ portBytes port.stop)

def encodeCounted {α : Type} (encode : α → Except HandoffError Bytes) (items : List α) : Except HandoffError Bytes := do
  let count ← countByte items.length
  let body ← encodeAll encode items
  return count ++ body

def encodeSealedRule (rule : SealedHandoffRouteRule) : Except HandoffError Bytes := do
  let domains ← encodeCounted encodeSealedDomain rule.domains
  let ips ← encodeCounted encodeSealedIp rule.ips
  let ports ← encodeCounted encodeSealedPort rule.ports
  return flagByte rule.allow :: domains ++ ips ++ ports

variable (policy : HandoffPolicySnapshot)

def encodePolicySnapshotBody : Except HandoffError Bytes := do
  let front := handoffPolicySnapshotVersion :: flagByte policy.allowDestinationRewrites ::
    flagByte policy.defaultAllow :: encodeAddress policy.initialDestination ++
    portBytes policy.initialDestination.port
  let count ← countByte policy.rules.length
  if policy.rules.length > maxSealedHandoffRules then .error .length
  else do
    let rules ← encodeAll encodeSealedRule policy.rules
    return front ++ count ++ rules

def encodedPolicyLen : Except HandoffError Nat := do
  let body ← encodePolicySnapshotBody policy
  if body.length ≤ maxPolicySnapshotLen then return body.length + 4 else throw .length

def encodePolicySnapshot : Except HandoffError Bytes := do
  let body ← encodePolicySnapshotBody policy
  if body.length > maxPolicySnapshotLen then .error .length else return encodeBoundedBytes body

def blobBytes (state : ContinuationState) : Except HandoffError Bytes := do
  let tag ← encodeShortBytes state.inboundTag.bytes
  let policy ← encodePolicySnapshot state.policy
  return [continuationStateVersion] ++ beBytes 2 state.suite.wireValue.toNat ++ state.clientTrafficSecret.bytes ++
    state.serverTrafficSecret.bytes ++ beBytes 8 state.clientSequence.toNat ++ beBytes 8 state.serverSequence.toNat ++
    [flagByte state.keyUpdateResponsePending] ++ [state.sessionKind.wire] ++ state.userId.toList ++ tag ++
    encodeAddress state.destination ++ portBytes state.destination.port ++ encodeBoundedBytes state.pendingCiphertext ++
    encodeBoundedBytes state.prefetchedPlaintext ++ policy

variable (reserve : Nat → Bool)

/-- `encode_blob`: the blob, or the error of the first check that fails. -/
def encodeBlob (state : ContinuationState) : Except HandoffError Bytes := do
  let addressLength ← boundedAddressLength state.destination
  let policyLen ← encodedPolicyLen state.policy
  let total := 1 + 2 + 2 * state.suite.hash.outputLen + 2 * 8 + 1 + 1 + userIdLen +
    (1 + state.inboundTag.bytes.length) + (1 + 2 + addressLength + 2) + (4 + state.pendingCiphertext.length) +
    (4 + state.prefetchedPlaintext.length) + (4 + policyLen)
  if total > maxBlobLen then .error .length
  else if !reserve total then .error .allocation
  else blobBytes state

/-! ### Decoding -/

def takeBytes (length : Nat) : Cursor HandoffError Bytes := take .state length

def takeU8 : Cursor HandoffError UInt8 := do
  let value ← number .state 1
  return UInt8.ofNat value

def takeU16 : Cursor HandoffError UInt16 := do
  let value ← number .state 2
  return UInt16.ofNat value

def takeU64 : Cursor HandoffError UInt64 := do
  let value ← number .state 8
  return UInt64.ofNat value

def decodeFlag : Cursor HandoffError Bool := do
  let value ← takeU8
  if value = 0 then return false else if value = 1 then return true else fail .state

def expect {α : Type} : Option α → Cursor HandoffError α
  | some value => pure value
  | none => fail .state

def decodeShortString : Cursor HandoffError Text := do
  let length ← takeU8
  if length.toNat > maxInboundTagLen then fail .state
  else do
    let bytes ← takeBytes length.toNat
    if !isAscii bytes then fail .state else expect (Text.ofUtf8? bytes)

def decodeTrafficSecret (suite : CipherSuite) : Cursor HandoffError TrafficSecret := do
  let bytes ← takeBytes suite.hash.outputLen
  expect (TrafficSecret.fromBytes suite.hash bytes)

def parseAddress (addressType : UInt8) (address : Bytes) : Option Address :=
  if addressType = addressIpv4 then
    if address.length = 4 then some (.ipv4 (ipv4OfOctets address)) else none
  else if addressType = addressDomain then
    if address.length = 0 ∨ address.length > maxDomainLen then none
    else (Text.ofUtf8? address).map .domain
  else if addressType = addressIpv6 then
    if address.length = 16 then some (.ipv6 (ipv6OfOctets address)) else none
  else none

def decodeDestination : Cursor HandoffError Destination := do
  let addressType ← takeU8
  let addressLen ← takeU16
  let bytes ← takeBytes addressLen.toNat
  let address ← expect (parseAddress addressType bytes)
  let port ← takeU16
  if port = 0 then fail .state else return ⟨address, port⟩

def decodeBoundedBytes (cap : Nat) : Cursor HandoffError Bytes := do
  let length ← number .state 4
  if length > cap then fail .state
  else do
    let bytes ← takeBytes length
    if !reserve length then fail .allocation else return bytes

def SealedDomainMatcher.ofWire (kind : UInt8) (value : Text) : Option SealedDomainMatcher :=
  if kind = 1 then some (.full value)
  else if kind = 2 then some (.suffix value)
  else if kind = 3 then some (.keyword value)
  else none

def decodeSealedDomain : Cursor HandoffError SealedDomainMatcher := do
  let kind ← takeU8
  let len ← takeU8
  let bytes ← takeBytes len.toNat
  if !isAscii bytes then fail .state
  else do
    let value ← expect (Text.ofUtf8? bytes)
    expect (SealedDomainMatcher.ofWire kind value)

def decodeSealedIp : Cursor HandoffError SealedIpNetwork := do
  let kind ← takeU8
  if kind = 4 then do
    let prefixLen ← takeU8
    if prefixLen > 32 then fail .state
    else do
      let raw ← takeBytes 4
      return .v4 (ipv4OfOctets raw) prefixLen
  else if kind = 6 then do
    let prefixLen ← takeU8
    if prefixLen > 128 then fail .state
    else do
      let raw ← takeBytes 16
      return .v6 (ipv6OfOctets raw) prefixLen
  else fail .state

def decodeSealedPort : Cursor HandoffError SealedPortRange := do
  let start ← takeU16
  let stop ← takeU16
  if start = 0 ∨ start > stop then fail .state else return ⟨start, stop⟩

def decodeCounted {α : Type} (item : Cursor HandoffError α) : Cursor HandoffError (List α) := do
  let count ← takeU8
  replicate item count.toNat

def decodeSealedRule : Cursor HandoffError SealedHandoffRouteRule := do
  let allow ← decodeFlag
  let domains ← decodeCounted decodeSealedDomain
  let ips ← decodeCounted decodeSealedIp
  let ports ← decodeCounted decodeSealedPort
  return { allow, domains, ips, ports }

/-- A snapshot whose flag forbids rewrites is cut down to its initial destination. -/
def restrictPolicy (allowDestinationRewrites : Bool) : HandoffPolicySnapshot :=
  if policy.allowDestinationRewrites ≠ allowDestinationRewrites ∧ !allowDestinationRewrites then
    .xudpInitial policy.initialDestination
  else policy

def decodeSealedRules : Cursor HandoffError (List SealedHandoffRouteRule) := do
  let ruleCount ← takeU8
  if ruleCount.toNat > maxSealedHandoffRules then fail .state
  else do
    let rules ← replicate decodeSealedRule ruleCount.toNat
    finish .state
    return rules

def decodePolicyBody : Cursor HandoffError HandoffPolicySnapshot := do
  let version ← takeU8
  if version = handoffPolicySnapshotVersionV1 then do
    let _allowDestinationRewrites ← decodeFlag
    let initialDestination ← decodeDestination
    finish .state
    return .xudpInitial initialDestination
  else if version = handoffPolicySnapshotVersion then do
    let allowDestinationRewrites ← decodeFlag
    let defaultAllow ← decodeFlag
    let initialDestination ← decodeDestination
    let rules ← decodeSealedRules
    return restrictPolicy (.xudpWithSealedRules initialDestination rules defaultAllow) allowDestinationRewrites
  else fail .state

def decodePolicySnapshot : Cursor HandoffError HandoffPolicySnapshot := do
  let body ← decodeBoundedBytes reserve maxPolicySnapshotLen
  within decodePolicyBody body

def decodeFields : Cursor HandoffError ContinuationState := do
  let suite ← takeU16
  let suite ← expect (CipherSuite.fromWire suite)
  let clientTrafficSecret ← decodeTrafficSecret suite
  let serverTrafficSecret ← decodeTrafficSecret suite
  let clientSequence ← takeU64
  let serverSequence ← takeU64
  let keyUpdateResponsePending ← decodeFlag
  let sessionKind ← takeU8
  let sessionKind ← expect (SessionKind.fromWire sessionKind)
  let userId ← takeBytes userIdLen
  let userId ← expect (if h : userId.length = 16 then some (⟨userId.toArray, by simpa using h⟩ : UserId) else none)
  let inboundTag ← decodeShortString
  let destination ← decodeDestination
  let pendingCiphertext ← decodeBoundedBytes reserve maxPendingCiphertextLen
  let prefetchedPlaintext ← decodeBoundedBytes reserve maxPrefetchedPlaintextLen
  let policy ← decodePolicySnapshot reserve
  finish .state
  fun rest =>
    match ContinuationState.new suite clientTrafficSecret clientSequence serverTrafficSecret serverSequence
      keyUpdateResponsePending sessionKind userId inboundTag destination pendingCiphertext prefetchedPlaintext policy with
    | .ok state => .ok (state, rest)
    | .error error => .error error

/-- A blob of another version is refused before any of its fields is read. -/
def decodeState : Cursor HandoffError ContinuationState := do
  let version ← takeU8
  if version ≠ continuationStateVersion then fail .state else decodeFields reserve

def decodeBlob (blob : Bytes) : Except HandoffError ContinuationState :=
  (decodeState reserve blob).map Prod.fst

end RustReality.Handoff
