import RustReality.Lib.Span
import RustReality.Tls.ClientHello
import RustReality.Tls.Keys

/-!
# The ServerHello of the cover

The handshake shows the client the ServerHello of a cover site with another key share. A template is a
validated ServerHello that knows where its key share stands; a profile template is one whose session
fields are erased, to be filled in for a later client.
-/

namespace RustReality.Tls

open SpanReader

namespace ServerHello

def handshakeServerHello : Nat := 2

def helloRetryRequestRandom : Bytes :=
  [0xcf, 0x21, 0xad, 0x74, 0xe5, 0x9a, 0x61, 0x11, 0xbe, 0x1d, 0x8c, 0x02, 0x1e, 0x65, 0xb8, 0x91,
    0xc2, 0xa2, 0x11, 0x16, 0x7a, 0xbb, 0x8c, 0x5e, 0x07, 0x9e, 0x09, 0xe2, 0xc8, 0xa8, 0x33, 0x9c]

def legacyTls12Version : Nat := 0x0303

def extensionPreSharedKey : Nat := 0x0029

def extensionSupportedVersions : Nat := 0x002b

def extensionKeyShare : Nat := 0x0033

def maxServerHelloLen : Nat := 8 * 1024

def maxExtensions : Nat := 64

def x25519KeyExchangeLen : Nat := 32

def x25519Mlkem768ServerShareLen : Nat := 1088 + 32

def serverRandomStart : Nat := 6

def serverRandomEnd : Nat := serverRandomStart + 32

def sessionIdLengthOffset : Nat := serverRandomEnd

def sessionIdStart : Nat := sessionIdLengthOffset + 1

end ServerHello

open ServerHello

def x25519Group : Nat := 0x001d

def p256Group : Nat := 0x0017

def x25519Mlkem768Group : Nat := 0x11ec

def isGrease (value : Nat) : Bool := value &&& 0x0f0f == 0x0a0a && value >>> 8 == value &&& 0x00ff

def ClientHello.cipherOffered (self : ClientHello) (cipherSuite : Nat) : Bool := self.cipherSuites.contains cipherSuite

def ClientHello.keyShareGroupOffered (self : ClientHello) (group : Nat) : Bool :=
  !isGrease group && self.keyShares.any (·.group == group)

inductive ServerHelloError
  | truncated
  | tooLarge
  | malformed
  | helloRetryRequest
  | unsupportedVersion
  | unsupportedCipherSuite
  | unsupportedKeyShare
  | preSharedKeySelected
  | sessionIdMismatch
  | replacementLength
  | recordLength
  | bufferAllocation
  deriving DecidableEq, Repr

structure ServerHelloTemplate where
  message : Bytes
  suite : CipherSuite
  keyShareGroup : Nat
  keyExchange : Range
  deriving DecidableEq, Repr

structure ServerHelloProfileTemplate where
  message : Bytes
  suite : CipherSuite
  keyShareGroup : Nat
  keyExchange : Range
  deriving DecidableEq, Repr

def validateKeyShare (group exchangeLen : Nat) (client : ClientHello) : Except ServerHelloError Unit :=
  let expected :=
    if group = p256Group then some 65
    else if group = x25519Group then some x25519KeyExchangeLen
    else if group = x25519Mlkem768Group then some x25519Mlkem768ServerShareLen
    else none
  match expected with
  | none => .error .unsupportedKeyShare
  | some expectedLen =>
    if exchangeLen ≠ expectedLen ∨ ¬ client.keyShareGroupOffered group then .error .unsupportedKeyShare else .ok ()

namespace ServerHello

abbrev Reader (α : Type) := SpanReader ServerHelloError α

structure Negotiation where
  seen : List Nat := []
  negotiatedTls13 : Bool := false
  keyShare : Option (Nat × Range) := none
  deriving DecidableEq, Repr

variable (client : ClientHello)

def extensionBody (state : Negotiation) (extensionType : Nat) : Reader Negotiation :=
  if extensionType = extensionSupportedVersions then do
    let version ← number .truncated 2
    return { state with negotiatedTls13 := version == tls13Version }
  else if extensionType = extensionKeyShare then do
    let group ← number .truncated 2
    let exchangeLen ← number .truncated 2
    let exchange ← range .truncated exchangeLen
    let () ← lift (validateKeyShare group exchangeLen client)
    return { state with keyShare := some (group, exchange) }
  else if extensionType = extensionPreSharedKey then fail .preSharedKeySelected
  else do
    skipRemaining
    return state

def parseExtension (state : Negotiation) : Reader Negotiation := do
  if state.seen.length ≥ maxExtensions then fail .malformed
  else
    let extensionType ← number .truncated 2
    if state.seen.contains extensionType then fail .malformed
    else
      let state := { state with seen := state.seen ++ [extensionType] }
      let extensionLen ← number .truncated 2
      let extension ← sub .truncated extensionLen
      lift (whole .malformed (extensionBody client state extensionType) extension)

def parseExtensions (extensions : Span) : Except ServerHelloError Negotiation :=
  (untilEmpty (parseExtension client) extensions.rest.length {} extensions).map Prod.fst

def parseSelection (message : Bytes) (client : ClientHello) : Reader ServerHelloTemplate := do
  let suiteWire ← number .truncated 2
  match (CipherSuite.fromWire (UInt16.ofNat suiteWire)).filter fun _ => client.cipherOffered suiteWire with
  | none => fail .unsupportedCipherSuite
  | some suite =>
    let compression ← number .truncated 1
    if compression ≠ 0 then fail .malformed
    else
      let extensionsLen ← number .truncated 2
      let extensions ← sub .truncated extensionsLen
      let rest ← remaining
      if rest ≠ 0 then fail .malformed
      else
        let state ← lift (parseExtensions client extensions)
        if !state.negotiatedTls13 then fail .unsupportedVersion
        else
          match state.keyShare with
          | none => fail .unsupportedKeyShare
          | some (keyShareGroup, keyExchange) => return { message, suite, keyShareGroup, keyExchange }

def parseMessage (message : Bytes) (client : ClientHello) : Reader ServerHelloTemplate := do
  let kind ← number .truncated 1
  if kind ≠ handshakeServerHello then fail .malformed
  else
    let declared ← number .truncated 3
    let rest ← remaining
    if declared ≠ rest then fail .malformed
    else
      let version ← number .truncated 2
      if version ≠ legacyTls12Version then fail .malformed
      else
        let random ← take .truncated 32
        if random = helloRetryRequestRandom then fail .helloRetryRequest
        else
          let sessionIdLen ← number .truncated 1
          if sessionIdLen > 32 then fail .malformed
          else
            let sessionId ← take .truncated sessionIdLen
            if client.sessionId ≠ sessionId then fail .sessionIdMismatch
            else parseSelection message client

end ServerHello

namespace ServerHelloTemplate

variable (message : Bytes)

def parse (client : ClientHello) : Except ServerHelloError ServerHelloTemplate :=
  if message.length > maxServerHelloLen then .error .tooLarge
  else (ServerHello.parseMessage message client ⟨0, message⟩).map Prod.fst

/-- `get_mut(range)` followed by a write of the same length. -/
def patch (range : Range) (bytes : Bytes) : Except ServerHelloError Bytes :=
  if range.start ≤ range.stop ∧ range.stop ≤ message.length then .ok (overwrite message range.start bytes)
  else .error .malformed

def sessionRange : Except ServerHelloError Range :=
  match message[sessionIdLengthOffset]? with
  | none => .error .malformed
  | some len => .ok ⟨sessionIdStart, sessionIdStart + len.toNat⟩

def intoProfileTemplate (self : ServerHelloTemplate) : Except ServerHelloError ServerHelloProfileTemplate := do
  let session ← sessionRange self.message
  let message ← patch self.message ⟨serverRandomStart, serverRandomEnd⟩ (List.replicate 32 0)
  let message ← patch message session (List.replicate session.len 0)
  let message ← patch message self.keyExchange (List.replicate self.keyExchange.len 0)
  return { message, suite := self.suite, keyShareGroup := self.keyShareGroup, keyExchange := self.keyExchange }

def intoPatchedMessage (self : ServerHelloTemplate) (replacement : Bytes) : Except ServerHelloError Bytes :=
  if replacement.length ≠ self.keyExchange.len then .error .replacementLength
  else patch self.message self.keyExchange replacement

end ServerHelloTemplate

/-- `reserved` is the allocator's answer to `try_reserve_exact`. -/
def ServerHelloProfileTemplate.materialize (self : ServerHelloProfileTemplate) (client : ClientHello)
    (serverRandom : Vector UInt8 32) (reserved : Bool) : Except ServerHelloError ServerHelloTemplate :=
  if !client.cipherOffered self.suite.wireValue.toNat then .error .unsupportedCipherSuite
  else do
    let () ← validateKeyShare self.keyShareGroup self.keyExchange.len client
    let session ← ServerHelloTemplate.sessionRange self.message
    if client.sessionId.length ≠ session.len then .error .sessionIdMismatch
    else if !reserved then .error .bufferAllocation
    else
      let message ← ServerHelloTemplate.patch self.message ⟨serverRandomStart, serverRandomEnd⟩ serverRandom.toList
      let message ← ServerHelloTemplate.patch message session client.sessionId
      return { message, suite := self.suite, keyShareGroup := self.keyShareGroup, keyExchange := self.keyExchange }

/-- `reserved` is the allocator's answer to `try_reserve_exact`. -/
def plaintextHandshakeRecord (message : Bytes) (reserved : Bool) : Except ServerHelloError Bytes :=
  if message.length ≥ 2 ^ 16 then .error .recordLength
  else if !reserved then .error .bufferAllocation
  else .ok ([22, 3, 3] ++ beBytes 2 message.length ++ message)

def changeCipherSpecRecord : Bytes := [20, 3, 3, 0, 1, 1]

end RustReality.Tls
