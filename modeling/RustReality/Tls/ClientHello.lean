import RustReality.Lib.Cursor

/-!
# The ClientHello

The strict parser of one ClientHello handshake message. Where the source keeps ranges into the message,
the model has the bytes of the range.
-/

namespace RustReality.Tls
open Cursor

def maxClientHelloBytes : Nat := 64 * 1024

def sessionIdLen : Nat := 32

def tls13Version : Nat := 0x0304

def maxExtensions : Nat := 256

def maxKeyShares : Nat := 16

def maxAlpnProtocols : Nat := 32

def maxPskIdentities : Nat := 16

def maxPskBinders : Nat := 16

inductive ClientHelloError
  | truncated
  | tooLarge
  | notHandshakeRecord
  | notClientHello
  | lengthMismatch
  | malformed (field : String)
  deriving DecidableEq, Repr

structure KeyShare where
  group : Nat
  data : Bytes
  deriving DecidableEq, Repr

structure ClientHello where
  rawMessage : Bytes
  random : Bytes
  sessionId : Bytes
  serverName : Option Bytes
  alpn : List Bytes
  keyShares : List KeyShare
  cipherSuites : List Nat
  offersTls13 : Bool
  offersPsk : Bool
  deriving DecidableEq, Repr

structure ExtensionState where
  seen : List Nat := []
  serverName : Option Bytes := none
  alpn : List Bytes := []
  keyShares : List KeyShare := []
  offersTls13 : Bool := false
  offersPsk : Bool := false
  deriving DecidableEq

/-- A decoder of the parser; what is missing is reported as truncation. -/
abbrev HelloReader (α : Type) := Cursor ClientHelloError α

namespace HelloReader

def number (length : Nat) : HelloReader Nat := Cursor.number .truncated length

def bytes (length : Nat) : HelloReader Bytes := take .truncated length

def malformed {α : Type} (field : String) : HelloReader α := fail (.malformed field)

def items {α : Type} (turn : α → HelloReader α) (state : α) (body : Bytes) : HelloReader α :=
  within (untilEmpty turn body.length state) body

def vector (lengthBytes : Nat) (field : String) : HelloReader Bytes := do
  let length ← number lengthBytes
  let body ← bytes length
  let rest ← remaining
  if rest ≠ 0 then malformed field else return body

end HelloReader

open HelloReader

/-! ### Extensions -/

def parseServerName : HelloReader (Option Bytes) := do
  let names ← vector 2 "server name"
  if names = [] then malformed "server name"
  else
    items (fun hostName => do
      let nameType ← number 1
      let nameLen ← number 2
      let name ← bytes nameLen
      if nameType = 0 then
        if hostName.isSome then malformed "duplicate host name"
        else if name.length = 0 ∨ name.length > 253 ∨ ¬name.all (· < 128) ∨ name.contains 0 then malformed "server name"
        else return some name
      else return hostName) none names

def parseSupportedVersions : HelloReader Bool := do
  let listLen ← number 1
  if listLen < 2 ∨ listLen % 2 ≠ 0 then malformed "supported versions"
  else
    let versions ← bytes listLen
    let rest ← remaining
    if rest ≠ 0 then malformed "supported versions"
    else
      items (fun offersTls13 => do
        let version ← number 2
        return offersTls13 || version == tls13Version) false versions

def parseKeyShares : HelloReader (List KeyShare) := do
  let shares ← vector 2 "key shares"
  if shares = [] then malformed "key shares"
  else
    items (fun output => do
      if output.length ≥ maxKeyShares then malformed "key share count"
      else
        let group ← number 2
        let dataLen ← number 2
        if dataLen = 0 then malformed "empty key share"
        else
          let data ← bytes dataLen
          return output ++ [⟨group, data⟩]) [] shares

def parseAlpn : HelloReader (List Bytes) := do
  let protocols ← vector 2 "ALPN"
  if protocols = [] then malformed "ALPN"
  else
    items (fun output => do
      if output.length ≥ maxAlpnProtocols then malformed "ALPN protocol count"
      else
        let protocolLen ← number 1
        if protocolLen = 0 then malformed "empty ALPN protocol"
        else
          let protocol ← bytes protocolLen
          return output ++ [protocol]) [] protocols

def parsePreSharedKey : HelloReader Unit := do
  let identitiesLen ← number 2
  let identities ← bytes identitiesLen
  let identityCount ← items (fun count => do
    if count ≥ maxPskIdentities then malformed "PSK identity count"
    else
      let identityLen ← number 2
      if identityLen = 0 then malformed "empty PSK identity"
      else
        let _ ← bytes identityLen
        let _ ← bytes 4
        return count + 1) 0 identities
  let binders ← vector 2 "PSK"
  let binderCount ← items (fun count => do
    if count ≥ maxPskBinders then malformed "PSK binder count"
    else
      let binderLen ← number 1
      if binderLen < 32 then malformed "PSK binder"
      else
        let _ ← bytes binderLen
        return count + 1) 0 binders
  if identityCount = 0 ∨ identityCount ≠ binderCount then malformed "PSK identity and binder count"
  else return ()

def inExtension {α : Type} (parse : HelloReader α) (extension : Bytes) : HelloReader α :=
  within (do
    let value ← parse
    finish (.malformed "extension length")
    return value) extension

def parseExtension (state : ExtensionState) : HelloReader ExtensionState := do
  if state.seen.length ≥ maxExtensions then malformed "extension count"
  else
    let extensionType ← number 2
    if state.seen.contains extensionType then malformed "duplicate extension"
    else
      let state := { state with seen := state.seen ++ [extensionType] }
      let extensionLen ← number 2
      let extension ← bytes extensionLen
      match extensionType with
      | 0x0000 => do
        let serverName ← inExtension parseServerName extension
        return { state with serverName }
      | 0x002b => do
        let offersTls13 ← inExtension parseSupportedVersions extension
        return { state with offersTls13 }
      | 0x0033 => do
        let keyShares ← inExtension parseKeyShares extension
        return { state with keyShares }
      | 0x0010 => do
        let alpn ← inExtension parseAlpn extension
        return { state with alpn }
      | 0x0029 => do
        let rest ← remaining
        if rest ≠ 0 then malformed "pre-shared key ordering"
        else
          let () ← inExtension parsePreSharedKey extension
          return { state with offersPsk := true }
      | _ => return state

def parseExtensions : HelloReader ExtensionState := do
  let rest ← remaining
  if rest = 0 then return {}
  else
    let extensionsLen ← number 2
    let extensions ← bytes extensionsLen
    finish .lengthMismatch
    items parseExtension {} extensions

/-! ### The message -/

def cipherSuitesOf : Bytes → List Nat
  | first :: second :: rest => ofBe [first, second] :: cipherSuitesOf rest
  | _ => []

variable (message : Bytes)

def parseFields : HelloReader ClientHello := do
  let _ ← number 2
  let random ← bytes 32
  let sessionIdLength ← number 1
  if sessionIdLength > sessionIdLen then malformed "session ID"
  else
    let sessionId ← bytes sessionIdLength
    let cipherBytesLen ← number 2
    if cipherBytesLen < 2 ∨ cipherBytesLen % 2 ≠ 0 then malformed "cipher suites"
    else
      let cipherBytes ← bytes cipherBytesLen
      let compressionLen ← number 1
      if compressionLen = 0 then malformed "compression methods"
      else
        let _ ← bytes compressionLen
        let state ← parseExtensions
        return {
          rawMessage := message
          random, sessionId
          serverName := state.serverName
          alpn := state.alpn
          keyShares := state.keyShares
          cipherSuites := cipherSuitesOf cipherBytes
          offersTls13 := state.offersTls13
          offersPsk := state.offersPsk }

def helloMessage : HelloReader ClientHello := do
  let kind ← number 1
  if kind ≠ 0x01 then fail .notClientHello
  else
    let declared ← number 3
    let rest ← remaining
    if declared ≠ rest then fail .lengthMismatch else parseFields message

def ClientHello.parseMessage : Except ClientHelloError ClientHello :=
  if message.length > maxClientHelloBytes then .error .tooLarge
  else (helloMessage message message).map Prod.fst

/-- A ClientHello without extensions. -/
example : (ClientHello.parseMessage
    ([1, 0, 0, 41, 3, 3] ++ List.replicate 32 7 ++ [0, 0, 2, 0x13, 1, 1, 0])).toOption.map ClientHello.cipherSuites =
    some [0x1301] := by
  decide +kernel

/-! ### What a parsed message starts with -/

theorem number_ok {length value : Nat} {input rest : Bytes} (h : number length input = .ok (value, rest)) :
    length ≤ input.length ∧ value = ofBe (input.take length) ∧ rest = input.drop length := by
  obtain ⟨bytes, after, hr, hv⟩ := Cursor.ok_of_bind_cursor h
  unfold Cursor.take at hr
  split at hr
  · next hle =>
    cases hr
    cases hv
    exact ⟨hle, rfl, rfl⟩
  · cases hr

theorem parseMessage_ok {message : Bytes} {hello : ClientHello} (h : ClientHello.parseMessage message = .ok hello) :
    message.length ≤ maxClientHelloBytes ∧ message.take 1 = [1] ∧ 4 ≤ message.length ∧
      4 + ofBe (slice message 1 4) = message.length := by
  unfold ClientHello.parseMessage at h
  split at h
  · cases h
  next hs =>
  cases hp : helloMessage message message with
  | error error =>
    rw [hp] at h
    cases h
  | ok result =>
    obtain ⟨kind, rest, hk, hb⟩ := ok_of_bind_cursor hp
    obtain ⟨ho, hv, rfl⟩ := number_ok hk
    split at hb
    · cases hb
    next hc =>
    obtain ⟨declared, rest, hd, hb⟩ := ok_of_bind_cursor hb
    obtain ⟨ht, hln, rfl⟩ := number_ok hd
    obtain ⟨left, rest, hl, hb⟩ := ok_of_bind_cursor hb
    cases hl
    split at hb
    · cases hb
    next he =>
    rw [List.drop_drop, List.length_drop] at he
    rw [List.length_drop] at ht
    have hf : message.take 1 = [1] := by
      rw [not_not.1 hc] at hv
      have hle : (message.take 1).length = 1 := by rw [List.length_take]; omega
      rw [← beBytes_ofBe_of hle, ← hv]
      rfl
    have hsl : (message.drop 1).take 3 = slice message 1 4 := by rw [slice, List.drop_take]
    rw [hsl] at hln
    refine ⟨Nat.le_of_not_lt hs, hf, by omega, ?_⟩
    omega

end RustReality.Tls
