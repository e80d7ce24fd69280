import RustReality.Handoff.Udp.Channel
import RustReality.Handoff.Udp.Data
import RustReality.Handoff.Udp.Frag
import RustReality.Handoff.Udp.Pmtu

/-!
# One end of a native UDP session

`ChannelEndpoint` seals datagrams for its peer as one DATA packet or as a group of fragments under the
discovered packet limit, packetizes again when the kernel refuses a packet as too big, and turns the
packets it receives back into datagrams. What the surroundings answer (the allocator, the socket, the
kernel's path limit) is a `Turn` for each packet; the log of encryptions is threaded through.
-/

namespace RustReality.Handoff.Udp

variable {K : Type}

def maxSendAttempts : Nat := 4

def ReassemblyLimits.default : ReassemblyLimits :=
  { maxGroups := 8, maxBytes := 4 * maxDataPlaintextLen, timeout := 3000 }

/-- The outcome of `send`: the packet went out whole, the kernel refused it as too big (and then tells
its path limit, if it can), or the call failed otherwise, a short write included. -/
inductive Sent
  | whole
  | tooBig (kernelLimit : Option Nat)
  | failed
  deriving DecidableEq, Repr

structure Turn where
  reserved : Bool
  sent : Sent
  deriving DecidableEq, Repr

inductive SendError
  | packet (error : UdpPacketError)
  | io
  | unpacketizable
  deriving DecidableEq, Repr

inductive AttemptError
  | failed (error : SendError)
  | tooBig (attempted : Nat) (kernelLimit : Option Nat)
  deriving DecidableEq, Repr

inductive Received
  | data (address : SocketAddress) (payload : Bytes)
  | openAck
  | close
  | handled
  deriving DecidableEq, Repr

structure ChannelEndpoint (K : Type) where
  channel : UdpChannel K
  pmtu : PmtuProber
  reassembler : Reassembler
  nextFragmentId : UInt32

def ChannelEndpoint.new (channel : UdpChannel K) (pmtu : PmtuProber) : ChannelEndpoint K :=
  { channel, pmtu, reassembler := .new .default, nextFragmentId := 1 }

/-- An endpoint with the encryptions made so far, the number of packets it tried to send and the
packets the socket took. -/
structure Wired (K : Type) where
  log : List (Aead.Sealing K)
  endpoint : ChannelEndpoint K
  turn : Nat
  packets : List Bytes

namespace Wired

variable (cipher : Aead.Cipher K tagLen) (turns : Nat → Turn) (self : Wired K)

def sendPacket (packetType : PacketType) (plaintext : Bytes) : Wired K × Except AttemptError Unit :=
  let answer := turns self.turn
  match self.endpoint.channel.sealPadded cipher self.log packetType plaintext 0 answer.reserved with
  | (log, channel, .error error) =>
    ({ self with log, endpoint := { self.endpoint with channel }, turn := self.turn + 1 },
      .error (.failed (.packet error)))
  | (log, channel, .ok wire) =>
    let self := { self with log, endpoint := { self.endpoint with channel }, turn := self.turn + 1 }
    match answer.sent with
    | .whole => ({ self with packets := self.packets ++ [wire] }, .ok ())
    | .tooBig kernelLimit => (self, .error (.tooBig wire.length kernelLimit))
    | .failed => (self, .error (.failed .io))

/-- The loop of `send_fragments`. -/
def sendEach (self : Wired K) : List Bytes → Wired K × Except AttemptError Unit
  | [] => (self, .ok ())
  | fragment :: fragments =>
    match self.sendPacket cipher turns .frag fragment with
    | (self, .ok ()) => sendEach self fragments
    | (self, .error error) => (self, .error error)

def sendFragments (plain : Bytes) (limit : Nat) : Wired K × Except AttemptError Unit :=
  let chunk := limit - (headerLen + tagLen + fragHeaderLen)
  let id := self.endpoint.nextFragmentId
  let self := { self with endpoint := { self.endpoint with nextFragmentId := id + 1 } }
  match splitFragments id plain chunk with
  | .error error => (self, .error (.failed (.packet error)))
  | .ok fragments => self.sendEach cipher turns fragments

/-- One attempt of `send_datagram_inner`. -/
def attempt (plain : Bytes) : Wired K × Except AttemptError Unit :=
  let limit := self.endpoint.pmtu.plpmtu
  if headerLen + plain.length + tagLen ≤ limit then self.sendPacket cipher turns .data plain
  else self.sendFragments cipher turns plain limit

def attempts (self : Wired K) (plain : Bytes) : Nat → Wired K × Except SendError Unit
  | 0 => (self, .error .unpacketizable)
  | n + 1 =>
    match self.attempt cipher turns plain with
    | (self, .ok ()) => (self, .ok ())
    | (self, .error (.failed error)) => (self, .error error)
    | (self, .error (.tooBig attempted kernelLimit)) =>
      attempts { self with endpoint :=
        { self.endpoint with pmtu := self.endpoint.pmtu.onSendTooBig attempted kernelLimit } } plain n

def sendDatagram (address : SocketAddress) (payload : Bytes) : Wired K × Except SendError Unit :=
  match encodeDataPlaintext address payload with
  | .error error => (self, .error (.packet error))
  | .ok plain => self.attempts cipher turns plain maxSendAttempts

/-- The answer to a probe: its id and the size it had. A failed send of it is of no consequence. -/
def acknowledge (plain packet : Bytes) : Wired K × Except UdpPacketError Received :=
  if plain.length < 4 then (self, .error .length)
  else if packet.length ≥ 2 ^ 16 then (self, .error .length)
  else
    match self.sendPacket cipher turns .probeAck (plain.take 4 ++ beBytes 2 packet.length) with
    | (self, .error (.failed (.packet error))) => (self, .error error)
    | (self, _) => (self, .ok .handled)

def receive [DecidableEq K] (self : Wired K) (packet : Bytes) (now : Nat) :
    Except Fault (Wired K × Except UdpPacketError Received) :=
  match self.endpoint.channel.openPacket self.log packet with
  | (_, .error error) => .ok (self, .error error)
  | (channel, .ok (packetType, plain)) =>
    let self := { self with endpoint := { self.endpoint with channel } }
    match packetType with
    | .data =>
      match decodeData plain with
      | .error error => .ok (self, .error error)
      | .ok (address, payload) => .ok (self, .ok (.data address payload))
    | .frag => do
      let (reassembler, result) ← self.endpoint.reassembler.insert plain now
      let self := { self with endpoint := { self.endpoint with reassembler } }
      match result with
      | .error error => return (self, .error error)
      | .ok none => return (self, .ok .handled)
      | .ok (some whole) =>
        match decodeData whole with
        | .error error => return (self, .error error)
        | .ok (address, payload) => return (self, .ok (.data address payload))
    | .probe => .ok (self.acknowledge cipher turns plain packet)
    | .probeAck =>
      if plain.length < 6 then .ok (self, .error .length)
      else
        let id := UInt32.ofNat (ofBe (plain.take 4))
        let size := ofBe (slice plain 4 6)
        .ok ({ self with endpoint :=
          { self.endpoint with pmtu := self.endpoint.pmtu.onProbeAck id size now } }, .ok .handled)
    | .openAck => .ok (self, .ok .openAck)
    | .close => .ok (self, .ok .close)
    | .open => .ok (self, .error .type)

def receiveAll [DecidableEq K] (self : Wired K) (arrivals : List (Bytes × Nat)) :
    Except Fault (Wired K × List (Except UdpPacketError Received)) :=
  Mealy.runE (fun self arrival => self.receive cipher turns arrival.1 arrival.2) self arrivals

end Wired

end RustReality.Handoff.Udp
