import RustReality.Handoff.Udp.Window
import RustReality.Handoff.Udp.Wire
import RustReality.Lib.Aead

/-!
# The authenticated UDP channel

The two ends of a native UDP session seal packets for each other over a network an attacker owns:
any byte string may be delivered to either end at any time. The AEAD is ideal. One invariant ties
the ends together: every encryption under the key of a direction is a packet its sender sealed,
numbered by the send counter, and the receive window of the other end holds exactly the counters
of the packets it opened.
-/

namespace RustReality.Handoff.Udp
open List

variable {K : Type}

structure UdpChannel (K : Type) where
  sessionId : SessionId
  send : K
  recv : K
  sendCounter : UInt64
  window : ReplayWindow

def nonceFor (counter : UInt64) : Bytes := [0, 0, 0, 0] ++ beBytes 8 counter.toNat

/-- The plaintext of a packet: the given bytes, padded with zeros up to the wanted packet size. -/
def padded (prefixBytes : Bytes) (totalLen : Nat) : Bytes :=
  let plainLen := max prefixBytes.length (totalLen - (headerLen + tagLen))
  prefixBytes ++ List.replicate (plainLen - prefixBytes.length) 0

theorem split_packet {packet : Bytes} (h : headerLen + tagLen ≤ packet.length) :
    packet = packet.take headerLen ++ (packet.take (packet.length - tagLen)).drop headerLen ++
      packet.drop (packet.length - tagLen) := by
  have hle : headerLen ≤ packet.length - tagLen := by omega
  have hm : packet.take headerLen = (packet.take (packet.length - tagLen)).take headerLen := by
    rw [take_take, Nat.min_eq_left hle]
  rw [hm, take_append_drop, take_append_drop]

namespace UdpChannel

def new (sessionId : SessionId) (send recv : K) : UdpChannel K :=
  { sessionId, send, recv, sendCounter := 0, window := .new }

/-- `seal_padded`; `reserved` is the allocator's answer to `try_reserve`. The log of encryptions is
threaded through, and the packet stands for the output buffer of a successful call. -/
def sealPadded (cipher : Aead.Cipher K tagLen) (log : List (Aead.Sealing K)) (self : UdpChannel K)
    (packetType : PacketType) (prefixBytes : Bytes) (totalLen : Nat) (reserved : Bool) :
    List (Aead.Sealing K) × UdpChannel K × Except UdpPacketError Bytes :=
  if packetType = .open then (log, self, .error .type)
  else if self.sendCounter = UInt64.ofNat (2 ^ 64 - 1) then (log, self, .error .counter)
  else
    let counter := self.sendCounter + 1
    let self := { self with sendCounter := counter }
    let header := encodeHeader packetType self.sessionId counter
    if !reserved then (log, self, .error .length)
    else
      match Aead.encrypt cipher log self.send (nonceFor counter) header (padded prefixBytes totalLen) with
      | (log, none) => (log, self, .error .crypto)
      | (log, some (ciphertext, tag)) => (log, self, .ok (header ++ ciphertext ++ tag))

/-- `open`, with the plaintext of a successful call. -/
def openPacket [DecidableEq K] (log : List (Aead.Sealing K)) (self : UdpChannel K) (packet : Bytes) :
    UdpChannel K × Except UdpPacketError (PacketType × Bytes) :=
  match parseHeader packet with
  | .error e => (self, .error e)
  | .ok (packetType, sessionId, counter) =>
    if packetType = .open then (self, .error .type)
    else if sessionId ≠ self.sessionId then (self, .error .session)
    else if !self.window.check counter then (self, .error .replay)
    else
      let header := packet.take headerLen
      let bodyEnd := packet.length - tagLen
      let tag := packet.drop bodyEnd
      match Aead.decrypt log self.recv (nonceFor counter) header
        ((packet.take bodyEnd).drop headerLen) tag with
      | none => (self, .error .authentication)
      | some plaintext =>
        match self.window.commit counter with
        | (_, false) => (self, .error .replay)
        | (window, true) => ({ self with window }, .ok (packetType, plaintext))

/-! ### What the two calls do -/

variable (cipher : Aead.Cipher K tagLen) (log : List (Aead.Sealing K)) (self : UdpChannel K)

/-- A call of `seal` fails and encrypts nothing (it may still use up a counter), or takes the next
counter and logs one encryption under its nonce. -/
theorem sealPadded_cases (packetType : PacketType) (prefixBytes : Bytes) (totalLen : Nat)
    (reserved : Bool) :
    (∃ self' e, sealPadded cipher log self packetType prefixBytes totalLen reserved =
        (log, self', .error e) ∧ (self' = self ∨
          (self.sendCounter ≠ UInt64.ofNat (2 ^ 64 - 1) ∧
            self' = { self with sendCounter := self.sendCounter + 1 }))) ∨
    (∃ ciphertext tag, packetType ≠ .open ∧ self.sendCounter ≠ UInt64.ofNat (2 ^ 64 - 1) ∧
      tag.length = tagLen ∧
      sealPadded cipher log self packetType prefixBytes totalLen reserved =
        (⟨self.send, nonceFor (self.sendCounter + 1),
            encodeHeader packetType self.sessionId (self.sendCounter + 1), padded prefixBytes totalLen,
            ciphertext, tag⟩ :: log,
          { self with sendCounter := self.sendCounter + 1 },
          .ok (encodeHeader packetType self.sessionId (self.sendCounter + 1) ++ ciphertext ++ tag))) := by
  unfold sealPadded
  by_cases ht : packetType = .open
  · exact .inl ⟨self, .type, by simp [ht], .inl rfl⟩
  by_cases hm : self.sendCounter = UInt64.ofNat (2 ^ 64 - 1)
  · exact .inl ⟨self, .counter, by simp only [ht, hm, if_false, if_true], .inl rfl⟩
  simp only [ht, hm, if_false]
  cases reserved with
  | false => exact .inl ⟨_, .length, rfl, .inr ⟨hm, rfl⟩⟩
  | true =>
    simp only [Aead.encrypt]
    cases he : cipher.encrypt self.send (nonceFor (self.sendCounter + 1))
        (encodeHeader packetType self.sessionId (self.sendCounter + 1)) (padded prefixBytes totalLen) with
    | none => exact .inl ⟨_, .crypto, rfl, .inr ⟨hm, rfl⟩⟩
    | some out =>
      obtain ⟨ciphertext, tag⟩ := out
      exact .inr ⟨ciphertext, tag, ht, hm, cipher.tag_length he, rfl⟩

/-- A call of `open` fails and leaves the channel as it was, or the packet is one that was encrypted
under the receive key, its counter is new to the window, and the window takes it. -/
theorem openPacket_cases [DecidableEq K] (packet : Bytes) :
    (∃ e, openPacket log self packet = (self, .error e)) ∨
    (∃ packetType counter plaintext ciphertext tag,
      parseHeader packet = .ok (packetType, self.sessionId, counter) ∧
      self.window.check counter = true ∧ packet = packet.take headerLen ++ ciphertext ++ tag ∧
      ⟨self.recv, nonceFor counter, packet.take headerLen, plaintext, ciphertext, tag⟩ ∈ log ∧
      openPacket log self packet =
        ({ self with window := (self.window.commit counter).1 }, .ok (packetType, plaintext))) := by
  unfold openPacket
  cases hp : parseHeader packet with
  | error e => exact .inl ⟨e, rfl⟩
  | ok header =>
    obtain ⟨packetType, sessionId, counter⟩ := header
    by_cases ht : packetType = .open
    · exact .inl ⟨.type, by simp [ht]⟩
    by_cases hs : sessionId = self.sessionId
    · cases hc : self.window.check counter with
      | false => exact .inl ⟨.replay, by simp [ht, hs, hc]⟩
      | true =>
        simp only [ht, hs, hc, if_false, ne_eq, not_true_eq_false, Bool.not_true,
          Bool.false_eq_true]
        cases hd : Aead.decrypt log self.recv (nonceFor counter) (packet.take headerLen)
            ((packet.take (packet.length - tagLen)).drop headerLen)
            (packet.drop (packet.length - tagLen)) with
        | none => exact .inl ⟨.authentication, rfl⟩
        | some plaintext =>
          have hcm : self.window.commit counter = ((self.window.commit counter).1, true) :=
            Prod.ext rfl (ReplayWindow.commit_accepted hc)
          refine .inr ⟨packetType, counter, plaintext, _, _, rfl, hc, ?_,
            Aead.mem_of_decrypt hd, by rw [hcm]⟩
          exact split_packet (length_of_parseHeader hp)
    · exact .inl ⟨.session, by simp [ht, hs]⟩

end UdpChannel

/-! ### Two ends and an attacker in between -/

inductive Side
  | line | landing
  deriving DecidableEq, Repr

def Side.peer : Side → Side
  | .line => .landing
  | .landing => .line

@[simp] theorem Side.peer_peer (side : Side) : side.peer.peer = side := by cases side <;> rfl

structure Session (K : Type) where
  ends : Side → UdpChannel K
  log : List (Aead.Sealing K)

inductive Event
  | send (side : Side) (packetType : PacketType) (prefixBytes : Bytes) (totalLen : Nat) (reserved : Bool)
  | deliver (side : Side) (packet : Bytes)

inductive Answer
  | sent (result : Except UdpPacketError Bytes)
  | received (result : Except UdpPacketError (PacketType × Bytes))
  deriving DecidableEq

structure Packet where
  wire : Bytes
  packetType : PacketType
  plaintext : Bytes

namespace Session

/-- Both ends as the key schedule leaves them: `key side` is the key `side` sends under. -/
def init (sessionId : SessionId) (key : Side → K) : Session K :=
  { ends := fun side => .new sessionId (key side) (key side.peer), log := [] }

def setEnd (s : Session K) (side : Side) (channel : UdpChannel K) : Session K :=
  { s with ends := fun x => if x = side then channel else s.ends x }

@[simp] theorem setEnd_log (s : Session K) (side : Side) (channel : UdpChannel K) :
    (s.setEnd side channel).log = s.log := rfl

@[simp] theorem setEnd_self (s : Session K) (side : Side) : s.setEnd side (s.ends side) = s := by
  have he : (fun x => if x = side then s.ends side else s.ends x) = s.ends := by
    funext x
    split_ifs with h
    · rw [h]
    · rfl
  simp only [setEnd, he]

def step [DecidableEq K] (cipher : Aead.Cipher K tagLen) (s : Session K) : Event → Session K × Answer
  | .send side packetType prefixBytes totalLen reserved =>
    let (log, channel, result) :=
      (s.ends side).sealPadded cipher s.log packetType prefixBytes totalLen reserved
    ({ s with log }.setEnd side channel, .sent result)
  | .deliver side packet =>
    let (channel, result) := (s.ends side).openPacket s.log packet
    (s.setEnd side channel, .received result)

variable (side : Side)

/-- The packet an event and its answer show to have been sealed by a side. -/
def sentIn : Event × Answer → Option Packet
  | (.send x packetType prefixBytes totalLen _, .sent (.ok wire)) =>
    if x = side then some ⟨wire, packetType, padded prefixBytes totalLen⟩ else none
  | _ => none

/-- The packet an event and its answer show to have been opened by a side. -/
def receivedIn : Event × Answer → Option Packet
  | (.deliver x wire, .received (.ok (packetType, plaintext))) =>
    if x = side then some ⟨wire, packetType, plaintext⟩ else none
  | _ => none

variable (trace : List (Event × Answer))

def sentOf : List Packet := trace.filterMap (sentIn side)

def receivedOf : List Packet :=
  trace.filterMap (receivedIn side)

/-! ### The invariant -/

structure Inv (sessionId : SessionId) (key : Side → K) (s : Session K) (trace : List (Event × Answer)) :
    Prop where
  session : ∀ side, (s.ends side).sessionId = sessionId
  send : ∀ side, (s.ends side).send = key side
  recv : ∀ side, (s.ends side).recv = key side.peer
  /-- Every encryption is a packet some side sealed, under a counter it has reached. -/
  sealed : ∀ e ∈ s.log, ∃ side packetType counter, e.key = key side ∧
    counter ≤ (s.ends side).sendCounter ∧ e.nonce = nonceFor counter ∧
    e.aad = encodeHeader packetType sessionId counter ∧ e.tag.length = tagLen ∧
    ⟨e.aad ++ e.ciphertext ++ e.tag, packetType, e.plaintext⟩ ∈ sentOf side trace
  nonces : (s.log.map fun e => (e.key, e.nonce)).Nodup
  /-- A sealed packet starts with the header of a counter its sender has reached. -/
  sent : ∀ side, ∀ p ∈ sentOf side trace, ∃ packetType counter body,
    counter ≤ (s.ends side).sendCounter ∧ p.wire = encodeHeader packetType sessionId counter ++ body
  sent_nodup : ∀ side, ((sentOf side trace).map Packet.wire).Nodup
  /-- The window of a side holds the counters of the packets it opened. -/
  window : ∀ side, ∃ committed, ReplayWindow.Inv (s.ends side).window committed ∧
    ∀ p ∈ receivedOf side trace, ∃ packetType counter,
      parseHeader p.wire = .ok (packetType, sessionId, counter) ∧ counter ∈ committed
  received_nodup : ∀ side, ((receivedOf side trace).map Packet.wire).Nodup
  received_sent : ∀ side, ∀ p ∈ receivedOf side trace, p ∈ sentOf side.peer trace

theorem Inv.start (sessionId : SessionId) (key : Side → K) : Inv sessionId key (init sessionId key) [] := by
  constructor <;> simp [init, UdpChannel.new, sentOf, receivedOf]
  exact fun _ => ⟨[], ReplayWindow.Inv.init⟩

variable {sessionId : SessionId} {key : Side → K} {s s' : Session K} {trace trace' : List (Event × Answer)}

theorem Inv.quiet (h : Inv sessionId key s trace) (hl : s'.log = s.log)
    (hends : ∀ side, ∃ counter, (s.ends side).sendCounter ≤ counter ∧
      s'.ends side = { s.ends side with sendCounter := counter })
    (hs : ∀ side, sentOf side trace' = sentOf side trace)
    (hr : ∀ side, receivedOf side trace' = receivedOf side trace) : Inv sessionId key s' trace' := by
  have hm : ∀ side, (s.ends side).sendCounter ≤ (s'.ends side).sendCounter := fun side => by
    obtain ⟨counter, hle, heq⟩ := hends side
    rw [heq]
    exact hle
  constructor
  · intro side
    obtain ⟨counter, -, heq⟩ := hends side
    rw [heq]
    exact h.session side
  · intro side
    obtain ⟨counter, -, heq⟩ := hends side
    rw [heq]
    exact h.send side
  · intro side
    obtain ⟨counter, -, heq⟩ := hends side
    rw [heq]
    exact h.recv side
  · intro e he
    obtain ⟨side, t, c, hk, hle, hrs⟩ := h.sealed e (hl ▸ he)
    refine ⟨side, t, c, hk, UInt64.le_trans hle (hm side), ?_⟩
    rwa [hs side]
  · exact hl ▸ h.nonces
  · intro side p hp
    obtain ⟨t, c, body, hle, hw⟩ := h.sent side p (hs side ▸ hp)
    exact ⟨t, c, body, UInt64.le_trans hle (hm side), hw⟩
  · exact fun side => hs side ▸ h.sent_nodup side
  · intro side
    obtain ⟨counter, -, heq⟩ := hends side
    rw [heq, hr side]
    exact h.window side
  · exact fun side => hr side ▸ h.received_nodup side
  · intro side p hp
    rw [hs]
    exact h.received_sent side p (hr side ▸ hp)

theorem toNat_succ_of_ne_max {c : UInt64} (h : c ≠ UInt64.ofNat (2 ^ 64 - 1)) :
    (c + 1).toNat = c.toNat + 1 := by
  have hlt := c.toNat_lt
  have hne : c.toNat ≠ 2 ^ 64 - 1 := fun heq => h (UInt64.toNat_inj.mp (by rw [heq]; rfl))
  simp [UInt64.toNat_add]
  omega

theorem nonceFor_inj {c d : UInt64} (h : nonceFor c = nonceFor d) : c = d := by
  obtain ⟨-, hb⟩ := append_inj h rfl
  exact UInt64.toNat_inj.mp (beBytes_inj c.toNat_lt d.toNat_lt hb)

theorem encodeHeader_inj {t t' : PacketType} {sid : SessionId} {c c' : UInt64} {body body' : Bytes}
    (h : encodeHeader t sid c ++ body = encodeHeader t' sid c' ++ body') : t = t' ∧ c = c' := by
  obtain ⟨hh, -⟩ := append_inj h (by simp)
  have hp := parseHeader_encodeHeader t sid c (List.replicate tagLen 0) (by simp)
  rw [hh, parseHeader_encodeHeader t' sid c' _ (by simp)] at hp
  cases hp
  exact ⟨rfl, rfl⟩

theorem sentOf_append (side : Side) (x : Event × Answer) :
    sentOf side (trace ++ [x]) = sentOf side trace ++ (sentIn side x).toList := by
  cases h : sentIn side x <;> simp [sentOf, h]

theorem receivedOf_append (side : Side) (x : Event × Answer) :
    receivedOf side (trace ++ [x]) = receivedOf side trace ++ (receivedIn side x).toList := by
  cases h : receivedIn side x <;> simp [receivedOf, h]

/-- Sealing a packet: the counter, and with it the nonce and the header, is new to its direction. -/
theorem Inv.seals (h : Inv sessionId key s trace) (hkeys : key .line ≠ key .landing) (side : Side)
    {packetType : PacketType} {plaintext ciphertext tag : Bytes} (htag : tag.length = tagLen)
    (hmax : (s.ends side).sendCounter ≠ UInt64.ofNat (2 ^ 64 - 1))
    (hs : ∀ x, sentOf x trace' = sentOf x trace ++ if x = side then
      [⟨encodeHeader packetType sessionId ((s.ends side).sendCounter + 1) ++ ciphertext ++ tag, packetType,
        plaintext⟩] else [])
    (hr : ∀ x, receivedOf x trace' = receivedOf x trace) {channel : UdpChannel K}
    (hc : channel = { s.ends side with sendCounter := (s.ends side).sendCounter + 1 }) :
    Inv sessionId key
      ({ s with log := ⟨key side, nonceFor ((s.ends side).sendCounter + 1),
          encodeHeader packetType sessionId ((s.ends side).sendCounter + 1), plaintext, ciphertext,
          tag⟩ :: s.log }.setEnd side channel) trace' := by
  subst hc
  have hi : ∀ {x y : Side}, key x = key y → x = y := by
    intro x y hxy
    cases x <;> cases y <;> first | rfl | exact absurd hxy hkeys | exact absurd hxy.symm hkeys
  have hsc := toNat_succ_of_ne_max hmax
  set next := (s.ends side).sendCounter + 1 with hnx
  have hbl : ∀ {c : UInt64}, c ≤ (s.ends side).sendCounter → c ≠ next := fun {c} hle heq => by
    rw [UInt64.le_iff_toNat_le, heq] at hle
    omega
  have hg : (s.ends side).sendCounter ≤ next := by
    rw [UInt64.le_iff_toNat_le]
    omega
  have hmn : ∀ x {c : UInt64}, c ≤ (s.ends x).sendCounter →
      c ≤ (if x = side then { s.ends side with sendCounter := next } else s.ends x).sendCounter := by
    intro x c hle
    split_ifs with hx
    · subst hx
      exact UInt64.le_trans hle hg
    · exact hle
  constructor
  · intro x
    by_cases hx : x = side <;> simp [setEnd, hx, h.session]
  · intro x
    by_cases hx : x = side <;> simp [setEnd, hx, h.send]
  · intro x
    by_cases hx : x = side <;> simp [setEnd, hx, h.recv]
  · intro e he
    rcases mem_cons.mp he with rfl | he
    · refine ⟨side, packetType, next, rfl, ?_, rfl, rfl, htag, ?_⟩
      · simp [setEnd]
      · rw [hs]
        simp
    · obtain ⟨x, t, c, hk, hle, hn, ha, ht, hm⟩ := h.sealed e he
      refine ⟨x, t, c, hk, hmn x hle, hn, ha, ht, ?_⟩
      rw [hs]
      exact mem_append_left _ hm
  · simp only [setEnd_log, map_cons, nodup_cons]
    refine ⟨fun hm => ?_, h.nonces⟩
    obtain ⟨e, he, heq⟩ := mem_map.mp hm
    obtain ⟨hke, hnn⟩ := Prod.mk.inj heq
    obtain ⟨x, t, c, hk, hle, hn, -⟩ := h.sealed e he
    obtain rfl := hi (hk.symm.trans hke)
    exact hbl hle (nonceFor_inj (hn.symm.trans hnn))
  · intro x p hp
    rw [hs] at hp
    rcases mem_append.mp hp with hp | hp
    · obtain ⟨t, c, body, hle, hw⟩ := h.sent x p hp
      exact ⟨t, c, body, hmn x hle, hw⟩
    · by_cases hx : x = side
      · subst hx
        rw [if_pos rfl, mem_singleton] at hp
        exact ⟨packetType, next, ciphertext ++ tag, by simp [setEnd], by rw [hp, append_assoc]⟩
      · simp [hx] at hp
  · intro x
    rw [hs, map_append]
    by_cases hx : x = side
    · subst hx
      simp only [if_true, map_cons, map_nil]
      refine nodup_append.mpr ⟨h.sent_nodup x, nodup_singleton _, fun a ha b hb hab => ?_⟩
      obtain ⟨p, hp, rfl⟩ := mem_map.mp ha
      obtain ⟨t, c, body, hle, hw⟩ := h.sent x p hp
      rw [mem_singleton] at hb
      rw [hb, hw, append_assoc] at hab
      exact hbl hle (encodeHeader_inj hab).2
    · simpa [hx] using h.sent_nodup x
  · intro x
    rw [hr]
    by_cases hx : x = side
    · simpa [setEnd, hx] using h.window side
    · simpa [setEnd, hx] using h.window x
  · exact fun x => hr x ▸ h.received_nodup x
  · intro x p hp
    rw [hs]
    exact mem_append_left _ (h.received_sent x p (hr x ▸ hp))

/-- What a successful `open` has found: a packet the peer sealed and this side has not opened. -/
theorem Inv.opened (h : Inv sessionId key s trace) (hkeys : key .line ≠ key .landing) {side : Side}
    {wire ciphertext tag plaintext : Bytes} {packetType : PacketType} {counter : UInt64}
    (hparse : parseHeader wire = .ok (packetType, sessionId, counter))
    (hcheck : (s.ends side).window.check counter = true)
    (hs : wire = wire.take headerLen ++ ciphertext ++ tag)
    (hl : ⟨(s.ends side).recv, nonceFor counter, wire.take headerLen, plaintext, ciphertext, tag⟩ ∈ s.log) :
    ⟨wire, packetType, plaintext⟩ ∈ sentOf side.peer trace ∧
      wire ∉ (receivedOf side trace).map Packet.wire := by
  constructor
  · obtain ⟨x, t, c, hk, -, hn, ha, ht, hm⟩ := h.sealed _ hl
    obtain rfl := nonceFor_inj hn
    have hsd : side.peer = x := by
      rw [h.recv side] at hk
      generalize side.peer = y at hk
      cases x <;> cases y <;> first | rfl | exact absurd hk hkeys | exact absurd hk.symm hkeys
    rw [hsd]
    have hty : packetType = t := by
      have hln : tagLen ≤ (ciphertext ++ tag).length := by
        rw [length_append]
        simp only at ht
        omega
      simp only at ha
      rw [hs, ha, append_assoc, parseHeader_encodeHeader t sessionId counter _ hln] at hparse
      cases hparse
      rfl
    rw [hs, hty]
    exact hm
  · intro hm
    obtain ⟨p, hp, rfl⟩ := mem_map.mp hm
    obtain ⟨committed, hw, hal⟩ := h.window side
    obtain ⟨t, c, hpa', hc⟩ := hal p hp
    rw [hparse] at hpa'
    cases hpa'
    exact ((hw.check_iff counter).mp hcheck).2.1 hc

theorem Inv.opens (h : Inv sessionId key s trace) (side : Side) {p : Packet} {counter : UInt64}
    (hp : parseHeader p.wire = .ok (p.packetType, sessionId, counter))
    (hcheck : (s.ends side).window.check counter = true)
    (hsent : p ∈ sentOf side.peer trace) (hn : p.wire ∉ (receivedOf side trace).map Packet.wire)
    (hs : ∀ x, sentOf x trace' = sentOf x trace)
    (hr : ∀ x, receivedOf x trace' = receivedOf x trace ++ if x = side then [p] else []) :
    Inv sessionId key
      (s.setEnd side { s.ends side with window := ((s.ends side).window.commit counter).1 }) trace' := by
  have hco : ∀ x, ((if x = side then
      { s.ends side with window := ((s.ends side).window.commit counter).1 } else s.ends x).sendCounter) =
      (s.ends x).sendCounter := by
    intro x
    split_ifs with hx
    · rw [hx]
    · rfl
  constructor
  · intro x
    by_cases hx : x = side <;> simp [setEnd, hx, h.session]
  · intro x
    by_cases hx : x = side <;> simp [setEnd, hx, h.send]
  · intro x
    by_cases hx : x = side <;> simp [setEnd, hx, h.recv]
  · intro e he
    obtain ⟨x, t, c, hk, hle, hrs⟩ := h.sealed e he
    refine ⟨x, t, c, hk, ?_, by rwa [hs]⟩
    simpa only [setEnd, hco] using hle
  · exact h.nonces
  · intro x q hq
    obtain ⟨t, c, body, hle, hw⟩ := h.sent x q (hs x ▸ hq)
    exact ⟨t, c, body, by simpa only [setEnd, hco] using hle, hw⟩
  · exact fun x => hs x ▸ h.sent_nodup x
  · intro x
    rw [hr]
    by_cases hx : x = side
    · subst hx
      obtain ⟨committed, hwn, hal⟩ := h.window x
      refine ⟨committed ++ [counter], by simpa [setEnd] using hwn.commit hcheck, fun q hq => ?_⟩
      rw [if_pos rfl, mem_append, mem_singleton] at hq
      rcases hq with hq | rfl
      · obtain ⟨t, c, hp', hc⟩ := hal q hq
        exact ⟨t, c, hp', mem_append_left _ hc⟩
      · exact ⟨q.packetType, counter, hp, by simp⟩
    · simpa [setEnd, hx] using h.window x
  · intro x
    rw [hr, map_append]
    by_cases hx : x = side
    · subst hx
      simp only [if_true, map_cons, map_nil]
      refine nodup_append.mpr ⟨h.received_nodup x, nodup_singleton _, fun a ha b hb hab => ?_⟩
      rw [mem_singleton] at hb
      exact hn (hb ▸ hab ▸ ha)
    · simpa [hx] using h.received_nodup x
  · intro x q hq
    rw [hs]
    rw [hr] at hq
    rcases mem_append.mp hq with hq | hq
    · exact h.received_sent x q hq
    · by_cases hx : x = side
      · subst hx
        rw [if_pos rfl, mem_singleton] at hq
        exact hq ▸ hsent
      · simp [hx] at hq

variable [DecidableEq K] (cipher : Aead.Cipher K tagLen)

/-- What a delivery does: nothing at all, or it hands out a packet of the peer for the first time. -/
theorem Inv.deliver (h : Inv sessionId key s trace) (hk : key .line ≠ key .landing) (side : Side)
    (wire : Bytes) :
    (∃ e, step cipher s (.deliver side wire) = (s, .received (.error e))) ∨
    (∃ packetType plaintext, (step cipher s (.deliver side wire)).2 = .received (.ok (packetType, plaintext)) ∧
      ⟨wire, packetType, plaintext⟩ ∈ sentOf side.peer trace ∧
      wire ∉ (receivedOf side trace).map Packet.wire ∧
      Inv sessionId key (step cipher s (.deliver side wire)).1
        (trace ++ [(.deliver side wire, (step cipher s (.deliver side wire)).2)])) := by
  rcases UdpChannel.openPacket_cases s.log (s.ends side) wire with
    ⟨e, ho⟩ | ⟨packetType, counter, plaintext, ciphertext, tag, hp, hc, hs, hl, ho⟩
  · exact .inl ⟨e, by simp [step, ho]⟩
  · rw [h.session side] at hp
    obtain ⟨hpr, hn⟩ := h.opened hk hp hc hs hl
    refine .inr ⟨packetType, plaintext, by simp [step, ho], hpr, hn, ?_⟩
    simp only [step, ho]
    refine h.opens side (p := ⟨wire, packetType, plaintext⟩) hp hc hpr hn (fun x => ?_)
      fun x => ?_
    · rw [sentOf_append]
      simp [sentIn]
    · rw [receivedOf_append]
      simp only [receivedIn]
      by_cases hx : side = x
      · simp [hx]
      · simp [hx, Ne.symm hx]

theorem Inv.step (hk : key .line ≠ key .landing) (s : Session K) (trace : List (Event × Answer))
    (event : Event) (h : Inv sessionId key s trace) :
    Inv sessionId key (step cipher s event).1 (trace ++ [(event, (step cipher s event).2)]) := by
  cases event with
  | deliver side wire =>
    rcases h.deliver cipher hk side wire with ⟨e, hst⟩ | ⟨_, _, -, -, -, hInv⟩
    · rw [hst]
      refine h.quiet rfl (fun x => ⟨_, UInt64.le_refl _, rfl⟩) (fun x => ?_) fun x => ?_
      · rw [sentOf_append]
        simp [sentIn]
      · rw [receivedOf_append]
        simp [receivedIn]
    · exact hInv
  | send side packetType prefixBytes totalLen reserved =>
    rcases UdpChannel.sealPadded_cases cipher s.log (s.ends side) packetType
      prefixBytes totalLen reserved with ⟨channel, e, hs, hc⟩ | ⟨ciphertext, tag, -, hm, ht, hs⟩
    · simp only [Session.step, hs]
      refine h.quiet rfl (fun x => ?_) (fun x => ?_) fun x => ?_
      · by_cases hx : x = side
        · subst hx
          rcases hc with rfl | ⟨hm, rfl⟩
          · exact ⟨_, UInt64.le_refl _, by simp [setEnd]⟩
          · refine ⟨(s.ends x).sendCounter + 1, ?_, by simp [setEnd]⟩
            rw [UInt64.le_iff_toNat_le, toNat_succ_of_ne_max hm]
            omega
        · exact ⟨(s.ends x).sendCounter, UInt64.le_refl _, by simp [setEnd, hx]⟩
      · rw [sentOf_append]
        simp [sentIn]
      · rw [receivedOf_append]
        simp [receivedIn]
    · rw [h.session side, h.send side] at hs
      simp only [Session.step, hs]
      refine h.seals hk side ht hm (fun x => ?_) (fun x => ?_) ?_
      · rw [sentOf_append]
        simp only [sentIn]
        by_cases hx : side = x
        · simp [hx]
        · simp [hx, Ne.symm hx]
      · rw [receivedOf_append]
        simp [receivedIn]
      · rw [← h.session side, ← h.send side]

/-- The channel delivers each packet at most once. After any run of sends on both ends and of
deliveries of arbitrary bytes to both ends: a delivery succeeds only on a packet the other end has
sealed and this one has not opened yet, and returns what was sealed; a delivery that fails changes
nothing; no nonce has been used twice under a key; and a sender whose counter is exhausted reports
an error. -/
theorem channel_delivers_at_most_once (cipher : Aead.Cipher K tagLen) (sessionId : SessionId)
    (key : Side → K) (hkeys : key .line ≠ key .landing) (events : List Event) :
    let r := Mealy.run (Session.step cipher) (init sessionId key) events
    let trace := events.zip r.2
    (∀ side wire packetType plaintext,
      (Session.step cipher r.1 (.deliver side wire)).2 = .received (.ok (packetType, plaintext)) →
        ⟨wire, packetType, plaintext⟩ ∈ sentOf side.peer trace ∧
        wire ∉ (receivedOf side trace).map Packet.wire) ∧
    (∀ side, ((receivedOf side trace).map Packet.wire).Nodup ∧
      ((sentOf side trace).map Packet.wire).Nodup) ∧
    (∀ side wire e, (Session.step cipher r.1 (.deliver side wire)).2 = .received (.error e) →
      (Session.step cipher r.1 (.deliver side wire)).1 = r.1) ∧
    (r.1.log.map fun e => (e.key, e.nonce)).Nodup ∧
    (∀ side packetType prefixBytes totalLen reserved,
      (r.1.ends side).sendCounter.toNat = 2 ^ 64 - 1 → packetType ≠ .open →
      Session.step cipher r.1 (.send side packetType prefixBytes totalLen reserved) =
        (r.1, .sent (.error .counter))) := by
  intro r trace
  have hInv : Inv sessionId key r.1 trace := by
    have hr := Mealy.run_trace_invariant (Inv.step cipher hkeys) (Inv.start sessionId key) events
    rwa [nil_append] at hr
  refine ⟨fun side wire packetType plaintext hok => ?_,
    fun side => ⟨hInv.received_nodup side, hInv.sent_nodup side⟩, fun side wire e he => ?_, hInv.nonces,
    fun side packetType prefixBytes totalLen reserved hm ht => ?_⟩
  · rcases hInv.deliver cipher hkeys side wire with ⟨e, hs⟩ | ⟨t, p, ho, hp, hn, -⟩
    · rw [hs] at hok
      cases hok
    · rw [ho] at hok
      cases hok
      exact ⟨hp, hn⟩
  · rcases hInv.deliver cipher hkeys side wire with ⟨e', hs⟩ | ⟨t, p, ho, -⟩
    · rw [hs]
    · rw [ho] at he
      cases he
  · have hc : (r.1.ends side).sendCounter = UInt64.ofNat (2 ^ 64 - 1) :=
      UInt64.toNat_inj.mp (by rw [hm]; rfl)
    simp only [Session.step, UdpChannel.sealPadded, ht, hc, if_false, if_true]
    exact Prod.ext (setEnd_self _ _) rfl

def clearCipher : Aead.Cipher Bool tagLen where
  encrypt _ _ _ p := some (p, List.replicate tagLen 0)
  ciphertext_length h := by cases h; rfl
  tag_length h := by cases h; rfl

/-- A packet is delivered twice, and the second delivery is refused. -/
theorem channel_delivers_at_most_once_replayed :
    let wire := encodeHeader .data (Vector.replicate 8 0) 1 ++ [1] ++ List.replicate tagLen 0
    let r := Mealy.run (Session.step clearCipher) (init (Vector.replicate 8 0) fun side => decide (side = .line))
      [.send .line .data [1] 0 true, .deliver .landing wire, .deliver .landing wire]
    r.2 = [.sent (.ok wire), .received (.ok (.data, [1])), .received (.error .replay)] ∧
      (r.1.log.map fun e => (e.key, e.nonce)).Nodup := by
  intro wire r
  exact ⟨by decide +kernel, (channel_delivers_at_most_once clearCipher (Vector.replicate 8 0) (fun side => decide (side = .line))
    (by decide) [.send .line .data [1] 0 true, .deliver .landing wire, .deliver .landing wire]).2.2.2.1⟩

end Session

end RustReality.Handoff.Udp
