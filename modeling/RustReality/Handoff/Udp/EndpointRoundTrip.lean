import RustReality.Handoff.Udp.EndpointSpec
import RustReality.Handoff.Udp.FragCollect

/-!
# Datagrams through the two ends of a session

The peer turns the packets of a datagram back into it in whatever order they arrive. It opens them
because its window has seen no counter the sender has not used, and it collects them because the group
being collected is the last to be evicted.
-/

namespace RustReality.Handoff.Udp
open Parcel Session List

variable {K : Type}

/-! ### Receiving -/

theorem ReplayWindow.top_le {committed : List UInt64} {bound : Nat} (h : ∀ c ∈ committed, c.toNat ≤ bound) :
    ReplayWindow.top committed ≤ bound := by
  induction committed with
  | nil => exact Nat.zero_le _
  | cons c cs ih =>
    exact Nat.max_le.2 ⟨h c (.head _), ih fun c' hc' => h c' (.tail _ hc')⟩

/-- A receiving channel that belongs to a sending one and has opened none of its packets above `base`
but those of the counters in `opened`. -/
structure Follows (sender receiver : UdpChannel K) (base : Nat) (opened : List UInt64) : Prop where
  session : receiver.sessionId = sender.sessionId
  key : receiver.recv = sender.send
  window : ∃ committed, ReplayWindow.Inv receiver.window committed ∧
    ∀ c ∈ committed, c.toNat ≤ base ∨ c ∈ opened

theorem Follows.opens [DecidableEq K] {log : List (Aead.Sealing K)} {sender receiver : UdpChannel K} {base : Nat}
    {opened : List UInt64} (h : Follows sender receiver base opened) (hlane : Lane log sender) {p : Parcel}
    (hs : p.Sealed log sender) (ht : p.packetType ≠ .open) (hnew : p.counter ∉ opened)
    (hl : base < p.counter.toNat) (hn : ∀ c ∈ opened, c.toNat ≤ base + maxFragments) :
    ∃ receiver', receiver.openPacket log p.wire = (receiver', .ok (p.packetType, p.plaintext)) ∧
      Follows sender receiver' base (opened ++ [p.counter]) := by
  obtain ⟨committed, hwn, hcm⟩ := h.window
  have hch : receiver.window.check p.counter = true := by
    rw [hwn.check_iff]
    have htp : ReplayWindow.top committed ≤ base + maxFragments := by
      refine ReplayWindow.top_le fun c hc => ?_
      rcases hcm c hc with hle | hm
      · omega
      · exact hn c hm
    refine ⟨?_, ?_, ?_⟩
    · rintro hz
      rw [hz] at hl
      exact absurd hl (Nat.not_lt_zero _)
    · intro hm
      rcases hcm _ hm with hle | hm
      · omega
      · exact hnew hm
    · have hwd : maxFragments = 16 := rfl
      omega
  have hp := hs.parseHeader
  obtain ⟨ciphertext, tag, hcp, htg, hw, hm⟩ := hs
  have hlen : p.wire.length - tagLen = headerLen + ciphertext.length := by
    rw [hw, length_append, length_append, length_encodeHeader, htg]
    omega
  have hh : p.wire.take headerLen = encodeHeader p.packetType sender.sessionId p.counter := by
    rw [hw, append_assoc]
    exact take_left' (length_encodeHeader _ _ _)
  have hf : p.wire.take (headerLen + ciphertext.length) =
      encodeHeader p.packetType sender.sessionId p.counter ++ ciphertext := by
    rw [hw]
    exact take_left' (by rw [length_append, length_encodeHeader])
  have hb : (p.wire.take (headerLen + ciphertext.length)).drop headerLen = ciphertext := by
    rw [hf]
    exact drop_left' (length_encodeHeader _ _ _)
  have he : p.wire.drop (headerLen + ciphertext.length) = tag := by
    rw [hw]
    exact drop_left' (by rw [length_append, length_encodeHeader])
  have hd := Aead.decrypt_of_mem hlane.nonces hm
  have hk := hwn.commit hch
  obtain ⟨window, hcmm⟩ : ∃ window, receiver.window.commit p.counter = (window, true) :=
    ⟨_, Prod.ext rfl (ReplayWindow.commit_accepted hch)⟩
  rw [hcmm] at hk
  refine ⟨{ receiver with window }, ?_, h.session, h.key, committed ++ [p.counter], hk, ?_⟩
  · unfold UdpChannel.openPacket
    simp only [hp, ht, h.session, h.key, hch, hlen, hh, hb, he, hd, hcmm, if_false,
      ne_eq, not_true_eq_false, Bool.not_true, Bool.false_eq_true]
  · intro c hc
    rcases mem_append.1 hc with hc | hc
    · exact (hcm c hc).imp id (mem_append_left _)
    · exact .inr (mem_append_right _ hc)

section Receiving

variable [DecidableEq K] (cipher : Aead.Cipher K tagLen) (turns : Nat → Turn)

/-- The packets of a group on their way: sealed by the sender, with the counters after `base`. -/
structure Travels (log : List (Aead.Sealing K)) (sender : UdpChannel K) (base : Nat) (sent : List Parcel) : Prop where
  lane : Lane log sender
  sealed : ∀ p ∈ sent, p.Sealed log sender
  near : ∀ p ∈ sent, base < p.counter.toNat ∧ p.counter.toNat ≤ base + maxFragments
  distinct : (sent.map counter).Nodup

theorem Wired.receive_data {receiver : Wired K} {sender : UdpChannel K} {base : Nat} {p : Parcel}
    (ht : Travels receiver.log sender base [p]) (hf : Follows sender receiver.endpoint.channel base [])
    (hdata : p.packetType = .data) {address : SocketAddress} {payload : Bytes}
    (hd : decodeData p.plaintext = .ok (address, payload)) (now : Nat) :
    ∃ receiver', receiver.receive cipher turns p.wire now = .ok (receiver', .ok (.data address payload)) := by
  obtain ⟨channel, ho, -⟩ := hf.opens ht.lane (ht.sealed p (.head _)) (by simp [hdata])
    (by simp) (ht.near p (.head _)).1 (by simp)
  rw [hdata] at ho
  unfold Wired.receive
  simp only [ho, hd]
  exact ⟨_, rfl⟩

/-- The fragments of a datagram, in any order: all but the last are kept, and that one brings it. -/
theorem Wired.receiveAll_fragments {sender : UdpChannel K} {base : Nat} {d : Datagram}
    (htwo : 2 ≤ d.chunks.length) {address : SocketAddress} {payload : Bytes}
    (hd : decodeData d.plaintext = .ok (address, payload)) (arrivals : List (Parcel × Nat)) {receiver : Wired K}
    {arrived : List Parcel} (htravels : Travels receiver.log sender base (arrived ++ arrivals.map Prod.fst))
    (ht : ∀ x ∈ arrivals, x.1.packetType = .frag)
    (hperm : ((arrived ++ arrivals.map Prod.fst).map plaintext).Perm d.fragments)
    (honce : ((arrived ++ arrivals.map Prod.fst).map plaintext).Nodup)
    (hf : Follows sender receiver.endpoint.channel base (arrived.map counter)) {started : Nat}
    (hcollects : receiver.endpoint.reassembler.Collects d (arrived.map plaintext) started)
    (hfirst : arrived = [] → ∀ x, arrivals.head? = some x → x.2 = started)
    (htime : ∀ x ∈ arrivals, x.2 - started < receiver.endpoint.reassembler.limits.timeout)
    (hs : arrivals ≠ []) :
    ∃ receiver', receiver.receiveAll cipher turns (arrivals.map fun x => (x.1.wire, x.2)) =
      .ok (receiver', List.replicate (arrivals.length - 1) (.ok .handled) ++ [.ok (.data address payload)]) := by
  induction arrivals generalizing receiver arrived with
  | nil => exact absurd rfl hs
  | cons x arrivals ih =>
    obtain ⟨p, now⟩ := x
    rw [map_cons] at htravels hperm honce
    have hp : p ∈ arrived ++ p :: arrivals.map Prod.fst := mem_append_right _ (.head _)
    have hol : p.counter ∉ arrived.map counter := by
      have hn := htravels.distinct
      rw [map_append, map_cons] at hn
      exact fun hm => (nodup_append.1 hn).2.2 _ hm _ (.head _) rfl
    obtain ⟨channel, ho, hf'⟩ := hf.opens htravels.lane (htravels.sealed p hp)
      (by rw [ht _ (.head _)]; decide) hol (htravels.near p hp).1 (by
        intro c hc
        obtain ⟨q, hq, rfl⟩ := mem_map.1 hc
        exact (htravels.near q (mem_append_left _ hq)).2)
    rw [ht _ (.head _)] at ho
    have hfr : p.plaintext ∈ d.fragments := hperm.mem_iff.1 (mem_map_of_mem hp)
    have hnw : p.plaintext ∉ arrived.map plaintext := by
      rw [map_append, map_cons] at honce
      exact fun hm => (nodup_append.1 honce).2.2 _ hm _ (.head _) rfl
    obtain ⟨reassembler, out, hi, -, hl, hw, hpr⟩ := hcollects.insert htwo hfr hnw
      (fun _ => htime (p, now) (.head _))
    have hst : (if arrived.map plaintext = [] then now else started) = started := by
      split_ifs with hnl
      · exact hfirst (map_eq_nil_iff.1 hnl) (p, now) rfl
      · rfl
    rw [hst] at hpr
    have hmv : arrived ++ p :: arrivals.map Prod.fst = (arrived ++ [p]) ++ arrivals.map Prod.fst := by simp
    cases arrivals with
    | nil =>
      have ha : ∀ y ∈ d.fragments, y ∈ arrived.map plaintext ++ [p.plaintext] := by
        intro y hy
        have hm := hperm.mem_iff.2 hy
        rwa [map_nil, map_append] at hm
      refine ⟨{ receiver with endpoint := { receiver.endpoint with channel, reassembler } }, ?_⟩
      have hr : receiver.receive cipher turns p.wire now =
          .ok ({ receiver with endpoint := { receiver.endpoint with channel, reassembler } },
            .ok (.data address payload)) := by
        unfold Wired.receive
        simp only [ho, hi, Bind.bind, Except.bind, hw ha, hd]
        rfl
      exact Mealy.runE_cons hr rfl
    | cons y arrivals =>
      have hin : ¬∀ z ∈ d.fragments, z ∈ arrived.map plaintext ++ [p.plaintext] := by
        intro ha
        have hm : y.1.plaintext ∈ d.fragments :=
          hperm.mem_iff.1 (mem_map_of_mem (mem_append_right _ (.tail _ (.head _))))
        rw [hmv, map_append, map_append] at honce
        exact (nodup_append.1 honce).2.2 _ (ha _ hm) _ (.head _) rfl
      obtain ⟨hot, hcl'⟩ := hpr hin
      have hr : receiver.receive cipher turns p.wire now =
          .ok ({ receiver with endpoint := { receiver.endpoint with channel, reassembler } }, .ok .handled) := by
        unfold Wired.receive
        simp only [ho, hi, Bind.bind, Except.bind, hot]
        rfl
      rw [hmv] at htravels hperm honce
      obtain ⟨receiver', hrn⟩ := @ih { receiver with endpoint := { receiver.endpoint with channel, reassembler } }
        (arrived ++ [p]) htravels (fun z hz => ht z (.tail _ hz)) hperm honce
        (by simpa using hf') (by simpa using hcl') (by simp)
        (fun z hz => by
          rw [hl]
          exact htime z (.tail _ hz)) (by simp)
      exact ⟨receiver', Mealy.runE_cons hr hrn⟩

end Receiving

/-! ### The session the two ends share -/

namespace Session

variable {sessionId : SessionId} {key : Side → K}

def Behind (s : Session K) : Prop :=
  ∀ side, ∃ committed, ReplayWindow.Inv (s.ends side).window committed ∧
    ∀ c ∈ committed, c ≤ (s.ends side.peer).sendCounter

theorem Behind.init (sessionId : SessionId) (key : Side → K) : (init sessionId key).Behind :=
  fun _ => ⟨[], ReplayWindow.Inv.init, by simp⟩

theorem Behind.send {s : Session K} (h : s.Behind) (side : Side) {log : List (Aead.Sealing K)}
    {channel : UdpChannel K} (hw : channel.window = (s.ends side).window)
    (hcounter : (s.ends side).sendCounter ≤ channel.sendCounter) : ({ s with log }.setEnd side channel).Behind := by
  intro x
  obtain ⟨committed, hi, hle⟩ := h x
  refine ⟨committed, ?_, fun c hc => ?_⟩
  · show ReplayWindow.Inv (if x = side then channel else s.ends x).window committed
    split_ifs with hx
    · rw [hw, ← hx]
      exact hi
    · exact hi
  · show c ≤ (if x.peer = side then channel else s.ends x.peer).sendCounter
    have hc := hle c hc
    split_ifs with hx
    · rw [hx] at hc
      exact UInt64.le_trans hc hcounter
    · exact hc

variable [DecidableEq K] (cipher : Aead.Cipher K tagLen)

theorem Behind.step (hk : key .line ≠ key .landing) {s : Session K} {trace : List (Event × Answer)}
    (hi : Inv sessionId key s trace) (h : s.Behind) (event : Event) : (Session.step cipher s event).1.Behind := by
  cases event with
  | send side packetType prefixBytes totalLen reserved =>
    rcases UdpChannel.sealPadded_cases cipher s.log (s.ends side) packetType prefixBytes totalLen reserved with
      ⟨channel, e, hs, hca⟩ | ⟨ciphertext, tag, -, hm, -, hs⟩
    · simp only [Session.step, hs]
      rcases hca with rfl | ⟨hm, rfl⟩
      · exact h.send side rfl (UInt64.le_refl _)
      · exact h.send side rfl (UInt64.le_of_lt (lt_succ_counter hm))
    · simp only [Session.step, hs]
      exact h.send side rfl (UInt64.le_of_lt (lt_succ_counter hm))
  | deliver side wire =>
    rcases UdpChannel.openPacket_cases s.log (s.ends side) wire with
      ⟨e, ho⟩ | ⟨packetType, counter, plaintext, ciphertext, tag, hpa, hch, hsp, hl, ho⟩
    · simp only [Session.step, ho, setEnd_self]
      exact h
    · rw [hi.session side] at hpa
      have hp := (hi.opened hk hpa hch hsp hl).1
      have hu : counter ≤ (s.ends side.peer).sendCounter := by
        obtain ⟨t, c, body, hle, hw⟩ := hi.sent side.peer _ hp
        dsimp only at hw
        have hln := length_of_parseHeader hpa
        rw [hw, length_append, length_encodeHeader] at hln
        rw [hw, parseHeader_encodeHeader t sessionId c body (by omega)] at hpa
        cases hpa
        exact hle
      simp only [Session.step, ho]
      intro x
      by_cases hx : x = side
      · subst hx
        obtain ⟨committed, hwn, hle⟩ := h x
        refine ⟨committed ++ [counter], ?_, fun c hc => ?_⟩
        · simpa [setEnd] using hwn.commit hch
        · have hne : x.peer ≠ x := by cases x <;> decide
          have hc' : c ≤ (s.ends x.peer).sendCounter := by
            rcases mem_append.1 hc with hc | hc
            · exact hle c hc
            · rw [mem_singleton.1 hc]
              exact hu
          simpa [setEnd, hne] using hc'
      · obtain ⟨committed, hwn, hle⟩ := h x
        refine ⟨committed, by simpa [setEnd, hx] using hwn, fun c hc => ?_⟩
        have hc' := hle c hc
        show c ≤ (if x.peer = side then _ else s.ends x.peer).sendCounter
        split_ifs with hp'
        · rw [hp'] at hc'
          exact hc'
        · exact hc'

/-- The two directions of a session after any run: the sender's nonces are in order, and the receiver
belongs to it and is behind. -/
theorem lane_and_follows (hkeys : key .line ≠ key .landing) (events : List Event) (side : Side) :
    let s := (Mealy.run (step cipher) (init sessionId key) events).1
    Lane s.log (s.ends side) ∧ Follows (s.ends side) (s.ends side.peer) (s.ends side).sendCounter.toNat [] ∧
      (s.ends side).sessionId = sessionId := by
  intro s
  have hr := @Mealy.run_trace_invariant (Session K) Event Answer (step cipher)
    (fun s trace => Inv sessionId key s trace ∧ s.Behind)
    (fun s trace event h => ⟨Inv.step cipher hkeys s trace event h.1, Behind.step cipher hkeys h.1 h.2 event⟩)
    (init sessionId key) [] ⟨Inv.start sessionId key, Behind.init sessionId key⟩ events
  obtain ⟨hi, hb⟩ := hr
  have hb : s.Behind := hb
  refine ⟨⟨hi.nonces, fun e he hke => ?_⟩, ⟨?_, ?_, ?_⟩, hi.session side⟩
  · obtain ⟨x, t, c, hk, hle, hn, -⟩ := hi.sealed e he
    have hs : x = side := by
      rw [hke, hi.send side] at hk
      cases x <;> cases side <;> first | rfl | exact absurd hk hkeys | exact absurd hk.symm hkeys
    rw [hs] at hle
    exact ⟨c, hle, hn⟩
  · rw [hi.session, hi.session]
  · rw [hi.recv, hi.send, Side.peer_peer]
  · obtain ⟨committed, hw, hle⟩ := hb side.peer
    rw [Side.peer_peer] at hle
    exact ⟨committed, hw, fun c hc => .inl (UInt64.le_iff_toNat_le.1 (hle c hc))⟩

end Session

/-! ### Datagrams -/

structure Packetized (sessionId : SessionId) (limit : Nat) (packets : List Bytes) : Prop where
  fits : ∀ wire ∈ packets, wire.length ≤ limit
  shape : (∃ wire counter, packets = [wire] ∧ parseHeader wire = .ok (.data, sessionId, counter)) ∨
    (2 ≤ packets.length ∧ packets.length ≤ maxFragments ∧
      ∀ wire ∈ packets, ∃ counter, parseHeader wire = .ok (.frag, sessionId, counter))

theorem Packs.packetized {id : UInt32} {plain : Bytes} {limit : Nat} {plan : List (PacketType × Bytes)}
    (h : Packs id plain limit plan) {before after : Wired K} {sent : List Parcel} (he : Emits before after sent)
    (hplan : plan = sent.map fun p => (p.packetType, p.plaintext)) :
    Packetized before.endpoint.channel.sessionId limit (sent.map wire) := by
  have hs : after.endpoint.channel.sessionId = before.endpoint.channel.sessionId := by
    rw [he.channel]
  refine ⟨?_, ?_⟩
  · intro wire hw
    obtain ⟨p, hp, rfl⟩ := mem_map.1 hw
    exact @Emits.wire_le K before after sent he id plain limit plan [] h (by rw [append_nil, hplan]) p hp
  · cases h with
    | data hf =>
      obtain ⟨p, rest, rfl, hp, hr⟩ := map_eq_cons_iff.1 hplan.symm
      have hpa := (he.sealed p (.head _)).1.parseHeader
      rw [hs, (Prod.mk.inj hp).1] at hpa
      rw [map_eq_nil_iff.1 hr]
      exact .inl ⟨p.wire, p.counter, rfl, hpa⟩
    | fragments d hid hpla htw hm hf =>
      have hl : sent.length = d.fragments.length := by
        have := congrArg List.length hplan
        simpa using this.symm
      refine .inr ⟨?_, ?_, ?_⟩
      · rw [length_map, hl]
        exact htw
      · rw [length_map, hl]
        exact hm
      · intro wire hw
        obtain ⟨p, hp, rfl⟩ := mem_map.1 hw
        have ht : (p.packetType, p.plaintext) ∈ d.fragments.map fun f => (PacketType.frag, f) := by
          rw [hplan]
          exact mem_map_of_mem hp
        obtain ⟨f, -, heq⟩ := mem_map.1 ht
        have hpa := (he.sealed p hp).1.parseHeader
        rw [hs, ← (Prod.mk.inj heq).1] at hpa
        exact ⟨p.counter, hpa⟩

theorem exists_timed {sent : List Parcel} {arrivals : List (Bytes × Nat)}
    (h : (arrivals.map Prod.fst).Perm (sent.map wire)) :
    ∃ timed : List (Parcel × Nat), arrivals = timed.map (fun x => (x.1.wire, x.2)) ∧
      (timed.map Prod.fst).Perm sent := by
  obtain ⟨parcels, hp, hw⟩ := Vec.exists_perm_map h rfl
  have hl : parcels.length = (arrivals.map Prod.snd).length := by
    have hl := congrArg List.length hw
    simpa using hl
  refine ⟨parcels.zip (arrivals.map Prod.snd), ?_, ?_⟩
  · have hpa : (parcels.zip (arrivals.map Prod.snd)).map (fun x => (x.1.wire, x.2)) =
        (parcels.map wire).zip (arrivals.map Prod.snd) := by
      rw [zip_map_left]
      rfl
    rw [hpa, hw, zip_map', map_id']
  · rw [map_fst_zip (Nat.le_of_eq hl)]
    exact hp

/-- The packets of a datagram that was packed bring it back, in whatever order they arrive. -/
theorem Packs.recovered [DecidableEq K] (cipher : Aead.Cipher K tagLen) (turns : Nat → Turn) {id : UInt32}
    {plain : Bytes} {limit : Nat} {plan : List (PacketType × Bytes)} (h : Packs id plain limit plan)
    {receiver : Wired K} {sender : UdpChannel K} {base : Nat} {arrivals : List (Parcel × Nat)}
    (hplan : plan.Perm ((arrivals.map Prod.fst).map fun p => (p.packetType, p.plaintext)))
    (ht : Travels receiver.log sender base (arrivals.map Prod.fst))
    (hf : Follows sender receiver.endpoint.channel base []) {address : SocketAddress} {payload : Bytes}
    (hd : decodeData plain = .ok (address, payload)) (hi : receiver.endpoint.reassembler.Inv)
    (hl : receiver.endpoint.reassembler.limits = .default)
    (hn : plan = [(.data, plain)] ∨ ∀ g ∈ receiver.endpoint.reassembler.groups, g.id ≠ id) (start : Nat)
    (hstart : ∀ x, arrivals.head? = some x → x.2 = start)
    (htime : ∀ x ∈ arrivals, x.2 - start < ReassemblyLimits.default.timeout) :
    ∃ receiver', receiver.receiveAll cipher turns (arrivals.map fun x => (x.1.wire, x.2)) =
      .ok (receiver', List.replicate (arrivals.length - 1) (.ok .handled) ++ [.ok (.data address payload)]) := by
  cases h with
  | data hft =>
    obtain ⟨p, rest, hc, hp, hr⟩ := map_eq_cons_iff.1 (singleton_perm.1 hplan).symm
    obtain ⟨x, xs, rfl, rfl, hxs⟩ := map_eq_cons_iff.1 hc
    rw [map_eq_nil_iff.1 hr] at hxs
    rw [map_eq_nil_iff.1 hxs] at ht ⊢
    obtain ⟨hty, hpn⟩ := Prod.mk.inj hp
    obtain ⟨receiver', hrc⟩ := Wired.receive_data cipher turns ht hf hty
      (by rw [hpn]; exact hd) x.2
    exact ⟨receiver', Mealy.runE_cons hrc rfl⟩
  | fragments d hid hpn htw hms hft =>
    have hn : ∀ g ∈ receiver.endpoint.reassembler.groups, g.id ≠ d.id := by
      rw [hid]
      refine hn.resolve_left fun hdt => ?_
      have hln := congrArg List.length hdt
      rw [length_map, length_singleton] at hln
      omega
    have hpa : ((arrivals.map Prod.fst).map plaintext).Perm d.fragments := by
      have hpr := (hplan.map Prod.snd).symm
      simpa [Function.comp_def] using hpr
    have hnd : d.fragments.Nodup := by
      have h := @nodup_fragments [d] (by simp)
      simpa using h
    have hs : arrivals ≠ [] := by
      rintro rfl
      have hln := hpa.length_eq
      simp only [map_nil, length_nil] at hln
      omega
    refine @Wired.receiveAll_fragments K _ cipher turns sender base d (by rw [← d.length_fragments]; exact htw)
      address payload (by rw [hpn]; exact hd) arrivals receiver [] (by simpa using ht) ?_
      (by simpa using hpa) (by simpa using hpa.nodup_iff.2 hnd) hf start ?_
      (fun _ => hstart) (by rw [hl]; exact htime) hs
    · intro x hx
      have hm : (x.1.packetType, x.1.plaintext) ∈ d.fragments.map fun f => (PacketType.frag, f) :=
        hplan.mem_iff.2 (mem_map_of_mem (mem_map_of_mem hx))
      obtain ⟨f, -, heq⟩ := mem_map.1 hm
      exact (Prod.mk.inj heq).1.symm
    · refine ⟨hi, ?_, ?_, fun _ => hn, fun h => absurd rfl h⟩
      · rw [hl]
        decide
      · rw [hl]
        decide

/-- A datagram the format accepts leaves as one DATA packet or as two to sixteen fragments, each within
the packet limit; no packet is refused for its length, and where the surroundings cooperate the datagram
goes out at the limit it started with. In whatever state a session has left the two ends, and in whatever
order the packets arrive, the peer answers the last one with the address, less the flow information and
scope the format does not carry, and the payload, and the others with nothing. -/
theorem datagram_fits_and_recovers [DecidableEq K] (cipher : Aead.Cipher K tagLen) (sessionId : SessionId)
    (key : Side → K) (hkeys : key .line ≠ key .landing) (events : List Event) (side : Side) {s : Session K}
    (hs : s = (Mealy.run (step cipher) (init sessionId key) events).1) (turns : Nat → Turn)
    (hreserved : ∀ n, (turns n).reserved = true) (sender : Wired K) (hlog : sender.log = s.log)
    (hchannel : sender.endpoint.channel = s.ends side) (hlimit : minPlpmtu ≤ sender.endpoint.pmtu.plpmtu)
    {address : SocketAddress} {payload plain : Bytes} (hplain : encodeDataPlaintext address payload = .ok plain) :
    let out := sender.sendDatagram cipher turns address payload
    out.2 ≠ .error (.packet .length) ∧
    ((∀ n, (turns n).sent = .whole) → (∀ k n a p, (cipher.encrypt k n a p).isSome = true) →
      (s.ends side).sendCounter.toNat + maxFragments < 2 ^ 64 → out.2 = .ok ()) ∧
    (out.2 = .ok () → ∃ abandoned packets, out.1.packets = sender.packets ++ abandoned ++ packets ∧
      Packetized sessionId out.1.endpoint.pmtu.plpmtu packets ∧
      out.1.endpoint.pmtu.plpmtu ≤ sender.endpoint.pmtu.plpmtu ∧
      (∀ wire ∈ abandoned, wire.length ≤ sender.endpoint.pmtu.plpmtu) ∧
      ((∀ n, (turns n).sent = .whole) →
        abandoned = [] ∧ out.1.endpoint.pmtu.plpmtu = sender.endpoint.pmtu.plpmtu) ∧
      ∀ (receiver : Wired K) (calls : List Reassembler.Call) outs, receiver.log = out.1.log →
        receiver.endpoint.channel = s.ends side.peer →
        Mealy.runE Reassembler.call (.new .default) calls = .ok (receiver.endpoint.reassembler, outs) →
        (2 ≤ packets.length → ∀ g ∈ receiver.endpoint.reassembler.groups, g.id + 1 ≠ out.1.endpoint.nextFragmentId) →
        ∀ arrivals start, (arrivals.map Prod.fst).Perm packets → (arrivals.map Prod.snd).head? = some start →
          (∀ x ∈ arrivals, x.2 - start < ReassemblyLimits.default.timeout) →
          ∃ receiver', receiver.receiveAll cipher turns arrivals = .ok (receiver',
            List.replicate (packets.length - 1) (.ok .handled) ++
              [.ok (.data (.new address.ip address.port) payload)])) := by
  intro out
  obtain ⟨hd, -, hle⟩ := decodeData_encoded hplain
  have ho : out = sender.attempts cipher turns plain maxSendAttempts := by
    show sender.sendDatagram cipher turns address payload = _
    simp only [Wired.sendDatagram, hplain]
  have hsp := sender.attempts_spec cipher turns hle hlimit maxSendAttempts
  rw [← ho] at hsp
  obtain ⟨hln, hf, hss⟩ := @lane_and_follows K sessionId key _ cipher hkeys events side
  rw [← hs] at hln hf hss
  refine ⟨hsp.fits hreserved, ?_, ?_⟩
  · intro hw hwl hr
    rw [← hchannel] at hr
    exact hsp.done (by decide) hreserved hw hwl hr
  · intro hok
    obtain ⟨abandoned, sent, middle, id, plan, hfi, hl, hpc, hpl, hid, hcn, hsa, hw⟩ :=
      hsp.emits hok
    have hm : middle.endpoint.channel.sessionId = sessionId := by
      rw [hfi.channel, hchannel]
      exact hss
    have hpac := hpc.packetized hl hpl
    rw [hm] at hpac
    refine ⟨abandoned.map wire, sent.map wire, ?_, hpac, hsp.lower.2, ?_, ?_, ?_⟩
    · rw [hl.packets, hfi.packets]
    · intro wire hwr
      obtain ⟨p, hp, rfl⟩ := mem_map.1 hwr
      exact hsa p hp
    · intro ha
      obtain ⟨hnl, hsm⟩ := hw ha
      exact ⟨by rw [hnl]; rfl, hsm⟩
    · intro receiver calls outs hrl hrc hcl hnw arrivals start hpr hhd htm
      -- the reassembler was reached by calls, so it is within its limits
      obtain ⟨r, outs', hrn, ⟨hi, hlm⟩, -⟩ := Mealy.runE_invariant
        (@Reassembler.call_spec .default (by decide)) ⟨Reassembler.Inv.init .default, rfl⟩ calls
      rw [hcl] at hrn
      cases hrn
      obtain ⟨timed, rfl, hpa⟩ := exists_timed hpr
      have hln' : Lane out.1.log out.1.endpoint.channel := by
        refine hl.lane (hfi.lane ?_)
        rw [hlog, hchannel]
        exact hln
      have hsn : out.1.endpoint.channel =
          { s.ends side with sendCounter := out.1.endpoint.channel.sendCounter } := by
        rw [← hchannel]
        exact (hfi.trans hl).channel
      have hb : (s.ends side).sendCounter.toNat ≤ middle.endpoint.channel.sendCounter.toNat := by
        rw [← hchannel]
        exact UInt64.le_iff_toNat_le.1 hfi.counter_le
      have ht : Travels receiver.log out.1.endpoint.channel middle.endpoint.channel.sendCounter.toNat
          (timed.map Prod.fst) := by
        rw [hrl]
        refine ⟨hln', fun p hp => (hl.sealed p (hpa.mem_iff.1 hp)).1, fun p hp => ?_, ?_⟩
        · obtain ⟨-, hlw, hh⟩ := hl.sealed p (hpa.mem_iff.1 hp)
          have hms := hpc.length_le
          rw [UInt64.lt_iff_toNat_lt] at hlw
          rw [UInt64.le_iff_toNat_le] at hh
          omega
        · refine (hpa.map counter).nodup_iff.2 ?_
          rw [List.Nodup, pairwise_map]
          exact hl.ordered.imp fun hlt => UInt64.ne_of_lt hlt
      have hf' : Follows out.1.endpoint.channel receiver.endpoint.channel
          middle.endpoint.channel.sendCounter.toNat [] := by
        obtain ⟨hsm, hk, committed, hwn, hcm⟩ := hf
        rw [hsn, hrc]
        refine ⟨hsm, hk, committed, hwn, fun c hc => .inl ?_⟩
        have hol := (hcm c hc).resolve_right (by simp)
        omega
      have hco : (sent.map wire).length = timed.length := by
        rw [length_map, ← hpa.length_eq, length_map]
      rw [hco]
      refine hpc.recovered cipher turns ?_ ht hf' hd hi hlm ?_ start ?_ ?_
      · rw [hpl]
        exact (hpa.map _).symm
      · cases hpc with
        | data hfits => exact .inl rfl
        | fragments d hdid hdp htwo hmost hfits =>
          have hnext := hid.resolve_right fun hdata => by
            have hone := congrArg length hdata
            rw [length_map, length_singleton] at hone
            omega
          have hcount := congrArg length hpl
          rw [length_map, length_map] at hcount
          exact .inr fun g hg heq => hnw (by rw [length_map]; omega) g hg (by rw [heq, hnext])
      · intro x hx
        simpa [hx] using hhd
      · intro x hx
        exact htm (x.1.wire, x.2) (mem_map_of_mem hx)

/-- One end of a fresh session, for a log of what was sealed. -/
def freshEnd (side : Side) (log : List (Aead.Sealing Bool)) : Wired Bool :=
  let s : Session Bool := init (Vector.replicate 8 0) fun side => decide (side = .line)
  ⟨log, .new (s.ends side) (.discover 1472 .default 0), 0, []⟩

def wholeTurn : Turn := ⟨true, .whole⟩

/-- A datagram of a fresh session goes out in two fragments, and comes back from them in the other order. -/
theorem datagram_fits_and_recovers_fragmented :
    let out := (freshEnd .line []).sendDatagram clearCipher (fun _ => wholeTurn) (.v4 0x08080808 53) (List.replicate 1200 7)
    out.2 = .ok () ∧ out.1.packets.map length = [1200, 87] ∧
    ∃ receiver', (freshEnd .landing out.1.log).receiveAll clearCipher (fun _ => wholeTurn)
        (out.1.packets.reverse.map fun wire => (wire, 0)) =
      .ok (receiver', [.ok .handled, .ok (.data (.new (.v4 0x08080808) 53) (List.replicate 1200 7))]) := by
  have hlengths : ((freshEnd .line []).sendDatagram clearCipher (fun _ => wholeTurn) (.v4 0x08080808 53)
      (List.replicate 1200 7)).1.packets.map length = [1200, 87] := by decide +kernel
  have hplain : encodeDataPlaintext (.v4 0x08080808 53) (List.replicate 1200 7) = _ :=
    (if_neg (by rw [length_replicate]; decide)).trans (if_neg (by decide))
  have hsent := datagram_fits_and_recovers clearCipher (Vector.replicate 8 0) (fun side => decide (side = .line)) (by decide)
    [] .line rfl (fun _ => wholeTurn) (fun _ => rfl) (freshEnd .line []) rfl rfl (by decide) hplain
  generalize (freshEnd .line []).sendDatagram clearCipher (fun _ => wholeTurn) (.v4 0x08080808 53)
    (List.replicate 1200 7) = out at hlengths hsent ⊢
  have hdone : out.2 = .ok () := hsent.2.1 (fun _ => rfl) (fun _ _ _ _ => rfl) (by decide)
  obtain ⟨abandoned, packets, hpackets, -, -, -, hwhole, hrecovered⟩ := hsent.2.2 hdone
  obtain ⟨rfl, -⟩ := hwhole fun _ => rfl
  have hpackets : out.1.packets = packets := hpackets
  have hcount : packets.length = 2 := by
    rw [← hpackets, ← length_map length, hlengths]
    rfl
  have hstart : ((packets.reverse.map fun wire => (wire, 0)).map Prod.snd).head? = some 0 := by
    rw [map_map]
    show (packets.reverse.map (fun _ => 0)).head? = some 0
    rw [map_const', length_reverse, hcount]
    rfl
  obtain ⟨receiver', hreceived⟩ := hrecovered (freshEnd .landing out.1.log) [] [] rfl rfl rfl
    (fun _ _ hg => (not_mem_nil hg).elim) (packets.reverse.map fun wire => (wire, 0)) 0
    (by rw [map_map]; exact (map_id _).symm ▸ reverse_perm packets)
    hstart fun x hx => by
      obtain ⟨wire, -, rfl⟩ := mem_map.1 hx
      show 0 < ReassemblyLimits.default.timeout
      decide
  rw [hcount] at hreceived
  exact ⟨hdone, hlengths, receiver', by rw [hpackets]; exact hreceived⟩

/-- A link-local address loses its scope on the way, and an endpoint that gets no memory for a packet
reports a length error. -/
theorem scope_lost_and_length_error :
    let address : SocketAddress := .v6 0xfe800000000000000000000000000001 53 0 3
    (∃ plain received, encodeDataPlaintext address [1] = .ok plain ∧ headerLen + plain.length + tagLen ≤ minPlpmtu ∧
      decodeData plain = .ok (received, [1]) ∧ received ≠ address) ∧
    (Wired.sendDatagram clearCipher (fun _ => ⟨false, .whole⟩)
      ⟨[], .new (.new (Vector.replicate 8 0) true false) (.discover 1472 .default 0), 0, []⟩ address [1]).2 =
      .error (.packet .length) :=
  ⟨⟨_, .v6 0xfe800000000000000000000000000001 53 0 0, rfl, by decide, by decide, by decide⟩, by decide⟩

end RustReality.Handoff.Udp
