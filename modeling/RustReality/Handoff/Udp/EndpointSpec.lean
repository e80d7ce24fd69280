import RustReality.Handoff.Udp.Endpoint
import RustReality.Handoff.Udp.FragRoundTrip

/-!
# Packetization under the path limit

A datagram leaves as one DATA packet or as a group of two to sixteen fragments, each packet within the
limit of the path. `Emits` says what sending leaves behind: sealed packets under increasing counters.
-/

namespace RustReality.Handoff.Udp
open List

variable {K : Type}

/-! ### Sealed packets -/

/-- No nonce is used twice under a key, and those of the send key are below its counter. -/
structure Lane (log : List (Aead.Sealing K)) (channel : UdpChannel K) : Prop where
  nonces : (log.map fun e => (e.key, e.nonce)).Nodup
  counted : ∀ e ∈ log, e.key = channel.send → ∃ counter : UInt64,
    counter ≤ channel.sendCounter ∧ e.nonce = nonceFor counter

structure Parcel where
  counter : UInt64
  packetType : PacketType
  plaintext : Bytes
  wire : Bytes

def Parcel.Sealed (self : Parcel) (log : List (Aead.Sealing K)) (channel : UdpChannel K) : Prop :=
  ∃ ciphertext tag, ciphertext.length = self.plaintext.length ∧ tag.length = tagLen ∧
    self.wire = encodeHeader self.packetType channel.sessionId self.counter ++ ciphertext ++ tag ∧
    ⟨channel.send, nonceFor self.counter, encodeHeader self.packetType channel.sessionId self.counter,
      self.plaintext, ciphertext, tag⟩ ∈ log

theorem Parcel.Sealed.length_wire {self : Parcel} {log : List (Aead.Sealing K)} {channel : UdpChannel K}
    (h : self.Sealed log channel) : self.wire.length = headerLen + self.plaintext.length + tagLen := by
  obtain ⟨ciphertext, tag, hc, ht, hw, -⟩ := h
  rw [hw, length_append, length_append, length_encodeHeader, hc, ht]

theorem Parcel.Sealed.parseHeader {self : Parcel} {log : List (Aead.Sealing K)} {channel : UdpChannel K}
    (h : self.Sealed log channel) :
    parseHeader self.wire = .ok (self.packetType, channel.sessionId, self.counter) := by
  obtain ⟨ciphertext, tag, -, ht, hw, -⟩ := h
  rw [hw, append_assoc]
  refine parseHeader_encodeHeader _ _ _ _ ?_
  rw [length_append]
  omega

@[simp] theorem padded_zero (plaintext : Bytes) : padded plaintext 0 = plaintext := by
  simp [padded]

/-- What sending packets leaves behind: the packets under increasing counters, and nothing else
changed in the channel. -/
structure Emits (before after : Wired K) (sent : List Parcel) : Prop where
  channel : after.endpoint.channel =
    { before.endpoint.channel with sendCounter := after.endpoint.channel.sendCounter }
  counter_le : before.endpoint.channel.sendCounter ≤ after.endpoint.channel.sendCounter
  log_sub : ∀ e ∈ before.log, e ∈ after.log
  lane : Lane before.log before.endpoint.channel → Lane after.log after.endpoint.channel
  sealed : ∀ p ∈ sent, p.Sealed after.log after.endpoint.channel ∧
    before.endpoint.channel.sendCounter < p.counter ∧ p.counter ≤ after.endpoint.channel.sendCounter
  ordered : sent.Pairwise fun p q => p.counter < q.counter
  packets : after.packets = before.packets ++ sent.map Parcel.wire

theorem Emits.refl (self : Wired K) : Emits self self [] :=
  ⟨rfl, UInt64.le_refl _, fun _ he => he, id, by simp, .nil, by simp⟩

theorem Emits.trans {a b c : Wired K} {xs ys : List Parcel} (h : Emits a b xs) (h' : Emits b c ys) :
    Emits a c (xs ++ ys) where
  channel := by
    rw [h'.channel, h.channel]
  counter_le := UInt64.le_trans h.counter_le h'.counter_le
  log_sub := fun e he => h'.log_sub e (h.log_sub e he)
  lane := fun hln => h'.lane (h.lane hln)
  sealed := by
    intro p hp
    rcases mem_append.1 hp with hp | hp
    · obtain ⟨⟨ciphertext, tag, hc, ht, hw, hm⟩, hl, hh⟩ := h.sealed p hp
      refine ⟨⟨ciphertext, tag, hc, ht, ?_, ?_⟩, hl, UInt64.le_trans hh h'.counter_le⟩
      · rw [h'.channel]
        exact hw
      · rw [h'.channel]
        exact h'.log_sub _ hm
    · obtain ⟨hs, hl, hh⟩ := h'.sealed p hp
      exact ⟨hs, UInt64.lt_of_le_of_lt h.counter_le hl, hh⟩
  ordered := by
    refine pairwise_append.2 ⟨h.ordered, h'.ordered, fun p hp q hq => ?_⟩
    exact UInt64.lt_of_le_of_lt (h.sealed p hp).2.2 (h'.sealed q hq).2.1
  packets := by
    rw [h'.packets, h.packets, map_append, append_assoc]

/-- A step that seals nothing: it may use up a counter or change what is beside the channel. -/
theorem Emits.idle {before after : Wired K} {counter : UInt64}
    (hle : before.endpoint.channel.sendCounter ≤ counter)
    (hchan : after.endpoint.channel = { before.endpoint.channel with sendCounter := counter })
    (hlg : after.log = before.log) (hp : after.packets = before.packets) : Emits before after [] where
  channel := by
    rw [hchan]
  counter_le := by
    rw [hchan]
    exact hle
  log_sub := by
    intro e he
    rw [hlg]
    exact he
  lane := by
    intro hl
    rw [hlg, hchan]
    refine ⟨hl.nonces, fun e he hk => ?_⟩
    obtain ⟨c, hc, hn⟩ := hl.counted e he hk
    exact ⟨c, UInt64.le_trans hc hle, hn⟩
  sealed := by simp
  ordered := .nil
  packets := by simpa using hp

theorem lt_succ_counter {counter : UInt64} (hm : counter ≠ UInt64.ofNat (2 ^ 64 - 1)) : counter < counter + 1 := by
  rw [UInt64.lt_iff_toNat_lt, Session.toNat_succ_of_ne_max hm]
  omega

theorem Emits.one {before after : Wired K} {packetType : PacketType} {plaintext ciphertext tag : Bytes}
    {taken : Bool} (hcipher : ciphertext.length = plaintext.length) (ht : tag.length = tagLen)
    (hmax : before.endpoint.channel.sendCounter ≠ UInt64.ofNat (2 ^ 64 - 1))
    (hchan : after.endpoint.channel =
      { before.endpoint.channel with sendCounter := before.endpoint.channel.sendCounter + 1 })
    (hlg : after.log = ⟨before.endpoint.channel.send, nonceFor (before.endpoint.channel.sendCounter + 1),
      encodeHeader packetType before.endpoint.channel.sessionId (before.endpoint.channel.sendCounter + 1), plaintext,
      ciphertext, tag⟩ :: before.log)
    {p : Parcel} (hp : p = ⟨before.endpoint.channel.sendCounter + 1, packetType, plaintext,
      encodeHeader packetType before.endpoint.channel.sessionId (before.endpoint.channel.sendCounter + 1) ++
        ciphertext ++ tag⟩)
    (hpc : after.packets = before.packets ++ if taken then [p.wire] else []) :
    Emits before after (if taken then [p] else []) := by
  have hlt := lt_succ_counter hmax
  refine ⟨?_, ?_, ?_, ?_, ?_, ?_, ?_⟩
  · rw [hchan]
  · rw [hchan]
    exact UInt64.le_of_lt hlt
  · intro e he
    rw [hlg]
    exact .tail _ he
  · intro hl
    rw [hlg, hchan]
    refine ⟨nodup_cons.2 ⟨?_, hl.nonces⟩, ?_⟩
    · intro hm
      obtain ⟨e, he, heq⟩ := mem_map.1 hm
      obtain ⟨hk, hno⟩ := Prod.mk.inj heq
      obtain ⟨c, hc, hno'⟩ := hl.counted e he hk
      rw [hno'] at hno
      rw [Session.nonceFor_inj hno] at hc
      exact absurd hc (UInt64.not_le.2 hlt)
    · intro e he hk
      rcases mem_cons.1 he with rfl | he
      · exact ⟨_, UInt64.le_refl _, rfl⟩
      · obtain ⟨c, hc, hno⟩ := hl.counted e he hk
        exact ⟨c, UInt64.le_trans hc (UInt64.le_of_lt hlt), hno⟩
  · intro q hq
    cases taken with
    | false => simp at hq
    | true =>
      have hq : q = p := by simpa using hq
      rw [hq, hp, hlg, hchan]
      exact ⟨⟨ciphertext, tag, hcipher, ht, rfl, .head _⟩, hlt, UInt64.le_refl _⟩
  · cases taken <;> simp
  · rw [hpc]
    cases taken <;> simp

/-! ### Sending -/

section Sending

variable (cipher : Aead.Cipher K tagLen) (turns : Nat → Turn)

structure Sends (before : Wired K) (plan : List (PacketType × Bytes))
    (out : Wired K × Except AttemptError Unit) : Prop where
  emits : ∃ sent rest, Emits before out.1 sent ∧
    plan = sent.map (fun p => (p.packetType, p.plaintext)) ++ rest ∧ (out.2 = .ok () → rest = [])
  counted : out.2 = .ok () →
    out.1.endpoint.channel.sendCounter.toNat = before.endpoint.channel.sendCounter.toNat + plan.length
  pmtu : out.1.endpoint.pmtu = before.endpoint.pmtu
  /-- The channel never refuses a packet for its length. -/
  fits : (∀ n, (turns n).reserved = true) → out.2 ≠ .error (.failed (.packet .length))
  whole : (∀ n, (turns n).sent = .whole) → ∀ attempted kernelLimit, out.2 ≠ .error (.tooBig attempted kernelLimit)
  done : (∀ n, (turns n).reserved = true) → (∀ n, (turns n).sent = .whole) →
    (∀ k n a p, (cipher.encrypt k n a p).isSome = true) →
    before.endpoint.channel.sendCounter.toNat + plan.length < 2 ^ 64 → out.2 = .ok ()

theorem Sends.nil (self : Wired K) : Sends cipher turns self [] (self, .ok ()) :=
  ⟨⟨[], [], .refl self, rfl, fun _ => rfl⟩, fun _ => rfl, rfl, fun _ h => (nomatch h), fun _ _ _ h => (nomatch h),
    fun _ _ _ _ => rfl⟩

theorem Wired.sendPacket_spec (self : Wired K) {packetType : PacketType} (ht : packetType ≠ .open)
    (plaintext : Bytes) :
    Sends cipher turns self [(packetType, plaintext)] (self.sendPacket cipher turns packetType plaintext) ∧
      (self.sendPacket cipher turns packetType plaintext).1.endpoint.nextFragmentId =
        self.endpoint.nextFragmentId := by
  unfold Wired.sendPacket UdpChannel.sealPadded
  simp only [ht, if_false]
  by_cases hm : self.endpoint.channel.sendCounter = UInt64.ofNat (2 ^ 64 - 1)
  · simp only [hm, if_true]
    have hf : (UInt64.ofNat (2 ^ 64 - 1)).toNat = 2 ^ 64 - 1 := rfl
    refine ⟨⟨⟨[], _, .idle (UInt64.le_refl _) rfl rfl rfl, rfl, by rintro ⟨⟩⟩, by rintro ⟨⟩, rfl,
      by rintro _ ⟨⟩, by rintro _ _ _ ⟨⟩, ?_⟩, trivial⟩
    intro _ _ _ hrm
    rw [hm, hf, length_singleton] at hrm
    omega
  simp only [hm, if_false]
  have hle := UInt64.le_of_lt (lt_succ_counter hm)
  cases hr : (turns self.turn).reserved with
  | false =>
    refine ⟨⟨⟨[], _, .idle hle rfl rfl rfl, rfl, by rintro ⟨⟩⟩, by rintro ⟨⟩, rfl, ?_,
      by rintro _ _ _ ⟨⟩, ?_⟩, rfl⟩
    · intro ha
      rw [ha] at hr
      cases hr
    · intro ha
      rw [ha] at hr
      cases hr
  | true =>
    simp only [Aead.encrypt, padded_zero, Bool.not_true, Bool.false_eq_true, if_false]
    cases he : cipher.encrypt self.endpoint.channel.send (nonceFor (self.endpoint.channel.sendCounter + 1))
        (encodeHeader packetType self.endpoint.channel.sessionId (self.endpoint.channel.sendCounter + 1))
        plaintext with
    | none =>
      refine ⟨⟨⟨[], _, .idle hle rfl rfl rfl, rfl, by rintro ⟨⟩⟩, by rintro ⟨⟩, rfl,
        by rintro _ ⟨⟩, by rintro _ _ _ ⟨⟩, ?_⟩, rfl⟩
      intro _ _ hw
      have hsm := hw self.endpoint.channel.send (nonceFor (self.endpoint.channel.sendCounter + 1))
        (encodeHeader packetType self.endpoint.channel.sessionId (self.endpoint.channel.sendCounter + 1)) plaintext
      rw [he] at hsm
      cases hsm
    | some pair =>
      obtain ⟨ciphertext, tag⟩ := pair
      have ho := fun (taken : Bool) (after : Wired K) => @Emits.one K self after packetType plaintext ciphertext tag
        taken (cipher.ciphertext_length he) (cipher.tag_length he) hm
      dsimp only
      cases hs : (turns self.turn).sent with
      | whole =>
        refine ⟨⟨⟨_, [], ho true _ rfl rfl rfl rfl, rfl, fun _ => rfl⟩, ?_, rfl, by rintro _ ⟨⟩,
          by rintro _ _ _ ⟨⟩, fun _ _ _ _ => rfl⟩, rfl⟩
        intro _
        exact Session.toNat_succ_of_ne_max hm
      | tooBig kernelLimit =>
        refine ⟨⟨⟨_, _, ho false _ rfl rfl rfl (by simp), rfl, by rintro ⟨⟩⟩, by rintro ⟨⟩, rfl,
          by rintro _ ⟨⟩, ?_, ?_⟩, rfl⟩
        · intro ha
          rw [ha] at hs
          cases hs
        · intro _ ha
          rw [ha] at hs
          cases hs
      | failed =>
        refine ⟨⟨⟨_, _, ho false _ rfl rfl rfl (by simp), rfl, by rintro ⟨⟩⟩, by rintro ⟨⟩, rfl,
          by rintro _ ⟨⟩, by rintro _ _ _ ⟨⟩, ?_⟩, rfl⟩
        intro _ ha
        rw [ha] at hs
        cases hs

theorem Wired.sendEach_spec (self : Wired K) (fragments : List Bytes) :
    Sends cipher turns self (fragments.map fun f => (.frag, f)) (self.sendEach cipher turns fragments) ∧
      (self.sendEach cipher turns fragments).1.endpoint.nextFragmentId = self.endpoint.nextFragmentId := by
  induction fragments generalizing self with
  | nil => exact ⟨.nil cipher turns self, rfl⟩
  | cons fragment fragments ih =>
    obtain ⟨hfi, hid⟩ := @Wired.sendPacket_spec K cipher turns self .frag (by decide) fragment
    unfold Wired.sendEach
    rcases hs : self.sendPacket cipher turns .frag fragment with ⟨next, result⟩
    rw [hs] at hfi hid
    obtain ⟨sent, rest, he, hp, ha⟩ := hfi.emits
    cases result with
    | error error =>
      refine ⟨⟨⟨sent, rest ++ fragments.map fun f => (.frag, f), he, ?_, fun h => (nomatch h)⟩,
        fun h => (nomatch h), hfi.pmtu, hfi.fits, hfi.whole, ?_⟩, hid⟩
      · rw [map_cons, ← append_assoc, ← hp, singleton_append]
      · intro hrs hwh hw hr
        rw [map_cons, length_cons] at hr
        exact hfi.done hrs hwh hw (by rw [length_singleton]; omega)
    | ok _ =>
      obtain ⟨hm, hid'⟩ := ih next
      obtain ⟨sent', rest', he', hp', ha'⟩ := hm.emits
      have hc := hfi.counted rfl
      rw [ha rfl, append_nil] at hp
      refine ⟨⟨⟨sent ++ sent', rest', he.trans he', ?_, ha'⟩, ?_, hm.pmtu.trans hfi.pmtu, hm.fits,
        hm.whole, ?_⟩, hid'.trans hid⟩
      · rw [map_append, append_assoc, ← hp', ← hp]
        rfl
      · intro hok
        rw [hm.counted hok, hc]
        simp only [length_map, length_cons, length_nil]
        omega
      · intro hrs hwh hw hr
        rw [map_cons, length_cons] at hr
        rw [length_singleton] at hc
        exact hm.done hrs hwh hw (by
          show next.endpoint.channel.sendCounter.toNat + _ < _
          rw [hc]
          omega)

/-- How a plaintext is packed under a limit: as it is, or as the fragments of a datagram. -/
inductive Packs (id : UInt32) (plain : Bytes) (limit : Nat) : List (PacketType × Bytes) → Prop
  | data (hfits : headerLen + plain.length + tagLen ≤ limit) : Packs id plain limit [(.data, plain)]
  | fragments (d : Datagram) (hid : d.id = id) (hplain : d.plaintext = plain) (htwo : 2 ≤ d.fragments.length)
      (hmost : d.fragments.length ≤ maxFragments)
      (hfits : ∀ f ∈ d.fragments, headerLen + f.length + tagLen ≤ limit) :
      Packs id plain limit (d.fragments.map fun f => (.frag, f))

theorem length_le_of_mem_chunks {n : Nat} {l c : Bytes} (h : c ∈ Vec.chunks n l) : c.length ≤ n := by
  obtain ⟨i, -, rfl⟩ := mem_map.1 h
  exact length_take_le _ _

variable {plain : Bytes}

/-- A plaintext that does not fit the limit is split into two to sixteen fragments that do. -/
theorem splitFragments_fits {limit : Nat} (id : UInt32) (hle : plain.length ≤ maxDataPlaintextLen)
    (hlimit : minPlpmtu ≤ limit) (hlong : ¬ headerLen + plain.length + tagLen ≤ limit) :
    ∃ fragments, splitFragments id plain (limit - (headerLen + tagLen + fragHeaderLen)) = .ok fragments ∧
      Packs id plain limit (fragments.map fun f => (.frag, f)) := by
  have hh : headerLen = 18 := rfl
  have htg : tagLen = 16 := rfl
  have hfr : fragHeaderLen = 6 := rfl
  have hla : minPlpmtu = 512 := rfl
  have hms : maxDataPlaintextLen = 7545 := rfl
  generalize hch : limit - (headerLen + tagLen + fragHeaderLen) = chunk
  have hp : 472 ≤ chunk := by omega
  have ht : 2 ≤ (plain.length + (chunk - 1)) / chunk := by
    rw [Nat.le_div_iff_mul_le (by omega)]
    omega
  have hm : (plain.length + (chunk - 1)) / chunk ≤ maxFragments := by
    have hlt : (plain.length + (chunk - 1)) / chunk < 17 := by
      rw [Nat.div_lt_iff_lt_mul (by omega)]
      omega
    exact Nat.lt_succ_iff.1 hlt
  have hn : plain.isEmpty = false := by
    cases plain with
    | nil =>
      rw [length_nil] at hlong
      omega
    | cons b bs => rfl
  obtain ⟨fragments, hs⟩ : ∃ fragments, splitFragments id plain chunk = .ok fragments := by
    have hsz : ¬(plain.isEmpty = true ∨ plain.length > maxDataPlaintextLen ∨ chunk = 0) := by
      rintro (h | h | h)
      · rw [hn] at h
        cases h
      · omega
      · omega
    unfold splitFragments
    rw [if_neg hsz]
    dsimp only
    rw [if_neg (Nat.not_lt.2 hm)]
    exact ⟨_, rfl⟩
  let d : Datagram := ⟨id, plain, chunk, fragments, hs⟩
  have hl : d.fragments.length = (plain.length + (chunk - 1)) / chunk :=
    d.length_fragments.trans (Vec.length_chunks chunk plain)
  refine ⟨fragments, hs, Packs.fragments d rfl rfl ?_ ?_ ?_⟩
  · rw [hl]
    exact ht
  · rw [hl]
    exact hm
  · intro f hf
    obtain ⟨i, c, hc, rfl⟩ := d.mem_fragments.1 hf
    have hsh : c.length ≤ chunk := length_le_of_mem_chunks (mem_of_getElem? hc)
    rw [Datagram.fragment, length_encodeFragment]
    omega

theorem Emits.congr {before before' after : Wired K} {sent : List Parcel} (h : Emits before' after sent)
    (hl : before'.log = before.log) (hc : before'.endpoint.channel = before.endpoint.channel)
    (hp : before'.packets = before.packets) : Emits before after sent := by
  obtain ⟨h1, h2, h3, h4, h5, h6, h7⟩ := h
  rw [hc] at h1 h2 h4 h5
  rw [hl] at h3 h4
  rw [hp] at h7
  exact ⟨h1, h2, h3, h4, h5, h6, h7⟩

theorem Wired.attempt_spec (self : Wired K) (hle : plain.length ≤ maxDataPlaintextLen)
    (hl : minPlpmtu ≤ self.endpoint.pmtu.plpmtu) :
    ∃ plan, Packs self.endpoint.nextFragmentId plain self.endpoint.pmtu.plpmtu plan ∧
      Sends cipher turns self plan (self.attempt cipher turns plain) ∧
      ((self.attempt cipher turns plain).1.endpoint.nextFragmentId = self.endpoint.nextFragmentId + 1 ∨
        plan = [(.data, plain)]) := by
  unfold Wired.attempt
  dsimp only
  split_ifs with hf
  · exact ⟨_, .data hf, (self.sendPacket_spec cipher turns (by decide) plain).1, .inr rfl⟩
  · obtain ⟨fragments, hs, hpc⟩ := splitFragments_fits self.endpoint.nextFragmentId hle hl hf
    refine ⟨_, hpc, ?_⟩
    unfold Wired.sendFragments
    simp only [hs]
    obtain ⟨hse, hid⟩ := Wired.sendEach_spec cipher turns { self with endpoint :=
      { self.endpoint with nextFragmentId := self.endpoint.nextFragmentId + 1 } } fragments
    obtain ⟨sent, rest, he, hp, ha⟩ := hse.emits
    refine ⟨⟨⟨sent, rest, he.congr rfl rfl rfl, hp, ha⟩, hse.counted, hse.pmtu, hse.fits,
      hse.whole, hse.done⟩, .inl hid⟩

structure Attempts (before : Wired K) (plain : Bytes) (attempts : Nat)
    (out : Wired K × Except SendError Unit) : Prop where
  fits : (∀ n, (turns n).reserved = true) → out.2 ≠ .error (.packet .length)
  lower : minPlpmtu ≤ out.1.endpoint.pmtu.plpmtu ∧ out.1.endpoint.pmtu.plpmtu ≤ before.endpoint.pmtu.plpmtu
  emits : out.2 = .ok () → ∃ abandoned sent middle id plan, Emits before middle abandoned ∧
    Emits middle out.1 sent ∧ Packs id plain out.1.endpoint.pmtu.plpmtu plan ∧
    plan = sent.map (fun p => (p.packetType, p.plaintext)) ∧
    (out.1.endpoint.nextFragmentId = id + 1 ∨ plan = [(.data, plain)]) ∧
    out.1.endpoint.channel.sendCounter.toNat = middle.endpoint.channel.sendCounter.toNat + plan.length ∧
    (∀ p ∈ abandoned, p.wire.length ≤ before.endpoint.pmtu.plpmtu) ∧
    ((∀ n, (turns n).sent = .whole) →
      abandoned = [] ∧ out.1.endpoint.pmtu.plpmtu = before.endpoint.pmtu.plpmtu)
  done : 0 < attempts → (∀ n, (turns n).reserved = true) → (∀ n, (turns n).sent = .whole) →
    (∀ k n a p, (cipher.encrypt k n a p).isSome = true) →
    before.endpoint.channel.sendCounter.toNat + maxFragments < 2 ^ 64 → out.2 = .ok ()

theorem Packs.length_le {id : UInt32} {limit : Nat} {plan : List (PacketType × Bytes)}
    (h : Packs id plain limit plan) : plan.length ≤ maxFragments := by
  cases h with
  | data hf =>
    show 1 ≤ maxFragments
    decide
  | fragments d hid hp ht hm hf => rwa [length_map]

theorem Packs.fits {id : UInt32} {limit : Nat} {plan : List (PacketType × Bytes)}
    (h : Packs id plain limit plan) : ∀ x ∈ plan, headerLen + x.2.length + tagLen ≤ limit := by
  cases h with
  | data hf => simpa using hf
  | fragments d hid hp ht hm hf => simpa using hf

theorem Emits.wire_le {before after : Wired K} {sent : List Parcel} (h : Emits before after sent) {id : UInt32}
    {plain : Bytes} {limit : Nat} {plan rest : List (PacketType × Bytes)} (hpacks : Packs id plain limit plan)
    (hplan : plan = sent.map (fun p => (p.packetType, p.plaintext)) ++ rest) :
    ∀ p ∈ sent, p.wire.length ≤ limit := by
  intro p hp
  rw [(h.sealed p hp).1.length_wire]
  refine hpacks.fits (p.packetType, p.plaintext) ?_
  rw [hplan]
  exact mem_append_left _ (mem_map_of_mem hp)

theorem plpmtu_onSendTooBig {pmtu : PmtuProber} (hl : minPlpmtu ≤ pmtu.plpmtu) (attempted : Nat)
    (kernelLimit : Option Nat) :
    minPlpmtu ≤ (pmtu.onSendTooBig attempted kernelLimit).plpmtu ∧
      (pmtu.onSendTooBig attempted kernelLimit).plpmtu ≤ pmtu.plpmtu := by
  unfold PmtuProber.plpmtu at hl ⊢
  unfold PmtuProber.onSendTooBig
  dsimp only
  split_ifs <;> omega

theorem Wired.attempts_spec (self : Wired K) (hle : plain.length ≤ maxDataPlaintextLen)
    (hlimit : minPlpmtu ≤ self.endpoint.pmtu.plpmtu) (n : Nat) :
    Attempts cipher turns self plain n (self.attempts cipher turns plain n) := by
  induction n generalizing self with
  | zero =>
    exact ⟨fun _ h => (nomatch h), ⟨hlimit, Nat.le_refl _⟩, fun h => (nomatch h), fun h => absurd h (by decide)⟩
  | succ n ih =>
    obtain ⟨plan, hpa, hse, hid⟩ := self.attempt_spec cipher turns hle hlimit
    unfold Wired.attempts
    rcases ha : self.attempt cipher turns plain with ⟨next, result⟩
    rw [ha] at hse hid
    obtain ⟨sent, rest, he, hpl, hal⟩ := hse.emits
    have hpm := hse.pmtu
    have hd := fun hre hwh hwi
        (hr : self.endpoint.channel.sendCounter.toNat + maxFragments < 2 ^ 64) =>
      hse.done hre hwh hwi (by
        have := hpa.length_le
        omega)
    cases result with
    | ok _ =>
      rw [hal rfl, append_nil] at hpl
      refine ⟨fun _ h => (nomatch h), ?_, fun _ => ?_, fun _ _ _ _ _ => rfl⟩
      · rw [hpm]
        exact ⟨hlimit, Nat.le_refl _⟩
      · refine ⟨[], sent, self, self.endpoint.nextFragmentId, plan, .refl self, he, ?_, hpl, hid,
          hse.counted rfl, by simp, fun _ => ⟨rfl, by rw [hpm]⟩⟩
        rw [hpm]
        exact hpa
    | error error =>
      cases error with
      | failed error =>
        refine ⟨fun hre h => ?_, ?_, fun h => (nomatch h), fun _ hre hwh hwi hr => ?_⟩
        · cases h
          exact hse.fits hre rfl
        · rw [hpm]
          exact ⟨hlimit, Nat.le_refl _⟩
        · cases hd hre hwh hwi hr
      | tooBig attempted kernelLimit =>
        -- the attempt is abandoned and the rest goes on under a lower limit
        have hl : minPlpmtu ≤ (next.endpoint.pmtu.onSendTooBig attempted kernelLimit).plpmtu ∧
            (next.endpoint.pmtu.onSendTooBig attempted kernelLimit).plpmtu ≤ self.endpoint.pmtu.plpmtu := by
          rw [hpm]
          exact plpmtu_onSendTooBig hlimit attempted kernelLimit
        have hm := ih { next with endpoint :=
          { next.endpoint with pmtu := next.endpoint.pmtu.onSendTooBig attempted kernelLimit } } hl.1
        refine ⟨hm.fits, ⟨hm.lower.1, Nat.le_trans hm.lower.2 hl.2⟩, fun hok => ?_,
          fun _ hre hwh hwi hr => ?_⟩
        · obtain ⟨abandoned, sent', middle, id, plan', hf, hls, hrs⟩ := hm.emits hok
          obtain ⟨hpa', hpl', hid', hc, hs, -⟩ := hrs
          have hf : Emits next middle abandoned := hf.congr rfl rfl rfl
          refine ⟨sent ++ abandoned, sent', middle, id, plan', he.trans hf, hls, hpa', hpl', hid',
            hc, ?_, fun hwh => ?_⟩
          · intro p hp
            rcases mem_append.1 hp with hp | hp
            · exact he.wire_le hpa hpl p hp
            · exact Nat.le_trans (hs p hp) hl.2
          · exact absurd rfl (hse.whole hwh attempted kernelLimit)
        · cases hd hre hwh hwi hr

end Sending

end RustReality.Handoff.Udp
