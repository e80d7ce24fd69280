import RustReality.Handoff.Blob

/-!
# When a blob decodes to the state it encodes

The decoder checks more than the encoder: ports, the domain of the policy's destination, and the
contents of the sealed rules. Its checks are `WellFormed`. It returns nothing else, and an encoded
state comes back exactly if it passes them.
-/

namespace RustReality.Handoff
open HandoffError List Vless Tls Cursor Result

/-! ### The decoder's checks -/

def DomainLength (address : Address) : Prop :=
  match address with
  | .domain name => 0 < name.bytes.length ∧ name.bytes.length ≤ maxDomainLen
  | _ => True

instance (address : Address) : Decidable (DomainLength address) := by
  unfold DomainLength
  split <;> infer_instance

def DestinationWellFormed (destination : Destination) : Prop :=
  DomainLength destination.address ∧ destination.port ≠ 0

instance (destination : Destination) : Decidable (DestinationWellFormed destination) := by
  unfold DestinationWellFormed
  infer_instance

def SealedDomainMatcher.WellFormed (domain : SealedDomainMatcher) : Prop := isAscii domain.wire.2.bytes = true

instance (domain : SealedDomainMatcher) : Decidable domain.WellFormed := by
  unfold SealedDomainMatcher.WellFormed
  infer_instance

def SealedIpNetwork.WellFormed : SealedIpNetwork → Prop
  | .v4 _ prefixLen => prefixLen ≤ 32
  | .v6 _ prefixLen => prefixLen ≤ 128

instance (network : SealedIpNetwork) : Decidable network.WellFormed := by
  unfold SealedIpNetwork.WellFormed
  split <;> infer_instance

def SealedPortRange.WellFormed (range : SealedPortRange) : Prop := range.start ≠ 0 ∧ range.start ≤ range.stop

instance (range : SealedPortRange) : Decidable range.WellFormed := by
  unfold SealedPortRange.WellFormed
  infer_instance

structure SealedHandoffRouteRule.WellFormed (rule : SealedHandoffRouteRule) : Prop where
  domains : ∀ domain ∈ rule.domains, domain.WellFormed
  ips : ∀ network ∈ rule.ips, network.WellFormed
  ports : ∀ range ∈ rule.ports, range.WellFormed

instance (rule : SealedHandoffRouteRule) : Decidable rule.WellFormed :=
  decidable_of_iff
    ((∀ domain ∈ rule.domains, domain.WellFormed) ∧ (∀ network ∈ rule.ips, network.WellFormed) ∧
      ∀ range ∈ rule.ports, range.WellFormed)
    ⟨fun h => ⟨h.1, h.2.1, h.2.2⟩, fun h => ⟨h.domains, h.ips, h.ports⟩⟩

def HandoffPolicySnapshot.WellFormed (policy : HandoffPolicySnapshot) : Prop :=
  DestinationWellFormed policy.initialDestination ∧ ∀ rule ∈ policy.rules, rule.WellFormed

def ContinuationState.WellFormed (state : ContinuationState) : Prop :=
  DestinationWellFormed state.destination ∧ state.policy.WellFormed

instance (state : ContinuationState) : Decidable state.WellFormed := by
  unfold ContinuationState.WellFormed HandoffPolicySnapshot.WellFormed
  infer_instance

/-! ### Reading single values -/

variable {must : Prop}

theorem reads_takeU8 (value : UInt8) : Reads must takeU8 [value] value := by
  have hr : Reads must _ _ _ := (reads_number state (show value.toNat < 256 ^ 1 from value.toNat_lt)).map UInt8.ofNat
  have hb : beBytes 1 value.toNat = [value] := by simp [beBytes]
  rwa [UInt8.ofNat_toNat, hb] at hr

theorem reads_takeU16 (value : UInt16) : Reads must takeU16 (beBytes 2 value.toNat) value := by
  have hr : Reads must _ _ _ := (reads_number state (show value.toNat < 256 ^ 2 from value.toNat_lt)).map UInt16.ofNat
  rwa [UInt16.ofNat_toNat] at hr

theorem reads_takeU64 (value : UInt64) : Reads must takeU64 (beBytes 8 value.toNat) value := by
  have hr : Reads must _ _ _ := (reads_number state (show value.toNat < 256 ^ 8 from value.toNat_lt)).map UInt64.ofNat
  rwa [UInt64.ofNat_toNat] at hr

variable {bytes : Bytes} {destination : Destination} {reserve : Nat → Bool} {state : ContinuationState}

theorem reads_takeBytes {length : Nat} (h : bytes.length = length) :
    Reads must (takeBytes length) bytes bytes := reads_take state h

theorem reads_expect {α : Type} {found : Option α} {value : α} (h : found = some value) :
    Reads must (expect found) [] value := by
  subst h
  exact Reads.pure value

theorem reads_decodeFlag (flag : Bool) : Reads must decodeFlag [flagByte flag] flag := by
  refine (reads_takeU8 _).bind_nil ?_
  cases flag
  · exact Reads.pure false
  · exact Reads.pure true

theorem countByte_eq_ok {count : Nat} (h : countByte count = .ok bytes) :
    count < 2 ^ 8 ∧ bytes = [UInt8.ofNat count] := by
  unfold countByte at h
  split at h
  · cases h
    exact ⟨‹_›, rfl⟩
  · cases h

theorem toNat_countByte {count : Nat} (h : count < 2 ^ 8) : (UInt8.ofNat count).toNat = count := by
  rw [UInt8.toNat_ofNat', Nat.mod_eq_of_lt h]

/-! ### Reading addresses and byte strings -/

theorem parseAddress_domain {name : Text} (h : DomainLength (.domain name)) :
    parseAddress addressDomain name.bytes = some (.domain name) := by
  have hl : ¬(name.bytes.length = 0 ∨ name.bytes.length > maxDomainLen) := by
    rcases h with ⟨hp, hle⟩
    omega
  rw [parseAddress, if_neg (by decide), if_pos rfl, if_neg hl, Text.ofUtf8?_bytes]
  rfl

/-- The kind, the length and the octets of an address whose domain is of an accepted length. -/
theorem encodeAddress_eq (h : DomainLength destination.address) :
    ∃ (kind : UInt8) (octets : Bytes), encodeAddress destination = [kind] ++ (beBytes 2 octets.length ++ octets) ∧
      octets.length < 2 ^ 16 ∧ parseAddress kind octets = some destination.address := by
  rcases destination with ⟨address, port⟩
  cases address with
  | ipv4 bits =>
    refine ⟨addressIpv4, ipv4Octets bits, by simp [encodeAddress], by simp, ?_⟩
    rw [parseAddress, if_pos rfl, if_pos (by simp), ipv4OfOctets_ipv4Octets]
  | ipv6 bits =>
    refine ⟨addressIpv6, ipv6Octets bits, by simp [encodeAddress], by simp, ?_⟩
    rw [parseAddress, if_neg (by decide), if_neg (by decide), if_pos rfl, if_pos (by simp), ipv6OfOctets_ipv6Octets]
  | domain name =>
    have hlt : name.bytes.length < 2 ^ 16 := by
      have hle := h.2
      unfold maxDomainLen at hle
      omega
    refine ⟨addressDomain, name.bytes, ?_, hlt, parseAddress_domain h⟩
    show addressDomain :: beBytes 2 (if name.bytes.length < 2 ^ 16 then name.bytes.length else 0) ++ name.bytes = _
    rw [if_pos hlt]
    rfl

theorem reads_decodeDestination (hd : DomainLength destination.address) (hport : must → destination.port ≠ 0) :
    Reads must decodeDestination (encodeAddress destination ++ portBytes destination.port) destination := by
  rcases encodeAddress_eq hd with ⟨kind, octets, he, hlt, hpr⟩
  have hl : (UInt16.ofNat octets.length).toNat = octets.length := by
    rw [UInt16.toNat_ofNat', Nat.mod_eq_of_lt hlt]
  have hp : Reads must _ _ _ := reads_takeU16 (UInt16.ofNat octets.length)
  rw [hl] at hp
  rw [he, append_assoc, append_assoc]
  refine (reads_takeU8 kind).bind ?_
  refine hp.bind ?_
  refine (reads_takeBytes hl.symm).bind ?_
  refine (reads_expect hpr).nil_bind ?_
  refine (reads_takeU16 destination.port).bind_nil ?_
  exact .unless hport (.pure _)

theorem reads_decodeBoundedBytes {cap : Nat} (hle : bytes.length ≤ cap)
    (hc : cap < 2 ^ 32) (hg : must → reserve bytes.length = true) :
    Reads must (decodeBoundedBytes reserve cap) (encodeBoundedBytes bytes) bytes := by
  have hlt : bytes.length < 2 ^ 32 := by omega
  rw [encodeBoundedBytes, if_pos hlt]
  refine (reads_number state (show bytes.length < 256 ^ 4 from hlt)).bind ?_
  rw [if_neg (by omega)]
  exact (reads_takeBytes rfl).bind_nil (.unless (fun hm => by simp [hg hm]) (.pure _))

theorem reads_decodeShortString {text : Text} (ha : isAscii text.bytes = true)
    (h : encodeShortBytes text.bytes = .ok bytes) : Reads must decodeShortString bytes text := by
  unfold encodeShortBytes at h
  split at h
  · cases h
  · split at h
    · cases h
      have hl := toNat_countByte ‹text.bytes.length < 2 ^ 8›
      refine (reads_takeU8 (UInt8.ofNat text.bytes.length)).bind_cons ?_
      rw [if_neg (by omega)]
      refine (reads_takeBytes hl.symm).bind_nil ?_
      rw [ha]
      exact reads_expect (Text.ofUtf8?_bytes text)
    · cases h

/-! ### Reading the sealed rules -/

theorem reads_decodeSealedDomain {domain : SealedDomainMatcher} (hw : domain.WellFormed)
    (h : encodeSealedDomain domain = .ok bytes) : Reads must decodeSealedDomain bytes domain := by
  have hk : SealedDomainMatcher.ofWire domain.wire.1 domain.wire.2 = some domain := by
    cases domain <;> rfl
  unfold encodeSealedDomain at h
  dsimp only at h
  split at h
  · cases h
  · obtain ⟨length, hl, h⟩ := bind_ok_iff.1 h
    rcases countByte_eq_ok hl with ⟨hlt, rfl⟩
    cases h
    refine (reads_takeU8 domain.wire.1).bind_cons ?_
    refine (reads_takeU8 (UInt8.ofNat domain.wire.2.bytes.length)).bind_cons ?_
    refine (reads_takeBytes (toNat_countByte hlt).symm).bind_nil ?_
    rw [show isAscii domain.wire.2.bytes = true from hw]
    refine (reads_expect (Text.ofUtf8?_bytes domain.wire.2)).nil_bind ?_
    exact reads_expect hk

theorem reads_decodeSealedIp {network : SealedIpNetwork} (hw : network.WellFormed)
    (h : encodeSealedIp network = .ok bytes) : Reads must decodeSealedIp bytes network := by
  cases network with
  | v4 network prefixLen =>
    cases h
    refine (reads_takeU8 4).bind_cons ?_
    refine (reads_takeU8 prefixLen).bind_cons ?_
    rw [if_neg (UInt8.not_lt.2 hw)]
    have hr : Reads must _ _ _ := (reads_takeBytes (length_ipv4Octets network)).map fun raw =>
      SealedIpNetwork.v4 (ipv4OfOctets raw) prefixLen
    rwa [ipv4OfOctets_ipv4Octets] at hr
  | v6 network prefixLen =>
    cases h
    refine (reads_takeU8 6).bind_cons ?_
    refine (reads_takeU8 prefixLen).bind_cons ?_
    rw [if_neg (UInt8.not_lt.2 hw)]
    have hr : Reads must _ _ _ := (reads_takeBytes (length_ipv6Octets network)).map fun raw =>
      SealedIpNetwork.v6 (ipv6OfOctets raw) prefixLen
    rwa [ipv6OfOctets_ipv6Octets] at hr

theorem reads_decodeSealedPort {range : SealedPortRange} (hw : range.WellFormed)
    (h : encodeSealedPort range = .ok bytes) : Reads must decodeSealedPort bytes range := by
  have hr : ¬(range.start = 0 ∨ range.start > range.stop) := by
    rintro (hz | hgt)
    · exact hw.1 hz
    · exact UInt16.not_lt.2 hw.2 hgt
  cases h
  refine (reads_takeU16 range.start).bind ?_
  refine (reads_takeU16 range.stop).bind_nil ?_
  rw [if_neg hr]
  exact Reads.pure _

theorem reads_decodeCounted {α : Type} {item : Cursor HandoffError α} {encode : α → Except HandoffError Bytes}
    {items : List α}
    (hi : ∀ value ∈ items, ∀ front, encode value = .ok front → Reads must item front value)
    (h : encodeCounted encode items = .ok bytes) : Reads must (decodeCounted item) bytes items := by
  obtain ⟨count, hc, h⟩ := bind_ok_iff.1 h
  obtain ⟨body, hb, h⟩ := bind_ok_iff.1 h
  rcases countByte_eq_ok hc with ⟨hlt, rfl⟩
  cases h
  refine (reads_takeU8 (UInt8.ofNat items.length)).bind ?_
  rw [toNat_countByte hlt]
  exact reads_replicate hi hb

theorem reads_decodeSealedRule {rule : SealedHandoffRouteRule} (hw : rule.WellFormed)
    (h : encodeSealedRule rule = .ok bytes) : Reads must decodeSealedRule bytes rule := by
  obtain ⟨domains, hd, h⟩ := bind_ok_iff.1 h
  obtain ⟨ips, hi, h⟩ := bind_ok_iff.1 h
  obtain ⟨ports, hp, h⟩ := bind_ok_iff.1 h
  cases h
  rw [show flagByte rule.allow :: domains ++ ips ++ ports = [flagByte rule.allow] ++ (domains ++ (ips ++ ports))
    by simp]
  refine (reads_decodeFlag rule.allow).bind ?_
  refine (reads_decodeCounted (fun domain hm front hfr =>
    reads_decodeSealedDomain (hw.domains domain hm) hfr) hd).bind ?_
  refine (reads_decodeCounted (fun network hm front hfr =>
    reads_decodeSealedIp (hw.ips network hm) hfr) hi).bind ?_
  exact (reads_decodeCounted (fun range hm front hfr =>
    reads_decodeSealedPort (hw.ports range hm) hfr) hp).map _

/-! ### Reading the policy -/

theorem reads_decodeSealedRules {rules : List SealedHandoffRouteRule} {count body : Bytes}
    (hc : countByte rules.length = .ok count) (hle : rules.length ≤ maxSealedHandoffRules)
    (hw : ∀ rule ∈ rules, rule.WellFormed) (hb : encodeAll encodeSealedRule rules = .ok body) :
    ReadsAll must decodeSealedRules (count ++ body) rules := by
  rcases countByte_eq_ok hc with ⟨hlt, rfl⟩
  have hl := toNat_countByte hlt
  have hr : Reads must _ _ _ := reads_replicate (fun rule hm front hf => reads_decodeSealedRule (hw rule hm) hf) hb
  refine (reads_takeU8 (UInt8.ofNat rules.length)).bind_all ?_
  rw [if_neg (by omega), hl]
  refine hr.bind_end ?_
  exact readsAll_finish state (ReadsAll.pure rules)

theorem restrictPolicy_self (policy : HandoffPolicySnapshot) :
    restrictPolicy (.xudpWithSealedRules policy.initialDestination policy.rules policy.defaultAllow)
      policy.allowDestinationRewrites = policy := by
  rcases policy with ⟨destination, rewrites, rules, defaultAllow, rfl⟩
  rw [restrictPolicy, if_neg]
  · rfl
  · rintro ⟨hne, _⟩
    exact hne rfl

theorem reads_decodePolicyBody {policy : HandoffPolicySnapshot} {body : Bytes}
    (hd : DomainLength policy.initialDestination.address) (hport : must → policy.initialDestination.port ≠ 0)
    (hrules : ∀ rule ∈ policy.rules, rule.WellFormed) (h : encodePolicySnapshotBody policy = .ok body) : ReadsAll must decodePolicyBody body policy := by
  obtain ⟨count, hc, h⟩ := bind_ok_iff.1 h
  split at h
  · cases h
  · obtain ⟨rules, hr, h⟩ := bind_ok_iff.1 h
    cases h
    have hs : ReadsAll must _ _ _ := reads_decodeSealedRules hc (by omega) hrules hr
    rw [show ∀ version rewrites default : UInt8, ∀ address port : Bytes,
      version :: rewrites :: default :: address ++ port ++ count ++ rules =
        [version] ++ ([rewrites] ++ ([default] ++ ((address ++ port) ++ (count ++ rules)))) by simp]
    refine (reads_takeU8 handoffPolicySnapshotVersion).bind_all ?_
    refine (reads_decodeFlag policy.allowDestinationRewrites).bind_all ?_
    refine (reads_decodeFlag policy.defaultAllow).bind_all ?_
    refine (reads_decodeDestination hd hport).bind_all ?_
    refine hs.bind ?_
    rw [restrictPolicy_self]
    exact ReadsAll.pure policy

theorem reads_decodePolicySnapshot {policy : HandoffPolicySnapshot}
    (hg : must → ∀ length, reserve length = true) (hd : DomainLength policy.initialDestination.address)
    (hport : must → policy.initialDestination.port ≠ 0) (hrules : ∀ rule ∈ policy.rules, rule.WellFormed)
    (h : encodePolicySnapshot policy = .ok bytes) : Reads must (decodePolicySnapshot reserve) bytes policy := by
  obtain ⟨body, hb, h⟩ := bind_ok_iff.1 h
  split at h
  · cases h
  · cases h
    refine (reads_decodeBoundedBytes (by omega) (by decide) fun hm => hg hm _).bind_nil ?_
    exact reads_within (reads_decodePolicyBody hd hport hrules hb)

/-! ### Reading the state -/

theorem reads_decodeTrafficSecret {suite : CipherSuite} {secret : TrafficSecret}
    (h : secret.algorithm = suite.hash) : Reads must (decodeTrafficSecret suite) secret.bytes secret := by
  refine (reads_takeBytes (h ▸ secret.length_eq)).bind_nil ?_
  rw [← h]
  exact reads_expect (TrafficSecret.fromBytes_bytes secret)

theorem ContinuationState.new_eq (state : ContinuationState) :
    ContinuationState.new state.suite state.clientTrafficSecret state.clientSequence state.serverTrafficSecret
      state.serverSequence state.keyUpdateResponsePending state.sessionKind state.userId state.inboundTag
      state.destination state.pendingCiphertext state.prefetchedPlaintext state.policy = .ok state := by
  rw [ContinuationState.new, dif_pos ⟨state.client_hash, state.server_hash⟩,
    dif_pos ⟨state.tag_le, state.pending_le, state.prefetched_le⟩, dif_pos state.tag_ascii]

/-- What a state has to be for its blob to be read as itself or not at all. -/
structure ContinuationState.Legible (state : ContinuationState) : Prop where
  destination : DomainLength state.destination.address
  initial : DomainLength state.policy.initialDestination.address
  rules : ∀ rule ∈ state.policy.rules, rule.WellFormed

theorem reads_decodeFields {tag policy : Bytes} (hl : state.Legible)
    (hm : must → state.WellFormed ∧ ∀ length, reserve length = true) (ht : encodeShortBytes state.inboundTag.bytes = .ok tag)
    (hp : encodePolicySnapshot state.policy = .ok policy) :
    ReadsAll must (decodeFields reserve)
      (beBytes 2 state.suite.wireValue.toNat ++ (state.clientTrafficSecret.bytes ++ (state.serverTrafficSecret.bytes ++
        (beBytes 8 state.clientSequence.toNat ++ (beBytes 8 state.serverSequence.toNat ++
        ([flagByte state.keyUpdateResponsePending] ++ ([state.sessionKind.wire] ++ (state.userId.toList ++ (tag ++
        ((encodeAddress state.destination ++ portBytes state.destination.port) ++
        (encodeBoundedBytes state.pendingCiphertext ++ (encodeBoundedBytes state.prefetchedPlaintext ++
        policy)))))))))))) state := by
  have hu : state.userId.toList.length = 16 := Vector.length_toList
  refine (reads_takeU16 state.suite.wireValue).bind_all ?_
  refine (reads_expect (CipherSuite.fromWire_wireValue state.suite)).nil_bind_all ?_
  refine (reads_decodeTrafficSecret state.client_hash).bind_all ?_
  refine (reads_decodeTrafficSecret state.server_hash).bind_all ?_
  refine (reads_takeU64 state.clientSequence).bind_all ?_
  refine (reads_takeU64 state.serverSequence).bind_all ?_
  refine (reads_decodeFlag state.keyUpdateResponsePending).bind_all ?_
  refine (reads_takeU8 state.sessionKind.wire).bind_all ?_
  refine (reads_expect (SessionKind.fromWire_wire state.sessionKind)).nil_bind_all ?_
  refine (reads_takeBytes hu).bind_all ?_
  refine (reads_expect (dif_pos hu)).nil_bind_all ?_
  refine (reads_decodeShortString state.tag_ascii ht).bind_all ?_
  refine (reads_decodeDestination hl.destination fun must => (hm must).1.1.2).bind_all ?_
  refine (reads_decodeBoundedBytes state.pending_le (by decide) fun must => (hm must).2 _).bind_all ?_
  refine (reads_decodeBoundedBytes state.prefetched_le (by decide) fun must => (hm must).2 _).bind_all ?_
  refine (reads_decodePolicySnapshot (fun must => (hm must).2) hl.initial (fun must => (hm must).1.2.1.2) hl.rules
    hp).bind_end ?_
  refine readsAll_finish HandoffError.state ?_
  have hn := state.new_eq
  rw [show (⟨state.userId.toList.toArray, by simp⟩ : UserId) = state.userId by
    rfl, hn]
  exact .inl rfl

/-! ### What the decoder takes -/

theorem spells_takeU8 : Spells takeU8 fun value front => front = [value] :=
  (spells_number _ _).bind fun value front h => .pure (by
    obtain ⟨rfl, -⟩ := h
    rfl)

theorem spells_takeU16 : Spells takeU16 fun value front => front = portBytes value :=
  (spells_number _ _).bind fun value front h => .pure (by
    obtain ⟨rfl, hlt⟩ := h
    rw [append_nil, portBytes, UInt16.toNat_ofNat_of_lt' hlt])

theorem spells_expect {α : Type} (option : Option α) :
    Spells (expect option) fun value front => front = [] ∧ option = some value := by
  cases option with
  | none => exact .fail _
  | some value => exact .pure ⟨rfl, rfl⟩

theorem spells_decodeFlag : Spells decodeFlag fun value front => front = [flagByte value] := by
  refine spells_takeU8.bind fun value front hfront => ?_
  subst hfront
  refine .ite (fun hzero => .pure ?_) fun _ => .ite (fun hone => .pure ?_) fun _ => .fail _
  · rw [hzero]
    rfl
  · rw [hone]
    rfl

theorem wire_ofWire {kind : UInt8} {value : Text} {domain : SealedDomainMatcher}
    (h : SealedDomainMatcher.ofWire kind value = some domain) : domain.wire = (kind, value) := by
  unfold SealedDomainMatcher.ofWire at h
  split_ifs at h with hfull hsuffix hkeyword <;> cases h
  · rw [hfull]
    rfl
  · rw [hsuffix]
    rfl
  · rw [hkeyword]
    rfl

theorem countByte_toNat (count : UInt8) : countByte count.toNat = .ok [count] := by
  rw [countByte, if_pos count.toNat_lt, UInt8.ofNat_toNat]

theorem spells_decodeSealedDomain :
    Spells decodeSealedDomain fun value front => encodeSealedDomain value = .ok front ∧ value.WellFormed := by
  refine spells_takeU8.bind fun kind _ hkind => spells_takeU8.bind fun len _ hlen => ?_
  refine (spells_take _ _).bind fun bytes _ hbytes => .ite (fun _ => .fail _) fun hascii => ?_
  refine (spells_expect _).bind fun value _ hvalue => fun input domain rest heq => ?_
  obtain ⟨front, rfl, rfl, hdomain⟩ := spells_expect _ input domain rest heq
  obtain ⟨rfl, htext⟩ := hvalue
  obtain ⟨rfl, hlength⟩ := hbytes
  subst hkind hlen
  have hvalue := Text.bytes_of_ofUtf8? htext
  have hwire := wire_ofWire hdomain
  have hle := len.toNat_lt
  refine ⟨[], rfl, ?_, ?_⟩
  · simp only [encodeSealedDomain, hwire]
    rw [hvalue, hlength, if_neg (by omega), countByte_toNat]
    simp [Bind.bind, Except.bind, Pure.pure, Except.pure]
  · rw [SealedDomainMatcher.WellFormed, hwire, hvalue]
    simpa using hascii

theorem spells_decodeSealedIp :
    Spells decodeSealedIp fun value front => encodeSealedIp value = .ok front ∧ value.WellFormed := by
  refine spells_takeU8.bind fun kind _ hkind => ?_
  subst hkind
  refine .ite (fun hfour => ?_) fun _ => .ite (fun hsix => ?_) fun _ => .fail _
  · refine spells_takeU8.bind fun prefixLen _ hlen => .ite (fun _ => .fail _) fun hbits => ?_
    refine (spells_take _ _).bind fun raw _ hraw => .pure ⟨?_, UInt8.not_lt.1 hbits⟩
    obtain ⟨rfl, hraw⟩ := hraw
    subst hlen
    rw [encodeSealedIp, ipv4Octets_ipv4OfOctets hraw, hfour]
    simp
  · refine spells_takeU8.bind fun prefixLen _ hlen => .ite (fun _ => .fail _) fun hbits => ?_
    refine (spells_take _ _).bind fun raw _ hraw => .pure ⟨?_, UInt8.not_lt.1 hbits⟩
    obtain ⟨rfl, hraw⟩ := hraw
    subst hlen
    rw [encodeSealedIp, ipv6Octets_ipv6OfOctets hraw, hsix]
    simp

theorem spells_decodeSealedPort :
    Spells decodeSealedPort fun value front => encodeSealedPort value = .ok front ∧ value.WellFormed := by
  refine spells_takeU16.bind fun start _ hstart => spells_takeU16.bind fun stop _ hstop => ?_
  subst hstart hstop
  refine .ite (fun _ => .fail _) fun hrange => .pure ⟨by rw [encodeSealedPort, append_nil], ?_⟩
  exact (not_or.1 hrange).imp_right UInt16.not_lt.1

theorem spells_decodeCounted {α : Type} {item : Cursor HandoffError α} {encode : α → Except HandoffError Bytes} {P : α → Prop}
    (h : Spells item fun value front => encode value = .ok front ∧ P value) :
    Spells (decodeCounted item) fun items front => encodeCounted encode items = .ok front ∧ ∀ value ∈ items, P value := by
  refine spells_takeU8.bind fun count _ hcount => ?_
  subst hcount
  intro input items rest heq
  obtain ⟨back, hback, hlength, hitems, hP⟩ := h.replicate count.toNat input items rest heq
  refine ⟨back, hback, ?_, hP⟩
  show (countByte items.length >>= fun count => encodeAll encode items >>= fun body => pure (count ++ body)) = _
  rw [hlength, countByte_toNat, hitems]
  rfl

theorem spells_decodeSealedRule :
    Spells decodeSealedRule fun rule front => encodeSealedRule rule = .ok front ∧ rule.WellFormed := by
  refine spells_decodeFlag.bind fun allow _ hallow => ?_
  refine (spells_decodeCounted spells_decodeSealedDomain).bind fun domains front hdomains => ?_
  refine (spells_decodeCounted spells_decodeSealedIp).bind fun ips front' hips => ?_
  refine (spells_decodeCounted spells_decodeSealedPort).bind fun ports front'' hports => .pure
    ⟨?_, hdomains.2, hips.2, hports.2⟩
  subst hallow
  rw [encodeSealedRule, hdomains.1, hips.1, hports.1]
  simp [Bind.bind, Except.bind, Pure.pure, Except.pure]

theorem encodeAddress_parseAddress {addressType : UInt8} {bytes : Bytes} {len : UInt16} {address : Address} {port : UInt16}
    (hlen : bytes.length = len.toNat) (h : parseAddress addressType bytes = some address) :
    encodeAddress ⟨address, port⟩ = addressType :: (portBytes len ++ bytes) ∧ DomainLength address := by
  unfold parseAddress at h
  split_ifs at h with hfour hlength hdomain hbounds hsix hlength
  · cases h
    refine ⟨?_, trivial⟩
    show addressIpv4 :: beBytes 2 4 ++ ipv4Octets (ipv4OfOctets bytes) = _
    rw [ipv4Octets_ipv4OfOctets hlength, hfour, portBytes, ← hlen, hlength]
    rfl
  · obtain ⟨domain, htext, rfl⟩ := Option.map_eq_some_iff.mp h
    have hlt := len.toNat_lt
    have hbytes := Text.bytes_of_ofUtf8? htext
    refine ⟨?_, show 0 < domain.bytes.length ∧ domain.bytes.length ≤ maxDomainLen by rw [hbytes]; omega⟩
    show addressDomain :: beBytes 2 (if domain.bytes.length < 2 ^ 16 then domain.bytes.length else 0) ++ domain.bytes = _
    rw [hbytes, if_pos (by omega), hdomain, portBytes, hlen, cons_append]
  · cases h
    refine ⟨?_, trivial⟩
    show addressIpv6 :: beBytes 2 16 ++ ipv6Octets (ipv6OfOctets bytes) = _
    rw [ipv6Octets_ipv6OfOctets hlength, hsix, portBytes, ← hlen, hlength]
    rfl

theorem spells_decodeDestination : Spells decodeDestination fun destination front =>
    front = encodeAddress destination ++ portBytes destination.port ∧ DestinationWellFormed destination := by
  refine spells_takeU8.bind fun addressType _ htype => spells_takeU16.bind fun len _ hlen => ?_
  refine (spells_take _ _).bind fun bytes _ hbytes => (spells_expect _).bind fun address _ haddress => ?_
  refine spells_takeU16.bind fun port _ hport => .ite (fun _ => .fail _) fun hzero => .pure ?_
  obtain ⟨rfl, hlength⟩ := hbytes
  obtain ⟨rfl, haddress⟩ := haddress
  subst htype hlen hport
  obtain ⟨hencoded, hdomain⟩ := encodeAddress_parseAddress hlength haddress
  exact ⟨by rw [hencoded]; simp, hdomain, hzero⟩

theorem finish_ok {rest after : Bytes} {error : HandoffError} {value : Unit}
    (h : finish error rest = .ok (value, after)) : rest = [] := by
  unfold finish at h
  split_ifs at h with hr
  exact length_eq_zero_iff.1 (not_not.1 hr)

theorem decodeSealedRules_ok {input after : Bytes} {rules : List SealedHandoffRouteRule}
    (h : decodeSealedRules input = .ok (rules, after)) :
    encodeCounted encodeSealedRule rules = .ok input ∧ after = [] ∧ ∀ rule ∈ rules, rule.WellFormed := by
  obtain ⟨count, rest, hcount, hrules⟩ := ok_of_bind_cursor h
  split_ifs at hrules
  · cases hrules
  · obtain ⟨rules', rest', hitems, hrules⟩ := ok_of_bind_cursor hrules
    obtain ⟨_, after', hfinish, hrules⟩ := ok_of_bind_cursor hrules
    have hend := finish_ok hfinish
    subst hend
    cases hfinish
    cases hrules
    have hread : decodeCounted decodeSealedRule input = .ok (rules, []) := by
      show (takeU8 input >>= fun state => replicate decodeSealedRule state.1.toNat state.2) = _
      rw [hcount]
      exact hitems
    obtain ⟨front, rfl, hspelled, hrules⟩ := spells_decodeCounted spells_decodeSealedRule _ _ _ hread
    exact ⟨by rw [hspelled, append_nil], rfl, hrules⟩

/-! ### What the decoder returns -/

theorem returns_decodeDestination : Returns decodeDestination DestinationWellFormed :=
  spells_decodeDestination.returns fun _ _ h => h.2

theorem xudpInitial_wellFormed (h : DestinationWellFormed destination) :
    (HandoffPolicySnapshot.xudpInitial destination).WellFormed := by
  refine ⟨h, ?_⟩
  rintro rule ⟨⟩

theorem returns_decodePolicyBody : Returns decodePolicyBody HandoffPolicySnapshot.WellFormed := by
  refine .skip fun _ => .ite (fun _ => ?_) fun _ => .ite (fun _ => ?_) fun _ => returns_fail _ _
  · exact .skip fun _ => returns_decodeDestination.bind fun _ hd =>
      .skip fun _ => .pure (xudpInitial_wellFormed hd)
  · refine .skip fun _ => .skip fun _ => returns_decodeDestination.bind fun _ hd =>
      Returns.bind (fun _ _ _ h => (decodeSealedRules_ok h).2.2) fun _ hr => .pure ?_
    unfold restrictPolicy
    split
    · exact xudpInitial_wellFormed hd
    · exact ⟨hd, hr⟩

theorem returns_decodeFields (reserve : Nat → Bool) : Returns (decodeFields reserve) ContinuationState.WellFormed := by
  refine .skip fun _ => .skip fun _ => .skip fun _ => .skip fun _ => .skip fun _ => .skip fun _ => .skip fun _ =>
    .skip fun _ => .skip fun _ => .skip fun _ => .skip fun _ => .skip fun _ =>
    returns_decodeDestination.bind fun _ hd => .skip fun _ => .skip fun _ =>
    (Returns.skip fun body => returns_decodePolicyBody.within body).bind fun _ hp => .skip fun _ => ?_
  intro input state rest h
  unfold ContinuationState.new at h
  split at h
  · rename_i hn
    split at hn
    · split at hn
      · split at hn
        · cases hn
          cases h
          exact ⟨hd, hp⟩
        · cases hn
      · cases hn
    · cases hn
  · cases h

/-! ### The round trip -/

theorem returns_decodeState (reserve : Nat → Bool) : Returns (decodeState reserve) ContinuationState.WellFormed :=
  .skip fun _ => .unless fun _ => returns_decodeFields reserve

theorem decodeBlob_wellFormed {blob : Bytes} (h : decodeBlob reserve blob = .ok state) : state.WellFormed := by
  obtain ⟨result, hd, rfl⟩ := map_ok_iff.1 h
  exact returns_decodeState reserve blob result.1 result.2 hd

variable {wire : Bytes}

theorem reads_decodeState (hl : state.Legible) (hm : must → state.WellFormed ∧ ∀ length, reserve length = true)
    (h : blobBytes state = .ok wire) : ReadsAll must (decodeState reserve) wire state := by
  obtain ⟨tag, ht, h⟩ := bind_ok_iff.1 h
  obtain ⟨policy, hp, h⟩ := bind_ok_iff.1 h
  cases h
  have hf : ReadsAll must _ _ _ := reads_decodeFields hl hm ht hp
  simp only [append_assoc] at hf ⊢
  refine (reads_takeU8 continuationStateVersion).bind_all ?_
  rw [if_neg (by decide)]
  exact hf

theorem blobBytes_of_encodeBlob (h : encodeBlob reserve state = .ok wire) :
    blobBytes state = .ok wire := by
  obtain ⟨addressLength, _, h⟩ := bind_ok_iff.1 h
  obtain ⟨policyLen, _, h⟩ := bind_ok_iff.1 h
  dsimp only at h
  split at h
  · cases h
  · split at h
    · cases h
    · exact h

/-- An accepted state comes back from the decoder exactly if it passes the checks the encoder leaves out. -/
theorem decodeBlob_encodeBlob_iff {reserve reserve' : Nat → Bool} {state : ContinuationState} {wire : Bytes}
    (hencode : encodeBlob reserve state = .ok wire) (hgrant : ∀ length, reserve' length = true) :
    decodeBlob reserve' wire = .ok state ↔ state.WellFormed := by
  constructor
  · exact decodeBlob_wellFormed
  · intro hw
    have hread : ReadsAll True (decodeState reserve') wire state :=
      reads_decodeState ⟨hw.1.1, hw.2.1.1, hw.2.2⟩ (fun _ => ⟨hw, hgrant⟩) (blobBytes_of_encodeBlob hencode)
    rw [decodeBlob, hread.resolve_right fun h => h.1 trivial]
    rfl

/-! ### Blobs of TCP sessions -/

theorem domainLength_of_boundedAddressLength {length : Nat} (h : boundedAddressLength destination = .ok length) :
    DomainLength destination.address := by
  rcases destination with ⟨address, port⟩
  cases address with
  | ipv4 bits => exact True.intro
  | ipv6 bits => exact True.intro
  | domain name =>
    simp only [boundedAddressLength] at h
    split at h
    · cases h
    · show 0 < name.bytes.length ∧ name.bytes.length ≤ maxDomainLen
      omega

theorem decodeBlob_encodeBlob_tcp {reserve' : Nat → Bool} {state' : ContinuationState}
    (hp : state.policy = .tcpPlaceholder state.destination) (he : encodeBlob reserve state = .ok wire)
    (hdecode : decodeBlob reserve' wire = .ok state') : state' = state := by
  obtain ⟨addressLength, ha, -⟩ := bind_ok_iff.1 he
  have hd := domainLength_of_boundedAddressLength ha
  have hl : state.Legible := ⟨hd, by rw [hp]; exact hd, by rw [hp]; exact fun rule hrule => absurd hrule not_mem_nil⟩
  have hread : ReadsAll False (decodeState reserve') wire state :=
    reads_decodeState hl False.elim (blobBytes_of_encodeBlob he)
  obtain ⟨result, hr, rfl⟩ := map_ok_iff.1 hdecode
  rcases hread with hok | ⟨-, error, herror⟩
  · rw [hok] at hr
    cases hr
    rfl
  · rw [herror] at hr
    cases hr

/-- A session towards `1.2.3.4`, handed over right after its handshake. -/
def freshState (port : UInt16) : ContinuationState :=
  { suite := .aes128GcmSha256
    clientTrafficSecret := ⟨.sha256, List.replicate 32 1, rfl⟩
    serverTrafficSecret := ⟨.sha256, List.replicate 32 2, rfl⟩
    clientSequence := 1
    serverSequence := 1
    keyUpdateResponsePending := false
    sessionKind := .tcp
    userId := Vector.replicate 16 7
    inboundTag := ⟨[105, 110], by decide⟩
    destination := ⟨.ipv4 0x01020304, port⟩
    pendingCiphertext := []
    prefetchedPlaintext := [3, 1, 4]
    policy := .tcpPlaceholder ⟨.ipv4 0x01020304, port⟩
    client_hash := rfl
    server_hash := rfl
    tag_le := by decide
    tag_ascii := by decide
    pending_le := by decide
    prefetched_le := by decide }

/-- The same session with ciphertext read ahead, and with a sealed rule against a network. -/
def sealedState : ContinuationState :=
  { freshState 443 with
    pendingCiphertext := [23, 3, 3]
    pending_le := by decide
    sessionKind := .xudp
    policy := .xudpWithSealedRules ⟨.ipv4 0x01020304, 443⟩ [⟨false, [], [.v4 0xc0a80000 16], []⟩] true }

theorem decodeBlob_encodeBlob_sealed :
    ∃ wire, encodeBlob (fun _ => true) sealedState = .ok wire ∧ decodeBlob (fun _ => true) wire = .ok sealedState := by
  have he : ∃ wire, encodeBlob (fun _ => true) sealedState = .ok wire :=
    ⟨(encodeBlob (fun _ => true) sealedState).toOption.getD [], by decide +kernel⟩
  rcases he with ⟨wire, he⟩
  exact ⟨wire, he, (decodeBlob_encodeBlob_iff he fun _ => rfl).2 (by decide +kernel)⟩

/-- The encoder writes a destination port of zero; the decoder refuses it. -/
theorem encodeBlob_port_zero :
    ∃ wire, encodeBlob (fun _ => true) (freshState 0) = .ok wire ∧
      decodeBlob (fun _ => true) wire = .error .state :=
  ⟨(encodeBlob (fun _ => true) (freshState 0)).toOption.getD [], by decide +kernel, by decide +kernel⟩

end RustReality.Handoff
