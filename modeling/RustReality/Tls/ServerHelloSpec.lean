import RustReality.Tls.ServerHello

/-!
# What a ServerHello template stands for

`Accepted` says which messages the parser accepts, field by field, and `Extends` what it makes of the
extensions. Both are equivalences with the parser, so a message with another random, session id and key
share of the same lengths is accepted for every client that made the offer, with the same key share range.
-/

namespace RustReality.Tls
open CipherSuite List SpanReader ServerHello

variable {span span' : Span}

namespace ServerHello

/-! ### Extensions -/

variable {client client' : ClientHello} {offset : Nat} {state state' next : Negotiation}

inductive Extends (client : ClientHello) : Nat → Negotiation → Bytes → Negotiation → Prop
  | nil (offset : Nat) (state : Negotiation) : Extends client offset state [] state
  | cons {offset kind : Nat} {state next state' : Negotiation} {body rest : Bytes}
      (hroom : state.seen.length < maxExtensions) (hkind : kind < 256 ^ 2) (hnew : kind ∉ state.seen)
      (hlen : body.length < 256 ^ 2)
      (hbody : whole .malformed (extensionBody client { state with seen := state.seen ++ [kind] } kind)
        ⟨offset + 4, body⟩ = .ok next)
      (hrest : Extends client (offset + 4 + body.length) next rest state') :
      Extends client offset state (beBytes 2 kind ++ (beBytes 2 body.length ++ (body ++ rest))) state'

theorem parseExtension_ok_iff :
    parseExtension client state span = .ok (next, span') ↔
      ∃ kind body, state.seen.length < maxExtensions ∧ kind < 256 ^ 2 ∧ kind ∉ state.seen ∧ body.length < 256 ^ 2 ∧
        span.rest = beBytes 2 kind ++ (beBytes 2 body.length ++ (body ++ span'.rest)) ∧
        span'.offset = span.offset + 4 + body.length ∧
        whole .malformed (extensionBody client { state with seen := state.seen ++ [kind] } kind)
          ⟨span.offset + 4, body⟩ = .ok next := by
  obtain ⟨offset, rest⟩ := span
  unfold parseExtension
  simp only [ite_fail_ok_iff, number_bind, sub_bind, lift_ok_iff]
  constructor
  · rintro ⟨hroom, kind, _, hkind, hrest, hnew, _, _, hlen, rfl, body, _, rfl, rfl, hbody, rfl⟩
    exact ⟨kind, body, Nat.not_le.1 hroom, hkind, by simpa using hnew, hlen, hrest, rfl, hbody⟩
  · rintro ⟨kind, body, hroom, hkind, hnew, hlen, hrest, hoffset, hbody⟩
    obtain ⟨offset', rest'⟩ := span'
    cases hoffset
    exact ⟨Nat.not_le.2 hroom, kind, _, hkind, hrest, by simpa using hnew, _, _, hlen, rfl, body, _, rfl, rfl, hbody, rfl⟩

theorem extends_of_untilEmpty {fuel : Nat} (hf : span.rest.length ≤ fuel)
    (h : untilEmpty (parseExtension client) fuel state span = .ok (state', span')) :
    Extends client span.offset state span.rest state' := by
  induction fuel generalizing state span with
  | zero =>
    have hn : span.rest = [] := length_eq_zero_iff.1 (by omega)
    obtain ⟨rfl, -⟩ := pure_ok_iff.1 h
    rw [hn]
    exact .nil _ _
  | succ fuel ih =>
    unfold untilEmpty at h
    split_ifs at h with hn
    · cases h
      rw [hn]
      exact .nil _ _
    · obtain ⟨next, middle, htr, h⟩ := bind_ok_iff.1 h
      obtain ⟨kind, body, hrm, hk, hnw, hl, hr, ho, hb⟩ := parseExtension_ok_iff.1 htr
      have hs : middle.rest.length ≤ fuel := by
        rw [hr] at hf
        simp only [length_append, length_beBytes] at hf
        omega
      have ht := ih hs h
      rw [ho] at ht
      rw [hr]
      exact .cons hrm hk hnw hl hb ht

variable {bytes : Bytes}

theorem Extends.untilEmpty (h : Extends client offset state bytes state') {fuel : Nat} (hf : bytes.length ≤ fuel) :
    ∃ span', untilEmpty (parseExtension client) fuel state ⟨offset, bytes⟩ = .ok (state', span') := by
  induction h generalizing fuel with
  | nil offset state =>
    refine ⟨⟨offset, []⟩, ?_⟩
    cases fuel <;> rfl
  | @cons offset kind state next state' body rest hr hk hnw hl hb hrs ih =>
    simp only [length_append, length_beBytes] at hf
    obtain ⟨fuel, rfl⟩ : ∃ n, fuel = n + 1 := ⟨fuel - 1, by omega⟩
    obtain ⟨span', ht⟩ := ih (show rest.length ≤ fuel by omega)
    refine ⟨span', ?_⟩
    unfold SpanReader.untilEmpty
    have hs : ¬ beBytes 2 kind ++ (beBytes 2 body.length ++ (body ++ rest)) = [] := by
      intro hn
      have hl := congrArg List.length hn
      simp only [length_append, length_beBytes, length_nil] at hl
      omega
    rw [if_neg hs]
    exact bind_ok_iff.2 ⟨next, ⟨offset + 4 + body.length, rest⟩,
      parseExtension_ok_iff.2 ⟨kind, body, hr, hk, hnw, hl, rfl, rfl, hb⟩, ht⟩

theorem parseExtensions_ok_iff {span : Span} :
    parseExtensions client span = .ok state' ↔ Extends client span.offset {} span.rest state' := by
  unfold parseExtensions
  rw [Result.map_ok_iff]
  constructor
  · rintro ⟨pair, hread, rfl⟩
    exact extends_of_untilEmpty (Nat.le_refl _) hread
  · intro h
    obtain ⟨span', hread⟩ := h.untilEmpty (Nat.le_refl _)
    exact ⟨_, hread, rfl⟩

/-! ### The key share extension -/

/-- The body of a key share extension is a group and a share that was offered. -/
theorem keyShare_body_ok_iff {body : Bytes} :
    whole .malformed (extensionBody client state extensionKeyShare) ⟨offset, body⟩ = .ok next ↔
      ∃ group exchange, group < 256 ^ 2 ∧ exchange.length < 256 ^ 2 ∧
        body = beBytes 2 group ++ (beBytes 2 exchange.length ++ exchange) ∧
        validateKeyShare group exchange.length client = .ok () ∧
        next = { state with keyShare := some (group, ⟨offset + 4, offset + 4 + exchange.length⟩) } := by
  unfold extensionBody
  rw [if_neg (by decide), if_pos rfl, whole_ok_iff]
  simp only [number_bind, range_bind, lift_bind, pure_ok_iff]
  constructor
  · rintro ⟨stop, group, _, hgroup, hrest, _, _, hlen, rfl, exchange, _, rfl, rfl, _, hvalid, rfl, hend⟩
    cases hend
    exact ⟨group, exchange, hgroup, hlen, by simpa using hrest, hvalid, rfl⟩
  · rintro ⟨group, exchange, hgroup, hlen, rfl, hvalid, rfl⟩
    exact ⟨_, group, _, hgroup, rfl, _, _, hlen, rfl, exchange, [], rfl, (append_nil _).symm, (), hvalid, rfl, rfl⟩

/-- An extension of another kind does not look at the client and keeps the key share. -/
theorem other_body {kind : Nat} (hk : kind ≠ extensionKeyShare) {body : Bytes}
    (h : whole .malformed (extensionBody client state kind) ⟨offset, body⟩ = .ok next) (client' : ClientHello) :
    whole .malformed (extensionBody client' state kind) ⟨offset, body⟩ = .ok next ∧
      next.keyShare = state.keyShare ∧ next.seen = state.seen := by
  unfold extensionBody at h ⊢
  rw [if_neg hk] at h ⊢
  refine ⟨h, ?_⟩
  obtain ⟨stop, h⟩ := whole_ok_iff.1 h
  split_ifs at h with hv hp
  · obtain ⟨version, span₁, -, h⟩ := bind_ok_iff.1 h
    obtain ⟨rfl, -⟩ := pure_ok_iff.1 h
    exact ⟨rfl, rfl⟩
  · cases h
  · obtain ⟨_, span₁, -, h⟩ := bind_ok_iff.1 h
    obtain ⟨rfl, -⟩ := pure_ok_iff.1 h
    exact ⟨rfl, rfl⟩

theorem Extends.after_keyShare (h : Extends client offset state bytes state')
    (hs : extensionKeyShare ∈ state.seen) (client' : ClientHello) :
    Extends client' offset state bytes state' ∧ state'.keyShare = state.keyShare := by
  induction h with
  | nil offset state => exact ⟨.nil _ _, rfl⟩
  | @cons offset kind state next state' body rest hr hk hn hl hb hrs ih =>
    have ho : kind ≠ extensionKeyShare := fun heq => hn (heq ▸ hs)
    obtain ⟨hb', hsh, hnx⟩ := other_body ho hb client'
    obtain ⟨ht, hkp⟩ := ih (by rw [hnx]; exact mem_append_left _ hs)
    exact ⟨.cons hr hk hn hl hb' ht, hkp.trans hsh⟩

/-- The share that was found stands where its range says, and another one of its length is found there
for every client that offered the group. -/
theorem Extends.replace_share (h : Extends client offset state bytes state')
    (hn : state.keyShare = none) (hseen : extensionKeyShare ∉ state.seen) {group : Nat} {found : Range}
    (hf : state'.keyShare = some (group, found)) :
    ∃ front exchange back, bytes = front ++ exchange ++ back ∧
      found = ⟨offset + front.length, offset + front.length + exchange.length⟩ ∧
      validateKeyShare group exchange.length client = .ok () ∧
      ∀ client' exchange', exchange'.length = exchange.length →
        validateKeyShare group exchange.length client' = .ok () →
        Extends client' offset state (front ++ exchange' ++ back) state' := by
  induction h with
  | nil offset state =>
    rw [hn] at hf
    cases hf
  | @cons offset kind state next state' body rest hrm hkn hnw hl hb hr ih =>
    by_cases hsh : kind = extensionKeyShare
    · -- the key share itself; no other one follows
      subst hsh
      obtain ⟨group', exchange, hg, hso, rfl, hva, rfl⟩ := keyShare_body_ok_iff.1 hb
      have hbh : extensionKeyShare ∈ state.seen ++ [extensionKeyShare] := by simp
      have hk := (hr.after_keyShare hbh client).2
      rw [hf] at hk
      obtain ⟨rfl, rfl⟩ := Prod.mk.inj (Option.some.inj hk)
      simp only [length_append, length_beBytes] at hr hl
      refine ⟨beBytes 2 extensionKeyShare ++ (beBytes 2 (2 + (2 + exchange.length)) ++
        (beBytes 2 group ++ beBytes 2 exchange.length)), exchange, rest, ?_, ?_, hva, ?_⟩
      · simp only [length_append, length_beBytes, append_assoc]
      · simp only [length_append, length_beBytes]
      · intro client' exchange' hs hva'
        have hb' : whole .malformed (extensionBody client'
            { state with seen := state.seen ++ [extensionKeyShare] } extensionKeyShare)
            ⟨offset + 4, beBytes 2 group ++ (beBytes 2 exchange'.length ++ exchange')⟩ =
            .ok { state with
              seen := state.seen ++ [extensionKeyShare]
              keyShare := some (group, ⟨offset + 4 + 4, offset + 4 + 4 + exchange.length⟩) } := by
          refine keyShare_body_ok_iff.2 ⟨group, exchange', hg, by omega, rfl, ?_, ?_⟩
          · rw [hs]
            exact hva'
          · rw [hs]
        have ht := (hr.after_keyShare hbh client').1
        have hc := @Extends.cons client' offset extensionKeyShare state _ state'
          (beBytes 2 group ++ (beBytes 2 exchange'.length ++ exchange')) rest hrm hkn hnw
          (by simp only [length_append, length_beBytes]; omega) hb'
          (by simp only [length_append, length_beBytes, hs]; exact ht)
        simp only [length_append, length_beBytes, append_assoc, hs] at hc ⊢
        exact hc
    · obtain ⟨-, hk, hnx⟩ := other_body hsh hb client
      dsimp only at hk hnx
      obtain ⟨front, exchange, back, rfl, hrn, hva, hrp⟩ := ih (hk.trans hn)
        (by rw [hnx]; simp only [mem_append, mem_singleton, not_or]; exact ⟨hseen, fun h => hsh h.symm⟩)
        hf
      refine ⟨beBytes 2 kind ++ (beBytes 2 body.length ++ (body ++ front)), exchange, back, ?_, ?_, hva, ?_⟩
      · simp only [append_assoc]
      · rw [hrn]
        simp only [length_append, length_beBytes]
        congr 1 <;> omega
      · intro client' exchange' hs hva'
        have ht := hrp client' exchange' hs hva'
        have hc := Extends.cons hrm hkn hnw hl (other_body hsh hb client').1 ht
        simp only [append_assoc] at hc ⊢
        exact hc

/-! ### The message -/

def encode (random sessionId : Bytes) (suiteWire : Nat) (extensions : Bytes) : Bytes :=
  beBytes 1 handshakeServerHello ++ (beBytes 3 (40 + sessionId.length + extensions.length) ++
    (beBytes 2 legacyTls12Version ++ (random ++ (beBytes 1 sessionId.length ++ (sessionId ++
      (beBytes 2 suiteWire ++ (beBytes 1 0 ++ (beBytes 2 extensions.length ++ extensions))))))))

theorem length_encode {random sessionId extensions : Bytes} {suiteWire : Nat} (hr : random.length = 32) :
    (encode random sessionId suiteWire extensions).length = 44 + sessionId.length + extensions.length := by
  simp only [encode, length_append, length_beBytes, hr]
  omega

end ServerHello

theorem CipherSuite.wireValue_of_fromWire {value : UInt16} {suite : CipherSuite}
    (h : fromWire value = some suite) : suite.wireValue = value := by
  unfold fromWire at h
  split_ifs at h with h₁ h₂ h₃ <;> cases h
  · exact h₁.symm
  · exact h₂.symm
  · exact h₃.symm

/-- What the parser accepts for a client, and the template it makes of it. -/
structure ServerHelloTemplate.Accepted (message : Bytes) (client : ClientHello) (template : ServerHelloTemplate)
    (random extensions : Bytes) (state : Negotiation) : Prop where
  message_eq : message = encode random client.sessionId template.suite.wireValue.toNat extensions
  message_le : message.length ≤ maxServerHelloLen
  random_length : random.length = 32
  not_retry : random ≠ helloRetryRequestRandom
  session_le : client.sessionId.length ≤ 32
  offered : client.cipherOffered template.suite.wireValue.toNat = true
  extends_ok : Extends client (44 + client.sessionId.length) {} extensions state
  tls13 : state.negotiatedTls13 = true
  share : state.keyShare = some (template.keyShareGroup, template.keyExchange)
  kept : template.message = message

variable {message : Bytes} {template : ServerHelloTemplate}

theorem ServerHello.parseSelection_ok_iff {client : ClientHello} :
    parseSelection message client span = .ok (template, span') ↔
      ∃ extensions state, extensions.length < 256 ^ 2 ∧ span'.rest = [] ∧
        span'.offset = span.offset + 5 + extensions.length ∧
        span.rest = beBytes 2 template.suite.wireValue.toNat ++ (beBytes 1 0 ++
          (beBytes 2 extensions.length ++ extensions)) ∧
        client.cipherOffered template.suite.wireValue.toNat = true ∧
        Extends client (span.offset + 5) {} extensions state ∧ state.negotiatedTls13 = true ∧
        state.keyShare = some (template.keyShareGroup, template.keyExchange) ∧ template.message = message := by
  obtain ⟨offset, rest⟩ := span
  unfold parseSelection
  rw [number_bind]
  constructor
  · rintro ⟨suiteWire, _, hlt, hr, h⟩
    rcases hf : (fromWire (UInt16.ofNat suiteWire)).filter fun _ => client.cipherOffered suiteWire with
      _ | suite
    · rw [hf] at h
      cases h
    obtain ⟨hfr, ho⟩ := Option.filter_eq_some_iff.1 hf
    obtain rfl : suiteWire = suite.wireValue.toNat := by
      have hsm : suiteWire < 2 ^ 16 := hlt
      rw [wireValue_of_fromWire hfr, UInt16.toNat_ofNat', Nat.mod_eq_of_lt hsm]
    rw [hf] at h
    simp only [number_bind, ite_fail_ok_iff, sub_bind, remaining_bind, lift_bind] at h
    obtain ⟨compression, _, -, rfl, hz, _, _, hlen, rfl, extensions, rest, rfl, rfl, hempty, state, hs, htls13, h⟩ := h
    rcases hsh : state.keyShare with _ | ⟨group, found⟩
    · rw [hsh] at h
      cases h
    rw [hsh] at h
    obtain ⟨rfl, rfl⟩ := pure_ok_iff.1 h
    obtain rfl : rest = [] := length_eq_zero_iff.1 (not_not.1 hempty)
    refine ⟨extensions, state, hlen, rfl, rfl, ?_, ho, parseExtensions_ok_iff.1 hs, by simpa using htls13, hsh, rfl⟩
    rw [hr, not_not.1 hz, append_nil]
  · rintro ⟨extensions, state, hlen, hn, hof, hr, ho, he, htls13, hsh, rfl⟩
    obtain ⟨offset', rest'⟩ := span'
    cases hn
    cases hof
    refine ⟨_, _, template.suite.wireValue.toNat_lt, hr, ?_⟩
    rw [UInt16.ofNat_toNat, fromWire_wireValue, Option.filter_some, if_pos ho]
    simp only [number_bind, ite_fail_ok_iff, sub_bind, remaining_bind, lift_bind]
    refine ⟨0, _, by decide, rfl, by simp, _, _, hlen, rfl, extensions, [], rfl, (append_nil _).symm, by simp, state,
      parseExtensions_ok_iff.2 he, by simp [htls13], ?_⟩
    rw [hsh]
    rfl

theorem ServerHelloTemplate.accepted_of_parse {client : ClientHello}
    (h : ServerHelloTemplate.parse message client = .ok template) :
    ∃ random extensions state, Accepted message client template random extensions state := by
  unfold ServerHelloTemplate.parse at h
  obtain ⟨hlr, h⟩ := Result.ite_error_ok_iff.1 h
  obtain ⟨⟨found, span'⟩, hread, rfl⟩ := Result.map_ok_iff.1 h
  unfold parseMessage at hread
  simp only [number_bind, ite_fail_ok_iff, take_bind, remaining_bind, parseSelection_ok_iff] at hread
  obtain ⟨kind, _, -, hrs, hh, declared, _, -, rfl, hex, version, _, -, rfl, hlg, random, _, hln, rfl, hrt, _, _, -, rfl, hso,
    sessionId, _, rfl, rfl, he, extensions, state, -, -, -, rfl, hof, het, htls13, hsh, hkp⟩ := hread
  obtain rfl : client.sessionId = sessionId := not_not.1 he
  have hdeclared : declared = 40 + client.sessionId.length + extensions.length := by
    rw [not_not.1 hex]
    simp only [length_append, length_beBytes, hln]
    omega
  refine ⟨random, extensions, state, ?_, Nat.not_lt.1 hlr, hln, hrt, Nat.not_lt.1 hso, hof, ?_, htls13, hsh, hkp⟩
  · rw [hrs, not_not.1 hh, hdeclared, not_not.1 hlg]
    rfl
  · rwa [show 44 + client.sessionId.length = 0 + 1 + 3 + 2 + 32 + 1 + client.sessionId.length + 5 by omega]

theorem ServerHelloTemplate.Accepted.parse {client : ClientHello}
    {random extensions : Bytes} {state : Negotiation} (h : Accepted message client template random extensions state) :
    ServerHelloTemplate.parse message client = .ok template := by
  have hl := @length_encode random client.sessionId extensions template.suite.wireValue.toNat h.random_length
  have hs := h.message_le
  have hss := h.session_le
  have hm : maxServerHelloLen = 8192 := rfl
  rw [h.message_eq, hl] at hs
  have hr : parseMessage message client ⟨0, message⟩ =
      .ok (template, ⟨44 + client.sessionId.length + extensions.length, []⟩) := by
    unfold parseMessage
    simp only [number_bind, ite_fail_ok_iff, take_bind, remaining_bind, parseSelection_ok_iff]
    refine ⟨handshakeServerHello, _, by decide, h.message_eq, by simp, 40 + client.sessionId.length + extensions.length, _,
      by omega, rfl, ?_, legacyTls12Version, _, by decide, rfl, by simp, random, _, h.random_length, rfl, h.not_retry,
      client.sessionId.length, _, by omega, rfl, by omega, client.sessionId, _, rfl, rfl, by simp, extensions, state,
      by omega, trivial, by omega, rfl, h.offered, ?_, h.tls13, h.share, h.kept⟩
    · simp only [length_append, length_beBytes, h.random_length]
      omega
    · rw [show 0 + 1 + 3 + 2 + 32 + 1 + client.sessionId.length + 5 = 44 + client.sessionId.length by omega]
      exact h.extends_ok
  unfold ServerHelloTemplate.parse
  rw [if_neg (Nat.not_lt.2 h.message_le), hr]
  rfl

end RustReality.Tls
