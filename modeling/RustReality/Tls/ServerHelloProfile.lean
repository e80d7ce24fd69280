import RustReality.Tls.ServerHelloSpec

/-!
# A ServerHello for another client

The three patches of a template write the fields of the encoding, so erasing a ServerHello and filling it
in for a later client gives the encoding of the new values: the client accepts it, and nothing of the
session that was observed is left.
-/

namespace RustReality.Tls
open ServerHelloTemplate SpanReader ServerHello

def sessionBytes (session keyExchange : Range) (i : Nat) : Prop :=
  (serverRandomStart ≤ i ∧ i < serverRandomEnd) ∨ (session.start ≤ i ∧ i < session.stop) ∨
    (keyExchange.start ≤ i ∧ i < keyExchange.stop)

namespace ServerHello

variable {random random' sessionId sessionId' front exchange exchange' back extensions : Bytes} {suiteWire : Nat}

/-! ### The patches on an encoding -/

theorem patch_middle {a x b y : Bytes} {start stop : Nat} (hstart : a.length = start) (hs : start + x.length = stop)
    (hl : y.length = x.length) : patch (a ++ x ++ b) ⟨start, stop⟩ y = .ok (a ++ y ++ b) := by
  subst hstart hs
  have hf : a.length ≤ a.length + x.length ∧ a.length + x.length ≤ (a ++ x ++ b).length := by
    simp only [List.length_append]
    omega
  rw [patch, if_pos hf, overwrite_middle a x b hl]

theorem encode_random_eq (random sessionId : Bytes) (suiteWire : Nat) (extensions : Bytes) :
    encode random sessionId suiteWire extensions =
      (beBytes 1 handshakeServerHello ++ (beBytes 3 (40 + sessionId.length + extensions.length) ++
        beBytes 2 legacyTls12Version)) ++ random ++ (beBytes 1 sessionId.length ++ (sessionId ++
          (beBytes 2 suiteWire ++ (beBytes 1 0 ++ (beBytes 2 extensions.length ++ extensions))))) := by
  simp only [encode, List.append_assoc]

theorem encode_session_eq (random sessionId : Bytes) (suiteWire : Nat) (extensions : Bytes) :
    encode random sessionId suiteWire extensions =
      (beBytes 1 handshakeServerHello ++ (beBytes 3 (40 + sessionId.length + extensions.length) ++
        (beBytes 2 legacyTls12Version ++ (random ++ beBytes 1 sessionId.length)))) ++ sessionId ++
          (beBytes 2 suiteWire ++ (beBytes 1 0 ++ (beBytes 2 extensions.length ++ extensions))) := by
  simp only [encode, List.append_assoc]

theorem encode_exchange_eq (random sessionId : Bytes) (suiteWire : Nat) (front exchange back : Bytes) :
    encode random sessionId suiteWire (front ++ exchange ++ back) =
      (beBytes 1 handshakeServerHello ++ (beBytes 3 (40 + sessionId.length + (front ++ exchange ++ back).length) ++
        (beBytes 2 legacyTls12Version ++ (random ++ (beBytes 1 sessionId.length ++ (sessionId ++
          (beBytes 2 suiteWire ++ (beBytes 1 0 ++ (beBytes 2 (front ++ exchange ++ back).length ++ front))))))))) ++
            exchange ++ back := by
  simp only [encode, List.append_assoc]

theorem patch_random (hr : random.length = 32) (hr' : random'.length = 32) :
    patch (encode random sessionId suiteWire extensions) ⟨serverRandomStart, serverRandomEnd⟩
      random' = .ok (encode random' sessionId suiteWire extensions) := by
  rw [encode_random_eq, encode_random_eq]
  refine patch_middle ?_ ?_ (hr'.trans hr.symm)
  · rfl
  · rw [hr]
    rfl

theorem patch_session (hr : random.length = 32) (hl : sessionId'.length = sessionId.length) :
    patch (encode random sessionId suiteWire extensions)
      ⟨sessionIdStart, sessionIdStart + sessionId.length⟩ sessionId' =
      .ok (encode random sessionId' suiteWire extensions) := by
  rw [encode_session_eq, encode_session_eq, hl]
  refine patch_middle ?_ rfl hl
  simp only [List.length_append, length_beBytes, hr]
  rfl

theorem patch_exchange (hr : random.length = 32) (hl : exchange'.length = exchange.length) :
    patch (encode random sessionId suiteWire (front ++ exchange ++ back))
      ⟨44 + sessionId.length + front.length, 44 + sessionId.length + front.length + exchange.length⟩ exchange' =
      .ok (encode random sessionId suiteWire (front ++ exchange' ++ back)) := by
  have hs : (front ++ exchange' ++ back).length = (front ++ exchange ++ back).length := by
    simp only [List.length_append, hl]
  rw [encode_exchange_eq, encode_exchange_eq, hs]
  refine patch_middle ?_ rfl hl
  simp only [List.length_append, length_beBytes, hr]
  omega

theorem sessionRange_encode (hr : random.length = 32) (hlen : sessionId.length ≤ 32) :
    sessionRange (encode random sessionId suiteWire extensions) =
      .ok ⟨sessionIdStart, sessionIdStart + sessionId.length⟩ := by
  have hb : (encode random sessionId suiteWire extensions)[sessionIdLengthOffset]? =
      some (UInt8.ofNat sessionId.length) := by
    rw [encode_random_eq, List.getElem?_append_right]
    · simp only [List.length_append, length_beBytes, hr]
      rfl
    · simp only [List.length_append, length_beBytes, hr]
      exact Nat.le_refl _
  have hs : (UInt8.ofNat sessionId.length).toNat = sessionId.length := by
    rw [UInt8.toNat_ofNat', Nat.mod_eq_of_lt (by omega)]
  rw [sessionRange, hb]
  dsimp only
  rw [hs]

theorem slice_random (hr : random.length = 32) :
    slice (encode random sessionId suiteWire extensions) serverRandomStart serverRandomEnd = random := by
  rw [encode_random_eq]
  refine slice_at ?_ ?_
  · rfl
  · rw [hr]
    rfl

theorem slice_session (hr : random.length = 32) :
    slice (encode random sessionId suiteWire extensions) sessionIdStart (sessionIdStart + sessionId.length) =
      sessionId := by
  rw [encode_session_eq]
  refine slice_at ?_ rfl
  simp only [List.length_append, length_beBytes, hr]
  rfl

theorem slice_exchange (hr : random.length = 32) :
    slice (encode random sessionId suiteWire (front ++ exchange ++ back)) (44 + sessionId.length + front.length)
      (44 + sessionId.length + front.length + exchange.length) = exchange := by
  rw [encode_exchange_eq]
  refine slice_at ?_ rfl
  simp only [List.length_append, length_beBytes, hr]
  omega

/-! ### The patches byte by byte -/

theorem getElem?_patch {message patched bytes : Bytes} {range : Range}
    (h : patch message range bytes = .ok patched) (hl : bytes.length = range.len) (i : Nat) :
    patched[i]? = if range.start ≤ i ∧ i < range.stop then bytes[i - range.start]? else message[i]? := by
  unfold patch at h
  split_ifs at h with hf
  cases h
  have hs : range.start + bytes.length = range.stop := by
    rw [hl, Range.len]
    omega
  rw [getElem?_overwrite (by omega), hs]

theorem patch_outside {message patched bytes : Bytes} {range : Range}
    (h : patch message range bytes = .ok patched) (hl : bytes.length = range.len) {i : Nat}
    (ho : ¬ (range.start ≤ i ∧ i < range.stop)) : patched[i]? = message[i]? := by
  rw [getElem?_patch h hl, if_neg ho]

theorem getElem?_erase {message patched : Bytes} {range : Range}
    (h : patch message range (List.replicate range.len 0) = .ok patched) (i : Nat) :
    patched[i]? = if range.start ≤ i ∧ i < range.stop then some 0 else message[i]? := by
  rw [getElem?_patch h List.length_replicate]
  by_cases hin : range.start ≤ i ∧ i < range.stop
  · rw [if_pos hin, if_pos hin, List.getElem?_replicate_of_lt (by rw [Range.len]; omega)]
  · rw [if_neg hin, if_neg hin]

end ServerHello

/-! ### Erasing and filling in -/

namespace ServerHelloTemplate

structure Parts (template : ServerHelloTemplate) (client : ClientHello) (random front exchange back : Bytes)
    (state : Negotiation) : Prop where
  accepted : Accepted template.message client template random (front ++ exchange ++ back) state
  exchange_eq : template.keyExchange = ⟨44 + client.sessionId.length + front.length,
    44 + client.sessionId.length + front.length + exchange.length⟩
  replace : ∀ client' exchange', exchange'.length = exchange.length →
    validateKeyShare template.keyShareGroup exchange.length client' = .ok () →
    Extends client' (44 + client.sessionId.length) {} (front ++ exchange' ++ back) state

theorem parts_of_parse {message : Bytes} {client : ClientHello} {template : ServerHelloTemplate}
    (h : parse message client = .ok template) :
    template.message = message ∧ ∃ random front exchange back state, Parts template client random front exchange back state := by
  obtain ⟨random, extensions, state, ha⟩ := accepted_of_parse h
  have hk := ha.kept
  subst hk
  obtain ⟨front, exchange, back, rfl, hrn, -, hr⟩ :=
    ha.extends_ok.replace_share rfl (by simp) ha.share
  exact ⟨rfl, random, front, exchange, back, state, ha, hrn, hr⟩

variable {template : ServerHelloTemplate} {client : ClientHello} {random front exchange back : Bytes}
  {state : Negotiation}

theorem Parts.len_exchange (h : Parts template client random front exchange back state) :
    template.keyExchange.len = exchange.length := by
  rw [h.exchange_eq, Range.len]
  dsimp only
  omega

def erased (template : ServerHelloTemplate) (sessionLen exchangeLen : Nat) (front back : Bytes) :
    ServerHelloProfileTemplate where
  message := encode (List.replicate 32 0) (List.replicate sessionLen 0) template.suite.wireValue.toNat
    (front ++ List.replicate exchangeLen 0 ++ back)
  suite := template.suite
  keyShareGroup := template.keyShareGroup
  keyExchange := template.keyExchange

theorem Parts.sessionRange_eq (h : Parts template client random front exchange back state) :
    sessionRange template.message = .ok ⟨sessionIdStart, sessionIdStart + client.sessionId.length⟩ := by
  rw [h.accepted.message_eq]
  exact sessionRange_encode h.accepted.random_length h.accepted.session_le

theorem Parts.intoProfileTemplate_eq (h : Parts template client random front exchange back state) :
    template.intoProfileTemplate = .ok (template.erased client.sessionId.length exchange.length front back) := by
  have hs : (⟨sessionIdStart, sessionIdStart + client.sessionId.length⟩ : Range).len = client.sessionId.length :=
    Nat.add_sub_cancel_left _ _
  unfold intoProfileTemplate
  rw [h.sessionRange_eq]
  dsimp only [bind, Except.bind]
  rw [hs, h.len_exchange, h.accepted.message_eq,
    patch_random h.accepted.random_length List.length_replicate]
  dsimp only
  rw [patch_session List.length_replicate List.length_replicate]
  dsimp only
  have he : template.keyExchange = ⟨44 + (List.replicate client.sessionId.length (0 : UInt8)).length + front.length,
      44 + (List.replicate client.sessionId.length (0 : UInt8)).length + front.length + exchange.length⟩ := by
    rw [List.length_replicate]
    exact h.exchange_eq
  rw [he, patch_exchange List.length_replicate List.length_replicate, ← he]
  rfl

variable {current : ClientHello} {serverRandom : Vector UInt8 32}

theorem Parts.materialize_ok (h : Parts template client random front exchange back state)
    {reserved : Bool} {fresh : ServerHelloTemplate}
    (hmat : (template.erased client.sessionId.length exchange.length front back).materialize current serverRandom
      reserved = .ok fresh) :
    current.cipherOffered template.suite.wireValue.toNat = true ∧
      validateKeyShare template.keyShareGroup exchange.length current = .ok () ∧
      current.sessionId.length = client.sessionId.length ∧
      fresh = { template with
        message := encode serverRandom.toList current.sessionId template.suite.wireValue.toNat
          (front ++ List.replicate exchange.length 0 ++ back) } := by
  have hss : sessionRange (template.erased client.sessionId.length exchange.length front back).message =
      .ok ⟨sessionIdStart, sessionIdStart + client.sessionId.length⟩ := by
    have hr := @sessionRange_encode (List.replicate 32 0) (List.replicate client.sessionId.length 0)
      (front ++ List.replicate exchange.length 0 ++ back) template.suite.wireValue.toNat List.length_replicate
      (by rw [List.length_replicate]; exact h.accepted.session_le)
    rwa [List.length_replicate] at hr
  have hl : (⟨sessionIdStart, sessionIdStart + client.sessionId.length⟩ : Range).len = client.sessionId.length :=
    Nat.add_sub_cancel_left _ _
  unfold ServerHelloProfileTemplate.materialize at hmat
  split at hmat
  · cases hmat
  next ho =>
  rw [show (template.erased client.sessionId.length exchange.length front back).keyExchange.len = exchange.length from
    h.len_exchange] at hmat
  rcases hv : validateKeyShare (template.erased client.sessionId.length exchange.length front back).keyShareGroup
    exchange.length current with _ | _
  · rw [hv] at hmat
    cases hmat
  rw [hv, hss] at hmat
  dsimp only [bind, Except.bind] at hmat
  rw [hl] at hmat
  split_ifs at hmat with hs hrs
  have hs : current.sessionId.length = client.sessionId.length := not_not.1 hs
  have hw : patch (encode serverRandom.toList (List.replicate client.sessionId.length 0)
      template.suite.wireValue.toNat (front ++ List.replicate exchange.length 0 ++ back))
      ⟨sessionIdStart, sessionIdStart + client.sessionId.length⟩ current.sessionId =
      .ok (encode serverRandom.toList current.sessionId template.suite.wireValue.toNat
        (front ++ List.replicate exchange.length 0 ++ back)) := by
    have hp := @patch_session serverRandom.toList (List.replicate client.sessionId.length 0) current.sessionId
      (front ++ List.replicate exchange.length 0 ++ back) template.suite.wireValue.toNat (Vector.length_toList)
      (by rw [List.length_replicate, hs])
    rwa [List.length_replicate] at hp
  rw [erased, patch_random List.length_replicate Vector.length_toList] at hmat
  dsimp only at hmat
  rw [hw] at hmat
  cases hmat
  exact ⟨by simpa [erased] using ho, hv, hs, rfl⟩

/-- The message that goes to another client, with the fields the handshake gives it. -/
theorem Parts.patched (h : Parts template client random front exchange back state)
    {share : Bytes} (hlen : current.sessionId.length = client.sessionId.length)
    (hs : share.length = exchange.length) :
    intoPatchedMessage { template with
        message := encode serverRandom.toList current.sessionId template.suite.wireValue.toNat
          (front ++ List.replicate exchange.length 0 ++ back) } share =
      .ok (encode serverRandom.toList current.sessionId template.suite.wireValue.toNat (front ++ share ++ back)) := by
  unfold intoPatchedMessage
  rw [h.len_exchange, if_neg (not_not.2 hs), h.exchange_eq, ← hlen]
  have hp := @patch_exchange serverRandom.toList current.sessionId front (List.replicate exchange.length 0) share back
    template.suite.wireValue.toNat Vector.length_toList (by rw [List.length_replicate, hs])
  rwa [List.length_replicate] at hp

theorem Parts.reparse (h : Parts template client random front exchange back state)
    {share : Bytes} (hr : serverRandom.toList ≠ helloRetryRequestRandom)
    (ho : current.cipherOffered template.suite.wireValue.toNat = true)
    (hv : validateKeyShare template.keyShareGroup exchange.length current = .ok ())
    (hlen : current.sessionId.length = client.sessionId.length) (hshare : share.length = exchange.length) :
    parse (encode serverRandom.toList current.sessionId template.suite.wireValue.toNat (front ++ share ++ back)) current =
      .ok { template with
        message := encode serverRandom.toList current.sessionId template.suite.wireValue.toNat
          (front ++ share ++ back) } := by
  have hs := h.accepted.message_le
  rw [h.accepted.message_eq, length_encode h.accepted.random_length] at hs
  have ha : Accepted
      (encode serverRandom.toList current.sessionId template.suite.wireValue.toNat (front ++ share ++ back)) current
      { template with
        message := encode serverRandom.toList current.sessionId template.suite.wireValue.toNat (front ++ share ++ back) }
      serverRandom.toList (front ++ share ++ back) state := {
    message_eq := rfl
    message_le := by
      rw [length_encode Vector.length_toList]
      simp only [List.length_append, hshare, hlen] at hs ⊢
      exact hs
    random_length := Vector.length_toList
    not_retry := hr
    session_le := by
      rw [hlen]
      exact h.accepted.session_le
    offered := ho
    extends_ok := by
      rw [hlen]
      exact h.replace current share hshare hv
    tls13 := h.accepted.tls13
    share := h.accepted.share
    kept := rfl }
  exact ha.parse

theorem Parts.outside (h : Parts template client random front exchange back state) {sessionId share : Bytes}
    (hs : sessionId.length = client.sessionId.length) (hshare : share.length = exchange.length) {i : Nat}
    (ho : ¬ sessionBytes ⟨sessionIdStart, sessionIdStart + client.sessionId.length⟩ template.keyExchange i) :
    (encode serverRandom.toList sessionId template.suite.wireValue.toNat (front ++ share ++ back))[i]? =
      template.message[i]? := by
  simp only [sessionBytes, not_or] at ho
  obtain ⟨hr, hid, hk⟩ := ho
  rw [h.exchange_eq] at hk
  have hf := patch_outside (@patch_random random serverRandom.toList client.sessionId (front ++ exchange ++ back)
    template.suite.wireValue.toNat h.accepted.random_length Vector.length_toList) (Vector.length_toList) hr
  have hsc := patch_outside (@patch_session serverRandom.toList client.sessionId sessionId (front ++ exchange ++ back)
    template.suite.wireValue.toNat Vector.length_toList hs)
    (by rw [hs]; exact (Nat.add_sub_cancel_left _ _).symm) hid
  have ht := patch_outside (@patch_exchange serverRandom.toList sessionId front exchange share back
    template.suite.wireValue.toNat Vector.length_toList hshare)
    (by rw [hshare]; exact (Nat.add_sub_cancel_left _ _).symm) (by rw [hs]; exact hk)
  rw [ht, hsc, hf, ← h.accepted.message_eq]

/-! ### What an erased ServerHello remembers -/

variable {session : Range}

theorem intoProfileTemplate_cases {template : ServerHelloTemplate} {profile : ServerHelloProfileTemplate}
    (hrange : sessionRange template.message = .ok session) (h : template.intoProfileTemplate = .ok profile) :
    ∃ first second,
      patch template.message ⟨serverRandomStart, serverRandomEnd⟩ (List.replicate 32 0) = .ok first ∧
      patch first session (List.replicate session.len 0) = .ok second ∧
      patch second template.keyExchange (List.replicate template.keyExchange.len 0) = .ok profile.message ∧
      profile.suite = template.suite ∧ profile.keyShareGroup = template.keyShareGroup ∧
      profile.keyExchange = template.keyExchange := by
  unfold intoProfileTemplate at h
  rw [hrange] at h
  obtain ⟨first, hf, h⟩ := Result.bind_ok_iff.1 (show (patch template.message _ _ >>= _) = _ from h)
  obtain ⟨second, hs, h⟩ := Result.bind_ok_iff.1 h
  obtain ⟨third, ht, h⟩ := Result.bind_ok_iff.1 h
  cases h
  exact ⟨first, second, hf, hs, ht, rfl, rfl, rfl⟩

/-- An erased message is zero in the fields of the session and the observed one elsewhere. -/
theorem getElem?_intoProfileTemplate {template : ServerHelloTemplate} {profile : ServerHelloProfileTemplate}
    (hs : sessionRange template.message = .ok session)
    (h : template.intoProfileTemplate = .ok profile) (i : Nat) :
    (sessionBytes session template.keyExchange i → profile.message[i]? = some 0) ∧
      (¬ sessionBytes session template.keyExchange i → profile.message[i]? = template.message[i]?) := by
  obtain ⟨first, second, hf, hsc, ht, -⟩ := intoProfileTemplate_cases hs h
  have hf := @getElem?_erase template.message first ⟨serverRandomStart, serverRandomEnd⟩ hf i
  rw [getElem?_erase ht, getElem?_erase hsc, hf]
  unfold sessionBytes
  dsimp only
  constructor
  · intro hin
    split_ifs with hk hid hr
    · rfl
    · rfl
    · rfl
    · exact absurd hin (by tauto)
  · intro ho
    rw [if_neg (fun hk => ho (.inr (.inr hk))), if_neg (fun hid => ho (.inr (.inl hid))),
      if_neg (fun hr => ho (.inl hr))]

/-- Two ServerHellos that differ in the fields of the session only are erased to one profile. -/
theorem intoProfileTemplate_congr {template template' : ServerHelloTemplate}
    {profile profile' : ServerHelloProfileTemplate}
    (hrange : sessionRange template.message = .ok session) (hprofile : template.intoProfileTemplate = .ok profile)
    (hprofile' : template'.intoProfileTemplate = .ok profile') (hsuite : template'.suite = template.suite)
    (hgroup : template'.keyShareGroup = template.keyShareGroup) (hkey : template'.keyExchange = template.keyExchange)
    (hstart : serverRandomEnd < template.keyExchange.start)
    (hsame : ∀ i, ¬ sessionBytes session template.keyExchange i → template'.message[i]? = template.message[i]?) :
    profile' = profile := by
  have hl : template'.message[sessionIdLengthOffset]? = template.message[sessionIdLengthOffset]? := by
    refine hsame _ ?_
    have hi : session.start = sessionIdStart := by
      unfold sessionRange at hrange
      split at hrange
      · cases hrange
      · cases hrange
        rfl
    unfold sessionBytes
    rw [hi]
    simp only [serverRandomStart, serverRandomEnd, sessionIdLengthOffset, sessionIdStart] at hstart ⊢
    omega
  have hse' : sessionRange template'.message = .ok session := by
    rw [sessionRange, hl]
    exact hrange
  obtain ⟨-, -, -, -, -, hs, hg, hk⟩ := intoProfileTemplate_cases hrange hprofile
  obtain ⟨-, -, -, -, -, hs', hg', hk'⟩ := intoProfileTemplate_cases hse' hprofile'
  have hm : profile'.message = profile.message := by
    refine List.ext_getElem? fun i => ?_
    have hb := getElem?_intoProfileTemplate hrange hprofile i
    have hb' := getElem?_intoProfileTemplate hse' hprofile' i
    rw [hkey] at hb'
    by_cases hin : sessionBytes session template.keyExchange i
    · rw [hb'.1 hin, hb.1 hin]
    · rw [hb'.2 hin, hb.2 hin, hsame i hin]
  obtain ⟨message, suite, group, exchange⟩ := profile
  obtain ⟨message', suite', group', exchange'⟩ := profile'
  dsimp only at hs hg hk hs' hg' hk' hm
  rw [hm, hs, hg, hk, hs', hg', hk', hsuite, hgroup, hkey]

end ServerHelloTemplate

/-- A ServerHello that was accepted once can be erased, and whenever the profile can be filled in for
another client the message that is sent to it is accepted with the same negotiation. It is the observed
message outside the random, the session id and the key exchange, holds the new values there, and would have
been the same whatever stood there before. -/
theorem materialized_hello_revalidates {message : Bytes} {observed : ClientHello} {template : ServerHelloTemplate}
    (hparse : parse message observed = .ok template) :
    ∃ profile session, template.intoProfileTemplate = .ok profile ∧
      sessionRange message = .ok session ∧
      (∀ (current : ClientHello) (serverRandom : Vector UInt8 32) (reserved : Bool) (fresh : ServerHelloTemplate)
        (share : Bytes), serverRandom.toList ≠ helloRetryRequestRandom → share.length = template.keyExchange.len →
        profile.materialize current serverRandom reserved = .ok fresh →
        ∃ patched, fresh.intoPatchedMessage share = .ok patched ∧
          parse patched current = .ok { template with message := patched } ∧
          patched.length = message.length ∧
          (∀ i, ¬ sessionBytes session template.keyExchange i → patched[i]? = message[i]?) ∧
          slice patched serverRandomStart serverRandomEnd = serverRandom.toList ∧
          slice patched session.start session.stop = current.sessionId ∧
          slice patched template.keyExchange.start template.keyExchange.stop = share) ∧
      ∀ message' observed' template', parse message' observed' = .ok template' →
        template'.suite = template.suite → template'.keyShareGroup = template.keyShareGroup →
        template'.keyExchange = template.keyExchange →
        (∀ i, ¬ sessionBytes session template.keyExchange i → message'[i]? = message[i]?) →
        template'.intoProfileTemplate = .ok profile := by
  obtain ⟨rfl, random, front, exchange, back, state, hpa⟩ := parts_of_parse hparse
  refine ⟨_, _, hpa.intoProfileTemplate_eq, hpa.sessionRange_eq, ?_, ?_⟩
  · intro current serverRandom reserved fresh share hr hsh hf
    rw [hpa.len_exchange] at hsh
    obtain ⟨hof, hv, hse, rfl⟩ := hpa.materialize_ok hf
    refine ⟨_, hpa.patched hse hsh, hpa.reparse hr hof hv hse hsh, ?_, ?_, ?_, ?_, ?_⟩
    · rw [hpa.accepted.message_eq, length_encode hpa.accepted.random_length, length_encode Vector.length_toList]
      simp only [List.length_append, hsh, hse]
    · intro i ho
      exact hpa.outside hse hsh ho
    · exact slice_random Vector.length_toList
    · rw [← hse]
      exact slice_session Vector.length_toList
    · rw [hpa.exchange_eq, ← hse, ← hsh]
      exact slice_exchange Vector.length_toList
  · intro message' observed' template' hparse' hsu hg hk hs
    obtain ⟨rfl, random', front', exchange', back', state', hpa'⟩ := parts_of_parse hparse'
    have hst : serverRandomEnd < template.keyExchange.start := by
      rw [hpa.exchange_eq]
      show 38 < 44 + observed.sessionId.length + front.length
      omega
    rw [hpa'.intoProfileTemplate_eq]
    exact congrArg Except.ok (intoProfileTemplate_congr hpa.sessionRange_eq
      hpa.intoProfileTemplate_eq hpa'.intoProfileTemplate_eq hsu hg hk hst hs)

def sampleClient (sessionId : Bytes) : ClientHello where
  rawMessage := []
  random := List.replicate 32 1
  sessionId := sessionId
  serverName := none
  alpn := []
  keyShares := [⟨x25519Group, List.replicate 32 2⟩]
  cipherSuites := [0x1301]
  offersTls13 := true
  offersPsk := false

def sampleHello (random sessionId share : Bytes) : Bytes :=
  encode random sessionId 0x1301
    ([0x00, 0x2b, 0x00, 0x02, 0x03, 0x04] ++ ([0x00, 0x33, 0x00, 0x24, 0x00, 0x1d, 0x00, 0x20] ++ share))

/-- One client's ServerHello, filled in for another client. -/
theorem materialized_hello_revalidates_sample :
    ∃ template profile fresh,
      parse (sampleHello (List.replicate 32 7) [5, 6] (List.replicate 32 9)) (sampleClient [5, 6]) =
        .ok template ∧
      template.intoProfileTemplate = .ok profile ∧
      profile.materialize (sampleClient [8, 9]) (Vector.replicate 32 3) true = .ok fresh ∧
      ∃ patched, fresh.intoPatchedMessage (List.replicate 32 4) = .ok patched ∧
        parse patched (sampleClient [8, 9]) = .ok { template with message := patched } := by
  have hpr : parse (sampleHello (List.replicate 32 7) [5, 6] (List.replicate 32 9))
      (sampleClient [5, 6]) = .ok ⟨sampleHello (List.replicate 32 7) [5, 6] (List.replicate 32 9), .aes128GcmSha256,
        x25519Group, ⟨60, 92⟩⟩ := by
    decide +kernel
  obtain ⟨profile, session, hp, -, hr, -⟩ := materialized_hello_revalidates hpr
  have he : intoProfileTemplate
      ⟨sampleHello (List.replicate 32 7) [5, 6] (List.replicate 32 9), .aes128GcmSha256, x25519Group, ⟨60, 92⟩⟩ =
      .ok ⟨sampleHello (List.replicate 32 0) [0, 0] (List.replicate 32 0), .aes128GcmSha256, x25519Group, ⟨60, 92⟩⟩ := by
    decide +kernel
  have hf : ServerHelloProfileTemplate.materialize
      ⟨sampleHello (List.replicate 32 0) [0, 0] (List.replicate 32 0), .aes128GcmSha256, x25519Group, ⟨60, 92⟩⟩
      (sampleClient [8, 9]) (Vector.replicate 32 3) true =
      .ok ⟨sampleHello (List.replicate 32 3) [8, 9] (List.replicate 32 0), .aes128GcmSha256, x25519Group, ⟨60, 92⟩⟩ := by
    decide +kernel
  obtain rfl := Except.ok.inj (he.symm.trans hp)
  obtain ⟨patched, hpt, ha, -⟩ := hr (sampleClient [8, 9]) (Vector.replicate 32 3) true _
    (List.replicate 32 4) (by decide) (by decide) hf
  exact ⟨_, _, _, hpr, hp, hf, patched, hpt, ha⟩

end RustReality.Tls
