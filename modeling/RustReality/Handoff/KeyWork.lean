import RustReality.Handoff.Seal
import RustReality.Handoff.Udp.Open

/-!
# What a message costs a landing

A message may make the landing ask its replay cache for a nonce and compute key agreements. Both are
logged in their order as `accept_open` and `open_transfer` cause them.
-/

namespace RustReality.Handoff

open Clock Replay

inductive Cost
  | reserve (nonce : Nonce)
  | agree (secret : StaticX25519Key)
  deriving DecidableEq

/-- One turn of a loop over the candidates; `none` where it goes on without a key agreement. -/
abbrev Trial (ε α : Type) := HandoffPsk × StaticX25519Key → Option (Except ε (Option α))

def trials {ε α : Type} (trial : Trial ε α) :
    List (HandoffPsk × StaticX25519Key) → List Cost × Except ε (Option α)
  | [] => ([], .ok none)
  | candidate :: candidates =>
    match trial candidate with
    | none => trials trial candidates
    | some (.error error) => ([.agree candidate.2], .error error)
    | some (.ok (some opened)) => ([.agree candidate.2], .ok (some opened))
    | some (.ok none) => (.agree candidate.2 :: (trials trial candidates).1, (trials trial candidates).2)

/-- What the candidate makes of the message. -/
def opens {ε α : Type} (trial : Trial ε α) (candidate : HandoffPsk × StaticX25519Key) : Option α :=
  match trial candidate with
  | some (.ok opened) => opened
  | _ => none

/-- The turn of `accept_open`: only the candidates of an admitted key are tried. -/
def openTrial (primitives : Primitives) (packet : Bytes) : Trial Udp.UdpPacketError (Bytes × Udp.DerivedKeys) :=
  fun (psk, secret) =>
    let clear := packet.take (Udp.headerLen + Udp.openClearLen)
    let body := slice packet (Udp.headerLen + Udp.openClearLen) (Udp.headerLen + Udp.openClearLen + 16)
    let tag := slice packet (Udp.openSealedLen - Udp.tagLen) Udp.openSealedLen
    if !Udp.openFilterMatches primitives psk packet then none
    else some <|
      match primitives.agree secret (vectorAt 32 packet (Udp.headerLen + 8 + Udp.openNonceLen)) with
      | none => .ok none
      | some shared =>
        match Udp.deriveKeys primitives clear shared psk (primitives.publicKey secret) with
        | .error error => .error error
        | .ok derived =>
          .ok ((primitives.decrypt derived.openKey (List.replicate 12 0) clear body tag).map (·, derived))

/-- The turn of `open_transfer`. -/
def transferTrial (primitives : Primitives) (message : Bytes) (header : TransferHeader) : Trial HandoffError Bytes :=
  fun (psk, secret) => some <|
    let ciphertextEnd := headerLen + header.blobLen
    let body := slice message headerLen ciphertextEnd
    let tag := slice message ciphertextEnd (ciphertextEnd + tagLen)
    match primitives.agree secret header.ephemeralPublic with
    | none => .ok none
    | some shared =>
      match deriveAead primitives header.raw shared psk (primitives.publicKey secret) with
      | .error error => .error error
      | .ok (key, nonce) => .ok (primitives.decrypt key nonce header.raw body tag)

/-- `accept_open`; `reserve` is the answer of the replay cache. -/
def acceptOpen (primitives : Primitives) (keys : HandoffLandingKeys) (packet : Bytes) (now maximumTimeDifference : Nat)
    (reserve : Nonce → Except HandoffError Unit) :
    List Cost × Except Udp.UdpPacketError (Udp.SessionId × Bytes × Udp.DerivedKeys) :=
  match Udp.admitOpen primitives keys packet now maximumTimeDifference with
  | .error error => ([], .error error)
  | .ok (sessionId, nonce) =>
    match reserve nonce with
    | .error _ => ([.reserve nonce], .error .replay)
    | .ok () => (.reserve nonce :: (trials (openTrial primitives packet) keys.candidates).1,
        (Udp.trialOpen primitives packet keys.candidates).map (sessionId, ·))

/-- `open_transfer`; `memory` answers for the allocator. -/
def openTransfer (primitives : Primitives) (memory : Nat → Bool) (keys : HandoffLandingKeys) (message : Bytes)
    (now maximumTimeDifference : Nat) (reserve : Nonce → Except HandoffError Unit) :
    List Cost × Except HandoffError OpenedTransfer :=
  match openTransferHeader message now maximumTimeDifference with
  | .error error => ([], .error error)
  | .ok header =>
    match reserve header.nonce with
    | .error error => ([.reserve header.nonce], .error error)
    | .ok () =>
      let agreements := (trials (transferTrial primitives message header) keys.candidates).1
      (.reserve header.nonce :: (if memory header.blobLen then agreements else []),
        openTransferBody primitives memory keys message header)

/-! ### The loops over the candidates -/

section Trials

variable {ε α : Type} {trial : Trial ε α} {candidates : List (HandoffPsk × StaticX25519Key)} {primitives : Primitives}

theorem trials_costs : ∀ cost ∈ (trials trial candidates).1, ∃ candidate ∈ candidates, cost = .agree candidate.2 := by
  induction candidates with
  | nil => simp [trials]
  | cons candidate candidates ih =>
    rw [trials]
    rcases trial candidate with _ | error | _ | opened <;> simp_all

/-- The loop stops at the first candidate that opens the message. -/
theorem trials_eq (ht : ∀ candidate error, trial candidate ≠ some (.error error)) :
    (trials trial candidates).2 = .ok (candidates.findSome? (opens trial)) := by
  induction candidates with
  | nil => rfl
  | cons candidate candidates ih =>
    rw [trials, List.findSome?_cons, opens]
    rcases hc : trial candidate with _ | error | _ | opened
    · exact ih
    · exact absurd hc (ht candidate error)
    · exact ih
    · rfl

theorem trialOpen_eq {packet : Bytes} : Udp.trialOpen primitives packet candidates =
    (trials (openTrial primitives packet) candidates).2.bind fun opened => opened.elim (.error .authentication) .ok := by
  induction candidates with
  | nil => rfl
  | cons candidate candidates ih =>
    obtain ⟨psk, secret⟩ := candidate
    simp only [Udp.trialOpen, trials, openTrial]
    split
    · exact ih
    · cases primitives.agree secret _ with
      | none => exact ih
      | some shared =>
        simp only
        cases Udp.deriveKeys primitives _ shared psk (primitives.publicKey secret) with
        | error error => rfl
        | ok derived =>
          simp only
          cases primitives.decrypt derived.openKey _ _ _ _ with
          | none => exact ih
          | some userId => rfl

theorem tryCandidates_eq {message : Bytes} {header : TransferHeader} :
    tryCandidates primitives header (slice message headerLen (headerLen + header.blobLen))
        (slice message (headerLen + header.blobLen) (headerLen + header.blobLen + tagLen)) candidates =
      (trials (transferTrial primitives message header) candidates).2 := by
  induction candidates with
  | nil => rfl
  | cons candidate candidates ih =>
    obtain ⟨psk, secret⟩ := candidate
    simp only [tryCandidates, trials, transferTrial]
    cases primitives.agree secret header.ephemeralPublic with
    | none => exact ih
    | some shared =>
      simp only
      cases deriveAead primitives header.raw shared psk (primitives.publicKey secret) with
      | error error => rfl
      | ok derived =>
        simp only
        cases primitives.decrypt derived.1 derived.2 header.raw _ _ with
        | none => exact ih
        | some blob => rfl

end Trials

/-! ### Costs -/

/-- At most one nonce is asked for, once the checks have passed, and keys are agreed on only behind it. -/
def AsDesigned (keys : HandoffLandingKeys) (reserve : Nonce → Except HandoffError Unit) (nonce : Nonce) (checked : Prop)
    (costs : List Cost) : Prop :=
  costs = [] ∨ checked ∧ ∃ agreements, costs = .reserve nonce :: agreements ∧
    (∀ cost ∈ agreements, ∃ candidate ∈ keys.candidates, cost = .agree candidate.2) ∧
    (reserve nonce ≠ .ok () → agreements = [])

def OpenChecked (packet : Bytes) (now difference : Nat) : Prop :=
  packet.length = Udp.openLen ∧ Udp.parseHeader packet = .ok (.open, Udp.sessionIdOf packet, 0) ∧
    absDiff (Udp.openTimestampAt packet) now ≤ difference

def blobLenAt (message : Bytes) : Nat := ofBe (slice message blobLenOffset headerLen)

/-- The structure and the time window of a transfer. -/
structure TransferChecked (message : Bytes) (now difference : Nat) : Prop where
  magic : message.take magic.length = magic
  version : message.getD versionOffset 0 = handoffProtocolVersion
  stateVersion : message.getD stateVersionOffset 0 = continuationStateVersion
  blob : blobLenAt message ≤ maxBlobLen
  length : message.length = headerLen + blobLenAt message + tagLen
  window : absDiff (timestampAt message) now ≤ difference

def headerAt (message : Bytes) : TransferHeader where
  raw := message.take headerLen
  timestamp := timestampAt message
  nonce := nonceAt message
  ephemeralPublic := vectorAt 32 message ephemeralOffset
  clientRandom := vectorAt 32 message clientRandomOffset
  userId := vectorAt 16 message userIdOffset
  blobLen := blobLenAt message

/-- None of the configured pre-shared keys made the admission tag. -/
def Forged (primitives : Primitives) (keys : HandoffLandingKeys) (packet : Bytes) : Prop :=
  ∀ candidate ∈ keys.candidates, Udp.openFilterMatches primitives candidate.1 packet = false

variable {primitives : Primitives} {keys : HandoffLandingKeys} {packet message : Bytes} {now difference : Nat}
  {memory : Nat → Bool} {reserve : Nonce → Except HandoffError Unit}

theorem sessionId_of_parseHeader {packetType : Udp.PacketType} {sessionId : Udp.SessionId} {counter : UInt64}
    (h : Udp.parseHeader packet = .ok (packetType, sessionId, counter)) : sessionId = Udp.sessionIdOf packet := by
  unfold Udp.parseHeader at h
  split_ifs at h
  split at h <;> simp_all

theorem admitOpen_iff {admitted : Udp.SessionId × Nonce} :
    Udp.admitOpen primitives keys packet now difference = .ok admitted ↔
      (OpenChecked packet now difference ∧ ¬Forged primitives keys packet) ∧
        admitted = (Udp.sessionIdOf packet, Udp.openNonceAt packet) := by
  have hf : (keys.candidates.all fun candidate => !Udp.openFilterMatches primitives candidate.1 packet) = true ↔
      Forged primitives keys packet := by simp [Forged]
  unfold Udp.admitOpen OpenChecked
  constructor
  · intro h
    split at h
    · cases h
    next hl =>
      split at h
      · cases h
      next packetType sessionId counter hp =>
        obtain rfl := sessionId_of_parseHeader hp
        split_ifs at h with hty ht htg
        obtain ⟨rfl, rfl⟩ : packetType = .open ∧ counter = 0 := by simpa [not_or] using hty
        exact ⟨⟨⟨not_not.1 hl, hp, Nat.not_lt.1 ht⟩, fun ha => htg (hf.2 ha)⟩,
          (Except.ok.inj h).symm⟩
  · rintro ⟨⟨⟨hl, hp, ht⟩, htg⟩, rfl⟩
    rw [if_neg (not_not.2 hl), hp]
    simp only
    rw [if_neg (by simp), if_neg (Nat.not_lt.2 ht), if_neg fun ha => htg (hf.1 ha)]

theorem admitOpen_forged (now difference : Nat) (hf : Forged primitives keys packet) :
    ∃ error, Udp.admitOpen primitives keys packet now difference = .error error := by
  cases ha : Udp.admitOpen primitives keys packet now difference with
  | error error => exact ⟨error, rfl⟩
  | ok admitted => exact absurd hf (admitOpen_iff.1 ha).1.2

theorem acceptOpen_costs :
    AsDesigned keys reserve (Udp.openNonceAt packet) (OpenChecked packet now difference ∧ ¬Forged primitives keys packet)
      (acceptOpen primitives keys packet now difference reserve).1 := by
  unfold acceptOpen
  cases ha : Udp.admitOpen primitives keys packet now difference with
  | error error => exact .inl rfl
  | ok admitted =>
    obtain ⟨hc, rfl⟩ := admitOpen_iff.1 ha
    refine .inr ⟨hc, ?_⟩
    simp only
    cases hr : reserve (Udp.openNonceAt packet) with
    | error error => exact ⟨[], rfl, by simp, fun _ => rfl⟩
    | ok _ => exact ⟨_, rfl, trials_costs, fun h => absurd rfl h⟩

theorem parseHeader_take_iff (hlen : headerLen ≤ message.length) {header : TransferHeader} :
    parseHeader (message.take headerLen) = .ok header ↔ message.take magic.length = magic ∧
      message.getD versionOffset 0 = handoffProtocolVersion ∧ message.getD stateVersionOffset 0 = continuationStateVersion ∧
      blobLenAt message ≤ maxBlobLen ∧ header = headerAt message := by
  have hbyte (i : Nat) (hi : i < headerLen) : (message.take headerLen).getD i 0 = message.getD i 0 := by
    simp [List.getD_eq_getElem?_getD, List.getElem?_take_of_lt hi]
  have hblob : ofBe (slice (message.take headerLen) blobLenOffset headerLen) = blobLenAt message := by
    rw [slice_take le_rfl, blobLenAt]
  have htime : ofBe (slice (message.take headerLen) timestampOffset nonceOffset) = timestampAt message := by
    rw [slice_take (by decide), timestampAt]
  unfold parseHeader
  rw [if_neg (by simp [hlen]), List.take_take, hbyte _ (by decide), hbyte _ (by decide), show min magic.length headerLen = magic.length from rfl]
  dsimp only
  rw [hblob, htime, vectorAt_take (by decide), vectorAt_take (by decide), vectorAt_take (by decide), vectorAt_take (by decide)]
  simp only [Result.ite_error_ok_iff, ne_eq, not_or, not_not, gt_iff_lt, Nat.not_lt, Except.ok.injEq, and_assoc]
  rw [eq_comm (b := header)]
  rfl

theorem openTransferHeader_iff {header : TransferHeader} :
    openTransferHeader message now difference = .ok header ↔ TransferChecked message now difference ∧ header = headerAt message := by
  unfold openTransferHeader
  by_cases hlen : message.length < headerLen
  · rw [if_pos hlen]
    exact iff_of_false (by rintro ⟨⟩) fun h => by have := h.1.length; omega
  have hparse := @parseHeader_take_iff message (Nat.not_lt.1 hlen)
  rw [if_neg hlen, messageLenFromHeader]
  cases hp : parseHeader (message.take headerLen) with
  | error error =>
    refine iff_of_false (by rintro ⟨⟩) fun ⟨h, _⟩ => ?_
    rw [hparse.2 ⟨h.magic, h.version, h.stateVersion, h.blob, rfl⟩] at hp
    cases hp
  | ok parsed =>
    obtain ⟨hmagic, hversion, hstate, hblob, rfl⟩ := hparse.1 hp
    have hmax : headerLen + (headerAt message).blobLen + tagLen ≤ maxMessageLen := by
      show headerLen + blobLenAt message + tagLen ≤ headerLen + maxBlobLen + tagLen
      omega
    simp only [bind, Except.bind, if_pos hmax]
    split_ifs with hexact hwindow
    · exact iff_of_false (by rintro ⟨⟩) fun h => hexact h.1.length
    · exact iff_of_false (by rintro ⟨⟩) fun h => absurd h.1.window (Nat.not_le.2 hwindow)
    · exact ⟨fun h => ⟨⟨hmagic, hversion, hstate, hblob, not_not.1 hexact, Nat.not_lt.1 hwindow⟩, (Except.ok.inj h).symm⟩,
        fun h => congrArg Except.ok h.2.symm⟩

theorem openTransfer_costs :
    AsDesigned keys reserve (nonceAt message) (TransferChecked message now difference)
      (openTransfer primitives memory keys message now difference reserve).1 := by
  unfold openTransfer
  cases hh : openTransferHeader message now difference with
  | error error => exact .inl rfl
  | ok header =>
    obtain ⟨hchecked, rfl⟩ := openTransferHeader_iff.1 hh
    refine .inr ⟨hchecked, ?_⟩
    rw [show nonceAt message = (headerAt message).nonce from rfl]
    simp only
    cases hr : reserve (headerAt message).nonce with
    | error error => exact ⟨[], rfl, by simp, fun _ => rfl⟩
    | ok _ =>
      refine ⟨_, rfl, ?_, fun h => absurd rfl h⟩
      split_ifs
      · exact trials_costs
      · simp

theorem acceptOpen_forged (hf : Forged primitives keys packet) :
    (acceptOpen primitives keys packet now difference reserve).1 = [] :=
  acceptOpen_costs.resolve_right fun hc => hc.1.2 hf

/-! ### Forged packets at a listener -/

def Outside (primitives : Primitives) : Udp.UdpInput → Prop
  | .received packet _ (some policy) _ => Forged primitives policy.keys packet
  | _ => True

theorem handle_outside {n : Nat} {epoch lastInstant : Nat} (listener : Udp.UdpListener n) (i : Fin n)
    {input : Udp.UdpInput} (h : Outside primitives input) :
    (listener.handle primitives epoch lastInstant i input).cache = listener.cache := by
  rcases input with ⟨packet, now, policy, answers⟩ | ⟨sessionId, now⟩
  · unfold Udp.UdpListener.handle Udp.UdpListener.openSession
    rcases policy with _ | policy
    · grind
    · obtain ⟨error, he⟩ := admitOpen_forged (unixSeconds epoch now)
        (min policy.maximumTimeDifference Udp.maxOpenTimeDifference) h
      grind
  · rfl

theorem handles_outside {n : Nat} {epoch lastInstant : Nat} (inputs : List (Fin n × Udp.UdpInput))
    (listener : Udp.UdpListener n) (h : ∀ input ∈ inputs, Outside primitives input.2) :
    (inputs.foldl (fun listener input => listener.handle primitives epoch lastInstant input.1 input.2) listener).cache =
      listener.cache := by
  induction inputs generalizing listener with
  | nil => rfl
  | cons input inputs ih =>
    rw [List.foldl_cons, ih _ fun other ho => h other (.tail _ ho)]
    exact handle_outside listener input.1 (h input (.head _))

/-! ### Acceptance -/

/-- HKDF-SHA256 fails only beyond its limit on the output. -/
def ExpandsEnough (primitives : Primitives) : Prop :=
  ∀ salt material info length, length ≤ 255 * 32 → primitives.hkdf salt material info length ≠ none

theorem openTrial_ne_error (he : ExpandsEnough primitives) (candidate : HandoffPsk × StaticX25519Key)
    (error : Udp.UdpPacketError) : openTrial primitives packet candidate ≠ some (.error error) := by
  have hh := fun salt material info => he salt material info 96 (by decide)
  unfold openTrial Udp.deriveKeys
  grind

theorem transferTrial_ne_error (he : ExpandsEnough primitives) {header : TransferHeader}
    (candidate : HandoffPsk × StaticX25519Key) (error : HandoffError) :
    transferTrial primitives message header candidate ≠ some (.error error) := by
  have hh := fun salt material info => he salt material info 44 (by decide)
  unfold transferTrial deriveAead
  grind

def SomePairOpens (primitives : Primitives) (keys : HandoffLandingKeys) (packet : Bytes) : Prop :=
  ∃ candidate ∈ keys.candidates, ∃ opened, opens (openTrial primitives packet) candidate = some opened

theorem SomePairOpens.not_forged (h : SomePairOpens primitives keys packet) : ¬Forged primitives keys packet := by
  rintro hf
  obtain ⟨candidate, hm, opened, ho⟩ := h
  simp [opens, openTrial, hf candidate hm] at ho

theorem acceptOpen_ok_iff (he : ExpandsEnough primitives) :
    (∃ opened, (acceptOpen primitives keys packet now difference reserve).2 = .ok opened) ↔
      OpenChecked packet now difference ∧ reserve (Udp.openNonceAt packet) = .ok () ∧ SomePairOpens primitives keys packet := by
  have hs : SomePairOpens primitives keys packet ↔
      ∃ opened, keys.candidates.findSome? (opens (openTrial primitives packet)) = some opened := by
    simp only [SomePairOpens, ← Option.isSome_iff_exists, List.findSome?_isSome_iff]
  unfold acceptOpen
  constructor
  · rintro ⟨opened, h⟩
    cases ha : Udp.admitOpen primitives keys packet now difference with
    | error error => simp [ha] at h
    | ok admitted =>
      obtain ⟨⟨hc, -⟩, rfl⟩ := admitOpen_iff.1 ha
      rw [ha] at h
      simp only at h
      cases hr : reserve (Udp.openNonceAt packet) with
      | error error => simp [hr] at h
      | ok _ =>
        rw [hr] at h
        simp only [trialOpen_eq, trials_eq (openTrial_ne_error he)] at h
        refine ⟨hc, rfl, hs.2 ?_⟩
        cases hf : keys.candidates.findSome? (opens (openTrial primitives packet)) with
        | none => simp [hf, Except.bind, Except.map] at h
        | some opened => exact ⟨opened, rfl⟩
  · rintro ⟨hc, hr, ho⟩
    obtain ⟨found, hfo⟩ := hs.1 ho
    rw [admitOpen_iff.2 ⟨⟨hc, ho.not_forged⟩, rfl⟩]
    simp only [hr, trialOpen_eq, trials_eq (openTrial_ne_error he), hfo]
    exact ⟨_, rfl⟩

/-- The first pair that decrypts the blob decrypts it to a state that passes the checks. -/
def FirstPairAccepted (primitives : Primitives) (memory : Nat → Bool) (keys : HandoffLandingKeys) (message : Bytes)
    (header : TransferHeader) : Prop :=
  ∃ blob state, keys.candidates.findSome? (opens (transferTrial primitives message header)) = some blob ∧
    decodeBlob memory blob = .ok state ∧ state.serverSequence ≤ maxServerSequenceAtHandoff ∧ state.userId = header.userId

theorem openTransferBody_ok_iff (he : ExpandsEnough primitives) {header : TransferHeader} :
    (∃ opened, openTransferBody primitives memory keys message header = .ok opened) ↔
      memory header.blobLen = true ∧ FirstPairAccepted primitives memory keys message header := by
  unfold openTransferBody FirstPairAccepted
  simp only [tryCandidates_eq, trials_eq (transferTrial_ne_error he)]
  cases memory header.blobLen with
  | false => simp
  | true =>
    cases keys.candidates.findSome? (opens (transferTrial primitives message header)) with
    | none => simp [bind, Except.bind]
    | some blob =>
      cases hd : decodeBlob memory blob with
      | error error => simp [bind, Except.bind, hd]
      | ok state =>
        by_cases hs : state.serverSequence > maxServerSequenceAtHandoff ∨ state.userId ≠ header.userId
        · have hn : ¬(state.serverSequence ≤ maxServerSequenceAtHandoff ∧ state.userId = header.userId) := by
            rintro ⟨hsq, hu⟩
            exact hs.elim (UInt64.not_lt.2 hsq) (absurd hu)
          simpa [bind, Except.bind, hd, hs] using hn
        · obtain ⟨hsq, hu⟩ := not_or.1 hs
          simp only [bind, Except.bind, hd, if_neg hs]
          simp [hd, UInt64.not_lt.1 hsq, not_not.1 hu]

theorem openTransfer_ok_iff (he : ExpandsEnough primitives) :
    (∃ opened, (openTransfer primitives memory keys message now difference reserve).2 = .ok opened) ↔
      TransferChecked message now difference ∧ reserve (nonceAt message) = .ok () ∧ memory (blobLenAt message) = true ∧
        FirstPairAccepted primitives memory keys message (headerAt message) := by
  unfold openTransfer
  cases hh : openTransferHeader message now difference with
  | error error =>
    refine iff_of_false (by rintro ⟨opened, ⟨⟩⟩) fun h => ?_
    rw [openTransferHeader_iff.2 ⟨h.1, rfl⟩] at hh
    cases hh
  | ok header =>
    obtain ⟨hchecked, rfl⟩ := openTransferHeader_iff.1 hh
    rw [show nonceAt message = (headerAt message).nonce from rfl, show blobLenAt message = (headerAt message).blobLen from rfl]
    simp only [hchecked, true_and]
    cases reserve (headerAt message).nonce with
    | error error => simp
    | ok _ => simpa using openTransferBody_ok_iff he

/-! ### Replay capacity and key work -/

theorem replay_and_key_work (hexpands : ExpandsEnough primitives) :
    (∀ (n epoch lastInstant : Nat) (listener : Udp.UdpListener n) (inputs : List (Fin n × Udp.UdpInput)),
      (∀ input ∈ inputs, Outside primitives input.2) →
        (inputs.foldl (fun listener input => listener.handle primitives epoch lastInstant input.1 input.2)
          listener).cache = listener.cache) ∧
    (∀ keys packet now difference reserve, Forged primitives keys packet →
      (acceptOpen primitives keys packet now difference reserve).1 = []) ∧
    (∀ keys packet now difference reserve,
      AsDesigned keys reserve (Udp.openNonceAt packet) (OpenChecked packet now difference ∧ ¬Forged primitives keys packet)
        (acceptOpen primitives keys packet now difference reserve).1 ∧
      ((∃ opened, (acceptOpen primitives keys packet now difference reserve).2 = .ok opened) ↔
        OpenChecked packet now difference ∧ reserve (Udp.openNonceAt packet) = .ok () ∧
          SomePairOpens primitives keys packet)) ∧
    (∀ memory keys message now difference reserve,
      AsDesigned keys reserve (nonceAt message) (TransferChecked message now difference)
        (openTransfer primitives memory keys message now difference reserve).1 ∧
      ((∃ opened, (openTransfer primitives memory keys message now difference reserve).2 = .ok opened) ↔
        TransferChecked message now difference ∧ reserve (nonceAt message) = .ok () ∧ memory (blobLenAt message) = true ∧
          FirstPairAccepted primitives memory keys message (headerAt message))) :=
  ⟨fun _ _ _ listener inputs h => handles_outside inputs listener h, fun _ _ _ _ _ => acceptOpen_forged,
    fun _ _ _ _ _ => ⟨acceptOpen_costs, acceptOpen_ok_iff hexpands⟩,
    fun _ _ _ _ _ _ => ⟨openTransfer_costs, openTransfer_ok_iff hexpands⟩⟩

theorem exists_ok_of_toOption {ε α : Type} {result : Except ε α} (h : result.toOption.isSome = true) : ∃ value, result = .ok value := by
  cases result with
  | error error => cases h
  | ok value => exact ⟨value, rfl⟩

/-- An AEAD that does not commit to its key: what was sealed under one key also opens under another. -/
def uncommitted : Primitives where
  publicKey := id
  agree _ _ := some (Vector.replicate 32 0)
  hkdf _ material _ length := some (material.drop 32 ++ List.replicate (length - 32) 0)
  hmac _ _ := List.replicate 16 1
  decrypt key _ _ body _ := some (if key.head? = some 1 then [] else body)

def rotation (active : UInt8) (previous : List UInt8) : HandoffLandingKeys :=
  ⟨Vector.replicate 32 active, previous.map (Vector.replicate 32), Vector.replicate 32 3, []⟩

def sealedForPrevious : Bytes :=
  (sealTransfer uncommitted (fun _ _ _ plaintext => some (plaintext, List.replicate 16 0)) (fun _ => true)
    ⟨some (Vector.replicate 32 4), some (Vector.replicate 16 5)⟩ (freshState 443) (Vector.replicate 32 2)
    (Vector.replicate 32 3) (Vector.replicate 32 6) 0).toOption.getD []

def openPacket (tag : UInt8) : Bytes :=
  Udp.encodeHeader .open (Vector.replicate _ 0) 0 ++ List.replicate (Udp.openClearLen + 32) 0 ++ List.replicate 16 tag

/-- A forged OPEN costs nothing; an OPEN and a transfer that are accepted passed the checks. -/
theorem replay_and_key_work_sample :
    (acceptOpen uncommitted (rotation 1 [2]) (openPacket 0) 0 0 fun _ => .ok ()).1 = [] ∧
      (OpenChecked (openPacket 1) 0 0 ∧ SomePairOpens uncommitted (rotation 1 [2]) (openPacket 1)) ∧
      TransferChecked sealedForPrevious 0 0 := by
  have hforged : Forged uncommitted (rotation 1 [2]) (openPacket 0) := by
    unfold Forged
    decide +kernel
  have hopen : (acceptOpen uncommitted (rotation 1 [2]) (openPacket 1) 0 0 fun _ => .ok ()).2.toOption.isSome = true := by
    decide +kernel
  have htransfer : (openTransfer uncommitted (fun _ => true) (rotation 2 []) sealedForPrevious 0 0
      fun _ => .ok ()).2.toOption.isSome = true := by
    decide +kernel
  obtain ⟨-, hforge, hudp, htcp⟩ := @replay_and_key_work uncommitted fun _ _ _ _ _ => Option.some_ne_none _
  obtain ⟨hchecked, -, hpair⟩ := (hudp _ _ _ _ _).2.1 (exists_ok_of_toOption hopen)
  exact ⟨hforge _ _ 0 0 _ hforged, ⟨hchecked, hpair⟩, ((htcp _ _ _ _ _ _).2.1 (exists_ok_of_toOption htransfer)).1⟩

/-- The previous pair opens the transfer, but the active pair comes first and decrypts it to something else. -/
theorem openTransfer_stops_at_active_pair :
    let accepts (keys : HandoffLandingKeys) : Bool :=
      (openTransfer uncommitted (fun _ => true) keys sealedForPrevious 0 0 fun _ => .ok ()).2.toOption.isSome
    accepts (rotation 2 []) = true ∧ accepts (rotation 1 [2]) = false := by
  decide +kernel

end RustReality.Handoff
