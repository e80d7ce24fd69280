import RustReality.Lib.Net
import RustReality.Tls.ClientHello

/-!
# Reading the ClientHello

The server reads handshake records off a connection until they hold one ClientHello, and keeps every
byte it has taken, so that a connection it does not serve can be forwarded as it came. `ReadsHello` says
what a read leaves behind for each of its outcomes.
-/

namespace RustReality.Tls
open ClientHello List Option Net

def tlsRecordHeaderLen : Nat := 5

def tlsContentTypeHandshake : UInt8 := 0x16

def maxTlsPlaintextBytes : Nat := 16 * 1024

def maxClientHelloRecords : Nat := 16

def readScratchBytes : Nat := 4 * 1024

structure ClientHelloRead where
  hello : ClientHello
  wirePrefix : Bytes
  handshakeRemainder : Bytes
  deriving DecidableEq

inductive ClientHelloReadErrorKind
  | timeout
  | unexpectedEof
  | io (kind : ErrorKind)
  | recordTooLarge
  | tooManyRecords
  | unexpectedRecordType
  | invalid (error : ClientHelloError)
  /-- The future was dropped while it waited for the socket. -/
  | dropped
  deriving DecidableEq, Repr

structure ClientHelloReadError where
  kind : ClientHelloReadErrorKind
  wirePrefix : Bytes
  deriving DecidableEq

def ClientHelloReadErrorKind.ofStop : Option Failure → ClientHelloReadErrorKind
  | none => .unexpectedEof
  | some .timeout | some .unarmed => .timeout
  | some (.io kind) => .io kind
  | some .dropped => .dropped

abbrev HelloOutcome := Except ClientHelloReadError ClientHelloRead

def fallbackPrefix : HelloOutcome → Bytes
  | .ok read => read.wirePrefix
  | .error error => error.wirePrefix

def declaredBodyLen (header : Bytes) : Nat := ofBe (slice header 3 5)

/-- One turn of the loop up to the record body: the bytes taken so far and the body. -/
def readHelloRecord (source : Source) (wirePrefix : Bytes) : Source × Except ClientHelloReadError (Bytes × Bytes) :=
  let headerStart := wirePrefix.length
  let headerEnd := headerStart + tlsRecordHeaderLen
  match source.readTo readScratchBytes wirePrefix headerEnd with
  | (source, wirePrefix, some stop) => (source, .error ⟨.ofStop stop, wirePrefix⟩)
  | (source, wirePrefix, none) =>
    let header := wirePrefix.drop headerStart
    if header.getD 0 0 ≠ tlsContentTypeHandshake then (source, .error ⟨.unexpectedRecordType, wirePrefix⟩)
    else if declaredBodyLen header = 0 ∨ declaredBodyLen header > maxTlsPlaintextBytes then
      (source, .error ⟨.recordTooLarge, wirePrefix⟩)
    else
      match source.readTo readScratchBytes wirePrefix (headerEnd + declaredBodyLen header) with
      | (source, wirePrefix, some stop) => (source, .error ⟨.ofStop stop, wirePrefix⟩)
      | (source, wirePrefix, none) => (source, .ok (wirePrefix, wirePrefix.drop headerEnd))

variable (handshake : Bytes)

/-- What the loop knows after a record: the length of the message once its header is there, and the
ClientHello with what follows it once it is complete. -/
def assembleHello (expectedHandshakeLen : Option Nat) :
    Except ClientHelloError (Option Nat × Option (ClientHello × Bytes)) := do
  if handshake.head?.any (· ≠ 0x01) then .error .notClientHello
  let expected ←
    if expectedHandshakeLen = none ∧ handshake.length ≥ 4 then
      let total := 4 + ofBe (slice handshake 1 4)
      if total ≤ maxClientHelloBytes then Except.ok (some total) else .error .tooLarge
    else .ok expectedHandshakeLen
  match expected.filter (· ≤ handshake.length) with
  | some length =>
    let hello ← parseMessage (handshake.take length)
    return (expected, some (hello, handshake.drop length))
  | none => if handshake.length > maxClientHelloBytes then .error .tooLarge else return (expected, none)

def readHelloLoop : Nat → Source → Bytes → Bytes → Option Nat → Source × HelloOutcome
  | 0, source, wirePrefix, _, _ => (source, .error ⟨.tooManyRecords, wirePrefix⟩)
  | turns + 1, source, wirePrefix, handshake, expected =>
    match readHelloRecord source wirePrefix with
    | (source, .error error) => (source, .error error)
    | (source, .ok (wirePrefix, body)) =>
      let handshake := handshake ++ body
      match assembleHello handshake expected with
      | .error error => (source, .error ⟨.invalid error, wirePrefix⟩)
      | .ok (_, some (hello, handshakeRemainder)) => (source, .ok { hello, wirePrefix, handshakeRemainder })
      | .ok (expected, none) => readHelloLoop turns source wirePrefix handshake expected

/-- `armed` says whether the deadline can be represented. -/
def readClientHello (armed : Bool) (source : Source) : Source × HelloOutcome :=
  if !armed then (source, .error ⟨.timeout, []⟩) else readHelloLoop maxClientHelloRecords source [] [] none

/-! ### Records -/

structure HelloRecord where
  header : Bytes
  body : Bytes
  header_len : header.length = tlsRecordHeaderLen
  handshake : header.getD 0 0 = tlsContentTypeHandshake
  body_len : body.length = declaredBodyLen header
  pos : 0 < body.length
  le : body.length ≤ maxTlsPlaintextBytes

namespace HelloRecord

def wire (record : HelloRecord) : Bytes := record.header ++ record.body

def wires (records : List HelloRecord) : Bytes := records.flatMap wire

def bodies (records : List HelloRecord) : Bytes := records.flatMap body

@[simp] theorem wires_nil : wires [] = [] := rfl

@[simp] theorem bodies_nil : bodies [] = [] := rfl

theorem wires_cons (record : HelloRecord) (records : List HelloRecord) :
    wires (record :: records) = record.wire ++ wires records := rfl

theorem bodies_cons (record : HelloRecord) (records : List HelloRecord) :
    bodies (record :: records) = record.body ++ bodies records := rfl

theorem wires_append (front back : List HelloRecord) : wires (front ++ back) = wires front ++ wires back :=
  flatMap_append

theorem bodies_append (front back : List HelloRecord) : bodies (front ++ back) = bodies front ++ bodies back :=
  flatMap_append

theorem wires_concat (front : List HelloRecord) (last : HelloRecord) : wires (front ++ [last]) = wires front ++ last.wire := by
  rw [wires_append, wires_cons, wires_nil, append_nil]

theorem bodies_concat (front : List HelloRecord) (last : HelloRecord) :
    bodies (front ++ [last]) = bodies front ++ last.body := by
  rw [bodies_append, bodies_cons, bodies_nil, append_nil]

theorem wire_inj {record record' : HelloRecord} {rest rest' : Bytes} (h : record.wire ++ rest = record'.wire ++ rest') :
    record = record' ∧ rest = rest' := by
  obtain ⟨header, body, hh, ht, hb, hp, hle⟩ := record
  obtain ⟨header', body', hh', ht', hb', hp', hle'⟩ := record'
  simp only [wire, append_assoc] at h
  obtain ⟨rfl, hbd⟩ := append_inj h (hh.trans hh'.symm)
  obtain ⟨rfl, hr⟩ := append_inj hbd (hb.trans hb'.symm)
  exact ⟨rfl, hr⟩

end HelloRecord

inductive BadHeader (header : Bytes) : ClientHelloReadErrorKind → Prop
  | type (h : header.getD 0 0 ≠ tlsContentTypeHandshake) : BadHeader header .unexpectedRecordType
  | length (h : declaredBodyLen header = 0 ∨ declaredBodyLen header > maxTlsPlaintextBytes) :
      BadHeader header .recordTooLarge

inductive ReadsRecord (s : Source) (wirePrefix : Bytes) : Source × Except ClientHelloReadError (Bytes × Bytes) → Prop
  | record {s' : Source} (record : HelloRecord) (hbytes : s.bytes = record.wire ++ s'.bytes)
      (hending : s'.ending = s.ending) (hstream : s.stream = record.wire ++ s'.stream) :
      ReadsRecord s wirePrefix (s', .ok (wirePrefix ++ record.wire, record.body))
  | header {s' : Source} {header : Bytes} {kind : ClientHelloReadErrorKind} (hlen : header.length = tlsRecordHeaderLen)
      (hbad : BadHeader header kind) (hbytes : s.bytes = header ++ s'.bytes) (hstream : s.stream = header ++ s'.stream) :
      ReadsRecord s wirePrefix (s', .error ⟨kind, wirePrefix ++ header⟩)
  | ended {s' : Source} (hshort : ∀ (record : HelloRecord) rest, s.bytes ≠ record.wire ++ rest)
      (hstream : s.stream = s.bytes ++ s'.stream) :
      ReadsRecord s wirePrefix (s', .error ⟨.ofStop s.ending, wirePrefix ++ s.bytes⟩)

theorem readHelloRecord_spec (s : Source) (wirePrefix : Bytes) :
    ReadsRecord s wirePrefix (readHelloRecord s wirePrefix) := by
  unfold readHelloRecord
  dsimp only
  have hhe := Source.readTo_spec (by decide : 0 < readScratchBytes) s wirePrefix (wirePrefix.length + tlsRecordHeaderLen)
  generalize s.readTo readScratchBytes wirePrefix (wirePrefix.length + tlsRecordHeaderLen) = result at hhe
  have hn : wirePrefix.length + tlsRecordHeaderLen - wirePrefix.length = tlsRecordHeaderLen := Nat.add_sub_cancel_left _ _
  cases hhe with
  | short hl hst =>
    refine .ended ?_ hst
    intro record rest h
    rw [hn, h, length_append, HelloRecord.wire, length_append, record.header_len] at hl
    omega
  | full hl hby he hst =>
    rename_i mid
    rw [hn] at hl hby hst ⊢
    dsimp only
    generalize hhe : s.bytes.take tlsRecordHeaderLen = header at hst
    have hsp : s.bytes = header ++ mid.bytes := by rw [hby, ← hhe, take_append_drop]
    have hh : header.length = tlsRecordHeaderLen := by
      rw [← hhe, length_take]
      omega
    rw [drop_left]
    by_cases ht : header.getD 0 0 ≠ tlsContentTypeHandshake
    · rw [if_pos ht]
      exact .header hh (.type ht) hsp hst
    rw [if_neg ht]
    by_cases hr : declaredBodyLen header = 0 ∨ declaredBodyLen header > maxTlsPlaintextBytes
    · rw [if_pos hr]
      exact .header hh (.length hr) hsp hst
    rw [if_neg hr]
    have hb := Source.readTo_spec (by decide : 0 < readScratchBytes) mid (wirePrefix ++ header)
      (wirePrefix.length + tlsRecordHeaderLen + declaredBodyLen header)
    have hnb : wirePrefix.length + tlsRecordHeaderLen + declaredBodyLen header - (wirePrefix ++ header).length =
        declaredBodyLen header := by
      rw [length_append, hh, Nat.add_sub_cancel_left]
    generalize mid.readTo readScratchBytes (wirePrefix ++ header)
      (wirePrefix.length + tlsRecordHeaderLen + declaredBodyLen header) = result at hb
    cases hb with
    | short hl' hst' =>
      rename_i s'
      have hs : ∀ (record : HelloRecord) rest, s.bytes ≠ record.wire ++ rest := by
        intro record rest h
        rw [hsp, HelloRecord.wire, append_assoc] at h
        obtain ⟨rfl, hm⟩ := append_inj h (hh.trans record.header_len.symm)
        rw [hnb, hm, length_append, record.body_len] at hl'
        omega
      have h := @ReadsRecord.ended s wirePrefix s' hs (by rw [hsp, hst, hst', append_assoc])
      rw [hsp, ← append_assoc, ← he] at h
      exact h
    | full hl' hby' he' hst' =>
      rename_i s'
      rw [hnb] at hl' hby' hst' ⊢
      generalize hbd : mid.bytes.take (declaredBodyLen header) = body at hst'
      have hbo : body.length = declaredBodyLen header := by
        rw [← hbd, length_take]
        omega
      have hm : mid.bytes = body ++ s'.bytes := by rw [hby', ← hbd, take_append_drop]
      let record : HelloRecord := ⟨header, body, hh, not_not.1 ht, hbo, by omega, by omega⟩
      have h := @ReadsRecord.record s wirePrefix s' record
        (by rw [hsp, hm, HelloRecord.wire, append_assoc]) (he'.trans he)
        (by rw [hst, hst', HelloRecord.wire, append_assoc])
      have hd : (wirePrefix ++ header ++ body).drop (wirePrefix.length + tlsRecordHeaderLen) = body :=
        drop_left' (by rw [length_append, hh])
      dsimp only
      rw [hd, append_assoc]
      exact h

/-! ### The message -/

def messageLen : Option Nat :=
  if handshake.length < 4 then none else some (4 + ofBe (slice handshake 1 4))

theorem messageLen_append {front : Bytes} (h : 4 ≤ front.length) (body : Bytes) :
    messageLen (front ++ body) = messageLen front := by
  have hs : slice (front ++ body) 1 4 = slice front 1 4 := by
    rw [slice, slice, take_append_of_le_length h]
  rw [messageLen, messageLen, if_neg (by rw [length_append]; omega), if_neg (by omega), hs]

/-- `assembleHello` without the memory of earlier turns. -/
def assembleWhole : Except ClientHelloError (Option Nat × Option (ClientHello × Bytes)) :=
  if handshake.head?.any (· ≠ 0x01) then .error .notClientHello
  else
    match messageLen handshake with
    | none => .ok (none, none)
    | some total =>
      if maxClientHelloBytes < total then .error .tooLarge
      else if total ≤ handshake.length then
        (parseMessage (handshake.take total)).map fun hello => (some total, some (hello, handshake.drop total))
      else .ok (some total, none)

structure Pending (handshake : Bytes) (expected : Option Nat) : Prop where
  expected_eq : expected = messageLen handshake
  incomplete : ∀ total, messageLen handshake = some total → handshake.length < total ∧ total ≤ maxClientHelloBytes

theorem Pending.nil : Pending [] none := ⟨rfl, by rintro _ ⟨⟩⟩

variable {expected : Option Nat}

theorem Pending.length_lt {handshake : Bytes} (h : Pending handshake expected) {body : Bytes}
    {total : Nat} (htotal : messageLen (handshake ++ body) = some total) : handshake.length < total := by
  by_cases hl : handshake.length < 4
  · unfold messageLen at htotal
    split at htotal
    · cases htotal
    · cases htotal
      omega
  · rw [messageLen_append (Nat.le_of_not_lt hl)] at htotal
    exact (h.incomplete total htotal).1

theorem assembleHello_eq {front : Bytes} (h : Pending front expected) (body : Bytes) :
    assembleHello (front ++ body) expected = assembleWhole (front ++ body) := by
  unfold assembleHello assembleWhole
  by_cases hf : (front ++ body).head?.any (· ≠ 0x01) = true
  · rw [if_pos hf, if_pos hf]
    rfl
  rw [if_neg hf, if_neg hf]
  -- the length is known from an earlier turn, becomes known in this one, or is still unknown
  obtain ⟨heq, hi⟩ := h
  by_cases hk : 4 ≤ front.length
  · obtain ⟨total, ht⟩ : ∃ total, messageLen front = some total := ⟨_, if_neg (by omega)⟩
    have hle := (hi total ht).2
    rw [messageLen_append hk, ht, heq, ht]
    simp only [Bind.bind, Except.bind, Pure.pure, Except.pure, reduceCtorEq, false_and, if_false]
    rw [if_neg (Nat.not_lt.2 hle)]
    by_cases hd : total ≤ (front ++ body).length
    · rw [if_pos hd]
      simp only [filter_some, hd, decide_true, if_true]
      cases parseMessage ((front ++ body).take total) <;> rfl
    · rw [if_neg hd]
      simp only [filter_some, hd, decide_false, Bool.false_eq_true, if_false]
      rw [if_neg (by omega)]
  · have hnn : expected = none := by rw [heq, messageLen, if_pos (by omega)]
    subst hnn
    unfold messageLen
    by_cases hn : (front ++ body).length < 4
    · rw [if_pos hn]
      simp only [Bind.bind, Except.bind, Pure.pure, Except.pure, true_and, filter_none]
      rw [if_neg (by omega), if_neg (by unfold maxClientHelloBytes; omega)]
    · rw [if_neg hn]
      simp only [Bind.bind, Except.bind, Pure.pure, Except.pure, true_and]
      rw [if_pos (Nat.le_of_not_lt hn)]
      generalize 4 + ofBe (slice (front ++ body) 1 4) = total
      by_cases hle : total ≤ maxClientHelloBytes
      · rw [if_pos hle, if_neg (Nat.not_lt.2 hle)]
        by_cases hd : total ≤ (front ++ body).length
        · rw [if_pos hd]
          simp only [filter_some, hd, decide_true, if_true]
          cases parseMessage ((front ++ body).take total) <;> rfl
        · rw [if_neg hd]
          simp only [filter_some, hd, decide_false, Bool.false_eq_true, if_false]
          rw [if_neg (by omega)]
      · rw [if_neg hle, if_pos (Nat.lt_of_not_le hle)]

inductive Assembled (handshake : Bytes) : Except ClientHelloError (Option Nat × Option (ClientHello × Bytes)) → Prop
  | refused (error : ClientHelloError) : Assembled handshake (.error error)
  | hello {total : Nat} {hello : ClientHello} (hlen : messageLen handshake = some total) (hdone : total ≤ handshake.length)
      (hparse : parseMessage (handshake.take total) = .ok hello) :
      Assembled handshake (.ok (some total, some (hello, handshake.drop total)))
  | more {expected : Option Nat} (h : Pending handshake expected) : Assembled handshake (.ok (expected, none))

theorem assembleWhole_spec (handshake : Bytes) : Assembled handshake (assembleWhole handshake) := by
  unfold assembleWhole
  split
  · exact .refused _
  · cases hl : messageLen handshake with
    | none => exact .more ⟨hl.symm, fun total hto => by rw [hl] at hto; cases hto⟩
    | some total =>
      dsimp only
      split
      · exact .refused _
      next hle =>
      split
      · next hd =>
        cases hp : parseMessage (handshake.take total) with
        | error error => exact .refused _
        | ok hello => exact .hello hl hd hp
      · next hm =>
        refine .more ⟨hl.symm, fun total' hto => ?_⟩
        rw [hl] at hto
        cases hto
        exact ⟨Nat.lt_of_not_le hm, Nat.le_of_not_lt hle⟩

/-- The front of a valid message is never refused, and the message itself is found with what follows it. -/
theorem assembleWhole_of_message {message : Bytes} {hello : ClientHello}
    (hp : parseMessage message = .ok hello) :
    (∀ front, front ≠ [] → front <+: message → front.length < message.length →
      assembleWhole front = .ok (messageLen front, none)) ∧
    ∀ extra, assembleWhole (message ++ extra) = .ok (some message.length, some (hello, extra)) := by
  obtain ⟨hm, hfi, hf, ht⟩ := parseMessage_ok hp
  have hh : message.head? = some 1 := by
    have hz := congrArg List.head? hfi
    rwa [head?_take, if_neg (by decide)] at hz
  have hl : messageLen message = some message.length := by
    rw [messageLen, if_neg (by omega), ht]
  constructor
  · rintro front hne ⟨rest, rfl⟩ hlt
    have hfr : front.head? = some 1 := by rwa [head?_append_of_ne_nil _ hne] at hh
    unfold assembleWhole
    rw [hfr, if_neg (by decide)]
    by_cases hs : front.length < 4
    · rw [messageLen, if_pos hs]
    · rw [messageLen_append (Nat.le_of_not_lt hs)] at hl
      rw [hl]
      dsimp only
      rw [if_neg (Nat.not_lt.2 hm), if_neg (Nat.not_le.2 hlt)]
  · intro extra
    have hne : message ≠ [] := ne_nil_of_length_pos (by omega)
    unfold assembleWhole
    rw [head?_append_of_ne_nil _ hne, hh, if_neg (by decide), messageLen_append hf, hl]
    dsimp only
    rw [if_neg (Nat.not_lt.2 hm), if_pos (by rw [length_append]; exact Nat.le_add_right _ _), take_left,
      drop_left, hp]
    rfl

/-! ### The whole read -/

open HelloRecord

/-- What a read leaves behind, after some records were read before: where the bytes it kept end, for each
outcome, and that they are what it took off the stream. -/
inductive ReadsHello (s : Source) (front : List HelloRecord) : Source × HelloOutcome → Prop
  /-- The last record is the one that completes the message; the rest of it is the remainder. -/
  | hello {s' : Source} (records : List HelloRecord) {message remainder : Bytes} {hello : ClientHello}
      (hbytes : s.bytes = wires records ++ s'.bytes) (hstream : s.stream = wires records ++ s'.stream)
      (hne : records ≠ []) (hmessage : bodies (front ++ records) = message ++ remainder)
      (hparse : parseMessage message = .ok hello)
      (hneeded : ∀ before last, front ++ records = before ++ [last] → (bodies before).length < message.length) :
      ReadsHello s front (s', .ok ⟨hello, wires (front ++ records), remainder⟩)
  | refused {s' : Source} (records : List HelloRecord) (error : ClientHelloError)
      (hbytes : s.bytes = wires records ++ s'.bytes) (hstream : s.stream = wires records ++ s'.stream) :
      ReadsHello s front (s', .error ⟨.invalid error, wires (front ++ records)⟩)
  | tooMany {s' : Source} (records : List HelloRecord) (hcount : (front ++ records).length = maxClientHelloRecords)
      (hbytes : s.bytes = wires records ++ s'.bytes) (hstream : s.stream = wires records ++ s'.stream) :
      ReadsHello s front (s', .error ⟨.tooManyRecords, wires (front ++ records)⟩)
  | header {s' : Source} (records : List HelloRecord) {header : Bytes} {kind : ClientHelloReadErrorKind}
      (hlen : header.length = tlsRecordHeaderLen) (hbad : BadHeader header kind)
      (hbytes : s.bytes = wires records ++ header ++ s'.bytes) (hstream : s.stream = wires records ++ header ++ s'.stream) :
      ReadsHello s front (s', .error ⟨kind, wires (front ++ records) ++ header⟩)
  | ended {s' : Source} (hstream : s.stream = s.bytes ++ s'.stream) :
      ReadsHello s front (s', .error ⟨.ofStop s.ending, wires front ++ s.bytes⟩)

theorem ReadsHello.cons {s mid : Source} {front : List HelloRecord} {record : HelloRecord} {result : Source × HelloOutcome}
    (hbytes : s.bytes = record.wire ++ mid.bytes) (he : mid.ending = s.ending)
    (hstream : s.stream = record.wire ++ mid.stream) (h : ReadsHello mid (front ++ [record]) result) :
    ReadsHello s front result := by
  have hc : ∀ records, front ++ [record] ++ records = front ++ record :: records := fun records => by
    rw [append_assoc, singleton_append]
  have hs : ∀ {a b c : Bytes} (records : List HelloRecord), a = record.wire ++ b → b = wires records ++ c →
      a = wires (record :: records) ++ c := by
    intro a b c records ha hb
    rw [ha, hb, wires_cons, append_assoc]
  cases h with
  | hello records hby' hst' hne hm hp hn =>
    rw [hc] at hm hn ⊢
    exact .hello (record :: records) (hs records hbytes hby') (hs records hstream hst')
      (cons_ne_nil _ _) hm hp hn
  | refused records error hby' hst' =>
    rw [hc]
    exact .refused (record :: records) error (hs records hbytes hby') (hs records hstream hst')
  | tooMany records hco hby' hst' =>
    rw [hc] at hco ⊢
    exact .tooMany (record :: records) hco (hs records hbytes hby') (hs records hstream hst')
  | header records hl hbd hby' hst' =>
    rw [hc]
    rw [append_assoc] at hby' hst'
    refine .header (record :: records) hl hbd ?_ ?_
    · rw [append_assoc]
      exact hs records hbytes hby'
    · rw [append_assoc]
      exact hs records hstream hst'
  | ended hst' =>
    rename_i s'
    have h := @ReadsHello.ended s front s' (by rw [hbytes, hstream, hst', append_assoc])
    rw [hbytes, ← append_assoc, ← he] at h
    rw [wires_concat]
    exact h

variable {s : Source}

theorem readHelloLoop_spec {turns : Nat} {front : List HelloRecord}
    (ht : front.length + turns = maxClientHelloRecords) (hp : Pending (bodies front) expected) :
    ReadsHello s front (readHelloLoop turns s (wires front) (bodies front) expected) := by
  induction turns generalizing s front expected with
  | zero =>
    have h := @ReadsHello.tooMany s front s [] (by rw [append_nil]; exact ht) rfl rfl
    rw [append_nil] at h
    exact h
  | succ turns ih =>
    rw [readHelloLoop]
    have hr := readHelloRecord_spec s (wires front)
    generalize readHelloRecord s (wires front) = result at hr
    cases hr with
    | header hl hb hby hst =>
      have h := @ReadsHello.header s front _ [] _ _ hl hb hby hst
      rw [append_nil] at h
      exact h
    | ended hsh hst => exact .ended hst
    | record record hby he hst =>
      rename_i mid
      dsimp only
      rw [assembleHello_eq hp, ← wires_concat, ← bodies_concat]
      have ha := assembleWhole_spec (bodies (front ++ [record]))
      have ho : wires [record] = record.wire := by rw [wires_cons, wires_nil, append_nil]
      generalize assembleWhole (bodies (front ++ [record])) = assembled at ha
      cases ha with
      | refused error => exact .refused [record] error (by rw [ho]; exact hby) (by rw [ho]; exact hst)
      | hello hl hd hpr =>
        rename_i total hello
        refine .hello [record] (by rw [ho]; exact hby) (by rw [ho]; exact hst) (cons_ne_nil _ _)
          (take_append_drop total _).symm hpr ?_
        intro before last hs
        obtain ⟨rfl, -⟩ := append_inj' hs rfl
        rw [bodies_concat] at hl
        have hlt := hp.length_lt hl
        rw [length_take, Nat.min_eq_left hd]
        exact hlt
      | more hm =>
        refine ReadsHello.cons hby he hst (ih ?_ hm)
        rw [length_append, length_singleton]
        omega

theorem readClientHello_spec (s : Source) : ReadsHello s [] (readClientHello true s) :=
  readHelloLoop_spec (Nat.zero_add _) Pending.nil

theorem ReadsHello.exact {result : Source × HelloOutcome} (h : ReadsHello s [] result) :
    fallbackPrefix result.2 ++ result.1.stream = s.stream := by
  cases h with
  | hello records hb hst => exact hst.symm
  | refused records error hb hst => exact hst.symm
  | tooMany records hc hb hst => exact hst.symm
  | header records hl hbd hb hst => exact hst.symm
  | ended hst => exact hst.symm

/-! ### The cutting into reads makes no difference -/

theorem readHelloRecord_alike {s t : Source} (h : s.Alike t) (wirePrefix : Bytes) :
    (readHelloRecord s wirePrefix).2 = (readHelloRecord t wirePrefix).2 ∧
      ((readHelloRecord s wirePrefix).2.isOk →
        (readHelloRecord s wirePrefix).1.Alike (readHelloRecord t wirePrefix).1) := by
  unfold readHelloRecord
  dsimp only
  obtain ⟨hs, hal⟩ := Source.readTo_alike (by decide : 0 < readScratchBytes) h wirePrefix
    (wirePrefix.length + tlsRecordHeaderLen)
  generalize s.readTo readScratchBytes wirePrefix (wirePrefix.length + tlsRecordHeaderLen) = result at hs hal
  generalize t.readTo readScratchBytes wirePrefix (wirePrefix.length + tlsRecordHeaderLen) = result' at hs hal
  obtain ⟨mid, taken, stop⟩ := result
  obtain ⟨mid', taken', stop'⟩ := result'
  cases hs
  cases stop with
  | some stop => exact ⟨rfl, fun hok => by cases hok⟩
  | none =>
    have hm := hal rfl
    dsimp only at hm ⊢
    generalize taken.drop wirePrefix.length = header
    by_cases ht : header.getD 0 0 ≠ tlsContentTypeHandshake
    · rw [if_pos ht, if_pos ht]
      exact ⟨rfl, fun hok => by cases hok⟩
    rw [if_neg ht, if_neg ht]
    by_cases hr : declaredBodyLen header = 0 ∨ declaredBodyLen header > maxTlsPlaintextBytes
    · rw [if_pos hr, if_pos hr]
      exact ⟨rfl, fun hok => by cases hok⟩
    rw [if_neg hr, if_neg hr]
    obtain ⟨hs, hal⟩ := Source.readTo_alike (by decide : 0 < readScratchBytes) hm taken
      (wirePrefix.length + tlsRecordHeaderLen + declaredBodyLen header)
    generalize mid.readTo readScratchBytes taken
      (wirePrefix.length + tlsRecordHeaderLen + declaredBodyLen header) = result at hs hal
    generalize mid'.readTo readScratchBytes taken
      (wirePrefix.length + tlsRecordHeaderLen + declaredBodyLen header) = result' at hs hal
    obtain ⟨last, taken', stop⟩ := result
    obtain ⟨last', taken'', stop'⟩ := result'
    cases hs
    cases stop with
    | some stop => exact ⟨rfl, fun hok => by cases hok⟩
    | none => exact ⟨rfl, fun _ => hal rfl⟩

theorem readHelloLoop_alike {turns : Nat} {s t : Source} (h : s.Alike t) (wirePrefix handshake : Bytes)
    (expected : Option Nat) :
    (readHelloLoop turns s wirePrefix handshake expected).2 = (readHelloLoop turns t wirePrefix handshake expected).2 := by
  induction turns generalizing s t wirePrefix handshake expected with
  | zero => rfl
  | succ turns ih =>
    rw [readHelloLoop, readHelloLoop]
    obtain ⟨hs, ha⟩ := readHelloRecord_alike h wirePrefix
    generalize readHelloRecord s wirePrefix = result at hs ha
    generalize readHelloRecord t wirePrefix = result' at hs ha
    obtain ⟨mid, outcome⟩ := result
    obtain ⟨mid', outcome'⟩ := result'
    cases hs
    cases outcome with
    | error error => rfl
    | ok read =>
      have hm := ha rfl
      dsimp only
      cases has : assembleHello (handshake ++ read.2) expected with
      | error error => rfl
      | ok progress =>
        obtain ⟨expected, complete⟩ := progress
        cases complete with
        | some complete => rfl
        | none => exact ih hm _ _ _

theorem readClientHello_alike (armed : Bool) {s t : Source} (h : s.Alike t) :
    (readClientHello armed s).2 = (readClientHello armed t).2 := by
  cases armed with
  | false => rfl
  | true => exact readHelloLoop_alike h [] [] none

/-! ### A message cut into records -/

theorem readHelloRecord_wire {record : HelloRecord} {rest : Bytes} (h : s.bytes = record.wire ++ rest)
    (wirePrefix : Bytes) :
    ∃ s', readHelloRecord s wirePrefix = (s', .ok (wirePrefix ++ record.wire, record.body)) ∧ s'.bytes = rest := by
  have hs := readHelloRecord_spec s wirePrefix
  generalize readHelloRecord s wirePrefix = result at hs
  cases hs with
  | record record' hby =>
    rw [h] at hby
    obtain ⟨rfl, hr⟩ := wire_inj hby
    exact ⟨_, rfl, hr.symm⟩
  | header hl hb hby =>
    rw [h, wire, append_assoc] at hby
    obtain ⟨rfl, -⟩ := append_inj hby (record.header_len.trans hl.symm)
    have hp := record.pos
    have hle := record.le
    have hbd := record.body_len
    cases hb with
    | type ht => exact absurd record.handshake ht
    | length hrn => omega
  | ended hsh => exact absurd h (hsh record rest)

theorem readHelloLoop_records {message extra : Bytes} {hello : ClientHello}
    (hparse : parseMessage message = .ok hello) {records : List HelloRecord} {turns : Nat}
    {front : List HelloRecord} {rest : Bytes} (hne : records ≠ []) (hc : records.length ≤ turns)
    (hpend : Pending (bodies front) expected) (hbodies : bodies (front ++ records) = message ++ extra)
    (hn : ∀ before last, front ++ records = before ++ [last] → (bodies before).length < message.length)
    (hb : s.bytes = wires records ++ rest) :
    ∃ s', readHelloLoop turns s (wires front) (bodies front) expected =
      (s', .ok ⟨hello, wires (front ++ records), extra⟩) ∧ s'.bytes = rest := by
  obtain ⟨hp, hw⟩ := assembleWhole_of_message hparse
  induction records generalizing turns s front expected with
  | nil => exact absurd rfl hne
  | cons record records ih =>
    cases turns with
    | zero => cases hc
    | succ turns =>
      rw [wires_cons, append_assoc] at hb
      obtain ⟨mid, hr, hm⟩ := readHelloRecord_wire hb (wires front)
      rw [readHelloLoop, hr]
      dsimp only
      rw [assembleHello_eq hpend, ← wires_concat, ← bodies_concat]
      have hsp : front ++ record :: records = front ++ [record] ++ records := by
        rw [append_assoc, singleton_append]
      rw [hsp] at hbodies hn ⊢
      cases records with
      | nil =>
        rw [append_nil] at hbodies ⊢
        rw [hbodies, hw extra]
        exact ⟨mid, rfl, hm⟩
      | cons next records =>
        -- the message is not complete before its last record
        have hsh : (bodies (front ++ [record])).length < message.length := by
          obtain ⟨init, last, hl⟩ : ∃ init last, next :: records = init ++ [last] := by
            rcases eq_nil_or_concat (next :: records) with hnl | ⟨init, last, hl⟩
            · cases hnl
            · exact ⟨init, last, by rw [hl, concat_eq_append]⟩
          have hlt := hn (front ++ [record] ++ init) last (by rw [hl, append_assoc (front ++ [record])])
          rw [bodies_append, length_append] at hlt
          omega
        have hpr : bodies (front ++ [record]) <+: message := by
          rw [bodies_append] at hbodies
          have hf : bodies (front ++ [record]) <+: message ++ extra := hbodies ▸ prefix_append _ _
          exact prefix_of_prefix_length_le hf (prefix_append _ _) (Nat.le_of_lt hsh)
        have hnn : bodies (front ++ [record]) ≠ [] := by
          rw [bodies_concat]
          exact append_ne_nil_of_right_ne_nil _ (ne_nil_of_length_pos record.pos)
        have hs := assembleWhole_spec (bodies (front ++ [record]))
        rw [hp _ hnn hpr hsh] at hs ⊢
        generalize messageLen (bodies (front ++ [record])) = expected' at hs
        cases hs with
        | more hmr => exact ih (cons_ne_nil _ _) (by simpa using hc) hmr hbodies hn hm

/-- Reading the ClientHello of any connection. What is kept and what is still to come are the stream, and
the bytes kept end where `ReadsHello` says: behind the record of the decision, behind the header if that
alone decided, or where the stream ended. Neither depends on how the stream is cut into reads. And a valid
ClientHello is found in any at most 16 records that carry it, with the rest of the last one as remainder. -/
theorem client_hello_read (s : Source) :
    (∀ armed, fallbackPrefix (readClientHello armed s).2 ++ (readClientHello armed s).1.stream = s.stream) ∧
    ReadsHello s [] (readClientHello true s) ∧ readClientHello false s = (s, .error ⟨.timeout, []⟩) ∧
    (∀ armed t, s.Alike t → (readClientHello armed t).2 = (readClientHello armed s).2) ∧
    (∀ (records : List HelloRecord) (message extra rest : Bytes) (hello : ClientHello),
      records.length ≤ maxClientHelloRecords → parseMessage message = .ok hello →
      bodies records = message ++ extra →
      (∀ before last, records = before ++ [last] → (bodies before).length < message.length) →
      s.bytes = wires records ++ rest →
      ∃ s', readClientHello true s = (s', .ok ⟨hello, wires records, extra⟩) ∧ s'.bytes = rest) := by
  refine ⟨?_, readClientHello_spec s, rfl, ?_, ?_⟩
  · intro armed
    cases armed with
    | false => rfl
    | true => exact (readClientHello_spec s).exact
  · intro armed t ha
    exact (readClientHello_alike armed ha).symm
  · intro records message extra rest hello hc hp hb hn hby
    have hne : records ≠ [] := by
      rintro rfl
      have hf := (parseMessage_ok hp).2.2.1
      have hl := congrArg List.length hb
      rw [bodies_nil, length_append, length_nil] at hl
      omega
    exact readHelloLoop_records hp hne hc (show Pending (bodies []) none from Pending.nil) hb hn hby

/-- A record of another type: the bytes that are kept end inside it. -/
theorem client_hello_read_inside_record :
    let stream : Bytes := [0x17, 3, 3, 0, 1, 9]
    let outcome := (readClientHello true [.data 0x17 [3, 3, 0, 1, 9]]).2
    outcome = .error ⟨.unexpectedRecordType, stream.take 5⟩ ∧
      stream.length = tlsRecordHeaderLen + declaredBodyLen stream := by
  decide +kernel

end RustReality.Tls
