import RustReality.Vless.Request

/-!
# The borrowing decoder of VLESS requests

`decode_request_ref` keeps a position in the input and returns ranges of it where `decode_request`
copies bytes. `Borrows` relates a decoder of ranges to the decoder of the bytes they stand for, field
by field.
-/

namespace RustReality.Vless

structure Borrowed where
  start : Nat
  stop : Nat
  deriving DecidableEq, Repr

def Borrowed.of (input : Bytes) (range : Borrowed) : Bytes := slice input range.start range.stop

inductive AddressRef (input : Bytes)
  | ipv4 (bits : BitVec 32)
  | domain (name : Borrowed) (valid : (name.of input).toByteArray.IsValidUTF8)
  | ipv6 (bits : BitVec 128)

structure DestinationRef (input : Bytes) where
  address : AddressRef input
  port : UInt16

structure DecodeRequestRef (input : Bytes) where
  version : UInt8
  userId : UserId
  addons : Borrowed
  command : Command
  destination : Option (DestinationRef input)
  payload : Borrowed

def AddressRef.intoOwned {input : Bytes} : AddressRef input → Address
  | .ipv4 bits => .ipv4 bits
  | .domain name valid => .domain ⟨name.of input, valid⟩
  | .ipv6 bits => .ipv6 bits

def DestinationRef.intoOwned {input : Bytes} (self : DestinationRef input) : Destination :=
  ⟨self.address.intoOwned, self.port⟩

/-! ### The decoder -/

abbrev RefCursor := StateT Nat (Except DecodeError)

namespace RefCursor

def fail {β : Type} (error : DecodeError) : RefCursor β := fun _ => .error error

variable (input : Bytes)

def take (length : Nat) (field : String) : RefCursor Borrowed := fun position =>
  let remaining := input.length - position
  if remaining < length then .error (.unexpectedEnd field length remaining)
  else .ok (⟨position, position + length⟩, position + length)

def readU8 (field : String) : RefCursor UInt8 := do
  let range ← take input 1 field
  return (range.of input).headD 0

def readU16 (field : String) : RefCursor UInt16 := do
  let range ← take input 2 field
  return portOfBytes (range.of input)

def decodeCommand (value : UInt8) : RefCursor Command :=
  match value with
  | 0x01 => return .tcp
  | 0x02 => return .udp
  | 0x03 => return .mux
  | 0x04 => return .reverse
  | unknown => fail (.unknownCommand unknown)

def decodeDomainRef : RefCursor (AddressRef input) := do
  let length ← readU8 input "domain length"
  if length = 0 then fail .emptyDomain
  else
    let name ← take input length.toNat "domain"
    if !(name.of input).all isDomainByte then fail .invalidDomainName
    else if valid : (name.of input).toByteArray.IsValidUTF8 then return .domain name valid
    else fail .invalidDomainName

def decodeAddressRef (addressType : UInt8) : RefCursor (AddressRef input) :=
  match addressType with
  | 0x01 => do
    let octets ← take input 4 "IPv4 address"
    return .ipv4 (ipv4OfOctets (octets.of input))
  | 0x02 => decodeDomainRef input
  | 0x03 => do
    let octets ← take input 16 "IPv6 address"
    return .ipv6 (ipv6OfOctets (octets.of input))
  | unknown => fail (.unknownAddressType unknown)

def decodeDestinationRef : RefCursor (DestinationRef input) := do
  let port ← readU16 input "destination port"
  let addressType ← readU8 input "address type"
  let address ← decodeAddressRef input addressType
  return ⟨address, port⟩

def remainingSlice : RefCursor Borrowed := fun position => .ok (⟨position, input.length⟩, position)

def decodeRequest : RefCursor (DecodeRequestRef input) := do
  let first ← readU8 input "protocol version"
  if first ≠ version then fail (.unsupportedVersion first)
  else
    let userId ← take input 16 "user ID"
    let addonsLength ← readU8 input "addons length"
    let addons ← take input addonsLength.toNat "addons"
    let value ← readU8 input "command"
    let command ← decodeCommand value
    let destination ← if command.requiresDestination then some <$> decodeDestinationRef input else pure none
    let payload ← remainingSlice input
    return ⟨first, vectorAt 16 (userId.of input) 0, addons, command, destination, payload⟩

end RefCursor

def decodeRequestRef (input : Bytes) : Except DecodeError (DecodeRequestRef input) :=
  (RefCursor.decodeRequest input 0).map Prod.fst

def DecodeRequestRef.intoOwned {input : Bytes} (self : DecodeRequestRef input) : DecodeRequest :=
  ⟨⟨self.version, self.userId, self.addons.of input, self.command, self.destination.map (·.intoOwned)⟩,
    self.payload.of input⟩

/-! ### Agreement -/

variable {input : Bytes} {α β γ δ : Type}

/-- At every position a decoder of ranges does what the other one does on the bytes from there on. -/
def Borrows (input : Bytes) (own : β → α) (borrowed : RefCursor β) (owned : Cursor DecodeError α) : Prop :=
  ∀ position ≤ input.length,
    (∃ error, borrowed position = .error error ∧ owned (input.drop position) = .error error) ∨
    ∃ value next, borrowed position = .ok (value, next) ∧ next ≤ input.length ∧
      owned (input.drop position) = .ok (own value, input.drop next)

namespace Borrows

variable {own : β → α} {borrowed : RefCursor β} {owned : Cursor DecodeError α}

theorem fail (error : DecodeError) : Borrows input own (RefCursor.fail error) (Cursor.fail error) :=
  fun _ _ => .inl ⟨error, rfl, rfl⟩

theorem pure {value : β} {result : α} (h : own value = result) : Borrows input own (pure value) (pure result) := by
  subst h
  exact fun position hle => .inr ⟨value, position, rfl, hle, rfl⟩

theorem bind (h : Borrows input own borrowed owned) {own' : δ → γ} {next : β → RefCursor δ}
    {next' : α → Cursor DecodeError γ} (hn : ∀ value, Borrows input own' (next value) (next' (own value))) :
    Borrows input own' (borrowed >>= next) (owned >>= next') := by
  intro position hle
  rcases h position hle with ⟨error, hbr, how⟩ | ⟨value, middle, hbr, hm, how⟩
  · exact .inl ⟨error, by simp [Bind.bind, StateT.bind, hbr, Except.bind],
      by simp [Bind.bind, StateT.bind, how, Except.bind]⟩
  · rcases hn value middle hm with ⟨error, hb, ho⟩ | ⟨result, last, hb, hl, ho⟩
    · exact .inl ⟨error, by simpa [Bind.bind, StateT.bind, hbr, Except.bind] using hb,
        by simpa [Bind.bind, StateT.bind, how, Except.bind] using ho⟩
    · exact .inr ⟨result, last, by simpa [Bind.bind, StateT.bind, hbr, Except.bind] using hb, hl,
        by simpa [Bind.bind, StateT.bind, how, Except.bind] using ho⟩

theorem take (length : Nat) (field : String) :
    Borrows input (Borrowed.of input) (RefCursor.take input length field) (takeField field length) := by
  intro position hle
  unfold RefCursor.take takeField
  rw [List.length_drop]
  dsimp only
  split_ifs with hs
  · exact .inl ⟨_, rfl, rfl⟩
  · refine .inr ⟨_, _, rfl, by omega, ?_⟩
    simp [Borrowed.of, slice, List.drop_take, Nat.add_comm]

theorem readU8 (field : String) : Borrows input id (RefCursor.readU8 input field) (Vless.readU8 field) :=
  (take 1 field).bind fun _ => pure rfl

theorem readU16 (field : String) : Borrows input id (RefCursor.readU16 input field) (Vless.readU16 field) :=
  (take 2 field).bind fun _ => pure rfl

theorem decodeCommand (value : UInt8) :
    Borrows input id (RefCursor.decodeCommand value) (Vless.decodeCommand value) := by
  fun_cases Vless.decodeCommand value
  case case5 =>
    simp only [RefCursor.decodeCommand]
    exact fail _
  all_goals exact pure rfl

theorem decodeDomain : Borrows input AddressRef.intoOwned (RefCursor.decodeDomainRef input) Vless.decodeDomain := by
  refine (readU8 _).bind fun length => ?_
  dsimp only [id]
  split_ifs with hz
  · exact fail _
  refine (take _ _).bind fun name => ?_
  split_ifs with hb hv
  · exact fail _
  · rw [Text.ofUtf8?, dif_pos hv]
    exact pure rfl
  · rw [Text.ofUtf8?, dif_neg hv]
    exact fail _

theorem decodeAddress (addressType : UInt8) :
    Borrows input AddressRef.intoOwned (RefCursor.decodeAddressRef input addressType)
      (Vless.decodeAddress addressType) := by
  fun_cases Vless.decodeAddress addressType
  case case4 =>
    simp only [RefCursor.decodeAddressRef]
    exact fail _
  case case2 => exact decodeDomain
  all_goals exact (take _ _).bind fun _ => pure rfl

theorem decodeDestination :
    Borrows input DestinationRef.intoOwned (RefCursor.decodeDestinationRef input) Vless.decodeDestination :=
  (readU16 _).bind fun _ => (readU8 _).bind fun _ => (decodeAddress _).bind fun _ => pure rfl

/-- The payload is the rest of the input, as a range and as the bytes behind the consumed ones. -/
theorem payload {header : RequestHeader} {f : Borrowed → DecodeRequestRef input}
    (h : ∀ range, (f range).intoOwned = ⟨header, range.of input⟩ ∧ (f range).payload = range) :
    Borrows input (fun request => (request.intoOwned, request.payload.start))
      (RefCursor.remainingSlice input >>= fun range => Pure.pure (f range))
      (get >>= fun payload => Pure.pure ((⟨header, payload⟩ : DecodeRequest), input.length - payload.length)) := by
  intro position hle
  refine .inr ⟨f ⟨position, input.length⟩, position, rfl, hle, ?_⟩
  show Except.ok (((⟨header, input.drop position⟩ : DecodeRequest), input.length - (input.drop position).length), _) = _
  simp [h, Borrowed.of, slice, Nat.sub_sub_self hle]

theorem decodeRequest : Borrows input (fun request => (request.intoOwned, request.payload.start))
    (RefCursor.decodeRequest input) (decodeHeader >>= fun header =>
      get >>= fun payload => Pure.pure ((⟨header, payload⟩ : DecodeRequest), input.length - payload.length)) := by
  unfold RefCursor.decodeRequest decodeHeader
  rw [bind_assoc]
  refine (readU8 _).bind fun first => ?_
  dsimp only [id]
  by_cases hv : first ≠ version
  · rw [if_pos hv, if_pos hv]
    exact fail _
  rw [if_neg hv, if_neg hv]
  simp only [bind_assoc]
  refine (take _ _).bind fun userId => (readU8 _).bind fun addonsLength => (take _ _).bind fun addons =>
    (readU8 _).bind fun value => (decodeCommand _).bind fun command => ?_
  dsimp only [id]
  cases command.requiresDestination with
  | false =>
    exact payload fun range => ⟨rfl, rfl⟩
  | true =>
    simp only [if_true, map_eq_pure_bind, bind_assoc, pure_bind]
    exact decodeDestination.bind fun destination => payload fun range => ⟨rfl, rfl⟩

end Borrows

/-- The decoders refuse an input with the same error or accept it with the same fields, and the payload is
what stands behind the request. -/
theorem decodeRequestRef_cases (input : Bytes) :
    (∃ error, decodeRequestRef input = .error error ∧ decodeRequest input = .error error) ∨
    ∃ request, decodeRequestRef input = .ok request ∧ decodeRequest input = .ok request.intoOwned ∧
      request.payload.start ≤ input.length ∧ request.payload.of input = input.drop request.payload.start := by
  have howned : (decodeHeader >>= fun header => get >>= fun payload =>
      pure ((⟨header, payload⟩ : DecodeRequest), input.length - payload.length)) input =
      (decodeHeader input).map fun p => ((⟨p.1, p.2⟩, input.length - p.2.length), p.2) := by
    show (decodeHeader input >>= _) = _
    cases decodeHeader input <;> rfl
  have h := Borrows.decodeRequest 0 (Nat.zero_le input.length)
  rw [List.drop_zero, howned] at h
  unfold decodeRequest decodeRequestRef
  rcases h with ⟨error, hb, ho⟩ | ⟨request, next, hb, hnext, ho⟩ <;> rw [hb] <;>
    rcases hheader : decodeHeader input with error' | ⟨header, payload⟩ <;> rw [hheader] at ho
  · cases ho
    exact .inl ⟨error, rfl, rfl⟩
  · cases ho
  · cases ho
  · obtain ⟨⟨howner, hstart⟩, rfl⟩ : ((⟨header, payload⟩ = request.intoOwned ∧
        input.length - payload.length = request.payload.start) ∧ payload = input.drop next) := by
      simpa [Except.map] using ho
    rw [List.length_drop, Nat.sub_sub_self hnext] at hstart
    exact .inr ⟨request, rfl, congrArg Except.ok howner, hstart ▸ hnext,
      hstart ▸ (congrArg DecodeRequest.payload howner).symm⟩

/-- The two decoders accept the same inputs, with the same fields and the same length, and refuse the
others with the same error. -/
theorem owned_and_borrowed_decoders_agree (input : Bytes) :
    decodeRequest input = (decodeRequestRef input).map DecodeRequestRef.intoOwned ∧
    ∀ request, decodeRequestRef input = .ok request →
      input.length - request.intoOwned.payload.length = request.payload.start := by
  rcases decodeRequestRef_cases input with ⟨error, hr, ho⟩ | ⟨request, hr, ho, hle, hp⟩ <;> rw [hr, ho]
  · exact ⟨rfl, by rintro _ ⟨⟩⟩
  · refine ⟨rfl, ?_⟩
    rintro _ ⟨⟩
    show input.length - (request.payload.of input).length = _
    rw [hp, List.length_drop, Nat.sub_sub_self hle]

end RustReality.Vless
