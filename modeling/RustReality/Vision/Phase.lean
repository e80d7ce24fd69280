import RustReality.Vision.Decoder

/-!
# Vision framing byte by byte

What the decoder is for, as a transducer that reads one byte at a time: it expects the user id
once, then headers, each followed by its content and padding, until a command ends the framing.
`decodeInner` refines it (`decodeInner_spec`): a call reads its input as the transducer does,
whatever pieces the code cuts it into.
-/

namespace RustReality.Vision
open List
open Vless (UserId)

/-- Where in the framing the stream is. A phase always expects at least one more byte. -/
inductive Phase
  /-- The user id: the next byte and the ones after it. -/
  | uuid (next : UInt8) (rest : Bytes)
  /-- A header, of which `seen` has been read. -/
  | header (first : Bool) (seen : Bytes)
  /-- `more + 1` bytes of content, then `padding` bytes of padding. -/
  | inContent (command : VisionCommand) (more padding : Nat)
  /-- `more + 1` bytes of padding. -/
  | inPadding (command : VisionCommand) (more : Nat)
  | done (mode : VisionMode)
  | failed (error : VisionDecodeError)
  deriving DecidableEq, Repr

namespace Phase

def expect : Bytes → Phase
  | [] => .header true []
  | next :: rest => .uuid next rest

def finish : VisionCommand → Phase
  | .continue => .header false []
  | .end => .done .raw
  | .direct => .done .direct

/-- Expect the body of a frame; an empty one is finished at once. -/
def enter (command : VisionCommand) : Nat → Nat → Phase
  | content + 1, padding => .inContent command content padding
  | 0, padding + 1 => .inPadding command padding
  | 0, 0 => finish command

def start (first : Bool) (header : Bytes) : Phase :=
  match readHeader first header with
  | .error e => .failed e
  | .ok (command, content, padding) => enter command content padding

def feed : Phase → UInt8 → Phase × Bytes
  | .uuid next rest, b => (if b = next then expect rest else .failed .userIdMismatch, [])
  | .header first seen, b =>
    (if seen.length + 1 < headerSize then .header first (seen ++ [b]) else start first (seen ++ [b]), [])
  | .inContent command more padding, b => (enter command more padding, [b])
  | .inPadding command more, _ => (enter command 0 more, [])
  | .done mode, b => (.done mode, [b])
  | .failed e, _ => (.failed e, [])

def feedAll : Phase → Bytes → Phase × Bytes := Mealy.feedAll feed

def init (userId : UserId) : Phase := expect userId.toList

def mode : Phase → VisionMode
  | .done mode => mode
  | _ => .framed

def error? : Phase → Option VisionDecodeError
  | .failed e => some e
  | _ => none

@[simp] theorem feedAll_nil (ph : Phase) : feedAll ph [] = (ph, []) := rfl

theorem feedAll_append (ph : Phase) (as bs : Bytes) :
    feedAll ph (as ++ bs) =
      ((feedAll (feedAll ph as).1 bs).1, (feedAll ph as).2 ++ (feedAll (feedAll ph as).1 bs).2) :=
  Mealy.feedAll_append ph as bs

theorem feedAll_cons (ph : Phase) (b : UInt8) (bs : Bytes) :
    feedAll ph (b :: bs) = ((feedAll (feed ph b).1 bs).1, (feed ph b).2 ++ (feedAll (feed ph b).1 bs).2) :=
  rfl

/-! ### Whole pieces -/

@[simp] theorem feedAll_done (mode : VisionMode) (bs : Bytes) : feedAll (.done mode) bs = (.done mode, bs) := by
  induction bs with
  | nil => rfl
  | cons b bs ih => rw [feedAll_cons, feed, ih, singleton_append]

@[simp] theorem feedAll_failed (e : VisionDecodeError) (bs : Bytes) :
    feedAll (.failed e) bs = (.failed e, []) := by
  induction bs with
  | nil => rfl
  | cons b bs ih => rw [feedAll_cons, feed, ih, nil_append]

theorem feedAll_expect (bs rest : Bytes) : feedAll (expect (bs ++ rest)) bs = (expect rest, []) := by
  induction bs with
  | nil => rfl
  | cons b bs ih =>
    rw [cons_append, expect, feedAll_cons, feed, if_pos rfl, ih, nil_append]

theorem feedAll_mismatch (bs : Bytes) (expected : Bytes) (hl : bs.length ≤ expected.length)
    (hne : bs ≠ expected.take bs.length) :
    feedAll (expect expected) bs = (.failed .userIdMismatch, []) := by
  induction bs generalizing expected with
  | nil => exact absurd (take_zero).symm hne
  | cons b bs ih =>
    cases expected with
    | nil => simp at hl
    | cons next expected =>
      rw [expect, feedAll_cons, feed, nil_append]
      by_cases hb : b = next
      · subst hb
        rw [if_pos rfl]
        refine ih expected (by simpa using hl) fun heq => hne ?_
        rw [length_cons, take_succ_cons, ← heq]
      · rw [if_neg hb, feedAll_failed]

theorem feedAll_header {first : Bool} {seen bs : Bytes} (hl : seen.length + bs.length < headerSize) :
    feedAll (.header first seen) bs = (.header first (seen ++ bs), []) := by
  induction bs generalizing seen with
  | nil => simp
  | cons b bs ih =>
    rw [length_cons] at hl
    rw [feedAll_cons, feed, if_pos (by omega), ih (by rw [length_append, length_singleton]; omega)]
    simp

theorem feedAll_header_full {first : Bool} {seen bs : Bytes} (hp : 0 < bs.length)
    (hl : seen.length + bs.length = headerSize) :
    feedAll (.header first seen) bs = (start first (seen ++ bs), []) := by
  obtain ⟨init, b, rfl⟩ := eq_nil_or_concat' bs |>.resolve_left (by rintro rfl; simp at hp)
  rw [length_append, length_singleton] at hl
  rw [feedAll_append, feedAll_header (by omega), feedAll_cons, feed,
    if_neg (by rw [length_append]; omega)]
  simp

theorem feedAll_content {command : VisionCommand} {content padding : Nat} {bs : Bytes}
    (hl : bs.length ≤ content) :
    feedAll (enter command content padding) bs = (enter command (content - bs.length) padding, bs) := by
  induction bs generalizing content with
  | nil => rfl
  | cons b bs ih =>
    cases content with
    | zero => simp at hl
    | succ content =>
      rw [length_cons] at hl
      rw [enter, feedAll_cons, feed, ih (by omega), length_cons, Nat.add_sub_add_right]
      rfl

theorem feedAll_padding {command : VisionCommand} {padding : Nat} {bs : Bytes} (hl : bs.length ≤ padding) :
    feedAll (enter command 0 padding) bs = (enter command 0 (padding - bs.length), []) := by
  induction bs generalizing padding with
  | nil => rfl
  | cons b bs ih =>
    cases padding with
    | zero => simp at hl
    | succ padding =>
      rw [length_cons] at hl
      rw [enter, feedAll_cons, feed, ih (by omega), length_cons, Nat.add_sub_add_right]
      rfl

end Phase

end RustReality.Vision
