import RustReality.Lib.Bytes

/-!
# Frames on a byte stream

A receiver appends what it reads to a buffer and drains the complete frames off its front. `Scan` is
what a decoder makes of the front of a buffer, and `Framed` is what makes a format work on a stream:
a frame followed by anything scans as that frame, and no proper part of a frame scans as anything but
incomplete. Then every cutting of a sequence of frames into reads yields exactly these frames.
-/

namespace RustReality.FrameStream
open List

variable {α ε : Type}

inductive Scan (α ε : Type)
  | frame (value : α) (consumed : Nat)
  | incomplete
  | failed (error : ε)

/-- Take frames off the front of a buffer until none is complete. Every frame consumes a byte at
least, so the length of the buffer is enough fuel. -/
def drain (scan : Bytes → Scan α ε) : Nat → Bytes → Bytes × Except ε (List α)
  | 0, buffer => (buffer, .ok [])
  | fuel + 1, buffer =>
    match scan buffer with
    | .incomplete => (buffer, .ok [])
    | .failed error => (buffer, .error error)
    | .frame value consumed =>
      match drain scan fuel (buffer.drop consumed) with
      | (rest, .ok values) => (rest, .ok (value :: values))
      | (rest, .error error) => (rest, .error error)

/-- Append each read to the buffer and drain after it; the frames of all reads in order. -/
def reads (drain : Bytes → Bytes × Except ε (List α)) : Bytes → List Bytes → Bytes × Except ε (List α)
  | buffer, [] => (buffer, .ok [])
  | buffer, chunk :: chunks =>
    match drain (buffer ++ chunk) with
    | (rest, .error error) => (rest, .error error)
    | (rest, .ok values) =>
      match reads drain rest chunks with
      | (rest, .ok more) => (rest, .ok (values ++ more))
      | (rest, .error error) => (rest, .error error)

structure Framed (scan : Bytes → Scan α ε) (Encodes : α → Bytes → Prop) : Prop where
  empty : scan [] = .incomplete
  nonempty : ∀ value wire, Encodes value wire → wire ≠ []
  whole : ∀ value wire, Encodes value wire → ∀ rest, scan (wire ++ rest) = .frame value wire.length
  part : ∀ value wire, Encodes value wire → ∀ front, front <+: wire → front ≠ wire → scan front = .incomplete

def wireOf (sent : List (α × Bytes)) : Bytes := (sent.map Prod.snd).flatten

@[simp] theorem wireOf_nil : wireOf ([] : List (α × Bytes)) = [] := rfl

@[simp] theorem wireOf_cons (first : α × Bytes) (sent : List (α × Bytes)) :
    wireOf (first :: sent) = first.2 ++ wireOf sent := rfl

theorem wireOf_append (front back : List (α × Bytes)) : wireOf (front ++ back) = wireOf front ++ wireOf back := by
  simp [wireOf]

/-- What is left in a buffer when no frame is complete: a proper part of the next frame, or nothing. -/
inductive Stuck : Bytes → List (α × Bytes) → Prop
  | empty (sent : List (α × Bytes)) : Stuck [] sent
  | part {rest : Bytes} {first : α × Bytes} (sent : List (α × Bytes)) (h : rest <+: first.2)
      (hne : rest ≠ first.2) : Stuck rest (first :: sent)

/-- A buffer whose bytes are the front of a sequence of frames, drained: the complete frames come
out and the rest stays. -/
def Drained (drain : Bytes → Bytes × Except ε (List α)) (sent : List (α × Bytes)) (buffer : Bytes) : Prop :=
  ∃ front back rest, sent = front ++ back ∧ buffer = wireOf front ++ rest ∧ Stuck rest back ∧
    drain buffer = (rest, .ok (front.map Prod.fst))

variable {scan : Bytes → Scan α ε} {Encodes : α → Bytes → Prop} {sent : List (α × Bytes)}

theorem drained_of_framed (h : Framed scan Encodes) (fuel : Nat) {buffer : Bytes}
    (hs : ∀ frame ∈ sent, Encodes frame.1 frame.2) (hb : buffer <+: wireOf sent)
    (hfuel : buffer.length ≤ fuel) : Drained (drain scan fuel) sent buffer := by
  induction fuel generalizing sent buffer with
  | zero =>
    have hn : buffer = [] := eq_nil_of_length_eq_zero (by omega)
    subst hn
    exact ⟨[], sent, [], rfl, rfl, .empty sent, rfl⟩
  | succ fuel ih =>
    cases sent with
    | nil =>
      have hn : buffer = [] := prefix_nil.1 hb
      subst hn
      refine ⟨[], [], [], rfl, rfl, .empty [], ?_⟩
      simp only [drain, h.empty, map_nil]
    | cons first sent =>
      have hf := hs first (mem_cons_self ..)
      rcases Nat.lt_or_ge buffer.length first.2.length with hlt | hge
      · -- the next frame is not complete
        have hp : buffer <+: first.2 :=
          prefix_of_prefix_length_le hb (prefix_append _ _) (Nat.le_of_lt hlt)
        have hne : buffer ≠ first.2 := by
          rintro rfl
          exact absurd hlt (Nat.lt_irrefl _)
        refine ⟨[], first :: sent, buffer, rfl, rfl, .part sent hp hne, ?_⟩
        simp only [drain, h.part _ _ hf buffer hp hne, map_nil]
      · have hfr : first.2 <+: buffer :=
          prefix_of_prefix_length_le (prefix_append _ _) hb hge
        obtain ⟨rest, rfl⟩ := hfr
        have hr : rest <+: wireOf sent := (prefix_append_right_inj _).1 hb
        have hps : 0 < first.2.length := length_pos_iff.2 (h.nonempty _ _ hf)
        rw [length_append] at hfuel
        obtain ⟨front, back, stuck, rfl, rfl, hst, hd⟩ :=
          ih (fun frame hfa => hs frame (mem_cons_of_mem _ hfa)) hr (by omega)
        refine ⟨first :: front, back, stuck, rfl, ?_, hst, ?_⟩
        · rw [wireOf_cons, append_assoc]
        · simp only [drain, h.whole _ _ hf, drop_left, hd, map_cons]

/-- Every cutting of the front of a sequence of frames into reads yields the complete frames of it
and no error. -/
theorem reads_prefix {drain : Bytes → Bytes × Except ε (List α)}
    (hd : ∀ sent buffer, (∀ frame ∈ sent, Encodes frame.1 frame.2) → buffer <+: wireOf sent →
      Drained drain sent buffer) (hs : ∀ frame ∈ sent, Encodes frame.1 frame.2) {buffer : Bytes}
    {chunks : List Bytes} (hstuck : Stuck buffer sent) (hc : buffer ++ chunks.flatten <+: wireOf sent) :
    ∃ front back rest, sent = front ++ back ∧ buffer ++ chunks.flatten = wireOf front ++ rest ∧
      Stuck rest back ∧ reads drain buffer chunks = (rest, .ok (front.map Prod.fst)) := by
  induction chunks generalizing sent buffer with
  | nil => exact ⟨[], sent, buffer, rfl, by simp, hstuck, rfl⟩
  | cons chunk chunks ih =>
    rw [flatten_cons, ← append_assoc] at hc ⊢
    obtain ⟨front, back, rest, rfl, hb, hst', ho⟩ :=
      hd sent (buffer ++ chunk) hs (List.IsPrefix.trans (prefix_append _ _) hc)
    rw [hb, wireOf_append, append_assoc] at hc
    have hr : rest ++ chunks.flatten <+: wireOf back := (prefix_append_right_inj _).1 hc
    have hbc : ∀ frame ∈ back, Encodes frame.1 frame.2 := by
      intro frame hf
      exact hs frame (mem_append_right _ hf)
    obtain ⟨front', back', rest', rfl, hw, hst'', hre⟩ := ih hbc hst' hr
    refine ⟨front ++ front', back', rest', by simp, ?_, hst'', ?_⟩
    · rw [hb, append_assoc, hw, wireOf_append, append_assoc]
    · simp only [reads, ho, hre, map_append]

/-- Every cutting of a whole sequence of frames into reads yields exactly the frames and leaves
nothing behind. -/
theorem reads_all {drain : Bytes → Bytes × Except ε (List α)}
    (hd : ∀ sent buffer, (∀ frame ∈ sent, Encodes frame.1 frame.2) → buffer <+: wireOf sent →
      Drained drain sent buffer) (hn : ∀ value wire, Encodes value wire → wire ≠ [])
    (hs : ∀ frame ∈ sent, Encodes frame.1 frame.2) {chunks : List Bytes} (hc : chunks.flatten = wireOf sent) :
    reads drain [] chunks = ([], .ok (sent.map Prod.fst)) := by
  obtain ⟨front, back, rest, rfl, hw, hst, hr⟩ :=
    reads_prefix hd hs (.empty sent) ⟨[], by rw [append_nil, nil_append, hc]⟩
  rw [nil_append, hc, wireOf_append] at hw
  have hb : wireOf back = rest := append_cancel_left hw
  -- nothing can be left: the rest is a proper part of the next frame and all that follows
  cases hst with
  | empty =>
    cases back with
    | nil => simpa using hr
    | cons first back =>
      have hne := hn _ _ (hs first (by simp))
      rw [wireOf_cons, append_eq_nil_iff] at hb
      exact absurd hb.1 hne
  | part sent h hne =>
    obtain ⟨more, hm⟩ := h
    rw [wireOf_cons] at hb
    have hl : rest.length = _ := congrArg List.length hb.symm
    have hl' := congrArg List.length hm
    rw [length_append] at hl hl'
    have hnl : more = [] := eq_nil_of_length_eq_zero (by omega)
    rw [hnl, append_nil] at hm
    exact absurd hm hne

end RustReality.FrameStream
