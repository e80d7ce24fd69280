import Mathlib

/-!
# Bytes and big-endian numbers

Byte strings are lists of `UInt8`. `beBytes n x` is the `n`-byte big-endian form of `x` and `ofBe`
reads one back; they are inverse on numbers below `256 ^ n` and on strings of length `n`.
-/

namespace RustReality

abbrev Bytes := List UInt8

def beBytes : Nat → Nat → Bytes
  | 0, _ => []
  | n + 1, x => beBytes n (x / 256) ++ [UInt8.ofNat x]

def ofBe (bs : Bytes) : Nat := bs.foldl (fun acc b => acc * 256 + b.toNat) 0

@[simp] theorem length_beBytes (n x : Nat) : (beBytes n x).length = n := by
  induction n generalizing x with
  | zero => rfl
  | succ n ih => simp [beBytes, ih]

@[simp] theorem ofBe_nil : ofBe [] = 0 := rfl

theorem ofBe_concat (bs : Bytes) (b : UInt8) : ofBe (bs ++ [b]) = ofBe bs * 256 + b.toNat := by
  simp [ofBe]

theorem ofBe_beBytes {n x : Nat} (h : x < 256 ^ n) : ofBe (beBytes n x) = x := by
  induction n generalizing x with
  | zero =>
    simp [beBytes]
    omega
  | succ n ih =>
    have hd : x / 256 < 256 ^ n := by
      rw [Nat.div_lt_iff_lt_mul (by decide)]
      rwa [Nat.pow_succ] at h
    rw [beBytes, ofBe_concat, ih hd]
    simp only [UInt8.toNat_ofNat']
    omega

theorem beBytes_inj {n x y : Nat} (hx : x < 256 ^ n) (hy : y < 256 ^ n)
    (h : beBytes n x = beBytes n y) : x = y := by
  rw [← ofBe_beBytes hx, ← ofBe_beBytes hy, h]

theorem ofBe_lt (bs : Bytes) : ofBe bs < 256 ^ bs.length := by
  induction bs using List.reverseRecOn with
  | nil => decide
  | append_singleton bs b ih =>
    have hb : b.toNat < 256 := b.toNat_lt
    rw [ofBe_concat, List.length_append, List.length_singleton, Nat.pow_succ]
    omega

theorem beBytes_ofBe (bs : Bytes) : beBytes bs.length (ofBe bs) = bs := by
  induction bs using List.reverseRecOn with
  | nil => rfl
  | append_singleton bs b ih =>
    have hb : b.toNat < 256 := b.toNat_lt
    have hd : (ofBe bs * 256 + b.toNat) / 256 = ofBe bs := by omega
    have hl : UInt8.ofNat (ofBe bs * 256 + b.toNat) = b := by
      apply UInt8.toNat.inj
      rw [UInt8.toNat_ofNat']
      omega
    rw [ofBe_concat, List.length_append, List.length_singleton, beBytes, hd, hl, ih]

theorem beBytes_ofBe_of {bs : Bytes} {n : Nat} (h : bs.length = n) : beBytes n (ofBe bs) = bs := by
  subst h
  exact beBytes_ofBe bs

/-! ### Buffers -/

def overwrite (buffer : Bytes) (offset : Nat) (piece : Bytes) : Bytes :=
  buffer.take offset ++ piece ++ buffer.drop (offset + piece.length)

/-- The bytes of a buffer from `start` up to `stop`. -/
def slice (buffer : Bytes) (start stop : Nat) : Bytes := (buffer.take stop).drop start

/-- The `n` bytes at an offset. -/
def vectorAt (n : Nat) (buffer : Bytes) (offset : Nat) : Vector UInt8 n := Vector.ofFn fun i => buffer.getD (offset + i) 0

open Vector List

theorem slice_take {buffer : Bytes} {start stop len : Nat} (h : stop ≤ len) :
    slice (buffer.take len) start stop = slice buffer start stop := by
  unfold slice
  rw [take_take, Nat.min_eq_left h]

theorem vectorAt_take {n len offset : Nat} (h : offset + n ≤ len) (buffer : Bytes) :
    vectorAt n (buffer.take len) offset = vectorAt n buffer offset := by
  unfold vectorAt
  congr 1
  funext i
  rw [getD_eq_getElem?_getD, getD_eq_getElem?_getD, getElem?_take_of_lt (by omega)]

variable {buffer piece : Bytes} {offset : Nat}

theorem overwrite_take (h : offset ≤ buffer.length) :
    (overwrite buffer offset piece).take (offset + piece.length) = buffer.take offset ++ piece := by
  exact take_left' (by simp [Nat.min_eq_left h])

theorem length_overwrite
    (h : offset + piece.length ≤ buffer.length) : (overwrite buffer offset piece).length = buffer.length := by
  simp only [overwrite, length_append, length_take, length_drop]
  omega

theorem overwrite_middle (a x b : Bytes) {y : Bytes} (h : y.length = x.length) :
    overwrite (a ++ x ++ b) a.length y = a ++ y ++ b := by
  have ht : (a ++ x ++ b).take a.length = a := by rw [List.append_assoc, List.take_left]
  have hd : (a ++ x ++ b).drop (a.length + y.length) = b := drop_left' (by simp [h])
  rw [overwrite, ht, hd]

theorem slice_middle (a x b : Bytes) : slice (a ++ x ++ b) a.length (a.length + x.length) = x := by
  rw [slice, ← length_append, take_left, drop_left]

variable {start stop : Nat}

theorem slice_at {a x b : Bytes} (hstart : a.length = start) (hs : start + x.length = stop) :
    slice (a ++ x ++ b) start stop = x := by
  subst hstart hs
  exact slice_middle a x b

theorem length_slice {buffer : Bytes} (h : stop ≤ buffer.length) :
    (slice buffer start stop).length = stop - start := by
  rw [slice, length_drop, length_take, Nat.min_eq_left h]

theorem slice_join {buffer : Bytes} {start middle stop : Nat} (hf : start ≤ middle) (hs : middle ≤ stop) :
    slice buffer start middle ++ slice buffer middle stop = slice buffer start stop := by
  have hm : (slice buffer start stop).take (middle - start) = slice buffer start middle := by
    unfold slice
    rw [← drop_take, take_take, Nat.min_eq_left hs]
  have hr : (slice buffer start stop).drop (middle - start) = slice buffer middle stop := by
    unfold slice
    rw [drop_drop, Nat.add_sub_cancel' hf]
  rw [← hm, ← hr, take_append_drop]

theorem slice_whole (buffer : Bytes) : slice buffer 0 buffer.length = buffer := by
  rw [slice, take_length, drop_zero]

theorem toList_vectorAt {n : Nat} {buffer : Bytes} (h : offset + n ≤ buffer.length) :
    (vectorAt n buffer offset).toList = slice buffer offset (offset + n) := by
  apply ext_getElem
  · rw [length_toList, length_slice h]
    omega
  · intro i hi hi'
    rw [length_toList] at hi
    have hlt : offset + i < buffer.length := by omega
    simp only [vectorAt, slice, Vector.getElem_toList, Vector.getElem_ofFn, List.getElem_drop, List.getElem_take,
      List.getD_eq_getElem?_getD, List.getElem?_eq_getElem hlt, Option.getD_some]

theorem slice_self (buffer : Bytes) (n : Nat) : slice buffer n n = [] := by
  rw [slice, drop_eq_nil_iff, length_take]
  exact Nat.min_le_left _ _

theorem take_slice {buffer : Bytes} {start n stop : Nat} (h : start + n ≤ stop) :
    (slice buffer start stop).take n = slice buffer start (start + n) := by
  have hn : n = start + n - start := by omega
  rw [slice, slice, hn, ← drop_take, take_take, ← hn, Nat.min_eq_left h]

theorem drop_slice (buffer : Bytes) (start n stop : Nat) :
    (slice buffer start stop).drop n = slice buffer (start + n) stop := by
  rw [slice, slice, drop_drop]

theorem slice_overwrite_append {start offset : Nat} (hs : start ≤ offset) (h : offset + piece.length ≤ buffer.length) :
    slice (overwrite buffer offset piece) start (offset + piece.length) = slice buffer start offset ++ piece := by
  rw [slice, overwrite_take (by omega), drop_append_of_le_length (by rw [length_take]; omega), slice]

theorem slice_overwrite_after {offset start stop : Nat}
    (hle : offset + piece.length ≤ buffer.length) (h : offset + piece.length ≤ start) :
    slice (overwrite buffer offset piece) start stop = slice buffer start stop := by
  have hd : (overwrite buffer offset piece).drop start = buffer.drop start := by
    have hl : (buffer.take offset ++ piece).length = offset + piece.length := by
      rw [length_append, length_take, Nat.min_eq_left (by omega)]
    obtain ⟨k, rfl⟩ := Nat.le.dest h
    rw [overwrite, ← drop_drop, ← hl, drop_left, hl, drop_drop]
  rw [slice, slice, drop_take, drop_take, hd]

theorem getElem?_overwrite (h : offset + piece.length ≤ buffer.length) (i : Nat) :
    (overwrite buffer offset piece)[i]? =
      if offset ≤ i ∧ i < offset + piece.length then piece[i - offset]? else buffer[i]? := by
  have hl : (buffer.take offset).length = offset := by
    rw [List.length_take, Nat.min_eq_left (by omega)]
  rw [overwrite, List.append_assoc]
  by_cases hf : i < offset
  · rw [List.getElem?_append_left (by omega), List.getElem?_take_of_lt hf, if_neg (by omega)]
  rw [List.getElem?_append_right (by omega), hl]
  by_cases hi : i < offset + piece.length
  · rw [List.getElem?_append_left (by omega), if_pos (by omega)]
  · rw [List.getElem?_append_right (by omega), List.getElem?_drop, if_neg (by omega)]
    congr 1
    omega

theorem slice_overwrite_inside {buffer piece : Bytes} {offset start stop : Nat}
    (hle : offset + piece.length ≤ buffer.length) (hs : stop ≤ piece.length) :
    slice (overwrite buffer offset piece) (offset + start) (offset + stop) = slice piece start stop := by
  have hl : (buffer.take offset).length = offset := by
    rw [length_take, Nat.min_eq_left (by omega)]
  rw [slice, overwrite, List.append_assoc, slice]
  generalize buffer.take offset = front at hl
  subst hl
  rw [take_length_add_append, take_append_of_le_length hs, ← drop_drop, drop_left]

theorem cut_buffer (buffer : Bytes) (h : start ≤ stop) (hle : stop ≤ buffer.length) :
    ∃ a x b, buffer = a ++ x ++ b ∧ a.length = start ∧ x.length = stop - start ∧ slice buffer start stop = x := by
  refine ⟨buffer.take start, slice buffer start stop, buffer.drop stop, ?_, ?_, ?_, rfl⟩
  · have hf : buffer.take start = (buffer.take stop).take start := by
      rw [take_take, Nat.min_eq_left h]
    rw [slice, hf, take_append_drop, take_append_drop]
  · rw [length_take, Nat.min_eq_left (Nat.le_trans h hle)]
  · rw [slice, length_drop, length_take, Nat.min_eq_left hle]

end RustReality
