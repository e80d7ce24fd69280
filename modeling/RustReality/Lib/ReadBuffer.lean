import RustReality.Lib.Bytes

/-!
# Read buffers

Storage with two cursors. The bytes between them have been read and are not taken yet; new bytes go
behind the second cursor, and the storage is compacted or grown when there is no room left for them.
-/

namespace RustReality

structure ReadBuffer where
  storage : Bytes
  start : Nat
  stop : Nat
  start_le : start ≤ stop
  stop_le : stop ≤ storage.length

namespace ReadBuffer

/-- Fresh storage of `size` bytes, nothing held. -/
def fresh (size : Nat) : ReadBuffer := ⟨List.replicate size 0, 0, 0, Nat.le_refl _, Nat.zero_le _⟩

variable (b : ReadBuffer)

def held : Bytes := slice b.storage b.start b.stop

def room : Nat := b.storage.length - b.stop

@[simp] theorem length_held (b : ReadBuffer) : b.held.length = b.stop - b.start := by
  obtain ⟨_, _, _, _, _, hx, hs⟩ := cut_buffer b.storage b.start_le b.stop_le
  rw [held, hs, hx]

def rewind : ReadBuffer := ⟨b.storage, 0, 0, Nat.le_refl _, Nat.zero_le _⟩

theorem length_overwrite_held (b : ReadBuffer) : (overwrite b.storage 0 b.held).length = b.storage.length := by
  have hle := b.stop_le
  exact length_overwrite (by rw [length_held]; omega)

def compact : ReadBuffer where
  storage := overwrite b.storage 0 b.held
  start := 0
  stop := b.stop - b.start
  start_le := Nat.zero_le _
  stop_le := by
    have hle := b.stop_le
    rw [length_overwrite_held]
    omega

/-- Append `more` bytes of storage. -/
def grow (more : Nat) : ReadBuffer where
  storage := b.storage ++ List.replicate more 0
  start := b.start
  stop := b.stop
  start_le := b.start_le
  stop_le := by
    rw [List.length_append]
    exact Nat.le_add_right_of_le b.stop_le

/-- Put a chunk behind the held bytes; one that does not fit is dropped. -/
def push (chunk : Bytes) : ReadBuffer :=
  if h : b.stop + chunk.length ≤ b.storage.length then
    { storage := overwrite b.storage b.stop chunk
      start := b.start
      stop := b.stop + chunk.length
      start_le := Nat.le_add_right_of_le b.start_le
      stop_le := by rwa [length_overwrite h] }
  else b

/-- Take `n` bytes from the front, as far as that many are held. -/
def consume (n : Nat) : ReadBuffer where
  storage := b.storage
  start := min (b.start + n) b.stop
  stop := b.stop
  start_le := Nat.min_le_right _ _
  stop_le := b.stop_le

end ReadBuffer

end RustReality
