import RustReality.Lib.Bytes

/-!
# Text

A string is its UTF-8 bytes together with the fact that they are valid UTF-8.
-/

namespace RustReality

structure Text where
  bytes : Bytes
  valid : bytes.toByteArray.IsValidUTF8
  deriving DecidableEq, Repr

namespace Text

/-- Read bytes as text; `none` unless they are valid UTF-8. -/
def ofUtf8? (bytes : Bytes) : Option Text :=
  if valid : bytes.toByteArray.IsValidUTF8 then some ⟨bytes, valid⟩ else none

@[simp] theorem ofUtf8?_bytes (text : Text) : ofUtf8? text.bytes = some text := by
  rw [ofUtf8?, dif_pos text.valid]

theorem bytes_of_ofUtf8? {bytes : Bytes} {text : Text} (h : ofUtf8? bytes = some text) : text.bytes = bytes := by
  unfold ofUtf8? at h
  split at h
  · cases h
    rfl
  · cases h

end Text

end RustReality
