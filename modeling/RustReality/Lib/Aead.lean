import RustReality.Lib.Bytes

/-!
# An ideal AEAD

A cipher encrypts by an arbitrary function of fixed expansion, which may refuse. The ideal part is
decryption: it answers only from the log of the encryptions made so far, so a ciphertext that no
holder of the key produced never decrypts, and one that was produced decrypts to what went in.
-/

namespace RustReality.Aead

/-- An encryption function: the ciphertext is as long as the plaintext, the tag has a fixed size. -/
structure Cipher (K : Type*) (tagSize : Nat) where
  encrypt : K → Bytes → Bytes → Bytes → Option (Bytes × Bytes)
  ciphertext_length : ∀ {k n a p c t}, encrypt k n a p = some (c, t) → c.length = p.length
  tag_length : ∀ {k n a p c t}, encrypt k n a p = some (c, t) → t.length = tagSize

structure Sealing (K : Type*) where
  key : K
  nonce : Bytes
  aad : Bytes
  plaintext : Bytes
  ciphertext : Bytes
  tag : Bytes
  deriving DecidableEq, Repr

variable {K : Type*} {tagSize : Nat} [DecidableEq K]

def encrypt (cipher : Cipher K tagSize) (log : List (Sealing K)) (key : K) (nonce aad plaintext : Bytes) :
    List (Sealing K) × Option (Bytes × Bytes) :=
  match cipher.encrypt key nonce aad plaintext with
  | none => (log, none)
  | some (ciphertext, tag) => (⟨key, nonce, aad, plaintext, ciphertext, tag⟩ :: log, some (ciphertext, tag))

def decrypt (log : List (Sealing K)) (key : K) (nonce aad ciphertext tag : Bytes) : Option Bytes :=
  (log.find? fun s => s.key = key ∧ s.nonce = nonce ∧ s.aad = aad ∧ s.ciphertext = ciphertext ∧
    s.tag = tag).map Sealing.plaintext

theorem mem_of_decrypt {log : List (Sealing K)} {key : K} {nonce aad plaintext ciphertext tag : Bytes}
    (h : decrypt log key nonce aad ciphertext tag = some plaintext) :
    ⟨key, nonce, aad, plaintext, ciphertext, tag⟩ ∈ log := by
  obtain ⟨s, hf, rfl⟩ := Option.map_eq_some_iff.mp h
  have hm := List.find?_some hf
  simp only [decide_eq_true_eq] at hm
  obtain ⟨rfl, rfl, rfl, rfl, rfl⟩ := hm
  exact List.mem_of_find?_eq_some hf

/-- What was encrypted decrypts, as long as no nonce was used twice under a key. -/
theorem decrypt_of_mem {log : List (Sealing K)} (hn : (log.map fun e => (e.key, e.nonce)).Nodup)
    {e : Sealing K} (he : e ∈ log) : decrypt log e.key e.nonce e.aad e.ciphertext e.tag = some e.plaintext := by
  unfold decrypt
  cases hf : log.find? fun s => s.key = e.key ∧ s.nonce = e.nonce ∧ s.aad = e.aad ∧
      s.ciphertext = e.ciphertext ∧ s.tag = e.tag with
  | none => exact absurd (List.find?_eq_none.1 hf e he) (by simp)
  | some s =>
    have hm := List.find?_some hf
    simp only [decide_eq_true_eq] at hm
    have hs : s = e :=
      List.inj_on_of_nodup_map hn (List.mem_of_find?_eq_some hf) he (Prod.ext hm.1 hm.2.1)
    rw [hs]
    rfl

end RustReality.Aead
