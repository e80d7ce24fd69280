import RustReality.Tls.Record

/-!
# Traffic secrets

A traffic secret is as long as the digest of the hash of its cipher suite.
-/

namespace RustReality.Tls

inductive HashAlgorithm
  | sha256 | sha384
  deriving DecidableEq, Repr

def HashAlgorithm.outputLen : HashAlgorithm → Nat
  | .sha256 => 32
  | .sha384 => 48

namespace CipherSuite

def wireValue : CipherSuite → UInt16
  | .aes128GcmSha256 => 0x1301
  | .aes256GcmSha384 => 0x1302
  | .chacha20Poly1305Sha256 => 0x1303

def fromWire (value : UInt16) : Option CipherSuite :=
  if value = 0x1301 then some .aes128GcmSha256
  else if value = 0x1302 then some .aes256GcmSha384
  else if value = 0x1303 then some .chacha20Poly1305Sha256
  else none

def hash : CipherSuite → HashAlgorithm
  | .aes128GcmSha256 => .sha256
  | .chacha20Poly1305Sha256 => .sha256
  | .aes256GcmSha384 => .sha384

@[simp] theorem fromWire_wireValue (suite : CipherSuite) : fromWire suite.wireValue = some suite := by
  cases suite <;> rfl

end CipherSuite

structure TrafficSecret where
  algorithm : HashAlgorithm
  bytes : Bytes
  length_eq : bytes.length = algorithm.outputLen
  deriving DecidableEq, Repr

/-- `TrafficSecret::from_bytes`; `none` for bytes of another length than the hash. -/
def TrafficSecret.fromBytes (algorithm : HashAlgorithm) (bytes : Bytes) : Option TrafficSecret :=
  if length_eq : bytes.length = algorithm.outputLen then some ⟨algorithm, bytes, length_eq⟩ else none

@[simp] theorem TrafficSecret.fromBytes_bytes (secret : TrafficSecret) :
    TrafficSecret.fromBytes secret.algorithm secret.bytes = some secret := by
  rw [TrafficSecret.fromBytes, dif_pos secret.length_eq]

end RustReality.Tls
