import RustReality.Vision.Encoder
import RustReality.Vision.Direct
import RustReality.Tls.Reader
import RustReality.Transport.Relay

/-!
# Errors of a Vision session
-/

namespace RustReality.Vision
open Net Tls Transport

inductive VisionSessionError
  | timeout
  | allocationFailed
  | tls (error : TlsApplicationIoError)
  | visionDecode (error : VisionDecodeError)
  | visionEncode (error : VisionEncodeError)
  | destinationTruncatedTlsRecord
  | directTransition (error : InvalidTransition)
  | handoff
  | relay (error : RelayError)
  | io (kind : ErrorKind)
  /-- The session future was dropped. -/
  | dropped
  deriving DecidableEq, Repr

/-- `idle_failure`. -/
def idleFailure : Failure → VisionSessionError
  | .timeout => .timeout
  | .unarmed => .timeout
  | .io kind => .io kind
  | .dropped => .dropped

end RustReality.Vision
