import RustReality.Lib.Utf8

/-!
# VLESS Addons

The Addons of a request are a protobuf message: field 1 is the flow, field 2 an opaque seed, and other
fields are skipped by their wire type.
-/

namespace RustReality.Vless

inductive AddonsDecodeError
  | varintOverflow
  | truncated
  | invalidFieldNumber
  | invalidFlowUtf8
  | unsupportedWireType (wireType : UInt8)
  deriving DecidableEq, Repr

structure Addons where
  flow : Option Text := none
  seed : Option Bytes := none
  deriving DecidableEq

def visionFlow : Text := ⟨"xtls-rprx-vision".toUTF8.data.toList, by decide +kernel⟩

/-- The loop of `read_varint` from one of its ten shifts on. -/
def varintFrom : Nat → Nat → UInt64 → Bytes → Except AddonsDecodeError (UInt64 × Bytes)
  | 0, _, _, _ => .error .varintOverflow
  | _ + 1, _, _, [] => .error .truncated
  | turns + 1, shift, value, byte :: rest =>
    if shift = 63 ∧ byte > 1 then .error .varintOverflow
    else
      let value := value ||| ((byte &&& 0x7f).toUInt64 <<< UInt64.ofNat shift)
      if byte &&& 0x80 = 0 then .ok (value, rest) else varintFrom turns (shift + 7) value rest

variable (input : Bytes)

def readVarint : Except AddonsDecodeError (UInt64 × Bytes) := varintFrom 10 0 0 input

def skipBytes (length : Nat) (input : Bytes) : Except AddonsDecodeError Bytes :=
  if input.length < length then .error .truncated else .ok (input.drop length)

def readLengthDelimited : Except AddonsDecodeError (Bytes × Bytes) := do
  let (length, rest) ← readVarint input
  let after ← skipBytes length.toNat rest
  return (rest.take length.toNat, after)

def skipField (wireType : UInt8) (input : Bytes) : Except AddonsDecodeError Bytes :=
  match wireType with
  | 0 => do
    let (_, rest) ← readVarint input
    return rest
  | 1 => skipBytes 8 input
  | 2 => do
    let (_, rest) ← readLengthDelimited input
    return rest
  | 5 => skipBytes 4 input
  | _ => .error (.unsupportedWireType wireType)

def parseField (addons : Addons) (input : Bytes) : Except AddonsDecodeError (Addons × Bytes) := do
  let (key, rest) ← readVarint input
  let field := key >>> 3
  let wireType := (key &&& 0x07).toUInt8
  if field = 0 then .error .invalidFieldNumber
  else if field = 1 ∧ wireType = 2 then
    let (value, rest) ← readLengthDelimited rest
    match Text.ofUtf8? value with
    | none => .error .invalidFlowUtf8
    | some flow => return ({ addons with flow := some flow }, rest)
  else if field = 2 ∧ wireType = 2 then
    let (value, rest) ← readLengthDelimited rest
    return ({ addons with seed := some value }, rest)
  else
    let rest ← skipField wireType rest
    return (addons, rest)

def parseFields : Nat → Addons → Bytes → Except AddonsDecodeError Addons
  | 0, addons, _ => .ok addons
  | _ + 1, addons, [] => .ok addons
  | fuel + 1, addons, input => do
    let (addons, rest) ← parseField addons input
    parseFields fuel addons rest

def Addons.parse : Except AddonsDecodeError Addons := parseFields input.length {} input

/-- The Addons a client sends: the key of field 1, the length of the flow, and the flow. -/
def visionAddons : Bytes := 0x0a :: UInt8.ofNat visionFlow.bytes.length :: visionFlow.bytes

theorem parse_visionAddons : Addons.parse visionAddons = .ok { flow := some visionFlow } := by decide +kernel

end RustReality.Vless
