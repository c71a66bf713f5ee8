import RosBridge.Codec.Convert
/-!
# Native representations

`ros/representation.ts`: between the values of codecs and those of the ROS addon, which
has number arrays for bytes. The count of visited fields is the state of `Visit`.
-/

namespace RosBridge.RosJson

open Lib Prog Session

/-- `Object.entries`. -/
def entries (properties : List (JsString × Value)) : List (JsString × Value) :=
  (keys properties).filterMap fun name => (properties.lookup name).map (name, ·)

/-- `Number.isSafeInteger`. -/
def isSafeInteger (value : ℚ) : Bool := value.den = 1 ∧ value.num.natAbs ≤ maxSafeInteger

/-- `Array.from`, of a `Uint8Array`. -/
def numbers (bytes : List UInt8) : Value := .array true (bytes.map fun byte => .number (.finite byte.toNat))

/-- `Uint8Array.from`, of numbers. -/
def uint8Array : Value → Value
  | .array _ items => .bytes <| items.map fun
    | .number (.finite value) => UInt8.ofNat value.num.toNat
    | _ => 0
  | _ => .bytes []

/-- A bridge-native int64 of what the addon delivers for one. -/
def nativeInteger (signed : Bool) : Value → Except String Value
  | .number (.finite value) => if isSafeInteger value then .ok (.bigint value.num) else .error "unsafe_native_int64"
  | .number _ => .error "unsafe_native_int64"
  -- Subscription values may be bigint or decimal strings.
  | .bigint value => do
    let scalar ← createCodec (.integer 64 signed) {}
    scalar.decode (← scalar.encode (.bigint value))
  | value => do
    let codec ← createCodec (.integer 64 signed) {}
    codec.decode value

/-- Validate every uint8 element and the length. -/
def nativeBytes (bounds : LengthBounds) (maxBytes : Nat) (value : Value) : Except String Value := do
  let codec ← createCodec (.array bounds (.integer 8 false)) { maxArrayLength := some (some maxBytes) }
  return uint8Array (← codec.encode value)

structure Representation where
  descriptor : Field
  /-- Its options are the limits of `represent`: the same defaults are merged. -/
  codec : Codec

/-- Normalize native-addon representations to the codec contract. -/
def rosRepresentation (descriptor : Field) (options : Overrides) : Except String Representation := do
  return ⟨descriptor, ← createCodec descriptor options⟩

/-- `++visited > maxNodes`. -/
def visited (limits : CodecOptions) : Visit Unit := do
  modify (· + 1)
  throwIf (limits.maxNodes < (← get)) "native_node_limit"

mutual

/-- Change representations in a bounded tree; `convert` in `rosRepresentation`. -/
def represent (limits : CodecOptions) (fromRos : Bool) : Field → Value → Visit Value
  | .integer bits signed, value => do
    visited limits
    if bits = 64 ∧ fromRos then Prog.ofExcept (nativeInteger signed value) else return value
  | .bytes bounds, value => do
    visited limits
    if fromRos then Prog.ofExcept (nativeBytes bounds limits.maxByteLength value)
    else match value with
      | .bytes bytes => return numbers bytes
      -- The codec has returned a `Uint8Array`.
      | _ => throw "byte array type"
  | .array _ element, value => do
    visited limits
    match value with
    | .array plain items =>
      throwIf (limits.maxArrayLength < items.length) "invalid_native_array"
      throwIf (¬plain) "invalid_native_array_keys"
      return .array true (← items.mapM (represent limits fromRos element))
    | _ => throw "invalid_native_array"
  | .object fields, value => do
    visited limits
    let properties ← record value
    return .object true (← (entries properties).mapM fun (name, item) => do
      return (name, ← representMember limits fromRos fields name item))
  | .boolean, value => do
    visited limits
    return value
  | .string _, value => do
    visited limits
    return value
  | .float _, value => do
    visited limits
    return value

/-- Retain unknown fields for rejection by the final codec. -/
def representMember (limits : CodecOptions) (fromRos : Bool) : List (JsString × Field) → JsString → Value → Visit Value
  | [], _, item => return item
  | (key, field) :: rest, name, item =>
    if key = name then represent limits fromRos field item else representMember limits fromRos rest name item

end

namespace Representation

def convert (representation : Representation) (value : Value) (fromRos : Bool) : Except String Value :=
  ((represent representation.codec.options fromRos representation.descriptor value).exec 0).1

/-- Validate and convert ROS input to bridge-native values; `from` in the source. -/
def fromRos (representation : Representation) (native : Value) : Except String Value := do
  let value ← representation.convert native true
  representation.codec.decode (← representation.codec.encode value)

/-- Validate and convert bridge-native values for the ROS addon; `to` in the source. -/
def toRos (representation : Representation) (native : Value) : Except String Value := do
  representation.convert (← representation.codec.decode (← representation.codec.encode native)) false

end Representation

end RosBridge.RosJson
