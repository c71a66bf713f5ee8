import RosBridge.Codec.Schema
import RosBridge.Lib.Base64
import RosBridge.Lib.Binary
import RosBridge.Lib.Decimal
/-!
# Codecs

`codec/index.ts` and `codec/scalars.ts`. A codec works in two modes, `encode` and not
`encode`, with one function for each kind of field.
-/

namespace RosBridge.RosJson

open Lib Prog Session

/-- Validate schema and resource limits together. -/
def checkLength (size : Nat) (field : LengthBounds) (limit : Nat) : Visit Unit := do
  requireValue (size ≤ limit) "resource length limit"
  requireValue (∀ n ∈ field.length, size = n) "fixed length"
  requireValue (∀ n ∈ field.maxLength, size ≤ n) "bounded length"

/-- The range of an integer type. -/
def minimum (bits : Nat) (signed : Bool) : ℤ := if signed then -(2 ^ (bits - 1)) else 0

def maximum (bits : Nat) (signed : Bool) : ℤ := if signed then 2 ^ (bits - 1) - 1 else 2 ^ bits - 1

/-- What is wrong with a value of another type. -/
def integerType (bits : Nat) (encode : Bool) : String :=
  if bits ≠ 64 then "integer type" else if encode then "64-bit integer type" else "64-bit decimal length"

/-- The integer a value stands for; 64-bit integers are never numbers. -/
def parsed (bits : Nat) (encode : Bool) : Value → Visit ℤ
  | .bigint value => do
    requireValue (bits = 64 ∧ encode) (integerType bits encode)
    return value
  | .string value => do
    requireValue (bits = 64 ∧ !encode ∧ value.length ≤ 20) (integerType bits encode)
    requireValue (canonicalDecimal (JsString.chars value)) "canonical decimal"
    return bigInt (JsString.chars value)
  | .number (.finite value) => do
    requireValue (bits ≠ 64 ∧ value.den = 1) (integerType bits encode)
    return value.num
  | _ => throw ("Invalid codec value: " ++ integerType bits encode)

/-- How an integer is represented. -/
def integerValue (bits : Nat) (encode : Bool) (value : ℤ) : Value :=
  if bits ≠ 64 then .number (.finite value)
  else if encode then .string (utf16 (decimalText value))
  else .bigint value

/-- Convert integers according to the schema. -/
def integer (bits : Nat) (signed : Bool) (value : Value) (encode : Bool) : Visit Value := do
  let parsed ← parsed bits encode value
  requireValue (minimum bits signed ≤ parsed ∧ parsed ≤ maximum bits signed) "integer range"
  return integerValue bits encode parsed

/-- `String(value)`, for a number that is not finite. -/
def tag : Number → JsString
  | .infinity false => utf16 "Infinity".toList
  | .infinity true => utf16 "-Infinity".toList
  | _ => utf16 "NaN".toList

/-- The number a tag stands for. -/
def untag (value : JsString) : Option Number :=
  if value = tag .nan then some .nan
  else if value = tag (.infinity false) then some (.infinity false)
  else if value = tag (.infinity true) then some (.infinity true)
  else none

/-- The number of a float type nearest to a finite one. -/
def rounded (bits : Nat) (value : ℚ) : Option ℚ := if bits = 32 then fround value else some value

/-- Handle nonfinite values only within float fields. -/
def floating (bits : Nat) (value : Value) (encode allow : Bool) : Visit Value :=
  match value with
  | .string value => do
    requireValue (!encode) "float type"
    match untag value with
    | none => throw "Invalid codec value: float tag"
    | some number => do
      requireValue allow "float tag"
      return .number number
  | .number (.finite value) =>
    match rounded bits value with
    | none => throw "Invalid codec value: float32 overflow"
    | some value => return .number (.finite value)
  | .number number => do
    requireValue (encode ∧ allow) "non-finite float"
    return .string (tag number)
  | _ => throw "Invalid codec value: float type"

/-- Convert uint8 sequences to canonical base64. -/
def bytes (field : LengthBounds) (value : Value) (encode : Bool) (limit : Nat) : Visit Value :=
  match value with
  | .bytes value => do
    requireValue encode "base64 type"
    checkLength value.length field limit
    return .string (utf16 (base64 value))
  | .string value => do
    requireValue (!encode) "byte array type"
    requireValue (value.length ≤ 4 * ((limit + 2) / 3)) "encoded byte limit"
    let text := JsString.chars value
    requireValue (base64Shape text) "base64 syntax"
    let decoded := fromBase64 text
    -- Require a unique representation, including unused padding bits.
    requireValue (utf16 (base64 decoded) = value) "canonical base64"
    checkLength decoded.length field limit
    return .bytes decoded
  | _ => throw ("Invalid codec value: " ++ if encode then "byte array type" else "base64 type")

/-- Validate and convert scalar fields in both directions. -/
def scalar (field : Field) (value : Value) (encode : Bool) (options : CodecOptions) : Visit Value :=
  match field, value with
  | .boolean, .boolean value => return .boolean value
  | .boolean, _ => throw "Invalid codec value: boolean type"
  | .string bounds, .string value => do
    requireValue (JsString.paired value) "unpaired surrogate"
    checkLength (JsString.utf8Length value) bounds options.maxStringBytes
    return .string value
  | .string _, _ => throw "Invalid codec value: string type"
  | .integer bits signed, value => integer bits signed value encode
  | .float bits, value => floating bits value encode options.allowNonFinite
  | .bytes bounds, value => bytes bounds value encode options.maxByteLength
  | _, _ => throw "Invalid codec value: unknown kind"

mutual

/-- Recursively convert a subtree. -/
def visit (options : CodecOptions) (encode : Bool) : Field → Value → Nat → Visit Value
  | .array bounds element, value, depth => do
    enter options depth "payload complexity"
    match value with
    | .array plain items =>
      checkLength items.length bounds options.maxArrayLength
      requireValue plain "array keys"
      return .array true (← items.mapM fun item => visit options encode element item (depth + 1))
    | _ => throw "Invalid codec value: array type"
  | .object fields, value, depth => do
    enter options depth "payload complexity"
    let object ← record value
    requireValue ((keys object).length = fields.length) "object field count"
    return .object true (← visitFields options encode fields object (depth + 1))
  | field, value, depth => do
    enter options depth "payload complexity"
    scalar field value encode options

/-- The fields of an object, by name. -/
def visitFields (options : CodecOptions) (encode : Bool) :
    List (JsString × Field) → List (JsString × Value) → Nat → Visit (List (JsString × Value))
  | [], _, _ => return []
  | (name, field) :: rest, object, depth => do
    match object.lookup name with
    | none => throw "Invalid codec value: missing field"
    | some value =>
      let value ← visit options encode field value depth
      return (name, value) :: (← visitFields options encode rest object depth)

end

/-- A codec: a validated schema and its options. -/
structure Codec where
  schema : Field
  options : CodecOptions

/-- Create a codec from a validated schema. -/
def createCodec (descriptor : Field) (overrides : Overrides) : Except String Codec := do
  let options ← codecOptions overrides
  let schema ← snapshotSchema descriptor options
  return ⟨schema, options⟩

namespace Codec

/-- Each conversion has a node budget of its own. -/
def convert (codec : Codec) (input : Value) (encode : Bool) : Except String Value :=
  ((visit codec.options encode codec.schema input 0).exec 0).1

/-- Convert native values to wire values. -/
def encode (codec : Codec) (native : Value) : Except String Value := codec.convert native true

/-- Convert wire values to native values. -/
def decode (codec : Codec) (wire : Value) : Except String Value := codec.convert wire false

end Codec

end RosBridge.RosJson
