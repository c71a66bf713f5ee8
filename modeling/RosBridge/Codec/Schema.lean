import Mathlib.Data.List.Dedup
import RosBridge.Lib.Program
import RosBridge.Lib.Utf16
import RosBridge.Session.Validation
/-!
# Values and descriptors

`codec/schema.ts`, and the JavaScript values that codecs take and return. The host
promises nothing about its values, so arrays and objects say whether they are `plain`:
whether all their own properties are the data they hold. A finite number is its exact
value, with one zero.

Both directions of a codec visit fields in the same way, counting them in the state of
`Visit`.
-/

namespace RosBridge.RosJson

open Lib Prog Session

inductive Number where
  | nan
  | infinity (negative : Bool)
  | finite (value : ℚ)
  deriving DecidableEq

/-- `Number.isFinite`. -/
def Number.isFinite : Number → Bool
  | .finite _ => true
  | _ => false

/-- A JavaScript value. The properties of an object are listed in order; the first of a
name counts. -/
inductive Value where
  | null
  | boolean (value : Bool)
  | number (value : Number)
  | bigint (value : ℤ)
  | string (value : JsString)
  /-- A `Uint8Array`. -/
  | bytes (value : List UInt8)
  | array (plain : Bool) (items : List Value)
  | object (plain : Bool) (properties : List (JsString × Value))

/-- Counts the fields visited; throws what the source throws. -/
abbrev Visit := Prog Nat String

def requireValue (condition : Prop) [Decidable condition] (reason : String) : Visit Unit :=
  throwIf (¬condition) ("Invalid codec value: " ++ reason)

/-- `Object.keys`. -/
def keys (properties : List (JsString × Value)) : List JsString := (properties.map (·.1)).dedup

/-- Validate a plain object. -/
def record : Value → Visit (List (JsString × Value))
  | .object plain properties => do
    requireValue plain "object data property"
    return properties
  | _ => throw "Invalid codec value: object type"

/-- Fixed and bounded sequence lengths. -/
structure LengthBounds where
  length : Option Nat
  maxLength : Option Nat
  deriving DecidableEq

/-- A descriptor. The fields of an object are in order. -/
inductive Field where
  | boolean
  | string (bounds : LengthBounds)
  | integer (bits : Nat) (signed : Bool)
  | float (bits : Nat)
  | bytes (bounds : LengthBounds)
  | array (bounds : LengthBounds) (element : Field)
  | object (fields : List (JsString × Field))

structure CodecOptions where
  maxDepth : Nat
  maxArrayLength : Nat
  maxStringBytes : Nat
  maxByteLength : Nat
  maxNodes : Nat
  allowNonFinite : Bool
  deriving DecidableEq

/-- `Partial<CodecOptions>`. -/
structure Overrides where
  maxDepth : Option Session.Num := none
  maxArrayLength : Option Session.Num := none
  maxStringBytes : Option Session.Num := none
  maxByteLength : Option Session.Num := none
  maxNodes : Option Session.Num := none
  allowNonFinite : Option Bool := none

/-- A limit that is overridden has to be a positive safe integer. -/
def limit (override : Option Session.Num) (default : Nat) : Except String Nat :=
  match override with
  | none => .ok default
  | some value =>
    match positiveLimit value with
    | some n => .ok n
    | none => .error "Invalid codec value: positive codec limit"

/-- Validate options and merge defaults. -/
def codecOptions (overrides : Overrides) : Except String CodecOptions := do
  return {
    maxDepth := ← limit overrides.maxDepth 32
    maxArrayLength := ← limit overrides.maxArrayLength 4096
    maxStringBytes := ← limit overrides.maxStringBytes 16384
    maxByteLength := ← limit overrides.maxByteLength 16384
    maxNodes := ← limit overrides.maxNodes 32768
    allowNonFinite := overrides.allowNonFinite.getD true }

/-- Validate optional length constraints; `lengths` in the source. -/
def lengths (bounds : LengthBounds) : Visit LengthBounds := do
  requireValue (∀ n ∈ bounds.length, n ≤ maxSafeInteger) "schema length"
  requireValue (∀ n ∈ bounds.maxLength, n ≤ maxSafeInteger) "schema length"
  -- Reject contradictory schemas before receiving individual payloads.
  requireValue (∀ n ∈ bounds.length, ∀ m ∈ bounds.maxLength, n ≤ m) "schema length conflict"
  return bounds

/-- `depth <= maxDepth && ++nodes <= maxNodes`. -/
def enter (options : CodecOptions) (depth : Nat) (reason : String) : Visit Unit := do
  requireValue (depth ≤ options.maxDepth) reason
  modify (· + 1)
  requireValue ((← get) ≤ options.maxNodes) reason

mutual

/-- Clone a subtree with bounded depth; `visit` in `snapshotSchema`. -/
def snapshot (options : CodecOptions) : Field → Nat → Visit Field
  | .boolean, depth => do
    enter options depth "schema complexity"
    return .boolean
  | .string bounds, depth => do
    enter options depth "schema complexity"
    return .string (← lengths bounds)
  | .integer bits signed, depth => do
    enter options depth "schema complexity"
    requireValue (bits ∈ [8, 16, 32, 64]) "integer schema"
    return .integer bits signed
  | .float bits, depth => do
    enter options depth "schema complexity"
    requireValue (bits = 32 ∨ bits = 64) "float schema"
    return .float bits
  | .bytes bounds, depth => do
    enter options depth "schema complexity"
    return .bytes (← lengths bounds)
  | .array bounds element, depth => do
    enter options depth "schema complexity"
    return .array (← lengths bounds) (← snapshot options element (depth + 1))
  | .object fields, depth => do
    enter options depth "schema complexity"
    -- An object has no name twice.
    requireValue (fields.map (·.1)).Nodup "object data property"
    return .object (← snapshotFields options fields (depth + 1))

def snapshotFields (options : CodecOptions) : List (JsString × Field) → Nat → Visit (List (JsString × Field))
  | [], _ => return []
  | (name, field) :: rest, depth => do
    let field ← snapshot options field depth
    return (name, field) :: (← snapshotFields options rest depth)

end

/-- Validate a descriptor at startup. -/
def snapshotSchema (input : Field) (options : CodecOptions) : Except String Field :=
  ((snapshot options input 0).exec 0).1

end RosBridge.RosJson
