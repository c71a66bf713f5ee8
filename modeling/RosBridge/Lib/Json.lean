import Mathlib.Algebra.GroupWithZero.Nat
import Mathlib.Algebra.Order.Ring.Rat
import Mathlib.Tactic.Common
/-!
# JSON values

The values `JSON.parse` yields and `JSON.stringify` accepts. A number is an exact
rational, or `none` when it is not finite. How a finite number is written down belongs
to the host and is an argument of `stringify`. A string is one of Unicode scalar
values: a lone surrogate, which only an escape can produce, is not represented.
-/

namespace RosBridge.Lib

inductive Json where
  | null
  | bool (value : Bool)
  | number (value : Option ℚ)
  | string (value : String)
  | array (items : List Json)
  | object (fields : List (String × Json))

namespace Json

/-- Hexadecimal digits of a control character. -/
def hex (n : Nat) : String := String.ofList [Nat.digitChar (n / 16), Nat.digitChar (n % 16)]

/-- A character of a string literal. -/
def escape (c : Char) : String :=
  if c = '"' then "\\\""
  else if c = '\\' then "\\\\"
  else if c.toNat = 8 then "\\b"
  else if c.toNat = 9 then "\\t"
  else if c.toNat = 10 then "\\n"
  else if c.toNat = 12 then "\\f"
  else if c.toNat = 13 then "\\r"
  else if c.toNat < 32 then "\\u00" ++ hex c.toNat
  else c.toString

/-- A string literal. -/
def quote (s : String) : String := "\"" ++ String.join (s.toList.map escape) ++ "\""

/-- The texts of a sequence, separated by commas. -/
def separate (texts : List String) : String := String.intercalate "," texts

mutual

/-- `JSON.stringify`. -/
def stringify (numberText : ℚ → String) : Json → String
  | null => "null"
  | bool value => toString value
  | number none => "null"
  | number (some value) => numberText value
  | string value => quote value
  | array items => "[" ++ separate (stringifyItems numberText items) ++ "]"
  | object fields => "\x7b" ++ separate (stringifyFields numberText fields) ++ "\x7d"

def stringifyItems (numberText : ℚ → String) : List Json → List String
  | [] => []
  | item :: items => stringify numberText item :: stringifyItems numberText items

def stringifyFields (numberText : ℚ → String) : List (String × Json) → List String
  | [] => []
  | (key, value) :: fields => (quote key ++ ":" ++ stringify numberText value) :: stringifyFields numberText fields

end

end Json

/-- The length of a string in UTF-16 code units, as a JavaScript `length` counts. -/
def utf16Length (s : String) : Nat := (s.toList.map fun c => if c.toNat > 0xffff then 2 else 1).sum

end RosBridge.Lib
