import Mathlib.Algebra.Order.Ring.Rat
import Mathlib.Tactic.Common
import RosBridge.Lib.Regex
/-!
# Boundary checks of the session core

`session/validation.ts`. A JavaScript number is a `Num`: an exact rational, or `none`
for `NaN` and the infinities, which every check here rejects alike. A check returns
`none` where the source throws.
-/

namespace RosBridge.Session

open Lib

/-- A JavaScript number; `none` when it is not finite. -/
abbrev Num := Option ℚ

/-- `Number.MAX_SAFE_INTEGER`. -/
def maxSafeInteger : Nat := 9007199254740991

/-- The largest uint64, `18446744073709551615n`. -/
def maxSequence : Nat := 18446744073709551615

/-- Validate a positive safe-integer limit. -/
def positiveLimit : Num → Option Nat
  | some value => if value.den = 1 ∧ 0 < value.num ∧ value.num ≤ maxSafeInteger then some value.num.toNat else none
  | none => none

/-- `/^[\x21-\x7e]{1,256}$/`. -/
def identifier (value : String) : Bool :=
  value.toList.all (fun c => 0x21 ≤ c.toNat ∧ c.toNat ≤ 0x7e) && 1 ≤ value.length && value.length ≤ 256

/-- The value of a string of decimal digits. -/
def decimal (cs : List Char) : Nat := Nat.ofDigitChars 10 cs 0

/-- Parse a canonical uint64: `/^(0|[1-9][0-9]{0,19})$/`, then the bound. -/
def sequence (value : String) : Option Nat :=
  match value.toList with
  | ['0'] => some 0
  | c :: cs =>
    if '1' ≤ c ∧ c ≤ '9' ∧ cs.all Char.isDigit ∧ cs.length ≤ 19 ∧ decimal (c :: cs) ≤ maxSequence then
      some (decimal (c :: cs))
    else none
  | [] => none

/-- `[A-Za-z_][A-Za-z0-9_]*`. -/
def nameSegment : Regex :=
  .seq (.one fun c => c.isAlpha || c == '_') (.star (.one fun c => c.isAlphanum || c == '_'))

theorem positiveLimit_pos {v : Num} {n : Nat} (h : positiveLimit v = some n) : 0 < n ∧ n ≤ maxSafeInteger := by
  rcases v with _ | v
  · cases h
  · simp only [positiveLimit] at h
    split at h
    · next hv => obtain rfl := Option.some.inj h; omega
    · cases h

theorem eq_of_positiveLimit {n m : Nat} (h : positiveLimit (some (n : ℚ)) = some m) : m = n := by
  simp only [positiveLimit] at h
  split at h
  · obtain rfl := Option.some.inj h
    simp
  · cases h

theorem positiveLimit_natCast {n : Nat} (pos : 0 < n) (safe : n ≤ maxSafeInteger) : positiveLimit (some (n : ℚ)) = some n := by
  simp only [positiveLimit, Rat.den_natCast, Rat.num_natCast, Int.toNat_natCast]
  rw [if_pos ⟨trivial, by omega, by omega⟩]

/-- A limit is a whole number. -/
theorem natCast_of_positiveLimit {v : Num} {n : Nat} (h : positiveLimit v = some n) : v = some (n : ℚ) := by
  rcases v with _ | v
  · cases h
  · simp only [positiveLimit] at h
    split at h
    · next whole =>
      obtain rfl := Option.some.inj h
      have num : ((v.num.toNat : ℤ) : ℚ) = v := by
        rw [Int.toNat_of_nonneg (by omega)]
        exact Rat.coe_int_num_of_den_eq_one whole.1
      rw [← num]
      rfl
    · cases h

theorem decimal_toString (n : Nat) : decimal (toString n).toList = n := by simp [decimal]

/-- A number whose text is a sequence fits in a uint64. -/
theorem le_maxSequence {n m : Nat} (h : sequence (toString n) = some m) : n ≤ maxSequence := by
  have hn := decimal_toString n
  unfold sequence at h
  split at h
  · next e =>
    rw [e] at hn
    simp only [decimal, Nat.ofDigitChars_cons, Nat.ofDigitChars_nil] at hn
    omega
  · next c cs _ e =>
    split at h
    · next hc =>
      rw [e] at hn
      omega
    · cases h
  · cases h

end RosBridge.Session
