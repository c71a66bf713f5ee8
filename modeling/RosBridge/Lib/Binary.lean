import Mathlib.Algebra.Order.Round
import Mathlib.Data.Int.Log
import Mathlib.Data.Rat.Floor
import Mathlib.Tactic.Linarith
import Mathlib.Tactic.Ring
/-!
# Rounding to a binary format

A rational is rounded to `p` significant bits, to the nearest and on a tie to the even
neighbour, with exponents from `emin` to `emax`; below `emin` the spacing stays that of
`emin`. The result is `none` when it is too large for the format. Rounding again
changes nothing (`round_round`); what is at least some bound once it is rounded
(`atLeast`) is so for every larger rational, and misses the bound by half a unit in the
last place at most.
-/

namespace RosBridge.Lib

/-- To the nearest integer, halves to the even one. -/
def roundEven (x : ℚ) : ℤ :=
  if x - ⌊x⌋ < 1 / 2 then ⌊x⌋
  else if 1 / 2 < x - ⌊x⌋ then ⌊x⌋ + 1
  else if ⌊x⌋ % 2 = 0 then ⌊x⌋ else ⌊x⌋ + 1

theorem roundEven_intCast (n : ℤ) : roundEven n = n := by simp [roundEven]

/-- Rounding does not pass an integer. -/
theorem roundEven_le {x : ℚ} {n : ℤ} (h : x ≤ n) : roundEven x ≤ n := by
  have floor : ⌊x⌋ ≤ n := Int.floor_le_iff.2 (lt_of_le_of_lt h (lt_add_one _))
  rcases floor.lt_or_eq with lt | eq
  · unfold roundEven
    split_ifs <;> omega
  · have : x = n := le_antisymm h (eq ▸ Int.floor_le x)
    rw [this, roundEven_intCast]

theorem le_roundEven {x : ℚ} {n : ℤ} (h : n ≤ x) : n ≤ roundEven x := by
  have floor : n ≤ ⌊x⌋ := Int.le_floor.2 h
  unfold roundEven
  split_ifs <;> omega

theorem roundEven_mono {x y : ℚ} (h : x ≤ y) : roundEven x ≤ roundEven y := by
  rcases (Int.floor_mono h).lt_or_eq with lt | eq
  · -- What lies between the floors separates the two.
    have apart : (⌊x⌋ + 1 : ℤ) ≤ y := (Int.cast_le.2 lt).trans (Int.floor_le y)
    exact (roundEven_le (by push_cast; exact (Int.lt_floor_add_one x).le)).trans (le_roundEven apart)
  · unfold roundEven
    rw [eq]
    have shorter : x - ⌊y⌋ ≤ y - ⌊y⌋ := sub_le_sub_right h _
    split_ifs <;> first | omega | linarith

theorem abs_roundEven_sub_le (x : ℚ) : |roundEven x - x| ≤ 1 / 2 := by
  have lower := Int.floor_le x
  have upper := Int.lt_floor_add_one x
  unfold roundEven
  split_ifs <;> rw [abs_le] <;> push_cast <;> constructor <;> linarith

theorem abs_roundEven_le {x : ℚ} {n : ℤ} (h : |x| ≤ n) : |roundEven x| ≤ n := by
  obtain ⟨lower, upper⟩ := abs_le.1 h
  exact abs_le.2 ⟨le_roundEven (by push_cast; exact lower), roundEven_le upper⟩

/-- A binary interchange format. -/
structure BinaryFormat where
  precision : Nat
  precision_pos : 0 < precision
  emin : ℤ
  emax : ℤ

namespace BinaryFormat

variable (f : BinaryFormat)

/-- The exponent of the spacing of the format around `q`. -/
def spacing (q : ℚ) : ℤ := max (Int.log 2 |q|) f.emin - (f.precision - 1)

/-- The nearest multiple of the spacing. -/
def nearest (q : ℚ) : ℚ := roundEven (q / 2 ^ f.spacing q) * 2 ^ f.spacing q

def round (q : ℚ) : Option ℚ := if |f.nearest q| < 2 ^ (f.emax + 1) then some (f.nearest q) else none

/-- A multiple of the spacing around itself is rounded to itself. -/
theorem nearest_of_multiple {q : ℚ} {n : ℤ} (h : q = n * 2 ^ f.spacing q) : f.nearest q = q := by
  have pos : (2 : ℚ) ^ f.spacing q ≠ 0 := zpow_ne_zero _ two_ne_zero
  have quotient : q / 2 ^ f.spacing q = n := by rw [div_eq_iff pos, ← h]
  rw [nearest, quotient, roundEven_intCast, ← h]

/-- The quotient that `nearest` rounds has at most `precision` bits. -/
theorem quotient_le (q : ℚ) : |roundEven (q / 2 ^ f.spacing q)| ≤ 2 ^ f.precision := by
  have pos : (0 : ℚ) < 2 ^ f.spacing q := zpow_pos two_pos _
  have log : |q| < 2 ^ (Int.log 2 |q| + 1) := by exact_mod_cast Int.lt_zpow_succ_log_self one_lt_two |q|
  have exponent : Int.log 2 |q| + 1 ≤ f.precision + f.spacing q := by
    have := le_max_left (Int.log 2 |q|) f.emin
    simp only [spacing]
    omega
  have bound : |q| ≤ 2 ^ f.precision * 2 ^ f.spacing q := by
    calc |q| ≤ 2 ^ (Int.log 2 |q| + 1) := log.le
      _ ≤ 2 ^ ((f.precision : ℤ) + f.spacing q) := zpow_le_zpow_right₀ one_le_two exponent
      _ = 2 ^ f.precision * 2 ^ f.spacing q := by rw [zpow_add₀ two_ne_zero, zpow_natCast]
  have quotient : |q / 2 ^ f.spacing q| ≤ ((2 ^ f.precision : ℤ) : ℚ) := by
    rw [abs_div, abs_of_pos pos, div_le_iff₀ pos]
    push_cast
    exact bound
  exact abs_roundEven_le quotient

/-- What `nearest` returns is a multiple of the spacing around it. -/
theorem nearest_multiple (q : ℚ) : ∃ n : ℤ, f.nearest q = n * 2 ^ f.spacing (f.nearest q) := by
  set k := f.spacing q with hk
  set n := roundEven (q / 2 ^ k) with hn
  have value : f.nearest q = n * 2 ^ k := rfl
  have size : |n| ≤ 2 ^ f.precision := f.quotient_le q
  by_cases zero : f.nearest q = 0
  · exact ⟨0, by rw [zero]; simp⟩
  rcases le_or_gt (f.spacing (f.nearest q)) k with le | gt
  · -- The spacing has not grown, so a multiple of the old one is one of the new one.
    obtain ⟨d, hd⟩ := Int.le.dest le
    refine ⟨n * 2 ^ d, ?_⟩
    conv_lhs => rw [value]
    rw [← hd, zpow_add₀ two_ne_zero, zpow_natCast]
    push_cast
    ring
  · -- It has grown: the value is a power of two, and a multiple of twice the spacing.
    have pos : (0 : ℚ) < 2 ^ k := zpow_pos two_pos _
    have kmin : f.emin ≤ k + (f.precision - 1) := by
      have := le_max_right (Int.log 2 |q|) f.emin
      simp only [hk, spacing]
      omega
    have log : Int.log 2 |f.nearest q| = f.spacing (f.nearest q) + (f.precision - 1) := by
      have := max_choice (Int.log 2 |f.nearest q|) f.emin
      simp only [spacing] at gt ⊢
      omega
    have below : ((2 : ℕ) : ℚ) ^ Int.log 2 |f.nearest q| ≤ |f.nearest q| :=
      Int.zpow_log_le_self one_lt_two (abs_pos.2 zero)
    have above : |f.nearest q| ≤ 2 ^ ((f.precision : ℤ) + k) := by
      rw [value, abs_mul, abs_of_pos pos, zpow_add₀ two_ne_zero, zpow_natCast]
      exact mul_le_mul_of_nonneg_right (by exact_mod_cast size) pos.le
    have exponent : Int.log 2 |f.nearest q| = f.precision + k := by
      have : Int.log 2 |f.nearest q| ≤ f.precision + k := by
        have := below.trans above
        rw [Nat.cast_ofNat] at this
        exact (zpow_le_zpow_iff_right₀ one_lt_two).1 this
      omega
    have exact_ : |n| = 2 ^ f.precision := by
      refine le_antisymm size ?_
      rw [exponent, value, abs_mul, abs_of_pos pos, zpow_add₀ (by norm_num), zpow_natCast] at below
      have := le_of_mul_le_mul_right below pos
      exact_mod_cast this
    obtain ⟨m, hm⟩ : 2 ∣ n := (dvd_abs 2 n).1 (exact_ ▸ dvd_pow_self 2 f.precision_pos.ne')
    have next : f.spacing (f.nearest q) = k + 1 := by omega
    refine ⟨m, ?_⟩
    rw [next, zpow_add_one₀ two_ne_zero]
    conv_lhs => rw [value, hm]
    push_cast
    ring

/-- Rounding does not pass a multiple of the spacing. -/
theorem nearest_le {q : ℚ} {n : ℤ} (h : q ≤ n * 2 ^ f.spacing q) : f.nearest q ≤ n * 2 ^ f.spacing q := by
  have pos : (0 : ℚ) < 2 ^ f.spacing q := zpow_pos two_pos _
  exact mul_le_mul_of_nonneg_right (Int.cast_le.2 (roundEven_le ((div_le_iff₀ pos).2 h))) pos.le

theorem le_nearest {q : ℚ} {n : ℤ} (h : n * 2 ^ f.spacing q ≤ q) : n * 2 ^ f.spacing q ≤ f.nearest q := by
  have pos : (0 : ℚ) < 2 ^ f.spacing q := zpow_pos two_pos _
  exact mul_le_mul_of_nonneg_right (Int.cast_le.2 (le_roundEven ((le_div_iff₀ pos).2 h))) pos.le

theorem spacing_mono {q q' : ℚ} (pos : 0 < q) (h : q ≤ q') : f.spacing q ≤ f.spacing q' := by
  unfold spacing
  rw [abs_of_pos pos, abs_of_pos (pos.trans_le h)]
  exact sub_le_sub_right (max_le_max_right _ (Int.log_mono_right pos h)) _

/-- Rounding keeps the order. -/
theorem nearest_mono {q q' : ℚ} (pos : 0 < q) (h : q ≤ q') : f.nearest q ≤ f.nearest q' := by
  have pos' : 0 < q' := pos.trans_le h
  rcases (f.spacing_mono pos h).lt_or_eq with lt | same
  · -- The power of two below `q'` separates the two.
    set k := Int.log 2 q' with hk
    have spacing' : f.spacing q' = k - (f.precision - 1) := by
      have := max_choice k f.emin
      unfold spacing at lt ⊢
      rw [abs_of_pos pos, abs_of_pos pos'] at *
      omega
    have log : Int.log 2 q < k := by
      unfold spacing at lt
      rw [abs_of_pos pos, abs_of_pos pos'] at lt
      omega
    obtain ⟨d, hd⟩ : ∃ d : ℕ, k = f.spacing q + d := by
      have := f.precision_pos
      exact (Int.le.dest (a := f.spacing q) (b := k) (by omega)).imp fun _ => Eq.symm
    have upper : f.nearest q ≤ 2 ^ k := by
      have whole : (2 : ℚ) ^ k = ((2 ^ d : ℤ) : ℚ) * 2 ^ f.spacing q := by
        rw [hd, zpow_add₀ two_ne_zero, zpow_natCast, mul_comm]
        push_cast
        rfl
      have below : q < 2 ^ k := by exact_mod_cast (Int.lt_zpow_iff_log_lt one_lt_two pos).2 log
      rw [whole] at below ⊢
      exact f.nearest_le below.le
    have lower : 2 ^ k ≤ f.nearest q' := by
      obtain ⟨p, hp⟩ := Nat.exists_eq_succ_of_ne_zero f.precision_pos.ne'
      have whole : (2 : ℚ) ^ k = ((2 ^ p : ℤ) : ℚ) * 2 ^ f.spacing q' := by
        rw [spacing', hp]
        push_cast
        rw [← zpow_natCast, ← zpow_add₀ two_ne_zero]
        congr 1
        omega
      have above : (2 : ℚ) ^ k ≤ q' := by exact_mod_cast Int.zpow_log_le_self one_lt_two pos'
      rw [whole] at above ⊢
      exact f.le_nearest above
    exact upper.trans lower
  · unfold nearest
    rw [← same]
    have unit : (0 : ℚ) < 2 ^ f.spacing q := zpow_pos two_pos _
    exact mul_le_mul_of_nonneg_right (Int.cast_le.2 (roundEven_mono ((div_le_div_iff_of_pos_right unit).2 h))) unit.le

theorem nearest_sub_le (q : ℚ) : f.nearest q - q ≤ 1 / 2 * 2 ^ f.spacing q := by
  have unit : (0 : ℚ) < 2 ^ f.spacing q := zpow_pos two_pos _
  calc f.nearest q - q = (roundEven (q / 2 ^ f.spacing q) - q / 2 ^ f.spacing q) * 2 ^ f.spacing q := by
        rw [sub_mul, div_mul_cancel₀ q unit.ne']
        rfl
    _ ≤ 1 / 2 * 2 ^ f.spacing q := mul_le_mul_of_nonneg_right ((le_abs_self _).trans (abs_roundEven_sub_le _)) unit.le

/-- Where `q` is not below the exponents of the format, rounding moves it by half a unit in the
last place at most. -/
theorem nearest_sub_le_of_normal {q : ℚ} (normal : (2 : ℚ) ^ f.emin ≤ q) : f.nearest q - q ≤ q * 2 ^ (-f.precision : ℤ) := by
  have pos : 0 < q := (zpow_pos two_pos _).trans_le normal
  have log : f.emin ≤ Int.log 2 q := (Int.zpow_le_iff_le_log one_lt_two pos).1 (by exact_mod_cast normal)
  have spacing : f.spacing q = Int.log 2 q + (1 - f.precision) := by
    unfold BinaryFormat.spacing
    rw [abs_of_pos pos, max_eq_left log]
    ring
  have below : (2 : ℚ) ^ Int.log 2 q ≤ q := by exact_mod_cast Int.zpow_log_le_self one_lt_two pos
  calc f.nearest q - q ≤ 1 / 2 * 2 ^ f.spacing q := f.nearest_sub_le q
    _ = 2 ^ Int.log 2 q * 2 ^ (-f.precision : ℤ) := by
        rw [spacing, zpow_add₀ two_ne_zero, sub_eq_add_neg, zpow_add₀ two_ne_zero, zpow_one]
        ring
    _ ≤ q * 2 ^ (-f.precision : ℤ) := mul_le_mul_of_nonneg_right below (zpow_pos two_pos _).le

theorem nearest_nearest (q : ℚ) : f.nearest (f.nearest q) = f.nearest q := by
  obtain ⟨n, hn⟩ := f.nearest_multiple q
  exact f.nearest_of_multiple hn

/-- Rounding is idempotent. -/
theorem round_round {q r : ℚ} (h : f.round q = some r) : f.round r = some r := by
  unfold round at h ⊢
  split at h
  · next bound =>
    obtain rfl := Option.some.inj h
    rw [nearest_nearest, if_pos bound]
  · cases h

/-- Whether `q`, once it is rounded, is at least a bound; what is too large is infinite. -/
def atLeast (q bound : ℚ) : Bool :=
  match f.round q with
  | some r => bound ≤ r
  | none => 0 < q

variable {f} {q q' bound : ℚ}

theorem atLeast_iff (positive : 0 < bound) :
    f.atLeast q bound = true ↔ 0 < q ∧ (bound ≤ f.nearest q ∨ 2 ^ (f.emax + 1) ≤ f.nearest q) := by
  have sign : q ≤ 0 → f.nearest q ≤ 0 := by
    intro negative
    have le := @nearest_le f q 0 (by rw [Int.cast_zero, zero_mul]; exact negative)
    rwa [Int.cast_zero, zero_mul] at le
  have sign' : 0 < q → 0 ≤ f.nearest q := by
    intro pos
    have le := @le_nearest f q 0 (by rw [Int.cast_zero, zero_mul]; exact pos.le)
    rwa [Int.cast_zero, zero_mul] at le
  unfold atLeast round
  by_cases small : |f.nearest q| < 2 ^ (f.emax + 1)
  · rw [if_pos small, decide_eq_true_iff]
    constructor
    · intro reached
      exact ⟨not_le.1 fun negative => not_lt.2 (sign negative) (positive.trans_le reached), .inl reached⟩
    · intro reached
      rcases reached.2 with reached | large
      · exact reached
      · exact absurd (lt_of_abs_lt small) (not_lt.2 large)
  · rw [if_neg small, decide_eq_true_iff]
    refine ⟨fun pos => ⟨pos, .inr ?_⟩, And.left⟩
    rw [abs_of_nonneg (sign' pos)] at small
    exact not_lt.1 small

theorem atLeast_mono (positive : 0 < bound) (h : q ≤ q') (reached : f.atLeast q bound = true) : f.atLeast q' bound = true := by
  rw [atLeast_iff positive] at reached ⊢
  have rounded := f.nearest_mono reached.1 h
  exact ⟨reached.1.trans_le h, reached.2.imp rounded.trans' rounded.trans'⟩

theorem not_atLeast_zero (positive : 0 < bound) : f.atLeast 0 bound = false := by
  rw [Bool.eq_false_iff, ne_eq, atLeast_iff positive]
  exact fun reached => lt_irrefl _ reached.1

/-- A bound within the format is missed by half a unit in the last place at most. -/
theorem le_of_atLeast (emin : f.emin ≤ -1) (one : 1 ≤ bound) (finite : bound ≤ 2 ^ (f.emax + 1)) (reached : f.atLeast q bound = true) :
    bound ≤ q * (1 + 2 ^ (-f.precision : ℤ)) := by
  obtain ⟨pos, reached⟩ := (atLeast_iff (one_pos.trans_le one)).1 reached
  have reached : bound ≤ f.nearest q := reached.elim id finite.trans
  have normal : (2 : ℚ) ^ f.emin ≤ q := by
    by_contra tiny
    have tiny := not_le.1 tiny
    have log : Int.log 2 q < f.emin := (Int.lt_zpow_iff_log_lt one_lt_two pos).1 (by exact_mod_cast tiny)
    have spacing : f.spacing q ≤ -1 := by
      have := f.precision_pos
      unfold BinaryFormat.spacing
      rw [abs_of_pos pos, max_eq_right log.le]
      omega
    have unit : (2 : ℚ) ^ f.spacing q ≤ 2 ^ (-1 : ℤ) := zpow_le_zpow_right₀ one_le_two spacing
    have half : q < 2 ^ (-1 : ℤ) := tiny.trans_le (zpow_le_zpow_right₀ one_le_two emin)
    have moved := f.nearest_sub_le q
    rw [zpow_neg_one] at unit half
    linarith
  have moved := f.nearest_sub_le_of_normal normal
  calc bound ≤ q + (f.nearest q - q) := by rw [add_sub_cancel]; exact reached
    _ ≤ q + q * 2 ^ (-f.precision : ℤ) := add_le_add_right moved q
    _ = q * (1 + 2 ^ (-f.precision : ℤ)) := by ring

end BinaryFormat

/-- The doubles. -/
def binary64 : BinaryFormat := ⟨53, Nat.succ_pos 52, -1022, 1023⟩

/-- `Math.fround`; `none` where it is infinite. -/
def fround (q : ℚ) : Option ℚ := (BinaryFormat.mk 24 (by decide) (-126) 127).round q

end RosBridge.Lib
