import Mathlib.Algebra.Order.Ring.Nat
import Mathlib.Data.List.Induction
import Mathlib.Tactic.Common
/-!
# Canonical decimals

The decimal texts of integers: no leading zero, no plus sign and no `-0`.
-/

namespace RosBridge.Lib

/-- `[1-9][0-9]*`. -/
def positiveDecimal : List Char → Bool
  | [] => false
  | c :: cs => c.isDigit && c != '0' && cs.all Char.isDigit

/-- `/^(0|-?[1-9][0-9]*)$/`. -/
def canonicalDecimal : List Char → Bool
  | '-' :: cs => positiveDecimal cs
  | cs => cs == ['0'] || positiveDecimal cs

/-- `BigInt(value)`, on such a text. -/
def bigInt : List Char → ℤ
  | '-' :: cs => -(Nat.ofDigitChars 10 cs 0 : ℤ)
  | cs => Nat.ofDigitChars 10 cs 0

/-- The decimal text of an integer. -/
def decimalText (z : ℤ) : List Char := (toString z).toList

theorem decimalText_natCast (n : Nat) : decimalText (n : ℤ) = Nat.toDigits 10 n := by
  show (toString n).toList = _
  rw [Nat.toString_eq_ofList_toDigits, String.toList_ofList]

theorem decimalText_neg {n : Nat} (h : 0 < n) : decimalText (-(n : ℤ)) = '-' :: Nat.toDigits 10 n := by
  obtain ⟨m, rfl⟩ := Nat.exists_eq_succ_of_ne_zero (Nat.pos_iff_ne_zero.1 h)
  show ("-" ++ toString (m + 1)).toList = _
  rw [String.toList_append, Nat.toString_eq_ofList_toDigits, String.toList_ofList, Nat.succ_eq_add_one]
  simp

theorem digit_toNat {c : Char} (h : c.isDigit = true) : '0'.toNat ≤ c.toNat ∧ c.toNat < '0'.toNat + 10 := by
  simp only [Char.isDigit, Bool.and_eq_true, decide_eq_true_eq, ge_iff_le, UInt32.le_iff_toNat_le] at h
  exact ⟨h.1, Nat.lt_succ_of_le h.2⟩

theorem digitChar_sub {c : Char} (h : c.isDigit = true) : Nat.digitChar (c.toNat - '0'.toNat) = c := by
  have range := digit_toNat h
  have all : ∀ d < 10, (Nat.digitChar d).toNat = '0'.toNat + d := by decide
  apply Char.toNat_inj.1
  rw [all _ (by omega)]
  omega

/-- Digits without a leading zero are the digits of their value. -/
theorem toDigits_ofDigitChars {c : Char} {cs : List Char} (digit : c.isDigit = true) (nonzero : c ≠ '0')
    (digits : ∀ d ∈ cs, d.isDigit = true) :
    Nat.toDigits 10 (Nat.ofDigitChars 10 (c :: cs) 0) = c :: cs ∧ 0 < Nat.ofDigitChars 10 (c :: cs) 0 := by
  have range := digit_toNat digit
  induction cs using List.reverseRecOn with
  | nil =>
    have pos : 0 < c.toNat - '0'.toNat := by
      by_contra zero
      exact nonzero (Char.toNat_inj.1 (by omega))
    simp only [Nat.ofDigitChars_cons, Nat.ofDigitChars_nil, Nat.mul_zero, Nat.zero_add]
    exact ⟨by rw [Nat.toDigits_of_lt_base (by omega), digitChar_sub digit], pos⟩
  | append_singleton cs d ih =>
    obtain ⟨text, pos⟩ := ih fun x hx => digits x (List.mem_append_left _ hx)
    have hd := digits d (List.mem_append_right _ List.mem_cons_self)
    have rangeD := digit_toNat hd
    have value : Nat.ofDigitChars 10 (c :: (cs ++ [d])) 0 =
        10 * Nat.ofDigitChars 10 (c :: cs) 0 + (d.toNat - '0'.toNat) := by
      rw [← List.cons_append, Nat.ofDigitChars_append, Nat.ofDigitChars_cons, Nat.ofDigitChars_nil]
    rw [value]
    refine ⟨?_, by omega⟩
    rw [← Nat.toDigits_append_toDigits (by omega) pos (by omega), text, Nat.toDigits_of_lt_base (by omega), digitChar_sub hd]
    rfl

theorem positiveDecimal_append {l : List Char} (h : positiveDecimal l = true) {c : Char} (digit : c.isDigit = true) :
    positiveDecimal (l ++ [c]) = true := by
  cases l with
  | nil => cases h
  | cons d ds =>
    simp only [positiveDecimal, Bool.and_eq_true, List.all_eq_true] at h
    simp only [List.cons_append, positiveDecimal, Bool.and_eq_true, List.all_eq_true, List.mem_append, List.mem_singleton]
    refine ⟨h.1, ?_⟩
    rintro x (hx | rfl)
    · exact h.2 x hx
    · exact digit

theorem positiveDecimal_toDigits {n : Nat} (h : 0 < n) : positiveDecimal (Nat.toDigits 10 n) = true := by
  have small : ∀ d < 10, 0 < d → positiveDecimal [Nat.digitChar d] = true := by decide
  have digit : ∀ d < 10, (Nat.digitChar d).isDigit = true := by decide
  induction n using Nat.strong_induction_on with
  | _ n ih =>
    rcases Nat.lt_or_ge n 10 with lt | ge
    · rw [Nat.toDigits_of_lt_base lt]
      exact small n lt h
    · rw [Nat.toDigits_of_base_le (by omega) ge]
      exact positiveDecimal_append (ih (n / 10) (by omega) (by omega)) (digit _ (by omega))

/-- A positive decimal is the text of its value. -/
theorem toDigits_of_positiveDecimal {cs : List Char} (h : positiveDecimal cs = true) :
    Nat.toDigits 10 (Nat.ofDigitChars 10 cs 0) = cs ∧ 0 < Nat.ofDigitChars 10 cs 0 := by
  cases cs with
  | nil => cases h
  | cons c cs =>
    simp only [positiveDecimal, Bool.and_eq_true, bne_iff_ne, List.all_eq_true] at h
    exact toDigits_ofDigitChars h.1.1 h.1.2 h.2

/-- The three forms of a decimal text. -/
theorem decimalText_cases (z : ℤ) : z = 0 ∧ decimalText z = ['0'] ∨
    ∃ n : Nat, 0 < n ∧ (z = n ∧ decimalText z = Nat.toDigits 10 n ∨ z = -n ∧ decimalText z = '-' :: Nat.toDigits 10 n) := by
  rcases Int.lt_trichotomy z 0 with neg | rfl | pos
  · obtain ⟨n, rfl⟩ : ∃ n : Nat, z = -n := ⟨z.natAbs, by omega⟩
    exact .inr ⟨n, by omega, .inr ⟨rfl, decimalText_neg (by omega)⟩⟩
  · exact .inl ⟨rfl, rfl⟩
  · obtain ⟨n, rfl⟩ : ∃ n : Nat, z = n := ⟨z.natAbs, by omega⟩
    exact .inr ⟨n, by omega, .inl ⟨rfl, decimalText_natCast n⟩⟩

theorem toDigits_head {n : Nat} (h : 0 < n) : ∃ c cs, Nat.toDigits 10 n = c :: cs ∧ c ≠ '-' := by
  have positive := positiveDecimal_toDigits h
  cases e : Nat.toDigits 10 n with
  | nil => simp [e, positiveDecimal] at positive
  | cons c cs =>
    refine ⟨c, cs, rfl, ?_⟩
    rintro rfl
    rw [e] at positive
    simp [positiveDecimal, Char.isDigit] at positive

theorem bigInt_decimalText (z : ℤ) : bigInt (decimalText z) = z := by
  rcases decimalText_cases z with ⟨rfl, e⟩ | ⟨n, pos, ⟨rfl, e⟩ | ⟨rfl, e⟩⟩
  · rw [e]
    rfl
  · obtain ⟨c, cs, text, plain⟩ := toDigits_head pos
    have value : Nat.ofDigitChars 10 (c :: cs) 0 = n := text ▸ Nat.ofDigitChars_ten_toDigits
    rw [e, text]
    unfold bigInt
    split
    · next h => exact absurd (List.cons.inj h).1 plain
    · rw [value]
  · rw [e]
    show -(Nat.ofDigitChars 10 (Nat.toDigits 10 n) 0 : ℤ) = -n
    rw [Nat.ofDigitChars_ten_toDigits]

theorem canonicalDecimal_decimalText (z : ℤ) : canonicalDecimal (decimalText z) = true := by
  rcases decimalText_cases z with ⟨rfl, e⟩ | ⟨n, pos, ⟨rfl, e⟩ | ⟨rfl, e⟩⟩
  · rw [e]
    rfl
  · obtain ⟨c, cs, text, plain⟩ := toDigits_head pos
    have positive := positiveDecimal_toDigits pos
    rw [e, text] at *
    unfold canonicalDecimal
    split
    · next h => exact absurd (List.cons.inj h).1 plain
    · simp [positive]
  · rw [e]
    exact positiveDecimal_toDigits pos

/-- Canonical decimals are the texts of integers. -/
theorem eq_decimalText {cs : List Char} (h : canonicalDecimal cs = true) : cs = decimalText (bigInt cs) := by
  unfold canonicalDecimal at h
  split at h
  · next cs =>
    obtain ⟨text, pos⟩ := toDigits_of_positiveDecimal h
    show '-' :: cs = decimalText (-(Nat.ofDigitChars 10 cs 0 : ℤ))
    rw [decimalText_neg pos, text]
  · next notNeg =>
    have value : bigInt cs = Nat.ofDigitChars 10 cs 0 := by
      unfold bigInt
      split
      · next ds => exact (notNeg ds rfl).elim
      · rfl
    rw [value, decimalText_natCast]
    rw [Bool.or_eq_true, beq_iff_eq] at h
    rcases h with rfl | h
    · rfl
    · exact (toDigits_of_positiveDecimal h).1.symm

/-- A text has at most twenty characters when the number has. -/
theorem length_decimalText_le {z : ℤ} (low : -(10 ^ 19) < z) (high : z < 10 ^ 20) : (decimalText z).length ≤ 20 := by
  rcases decimalText_cases z with ⟨rfl, e⟩ | ⟨n, pos, ⟨rfl, e⟩ | ⟨rfl, e⟩⟩
  · simp [e]
  · rw [e, Nat.length_toDigits_le_iff (by omega) (by omega)]
    exact_mod_cast high
  · have : (Nat.toDigits 10 n).length ≤ 19 := by
      rw [Nat.length_toDigits_le_iff (by omega) (by omega)]
      have : (n : ℤ) < 10 ^ 19 := by omega
      exact_mod_cast this
    rw [e, List.length_cons]
    omega

theorem decimalText_ascii (z : ℤ) : ∀ c ∈ decimalText z, 0 < c.toNat ∧ c.toNat < 0x80 := by
  have digits : ∀ n, ∀ c ∈ Nat.toDigits 10 n, 0 < c.toNat ∧ c.toNat < 0x80 := by
    intro n c hc
    have range := digit_toNat (Nat.isDigit_of_mem_toDigits (by omega) (by omega) hc)
    have zero : ('0' : Char).toNat = 48 := rfl
    omega
  rcases decimalText_cases z with ⟨rfl, e⟩ | ⟨n, pos, ⟨rfl, e⟩ | ⟨rfl, e⟩⟩
  · rw [e]
    simp
  · rw [e]
    exact digits n
  · rw [e]
    simp only [List.forall_mem_cons]
    exact ⟨by decide, digits n⟩

end RosBridge.Lib
