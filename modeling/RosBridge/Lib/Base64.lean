import Mathlib.Tactic.Common
/-!
# Base64

The standard alphabet with padding. Decoding is only defined on text of the right
shape (`base64Shape`); it ignores the padding bits, so that a text is canonical when
encoding what it decodes to gives it back.
-/

namespace RosBridge.Lib

/-- The letter of a sextet. -/
def letter (n : Nat) : Char :=
  if n < 26 then Char.ofNat ('A'.toNat + n)
  else if n < 52 then Char.ofNat ('a'.toNat + (n - 26))
  else if n < 62 then Char.ofNat ('0'.toNat + (n - 52))
  else if n = 62 then '+' else '/'

/-- `[A-Za-z0-9+/]`. -/
def isLetter (c : Char) : Bool := c.isAlphanum || c == '+' || c == '/'

/-- The sextet of a letter. -/
def sextet (c : Char) : Nat :=
  if c.isUpper then c.toNat - 'A'.toNat
  else if c.isLower then c.toNat - 'a'.toNat + 26
  else if c.isDigit then c.toNat - '0'.toNat + 52
  else if c = '+' then 62 else 63

/-- `Buffer.from(value).toString('base64')`. -/
def base64 : List UInt8 → List Char
  | [] => []
  | [a] => [letter (a.toNat / 4), letter (a.toNat % 4 * 16), '=', '=']
  | [a, b] => [letter (a.toNat / 4), letter (a.toNat % 4 * 16 + b.toNat / 16), letter (b.toNat % 16 * 4), '=']
  | a :: b :: c :: rest =>
    letter (a.toNat / 4) :: letter (a.toNat % 4 * 16 + b.toNat / 16) :: letter (b.toNat % 16 * 4 + c.toNat / 64) ::
      letter (c.toNat % 64) :: base64 rest

/-- `/^(?:[A-Za-z0-9+/]{4})*(?:[A-Za-z0-9+/]{2}==|[A-Za-z0-9+/]{3}=)?$/`. -/
def base64Shape : List Char → Bool
  | [] => true
  | a :: b :: c :: d :: rest =>
    isLetter a && isLetter b && isLetter c && isLetter d && base64Shape rest ||
      isLetter a && isLetter b && rest.isEmpty && d == '=' && (c == '=' || isLetter c)
  | _ => false

/-- `Buffer.from(value, 'base64')`, on text of that shape. -/
def fromBase64 : List Char → List UInt8
  | a :: b :: c :: d :: rest =>
    if c = '=' then [UInt8.ofNat (sextet a * 4 + sextet b / 16)]
    else if d = '=' then
      [UInt8.ofNat (sextet a * 4 + sextet b / 16), UInt8.ofNat (sextet b % 16 * 16 + sextet c / 4)]
    else
      UInt8.ofNat (sextet a * 4 + sextet b / 16) :: UInt8.ofNat (sextet b % 16 * 16 + sextet c / 4) ::
        UInt8.ofNat (sextet c % 4 * 64 + sextet d) :: fromBase64 rest
  | _ => []

theorem sextet_letter {n : Nat} (h : n < 64) : sextet (letter n) = n := by
  have all : ∀ n < 64, sextet (letter n) = n := by decide
  exact all n h

theorem isLetter_letter {n : Nat} (h : n < 64) : isLetter (letter n) = true := by
  have all : ∀ n < 64, isLetter (letter n) = true := by decide
  exact all n h

/-- A letter is an ASCII character and not the padding. -/
theorem letter_ascii {n : Nat} (h : n < 64) : letter n ≠ '=' ∧ 0 < (letter n).toNat ∧ (letter n).toNat < 0x80 := by
  have all : ∀ n < 64, letter n ≠ '=' ∧ 0 < (letter n).toNat ∧ (letter n).toNat < 0x80 := by decide
  exact all n h

/-- Eight bits written as the end of one sextet and the start of the next. -/
theorem ofNat_eq {n : Nat} {a : UInt8} (h : n = a.toNat) : UInt8.ofNat n = a := by rw [h, UInt8.ofNat_toNat]

theorem fromBase64_base64 (bytes : List UInt8) : fromBase64 (base64 bytes) = bytes := by
  induction bytes using base64.induct with
  | case1 => rfl
  | case2 a =>
    have ha := a.toNat_lt
    rw [base64, fromBase64, if_pos rfl, sextet_letter (by omega), sextet_letter (by omega), ofNat_eq (a := a) (by omega)]
  | case3 a b =>
    have ha := a.toNat_lt
    have hb := b.toNat_lt
    rw [base64, fromBase64, if_neg (letter_ascii (by omega)).1, if_pos rfl, sextet_letter (by omega),
      sextet_letter (by omega), sextet_letter (by omega), ofNat_eq (a := a) (by omega), ofNat_eq (a := b) (by omega)]
  | case4 a b c rest ih =>
    have ha := a.toNat_lt
    have hb := b.toNat_lt
    have hc := c.toNat_lt
    rw [base64, fromBase64, if_neg (letter_ascii (by omega)).1, if_neg (letter_ascii (by omega)).1,
      sextet_letter (by omega), sextet_letter (by omega), sextet_letter (by omega), sextet_letter (by omega),
      ofNat_eq (a := a) (by omega), ofNat_eq (a := b) (by omega), ofNat_eq (a := c) (by omega), ih]

theorem base64Shape_base64 (bytes : List UInt8) : base64Shape (base64 bytes) = true := by
  induction bytes using base64.induct with
  | case1 => rfl
  | case2 a =>
    have ha := a.toNat_lt
    simp [base64, base64Shape, isLetter_letter (n := a.toNat / 4) (by omega),
      isLetter_letter (n := a.toNat % 4 * 16) (by omega)]
  | case3 a b =>
    have ha := a.toNat_lt
    have hb := b.toNat_lt
    simp [base64, base64Shape, isLetter_letter (n := a.toNat / 4) (by omega),
      isLetter_letter (n := a.toNat % 4 * 16 + b.toNat / 16) (by omega),
      isLetter_letter (n := b.toNat % 16 * 4) (by omega)]
  | case4 a b c rest ih =>
    have ha := a.toNat_lt
    have hb := b.toNat_lt
    have hc := c.toNat_lt
    simp [base64, base64Shape, isLetter_letter (n := a.toNat / 4) (by omega),
      isLetter_letter (n := a.toNat % 4 * 16 + b.toNat / 16) (by omega),
      isLetter_letter (n := b.toNat % 16 * 4 + c.toNat / 64) (by omega), isLetter_letter (n := c.toNat % 64) (by omega), ih]

/-- `4 * Math.ceil(n / 3)`. -/
theorem length_base64 (bytes : List UInt8) : (base64 bytes).length = 4 * ((bytes.length + 2) / 3) := by
  induction bytes using base64.induct with
  | case1 => rfl
  | case2 | case3 => simp [base64]
  | case4 a b c rest ih =>
    simp only [base64, List.length_cons, ih]
    omega

theorem base64_ascii (bytes : List UInt8) : ∀ c ∈ base64 bytes, 0 < c.toNat ∧ c.toNat < 0x80 := by
  have pad : 0 < ('=' : Char).toNat ∧ ('=' : Char).toNat < 0x80 := by decide
  induction bytes using base64.induct with
  | case1 => simp [base64]
  | case2 a =>
    have ha := a.toNat_lt
    simp only [base64, List.forall_mem_cons]
    exact ⟨(letter_ascii (by omega)).2, (letter_ascii (by omega)).2, pad, pad, by simp⟩
  | case3 a b =>
    have ha := a.toNat_lt
    have hb := b.toNat_lt
    simp only [base64, List.forall_mem_cons]
    exact ⟨(letter_ascii (by omega)).2, (letter_ascii (by omega)).2, (letter_ascii (by omega)).2, pad, by simp⟩
  | case4 a b c rest ih =>
    have ha := a.toNat_lt
    have hb := b.toNat_lt
    have hc := c.toNat_lt
    simp only [base64, List.forall_mem_cons]
    exact ⟨(letter_ascii (by omega)).2, (letter_ascii (by omega)).2, (letter_ascii (by omega)).2,
      (letter_ascii (by omega)).2, ih⟩

end RosBridge.Lib
