import Mathlib.Algebra.GroupWithZero.Nat
import Mathlib.Tactic.Common
/-!
# Strings of UTF-16 code units

A JavaScript string is any sequence of code units. One without an unpaired surrogate
is the encoding of a text (`paired_iff`), and the bytes a host counts for it in UTF-8
are those of that text (`utf8Length_utf16`).
-/

namespace RosBridge.Lib

/-- A JavaScript string. -/
abbrev JsString := List UInt16

namespace JsString

instance : LawfulBEq JsString := inferInstance

/-- The first half of a surrogate pair: `[\uD800-\uDBFF]`. -/
def isHigh (u : UInt16) : Bool := 0xD800 ≤ u && u ≤ 0xDBFF

/-- The second half of a surrogate pair: `[\uDC00-\uDFFF]`. -/
def isLow (u : UInt16) : Bool := 0xDC00 ≤ u && u ≤ 0xDFFF

/-- Whether every surrogate is half of a pair. -/
def paired : JsString → Bool
  | [] => true
  | [u] => !isHigh u && !isLow u
  | u :: v :: rest => if isHigh u then isLow v && paired rest else !isLow u && paired (v :: rest)

/-- `Buffer.byteLength(value, 'utf8')`. -/
def utf8Length : JsString → Nat
  | [] => 0
  | [u] => if u < 0x80 then 1 else if u < 0x800 then 2 else 3
  | u :: v :: rest =>
    if isHigh u && isLow v then 4 + utf8Length rest
    else (if u < 0x80 then 1 else if u < 0x800 then 2 else 3) + utf8Length (v :: rest)

/-- The code units as characters, as far as they are any: no pattern has the character
that stands for half of a pair. -/
def chars (s : JsString) : List Char := s.map fun u => Char.ofNat u.toNat

end JsString

/-- The code units of a character. -/
def utf16Char (c : Char) : JsString :=
  if c.toNat < 0x10000 then [UInt16.ofNat c.toNat]
  else [UInt16.ofNat (0xD800 + (c.toNat - 0x10000) / 0x400), UInt16.ofNat (0xDC00 + (c.toNat - 0x10000) % 0x400)]

/-- The code units of a text. -/
def utf16 (text : List Char) : JsString := text.flatMap utf16Char

namespace JsString

theorem isHigh_iff {u : UInt16} : isHigh u = true ↔ 0xD800 ≤ u.toNat ∧ u.toNat ≤ 0xDBFF := by
  simp [isHigh, UInt16.le_iff_toNat_le]

theorem isLow_iff {u : UInt16} : isLow u = true ↔ 0xDC00 ≤ u.toNat ∧ u.toNat ≤ 0xDFFF := by
  simp [isLow, UInt16.le_iff_toNat_le]

/-- A character is outside the surrogates. -/
theorem char_range (c : Char) : c.toNat < 0xD800 ∨ 0xDFFF < c.toNat ∧ c.toNat < 0x110000 := by
  have h : c.toNat.isValidChar := c.valid
  rcases h with h | h
  · exact .inl h
  · exact .inr h

theorem toNat_ofNat {n : Nat} (h : n < 0xD800 ∨ 0xDFFF < n ∧ n < 0x110000) : (Char.ofNat n).toNat = n := by
  have valid : n.isValidChar := h
  rw [Char.ofNat, dif_pos valid]
  rfl

/-- What precedes is a whole character. -/
theorem paired_cons_char (c : Char) (s : JsString) : paired (utf16Char c ++ s) = paired s := by
  have range := char_range c
  unfold utf16Char
  split
  · next small =>
    have low : isHigh (UInt16.ofNat c.toNat) = false := by
      rw [Bool.eq_false_iff, Ne, isHigh_iff, UInt16.toNat_ofNat_of_lt' (by simpa [UInt16.size] using small)]
      omega
    have high : isLow (UInt16.ofNat c.toNat) = false := by
      rw [Bool.eq_false_iff, Ne, isLow_iff, UInt16.toNat_ofNat_of_lt' (by simpa [UInt16.size] using small)]
      omega
    cases s <;> simp [paired, low, high]
  · have first : isHigh (UInt16.ofNat (0xD800 + (c.toNat - 0x10000) / 0x400)) = true := by
      rw [isHigh_iff, UInt16.toNat_ofNat_of_lt' (by simp [UInt16.size]; omega)]
      omega
    have second : isLow (UInt16.ofNat (0xDC00 + (c.toNat - 0x10000) % 0x400)) = true := by
      rw [isLow_iff, UInt16.toNat_ofNat_of_lt' (by simp [UInt16.size]; omega)]
      omega
    rw [List.cons_append, List.cons_append, List.nil_append, paired, if_pos first, second, Bool.true_and]

theorem paired_utf16 (text : List Char) : paired (utf16 text) = true := by
  induction text with
  | nil => rfl
  | cons c text ih =>
    rw [utf16, List.flatMap_cons, paired_cons_char]
    exact ih

/-- A code unit outside the surrogates is a character. -/
theorem exists_single {u : UInt16} (high : isHigh u = false) (low : isLow u = false) : utf16Char (Char.ofNat u.toNat) = [u] := by
  rw [Bool.eq_false_iff, Ne, isHigh_iff] at high
  rw [Bool.eq_false_iff, Ne, isLow_iff] at low
  have bound := u.toNat_lt
  rw [utf16Char, toNat_ofNat (by omega), if_pos (by omega), UInt16.ofNat_toNat]

/-- A pair is a character. -/
theorem exists_pair {u v : UInt16} (high : isHigh u = true) (low : isLow v = true) :
    utf16Char (Char.ofNat (0x10000 + (u.toNat - 0xD800) * 0x400 + (v.toNat - 0xDC00))) = [u, v] := by
  rw [isHigh_iff] at high
  rw [isLow_iff] at low
  rw [utf16Char, toNat_ofNat (by omega), if_neg (by omega)]
  have first : 0xD800 + (0x10000 + (u.toNat - 0xD800) * 0x400 + (v.toNat - 0xDC00) - 0x10000) / 0x400 = u.toNat := by omega
  have second : 0xDC00 + (0x10000 + (u.toNat - 0xD800) * 0x400 + (v.toNat - 0xDC00) - 0x10000) % 0x400 = v.toNat := by
    omega
  rw [first, second, UInt16.ofNat_toNat, UInt16.ofNat_toNat]

/-- A string without unpaired surrogates is the encoding of a text. -/
theorem paired_iff {s : JsString} : paired s = true ↔ ∃ text, utf16 text = s := by
  constructor
  · intro h
    induction s using paired.induct with
    | case1 => exact ⟨[], rfl⟩
    | case2 u =>
      simp only [paired, Bool.and_eq_true, Bool.not_eq_true'] at h
      exact ⟨[Char.ofNat u.toNat], by simp [utf16, exists_single h.1 h.2]⟩
    | case3 u v rest high ih =>
      simp only [paired, high, if_true, Bool.and_eq_true] at h
      obtain ⟨text, rfl⟩ := ih h.2
      exact ⟨_ :: text, by rw [utf16, List.flatMap_cons, exists_pair high h.1]; rfl⟩
    | case4 u v rest high ih =>
      simp only [paired, high, if_false, Bool.and_eq_true, Bool.not_eq_true', Bool.false_eq_true] at h
      obtain ⟨text, e⟩ := ih h.2
      exact ⟨Char.ofNat u.toNat :: text, by
        rw [utf16, List.flatMap_cons, exists_single (by simpa using high) h.1]
        exact congrArg (u :: ·) e⟩
  · rintro ⟨text, rfl⟩
    exact paired_utf16 text

theorem utf8Size_eq (c : Char) :
    c.utf8Size = if c.toNat ≤ 0x7F then 1 else if c.toNat ≤ 0x7FF then 2 else if c.toNat ≤ 0xFFFF then 3 else 4 := by
  simp only [Char.utf8Size, UInt32.le_iff_toNat_le]
  rfl

theorem utf8Length_cons_char (c : Char) (s : JsString) : utf8Length (utf16Char c ++ s) = c.utf8Size + utf8Length s := by
  have range := char_range c
  unfold utf16Char
  split
  · next small =>
    have unit : (UInt16.ofNat c.toNat).toNat = c.toNat := UInt16.toNat_ofNat_of_lt' (by simpa [UInt16.size] using small)
    have low : isHigh (UInt16.ofNat c.toNat) = false := by
      rw [Bool.eq_false_iff, Ne, isHigh_iff, unit]
      omega
    have size : (if UInt16.ofNat c.toNat < 0x80 then 1 else if UInt16.ofNat c.toNat < 0x800 then 2 else 3) = c.utf8Size := by
      simp only [UInt16.lt_iff_toNat_lt, unit, utf8Size_eq]
      show (if c.toNat < 128 then 1 else if c.toNat < 2048 then 2 else 3) = _
      split_ifs <;> omega
    cases s with
    | nil => exact size
    | cons v s =>
      rw [List.singleton_append, utf8Length, low, Bool.false_and, if_neg (by simp), size]
  · have first : isHigh (UInt16.ofNat (0xD800 + (c.toNat - 0x10000) / 0x400)) = true := by
      rw [isHigh_iff, UInt16.toNat_ofNat_of_lt' (by simp [UInt16.size]; omega)]
      omega
    have second : isLow (UInt16.ofNat (0xDC00 + (c.toNat - 0x10000) % 0x400)) = true := by
      rw [isLow_iff, UInt16.toNat_ofNat_of_lt' (by simp [UInt16.size]; omega)]
      omega
    have size : c.utf8Size = 4 := by
      rw [utf8Size_eq]
      split_ifs <;> omega
    rw [List.cons_append, List.cons_append, List.nil_append, utf8Length, first, second, size]
    rfl

theorem utf8Length_utf16 (text : List Char) : utf8Length (utf16 text) = (text.map Char.utf8Size).sum := by
  induction text with
  | nil => rfl
  | cons c text ih =>
    rw [utf16, List.flatMap_cons, utf8Length_cons_char]
    exact congrArg (c.utf8Size + ·) ih

/-- An ASCII text is read back from its code units. -/
theorem chars_utf16 {text : List Char} (ascii : ∀ c ∈ text, c.toNat < 0x80) : chars (utf16 text) = text := by
  induction text with
  | nil => rfl
  | cons c text ih =>
    have small := ascii c List.mem_cons_self
    have unit : (UInt16.ofNat c.toNat).toNat = c.toNat := UInt16.toNat_ofNat_of_lt' (by simp [UInt16.size]; omega)
    rw [utf16, List.flatMap_cons, utf16Char, if_pos (by omega), chars, List.map_append, List.map_singleton, unit,
      Char.ofNat_toNat]
    exact congrArg (c :: ·) (ih fun d hd => ascii d (List.mem_cons_of_mem _ hd))

/-- A string that reads as a text without NUL is the encoding of that text. -/
theorem eq_utf16_of_chars {s : JsString} {text : List Char} (h : chars s = text) (ascii : ∀ c ∈ text, 0 < c.toNat) :
    s = utf16 text := by
  subst h
  induction s with
  | nil => rfl
  | cons u s ih =>
    have valid : u.toNat < 0xD800 ∨ 0xDFFF < u.toNat := by
      by_contra surrogate
      push Not at surrogate
      have zero : (Char.ofNat u.toNat).toNat = 0 := by
        rw [Char.ofNat, dif_neg]
        · rfl
        · intro valid
          have valid : u.toNat < 0xD800 ∨ 0xDFFF < u.toNat ∧ u.toNat < 0x110000 := valid
          omega
      have pos := ascii (Char.ofNat u.toNat) (by simp [chars])
      omega
    have bound := u.toNat_lt
    have code := toNat_ofNat (n := u.toNat) (by omega)
    rw [chars, List.map_cons, utf16, List.flatMap_cons, utf16Char, code, if_pos (by omega), UInt16.ofNat_toNat]
    exact congrArg (u :: ·) (ih fun c hc => ascii c (List.mem_cons_of_mem _ hc))

/-- A character is determined by the code units in front. -/
theorem utf16Char_append_inj {c d : Char} {s t : JsString} (h : utf16Char c ++ s = utf16Char d ++ t) : c = d ∧ s = t := by
  have same : c.toNat = d.toNat → c = d := fun e => by rw [← Char.ofNat_toNat c, ← Char.ofNat_toNat d, e]
  have toNat : ∀ n < 65536, (UInt16.ofNat n).toNat = n := fun n small => Nat.mod_eq_of_lt small
  have rangeC := char_range c
  have rangeD := char_range d
  unfold utf16Char at h
  split at h
  · next small =>
    split at h
    · next small' =>
      obtain ⟨head, rfl⟩ := List.cons.inj h
      have head := congrArg UInt16.toNat head
      rw [toNat _ small, toNat _ small'] at head
      exact ⟨same head, rfl⟩
    · -- A single unit is no half of a pair.
      have head := congrArg UInt16.toNat (List.cons.inj h).1
      rw [toNat _ small, toNat _ (by omega)] at head
      omega
  · split at h
    · next small' =>
      have head := congrArg UInt16.toNat (List.cons.inj h).1
      rw [toNat _ small', toNat _ (by omega)] at head
      omega
    · obtain ⟨head, rest⟩ := List.cons.inj h
      obtain ⟨second, rfl⟩ := List.cons.inj rest
      have head := congrArg UInt16.toNat head
      have second := congrArg UInt16.toNat second
      rw [toNat _ (by omega), toNat _ (by omega)] at head second
      exact ⟨same (by omega), rfl⟩

theorem utf16_inj {text text' : List Char} (h : utf16 text = utf16 text') : text = text' := by
  have some : ∀ (c : Char) (s : JsString), utf16Char c ++ s ≠ [] := by
    intro c s
    unfold utf16Char
    split
    · exact List.cons_ne_nil _ _
    · exact List.cons_ne_nil _ _
  induction text generalizing text' with
  | nil =>
    cases text' with
    | nil => rfl
    | cons d text' => exact absurd h.symm (some d (utf16 text'))
  | cons c text ih =>
    cases text' with
    | nil => exact absurd h (some c (utf16 text))
    | cons d text' =>
      obtain ⟨rfl, rest⟩ := utf16Char_append_inj h
      rw [ih rest]

end JsString

end RosBridge.Lib
