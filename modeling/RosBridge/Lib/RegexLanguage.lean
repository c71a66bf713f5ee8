import Mathlib.Computability.Language
import RosBridge.Lib.Regex
/-!
# The language of a regular expression

What an expression matches, as a language (`accepts_iff_mem`). Equations between
expressions are those of a Kleene algebra.
-/

namespace RosBridge.Lib.Regex

open Computability

/-- The texts that an expression matches. -/
def language : Regex → Language Char
  | never => 0
  | empty => 1
  | one p => {text | ∃ c, p c = true ∧ text = [c]}
  | seq r s => r.language * s.language
  | or r s => r.language + s.language
  | star r => KStar.kstar r.language

theorem nullable_iff (r : Regex) : r.nullable = true ↔ [] ∈ r.language := by
  induction r with
  | never => exact ⟨fun h => Bool.noConfusion h, fun h => absurd h (Language.notMem_zero [])⟩
  | empty => exact ⟨fun _ => Language.nil_mem_one, fun _ => rfl⟩
  | one p =>
    constructor
    · intro h
      cases h
    · rintro ⟨c, -, h⟩
      cases h
  | seq r s ihr ihs => simp [nullable, language, Language.mem_mul, ihr, ihs]
  | or r s ihr ihs =>
    rw [nullable, Bool.or_eq_true, ihr, ihs]
    exact (Language.mem_add _ _ _).symm
  | star r ih => exact ⟨fun _ => Language.nil_mem_kstar _, fun _ => rfl⟩

variable {r s : Regex} {c : Char} {cs : List Char}

theorem cons_mem_mul {l m : Language Char} :
    c :: cs ∈ l * m ↔ ([] ∈ l ∧ c :: cs ∈ m) ∨ ∃ a b, c :: a ∈ l ∧ b ∈ m ∧ a ++ b = cs := by
  rw [Language.mem_mul]
  constructor
  · rintro ⟨a, ha, b, hb, joined⟩
    cases a with
    | nil => exact .inl ⟨ha, joined ▸ hb⟩
    | cons d a =>
      obtain ⟨rfl, rfl⟩ := List.cons_eq_cons.1 joined
      exact .inr ⟨a, b, ha, hb, rfl⟩
  · rintro (⟨first, second⟩ | ⟨a, b, ha, hb, rfl⟩)
    · exact ⟨[], first, c :: cs, second, rfl⟩
    · exact ⟨c :: a, ha, b, hb, rfl⟩

/-- A derivative matches what is left after the character. -/
theorem mem_deriv (r : Regex) : cs ∈ (r.deriv c).language ↔ c :: cs ∈ r.language := by
  induction r generalizing cs with
  | never => exact ⟨fun h => absurd h (Language.notMem_zero cs), fun h => absurd h (Language.notMem_zero _)⟩
  | empty =>
    constructor
    · intro h
      exact absurd h (Language.notMem_zero cs)
    · intro h
      cases (Language.mem_one (c :: cs)).1 h
  | one p =>
    unfold deriv
    split
    · next found =>
      constructor
      · intro h
        exact ⟨c, found, by rw [(Language.mem_one cs).1 h]⟩
      · rintro ⟨d, -, h⟩
        exact (Language.mem_one cs).2 (List.cons_eq_cons.1 h).2
    · next other =>
      constructor
      · intro h
        exact absurd h (Language.notMem_zero cs)
      · rintro ⟨d, found, h⟩
        exact absurd ((List.cons_eq_cons.1 h).1 ▸ found) other
  | seq r s ihr ihs =>
    have first : cs ∈ (seq (r.deriv c) s).language ↔ ∃ a b, c :: a ∈ r.language ∧ b ∈ s.language ∧ a ++ b = cs := by
      simp only [language, Language.mem_mul, ihr]
      constructor
      · rintro ⟨a, ha, b, hb, h⟩
        exact ⟨a, b, ha, hb, h⟩
      · rintro ⟨a, b, ha, hb, h⟩
        exact ⟨a, ha, b, hb, h⟩
    rw [language, cons_mem_mul, ← nullable_iff]
    unfold deriv
    split
    · next passes =>
      rw [language, Language.mem_add, first, ihs, or_comm]
      simp [passes]
    · next blocked =>
      rw [first]
      simp [blocked]
  | or r s ihr ihs => simp only [deriv, language, Language.mem_add, ihr, ihs]
  | star r ih =>
    simp only [deriv, language, Language.mem_mul, ih]
    constructor
    · rintro ⟨a, ha, b, hb, rfl⟩
      rw [← Language.one_add_self_mul_kstar_eq_kstar, Language.mem_add]
      exact .inr (Language.append_mem_mul ha hb)
    · intro h
      rw [Language.mem_kstar_iff_exists_nonempty] at h
      obtain ⟨parts, joined, each⟩ := h
      cases parts with
      | nil => cases joined
      | cons part parts =>
        obtain ⟨inside, filled⟩ := each part List.mem_cons_self
        cases part with
        | nil => exact absurd rfl filled
        | cons d part =>
          obtain ⟨rfl, rfl⟩ := List.cons_eq_cons.1 (joined.trans List.flatten_cons)
          exact ⟨part, inside, parts.flatten, Language.join_mem_kstar fun y hy => (each y (List.mem_cons_of_mem _ hy)).1, rfl⟩

theorem accepts_iff_mem (r : Regex) (text : String) : r.accepts text = true ↔ text.toList ∈ r.language := by
  unfold accepts
  generalize text.toList = cs
  induction cs generalizing r with
  | nil => exact nullable_iff r
  | cons c cs ih => exact (ih (r.deriv c)).trans (mem_deriv r)

/-- Separators before or after: `r(sr)*` is `(rs)*r`. -/
theorem language_slide (r s : Regex) :
    (seq r (star (seq s r))).language = (seq (star (seq r s)) r).language := by
  simp only [language, Language.kstar_eq_iSup_pow, Language.iSup_mul, Language.mul_iSup, mul_pow_mul]

end RosBridge.Lib.Regex
