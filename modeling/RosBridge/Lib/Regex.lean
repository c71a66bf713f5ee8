/-!
# Anchored regular expressions

A regular expression over characters and its matcher, which takes the derivative of
the expression by each character in turn. `accepts` is a match of the whole text,
the meaning of a pattern written between `^` and `$`.
-/

namespace RosBridge.Lib

/-- A regular expression; `one p` matches a single character of the class `p`. -/
inductive Regex where
  | never
  | empty
  | one (p : Char → Bool)
  | seq (r s : Regex)
  | or (r s : Regex)
  | star (r : Regex)

namespace Regex

/-- The literal character `c`. -/
def lit (c : Char) : Regex := .one (· == c)

/-- `r+`. -/
def plus (r : Regex) : Regex := .seq r (.star r)

/-- Whether the empty text matches. -/
def nullable : Regex → Bool
  | never => false
  | empty => true
  | one _ => false
  | seq r s => r.nullable && s.nullable
  | or r s => r.nullable || s.nullable
  | star _ => true

/-- The texts `cs` with `c :: cs` matching `r`. -/
def deriv (c : Char) : Regex → Regex
  | never => never
  | empty => never
  | one p => if p c then empty else never
  | seq r s => if r.nullable then .or (.seq (r.deriv c) s) (s.deriv c) else .seq (r.deriv c) s
  | or r s => .or (r.deriv c) (s.deriv c)
  | star r => .seq (r.deriv c) (.star r)

/-- Whether the whole text matches. -/
def accepts (r : Regex) (text : String) : Bool := (text.toList.foldl (fun r c => r.deriv c) r).nullable

/-! ## The characters of a match -/

/-- Every class of the expression lies in `q`. -/
def Within (q : Char → Prop) : Regex → Prop
  | never | empty => True
  | one p => ∀ c, p c = true → q c
  | seq r s | or r s => r.Within q ∧ s.Within q
  | star r => r.Within q

/-- Nothing matches. -/
def Void (r : Regex) : Prop := ∀ cs : List Char, (cs.foldl (fun r c => r.deriv c) r).nullable = false

variable {q : Char → Prop} {r s : Regex} {c : Char}

theorem Void.seq (h : r.Void) (s : Regex) : (Regex.seq r s).Void := by
  intro cs
  induction cs generalizing r with
  | nil => simp [nullable, show r.nullable = false from h []]
  | cons c cs ih =>
    have rest : (r.deriv c).Void := fun cs => h (c :: cs)
    simpa [deriv, show r.nullable = false from h []] using ih rest

theorem Void.or (h : r.Void) (h' : s.Void) : (Regex.or r s).Void := by
  intro cs
  induction cs generalizing r s with
  | nil => simp [nullable, show r.nullable = false from h [], show s.nullable = false from h' []]
  | cons c cs ih => exact ih (fun cs => h (c :: cs)) fun cs => h' (c :: cs)

theorem void_never : never.Void := by
  intro cs
  induction cs with
  | nil => rfl
  | cons c cs ih => exact ih

theorem Within.deriv (h : r.Within q) (c : Char) : (r.deriv c).Within q := by
  induction r with
  | never | empty => trivial
  | one p =>
    unfold Regex.deriv
    split <;> trivial
  | seq r s ihr ihs =>
    unfold Regex.deriv
    split
    · exact ⟨⟨ihr h.1, h.2⟩, ihs h.2⟩
    · exact ⟨ihr h.1, h.2⟩
  | or r s ihr ihs => exact ⟨ihr h.1, ihs h.2⟩
  | star r ih => exact ⟨ih h, h⟩

/-- A character from elsewhere ends every match. -/
theorem Within.void (h : r.Within q) (outside : ¬q c) : (r.deriv c).Void := by
  induction r with
  | never | empty => exact void_never
  | one p =>
    unfold Regex.deriv
    split
    · next found => exact absurd (h c found) outside
    · exact void_never
  | seq r s ihr ihs =>
    unfold Regex.deriv
    split
    · exact ((ihr h.1).seq s).or (ihs h.2)
    · exact (ihr h.1).seq s
  | or r s ihr ihs => exact (ihr h.1).or (ihs h.2)
  | star r ih => exact (ih h).seq _

/-- The characters of a matching text are those of the classes. -/
theorem Within.of_accepts (h : r.Within q) {text : String} (accepted : r.accepts text = true) : ∀ c ∈ text.toList, q c := by
  unfold accepts at accepted
  revert accepted
  generalize text.toList = cs
  intro accepted
  induction cs generalizing r with
  | nil => exact fun c mem => absurd mem List.not_mem_nil
  | cons c cs ih =>
    intro d mem
    rcases List.mem_cons.1 mem with rfl | mem
    · apply Classical.byContradiction
      intro outside
      have none := h.void outside cs
      rw [List.foldl_cons] at accepted
      rw [accepted] at none
      cases none
    · exact ih (h.deriv c) accepted d mem

end Regex

end RosBridge.Lib
