import Mathlib.Data.List.Basic
/-!
# Logs

A log grows at its end. `Logged P log`: every entry of the log satisfies `P` with the
entries before it.
-/

namespace RosBridge.Lib

variable {α : Type} {P Q : List α → α → Prop} {log new : List α} {a : α}

def Logged (P : List α → α → Prop) (log : List α) : Prop := ∀ before a after, log = before ++ a :: after → P before a

/-- An entry of an extended log is an old one, or one of the new. -/
theorem append_split {before after : List α} (e : log ++ new = before ++ a :: after) :
    (∃ between, log = before ++ a :: between ∧ after = between ++ new) ∨
      ∃ between, before = log ++ between ∧ new = between ++ a :: after := by
  rcases List.append_eq_append_iff.1 e with ⟨between, rfl, h⟩ | ⟨between, rfl, h⟩
  · exact .inr ⟨between, rfl, h⟩
  · cases between with
    | nil => exact .inr ⟨[], by simp, h.symm⟩
    | cons b between =>
      obtain ⟨rfl, rfl⟩ := List.cons.inj h
      exact .inl ⟨between, rfl, rfl⟩

theorem logged_nil : Logged P [] := by
  intro before a after e
  simp at e

theorem Logged.mono (h : Logged P log) (imp : ∀ before, ∀ a ∈ log, P before a → Q before a) : Logged Q log := by
  rintro before a after rfl
  exact imp before a (by simp) (h before a after rfl)

/-- A log is extended by entries that satisfy `P` with what is before them. -/
theorem Logged.append (h : Logged P log) (hn : Logged (fun before => P (log ++ before)) new) : Logged P (log ++ new) := by
  intro before a after e
  rcases List.append_eq_append_iff.1 e with ⟨between, rfl, h'⟩ | ⟨between, rfl, h'⟩
  · exact hn between a after h'
  · cases between with
    | nil =>
      have := hn [] a after (by simpa using h'.symm)
      simpa using this
    | cons b between =>
      obtain ⟨rfl, rfl⟩ := List.cons.inj h'
      exact h before a between rfl

theorem logged_singleton (h : P [] a) : Logged P [a] := by
  intro before b after e
  cases before with
  | nil =>
    obtain ⟨rfl, rfl⟩ := List.cons.inj e
    exact h
  | cons c before => simp at e

theorem Logged.concat (h : Logged P log) (ha : P log a) : Logged P (log ++ [a]) :=
  h.append (logged_singleton (by rwa [List.append_nil]))

/-- Entries that satisfy `P` with anything before them. -/
theorem logged_of_forall (h : ∀ before, ∀ a ∈ new, P before a) : Logged P new := by
  rintro before a after rfl
  exact h before a (by simp)

theorem Logged.mem (h : Logged P log) (ha : a ∈ log) : ∃ before, before <+: log ∧ P before a := by
  obtain ⟨before, after, rfl⟩ := List.append_of_mem ha
  exact ⟨before, List.prefix_append _ _, h before a after rfl⟩

end RosBridge.Lib
