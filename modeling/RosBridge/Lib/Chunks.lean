import Mathlib.Tactic.Common
/-!
# Streams that arrive in chunks

A `Cutter` says what stands at the front of a buffer: an item, something invalid, or
the beginning of an item. What it has said does not change when more arrives. `Reads`
is reading items from a buffer as long as there are any; reading a stream at once or in
chunks makes no difference (`Reads.append`, `Reads.stuck`).
-/

namespace RosBridge.Lib

/-- What stands at the front of a buffer. -/
inductive Front (α β ε : Type) where
  | short
  | invalid (e : ε)
  | item (b : β) (rest : List α)

/-- A format of items in a stream. -/
structure Cutter (α β ε : Type) where
  cut : List α → Front α β ε
  shrinks : ∀ {xs b rest}, cut xs = .item b rest → rest.length < xs.length
  item_append : ∀ {xs b rest} ys, cut xs = .item b rest → cut (xs ++ ys) = .item b (rest ++ ys)
  invalid_append : ∀ {xs e} ys, cut xs = .invalid e → cut (xs ++ ys) = .invalid e

variable {α β ε : Type} (c : Cutter α β ε)

/-- From the buffer `xs` these items are read, and this is left. -/
inductive Reads : List α → List β → Option ε → List α → Prop where
  | short {xs : List α} : c.cut xs = .short → Reads xs [] none xs
  | invalid {xs : List α} {e : ε} : c.cut xs = .invalid e → Reads xs [] (some e) xs
  | item {xs rest left : List α} {b : β} {bs : List β} {e : Option ε} : c.cut xs = .item b rest → Reads rest bs e left →
    Reads xs (b :: bs) e left

namespace Reads

variable {c} {xs ys left left' : List α} {bs bs' : List β} {e e' : Option ε}

/-- A buffer is read in one way. -/
theorem unique (h : Reads c xs bs e left) (h' : Reads c xs bs' e' left') : bs = bs' ∧ e = e' ∧ left = left' := by
  induction h generalizing bs' e' left' with
  | short cut =>
    cases h' with
    | short => exact ⟨rfl, rfl, rfl⟩
    | invalid cut' | item cut' =>
      rw [cut] at cut'
      cases cut'
  | invalid cut =>
    cases h' with
    | invalid cut' =>
      rw [cut] at cut'
      cases cut'
      exact ⟨rfl, rfl, rfl⟩
    | short cut' | item cut' =>
      rw [cut] at cut'
      cases cut'
  | item cut _ ih =>
    cases h' with
    | item cut' rest' =>
      rw [cut] at cut'
      cases cut'
      obtain ⟨rfl, rfl, rfl⟩ := ih rest'
      exact ⟨rfl, rfl, rfl⟩
    | short cut' | invalid cut' =>
      rw [cut] at cut'
      cases cut'

variable (c) in
/-- Every buffer is read in some way. -/
theorem exists_of (xs : List α) : ∃ bs e left, Reads c xs bs e left := by
  induction h : xs.length using Nat.strongRecOn generalizing xs with
  | ind n ih =>
    cases cut : c.cut xs with
    | short => exact ⟨[], none, xs, .short cut⟩
    | invalid e => exact ⟨[], some e, xs, .invalid cut⟩
    | item b rest =>
      obtain ⟨bs, e, left, reads⟩ := ih rest.length (h ▸ c.shrinks cut) rest rfl
      exact ⟨b :: bs, e, left, .item cut reads⟩

/-- Reading goes on where it had stopped for want of data. -/
theorem append (h : Reads c xs bs none left) (h' : Reads c (left ++ ys) bs' e' left') :
    Reads c (xs ++ ys) (bs ++ bs') e' left' := by
  generalize he : (none : Option ε) = e at h
  induction h with
  | short => exact h'
  | invalid => cases he
  | item cut _ ih => exact .item (c.item_append ys cut) (ih h' he)

/-- What is invalid stays in the way. -/
theorem stuck {err : ε} (h : Reads c xs bs (some err) left) (ys : List α) : Reads c (xs ++ ys) bs (some err) (left ++ ys) := by
  generalize he : some err = e at h
  induction h with
  | short => cases he
  | invalid cut =>
    cases he
    exact .invalid (c.invalid_append ys cut)
  | item cut _ ih => exact .item (c.item_append ys cut) (ih he)

/-- The items of a beginning of a buffer come first. -/
theorem begins (h : Reads c xs bs e left) (h' : Reads c (xs ++ ys) bs' e' left') : bs <+: bs' := by
  cases e with
  | none =>
    obtain ⟨more, e, last, reads⟩ := exists_of c (left ++ ys)
    obtain ⟨rfl, -⟩ := h'.unique (h.append reads)
    exact List.prefix_append bs more
  | some err =>
    obtain ⟨rfl, -⟩ := h'.unique (h.stuck ys)
    exact List.prefix_rfl

/-- Of a stream that is read to its end a beginning is read in the same way. -/
theorem split (h : Reads c (xs ++ ys) bs none left) :
    ∃ first mid rest, Reads c xs first none mid ∧ Reads c (mid ++ ys) rest none left ∧ bs = first ++ rest := by
  obtain ⟨first, e, mid, reads⟩ := exists_of c xs
  cases e with
  | none =>
    obtain ⟨rest, e, last, more⟩ := exists_of c (mid ++ ys)
    obtain ⟨rfl, rfl, rfl⟩ := h.unique (reads.append more)
    exact ⟨first, mid, rest, reads, more, rfl⟩
  | some err =>
    obtain ⟨-, bad, -⟩ := h.unique (reads.stuck ys)
    cases bad

/-- What was left of a buffer holds no item. -/
theorem again {err : ε} (h : Reads c xs bs (some err) left) : Reads c left [] (some err) left := by
  generalize he : some err = e at h
  induction h with
  | short => cases he
  | invalid cut =>
    cases he
    exact .invalid cut
  | item _ _ ih => exact ih he

end Reads

end RosBridge.Lib
