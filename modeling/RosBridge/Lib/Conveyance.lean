import Mathlib.Data.List.Forall2
import Mathlib.Data.List.Sublists
import Mathlib.Tactic.Common
/-!
# What is conveyed of a list

A sender offers a list of items and a receiver gets a list of messages. `Conveys R whole
offered got`: the messages are, in order, those of some of the items, and where nothing
may be left out (`whole`) they are those of the first items.
-/

namespace RosBridge.Lib

variable {α β : Type} {R : α → β → Prop} {whole : Prop} {offered : List α} {got : List β}

def Conveys (R : α → β → Prop) (whole : Prop) (offered : List α) (got : List β) : Prop :=
  ∃ part, List.Forall₂ R part got ∧ part.Sublist offered ∧ (whole → part <+: offered)

namespace Conveys

theorem nil (offered : List α) : Conveys R whole offered ([] : List β) :=
  ⟨[], .nil, List.nil_sublist _, fun _ => List.nil_prefix⟩

/-- More is offered. -/
theorem offer (h : Conveys R whole offered got) (more : List α) : Conveys R whole (offered ++ more) got := by
  obtain ⟨part, conveyed, some, first⟩ := h
  exact ⟨part, conveyed, some.trans (List.sublist_append_left _ _), fun all => (first all).trans (List.prefix_append _ _)⟩

/-- What was got first. -/
theorem before {later : List β} (h : Conveys R whole offered (got ++ later)) : Conveys R whole offered got := by
  obtain ⟨part, conveyed, some, first⟩ := h
  refine ⟨part.take got.length, List.forall₂_take_append _ _ _ conveyed, (List.take_sublist _ _).trans some, fun all => ?_⟩
  exact (List.take_prefix _ _).trans (first all)

/-- A new item is offered and got; nothing was left out if nothing may be. -/
theorem concat {a : α} {b : β} (h : Conveys R whole offered got) (new : R a b) (level : whole → got.length = offered.length) :
    Conveys R whole (offered ++ [a]) (got ++ [b]) := by
  obtain ⟨part, conveyed, some, first⟩ := h
  refine ⟨part ++ [a], List.rel_append conveyed (.cons new .nil), some.append (.refl _), fun all => ?_⟩
  have whole : part = offered := (first all).eq_of_length (conveyed.length_eq.trans (level all))
  exact whole ▸ List.prefix_rfl

/-- Every message is that of an item. -/
theorem mem (h : Conveys R whole offered got) {b : β} (hb : b ∈ got) : ∃ a ∈ offered, R a b := by
  obtain ⟨part, conveyed, some, -⟩ := h
  obtain ⟨i, hi, rfl⟩ := List.mem_iff_getElem.1 hb
  have bound : i < part.length := conveyed.length_eq ▸ hi
  exact ⟨part[i], some.subset (List.getElem_mem bound), conveyed.get bound hi⟩

/-- Nothing is left out: message `i` is that of item `i`. -/
theorem getElem (h : Conveys R whole offered got) (all : whole) {i : Nat} (hi : i < got.length) :
    ∃ hi' : i < offered.length, R offered[i] got[i] := by
  obtain ⟨part, conveyed, -, first⟩ := h
  have bound : i < part.length := conveyed.length_eq ▸ hi
  have bound' : i < offered.length := bound.trans_le (first all).length_le
  refine ⟨bound', ?_⟩
  have same : offered[i] = part[i] := ((first all).getElem bound).symm
  exact same ▸ conveyed.get bound hi

/-- Where the items are in an order, so are the messages. -/
theorem pairwise {P : α → α → Prop} {Q : β → β → Prop} (h : Conveys R whole offered got) (ordered : offered.Pairwise P)
    (imp : ∀ a a' b b', R a b → R a' b' → P a a' → Q b b') : got.Pairwise Q := by
  obtain ⟨part, conveyed, some, -⟩ := h
  have ordered := ordered.sublist some
  clear some
  induction conveyed with
  | nil => exact .nil
  | @cons a b part got one rest ih =>
    obtain ⟨first, others⟩ := List.pairwise_cons.1 ordered
    refine List.pairwise_cons.2 ⟨fun b' hb' => ?_, ih others⟩
    obtain ⟨i, hi, rfl⟩ := List.mem_iff_getElem.1 hb'
    have bound : i < part.length := rest.length_eq ▸ hi
    exact imp a _ b _ one (rest.get bound hi) (first _ (List.getElem_mem bound))

end Conveys

end RosBridge.Lib
