import Mathlib.Data.List.Basic
import Mathlib.Tactic.Common
/-!
# Runs

A system takes a step on each input. `Along C s is`: every input of the run meets the
condition `C` in the state it finds. An invariant that steps keep where `C` holds is
kept along such runs (`Along.inv`), and where breaking `C` breaks a property at once,
`C` along the run is exactly what the property needs (`along_iff`).
-/

namespace RosBridge.Lib

variable {σ ι : Type} {step : σ → ι → σ}

/-- An invariant that every step keeps holds after every run. -/
theorem foldl_inv {I : σ → Prop} (keep : ∀ s i, I s → I (step s i)) {s : σ} (hs : I s) (is : List ι) :
    I (is.foldl step s) := by
  induction is generalizing s with
  | nil => exact hs
  | cons i is ih => exact ih (keep s i hs)

variable (step) in
/-- Every input meets `C` in the state it finds. -/
def Along (C : σ → ι → Prop) : σ → List ι → Prop
  | _, [] => True
  | s, i :: is => C s i ∧ Along C (step s i) is

theorem along_append {C : σ → ι → Prop} (s : σ) (is js : List ι) :
    Along step C s (is ++ js) ↔ Along step C s is ∧ Along step C (is.foldl step s) js := by
  induction is generalizing s with
  | nil => simp [Along]
  | cons i is ih => simp only [List.cons_append, Along, List.foldl_cons, ih, and_assoc]

/-- Along a run, said of each of its inputs. -/
theorem along_iff_forall {C : σ → ι → Prop} {s : σ} {is : List ι} :
    Along step C s is ↔ ∀ pre i post, is = pre ++ i :: post → C (pre.foldl step s) i := by
  constructor
  · rintro h pre i post rfl
    exact ((along_append s pre (i :: post)).1 h).2.1
  · intro h
    induction is generalizing s with
    | nil => trivial
    | cons i is ih =>
      refine ⟨h [] i is rfl, ih fun pre j post e => ?_⟩
      exact h (i :: pre) j post (congrArg (i :: ·) e)

theorem along_congr {C D : σ → ι → Prop} (h : ∀ s i, C s i ↔ D s i) {s : σ} {is : List ι} :
    Along step C s is ↔ Along step D s is := by
  induction is generalizing s with
  | nil => exact Iff.rfl
  | cons i is ih => exact and_congr (h s i) ih

theorem Along.inv {C : σ → ι → Prop} {I : σ → Prop} (keep : ∀ s i, I s → C s i → I (step s i)) {s : σ} (hs : I s)
    {is : List ι} (h : Along step C s is) : I (is.foldl step s) := by
  induction is generalizing s with
  | nil => exact hs
  | cons i is ih => exact ih (keep s i hs h.1) h.2

/-- `G` holds all along a run exactly when every input meets `C`, given an invariant
that implies `G`, is kept where `C` holds, and under which breaking `C` breaks `G`. -/
theorem along_iff (step : σ → ι → σ) {C : σ → ι → Prop} {I G : σ → Prop} (good : ∀ s, I s → G s)
    (keep : ∀ s i, I s → C s i → I (step s i)) (sharp : ∀ s i, I s → ¬C s i → ¬G (step s i))
    {s : σ} (hs : I s) (is : List ι) :
    (∀ pre, pre <+: is → G (pre.foldl step s)) ↔ Along step C s is := by
  constructor
  · intro h
    induction is generalizing s with
    | nil => trivial
    | cons i is ih =>
      have hc : C s i := by
        by_contra hc
        exact sharp s i hs hc (h [i] (List.cons_prefix_cons.2 ⟨rfl, List.nil_prefix⟩))
      exact ⟨hc, ih (keep s i hs hc) fun pre hp => h (i :: pre) (List.cons_prefix_cons.2 ⟨rfl, hp⟩)⟩
  · rintro h pre ⟨post, rfl⟩
    exact good _ (((along_append s pre post).1 h).1.inv keep hs)

end RosBridge.Lib
