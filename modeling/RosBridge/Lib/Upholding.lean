import RosBridge.Lib.Program
/-!
# What a program upholds

`Upholds P m`: from a state with `P`, and however it ends, `m` leaves one with `P`. The
rules follow the structure of the program.
-/

namespace RosBridge.Lib.Prog

variable {σ ε α β : Type}

/-- `m` goes from `P` to `P`. -/
def Upholds (P : σ → Prop) (m : Prog σ ε α) : Prop := ∀ s, P s → P (m.after s)

theorem after_bind (m : Prog σ ε α) (g : α → Prog σ ε β) (s : σ) :
    (m >>= g).after s = match (m.exec s).1 with
      | .ok a => (g a).after (m.after s)
      | .error _ => m.after s := by
  unfold after
  rw [exec_bind]
  rcases m.exec s with ⟨a | a, s'⟩ <;> rfl

namespace Upholds

variable {P : σ → Prop} {m : Prog σ ε α}

theorem pure (a : α) : Upholds P (Pure.pure a : Prog σ ε α) := fun _ h => h

theorem throw (e : ε) : Upholds P (MonadExcept.throw e : Prog σ ε α) := fun _ h => h

theorem get : Upholds P (MonadState.get : Prog σ ε σ) := fun _ h => h

theorem ofExcept (r : Except ε α) : Upholds P (Prog.ofExcept r : Prog σ ε α) := by
  intro s h
  cases r <;> exact h

theorem modify {g : σ → σ} (h : ∀ s, P s → P (g s)) : Upholds P (modify g : Prog σ ε PUnit) := h

theorem bind {g : α → Prog σ ε β} (hm : Upholds P m) (hg : ∀ a, Upholds P (g a)) : Upholds P (m >>= g) := by
  intro s h
  rw [after_bind]
  split
  · next a _ => exact hg a _ (hm s h)
  · exact hm s h

/-- Code that goes on with the state it has read. -/
theorem getBind {g : σ → Prog σ ε α} (hg : ∀ s, P s → P ((g s).after s)) : Upholds P (MonadState.get >>= g) := hg

theorem tryCatch {h : ε → Prog σ ε α} (hm : Upholds P m) (hh : ∀ e, Upholds P (h e)) : Upholds P (MonadExcept.tryCatch m h) := by
  intro s hs
  have upheld := hm s hs
  unfold after at upheld ⊢
  rw [exec_tryCatch]
  split
  · next ran => rwa [ran] at upheld
  · next e s' ran =>
    rw [ran] at upheld
    exact hh e s' upheld

theorem ite {c : Prop} [Decidable c] {n : Prog σ ε α} (hm : Upholds P m) (hn : Upholds P n) : Upholds P (if c then m else n) := by
  split
  · exact hm
  · exact hn

theorem when {c : Prop} [Decidable c] {m : Prog σ ε Unit} (hm : Upholds P m) : Upholds P (Prog.when c m) := ite hm (pure ())

theorem throwIf (c : Prop) [Decidable c] (e : ε) : Upholds P (Prog.throwIf c e : Prog σ ε Unit) := ite (throw e) (pure ())

/-- What writes a part of the state back upholds what does not depend on that part. -/
theorem zoom {τ : Type} {part : σ → τ} {update : σ → τ → σ} (h : ∀ s t, P s → P (update s t)) (m : Prog τ ε α) :
    Upholds P (Prog.zoom part update m) := by
  intro s hs
  have upheld : wp (Prog.zoom part update m) (fun _ => P) (fun _ => P) s := by
    rw [wp_zoom]
    exact wp_mono (wp_trivial m (part s)) (fun _ t _ => h s t hs) fun _ t _ => h s t hs
  exact after_of_wp upheld

/-- However `m` ends, `P` holds. -/
theorem spec (h : Upholds P m) {s : σ} (hs : P s) : wp m (fun _ => P) (fun _ => P) s := by
  have upheld := h s hs
  unfold after at upheld
  unfold wp
  split <;> next ran => rwa [ran] at upheld

end Upholds

end RosBridge.Lib.Prog
