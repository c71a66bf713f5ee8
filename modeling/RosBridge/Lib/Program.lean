import Mathlib.Tactic.Common
/-!
# Programs with state and exceptions

`Prog σ ε α` runs over a state `σ` and either returns an `α` or throws an `ε`. A
throw keeps the state written so far, as an exception of an object-oriented
program keeps the fields assigned before it.

`wp m Q E s`: run from `s`, `m` ends in `Q` when it returns and in `E` when it
throws. The rules of `wp` are equations, so a goal about a program unfolds step by
step.
-/

namespace RosBridge.Lib

/-- A computation that returns has gone through its parts. -/
theorem exists_of_bind {α β ε : Type} {x : Except ε α} {f : α → Except ε β} {b : β} (h : (x >>= f) = .ok b) :
    ∃ a, x = .ok a ∧ f a = .ok b := by
  cases x with
  | error e => cases h
  | ok a => exact ⟨a, rfl, h⟩

/-- A program over the state `σ` that returns an `α` or throws an `ε`. -/
abbrev Prog (σ ε α : Type) := ExceptT ε (StateM σ) α

namespace Prog

variable {σ ε α β : Type}

/-- The outcome of a program and the state it leaves. -/
def exec (m : Prog σ ε α) (s : σ) : Except ε α × σ := m.run s

/-- The state a program leaves. -/
def after (m : Prog σ ε α) (s : σ) : σ := (m.exec s).2

/-- `m` from `s` satisfies `Q` if it returns and `E` if it throws. -/
def wp (m : Prog σ ε α) (Q : α → σ → Prop) (E : ε → σ → Prop) (s : σ) : Prop :=
  match m.exec s with
  | (.ok a, s') => Q a s'
  | (.error e, s') => E e s'

/-- A computation without state. -/
def ofExcept (r : Except ε α) : Prog σ ε α :=
  match r with
  | .ok a => pure a
  | .error e => throw e

/-- Throw `e` under a condition. -/
def throwIf (c : Prop) [Decidable c] (e : ε) : Prog σ ε Unit := if c then throw e else pure ()

/-- Run `m` under a condition. -/
def when (c : Prop) [Decidable c] (m : Prog σ ε Unit) : Prog σ ε Unit := if c then m else pure ()

/-- A program over a part of the state. -/
def zoom {τ : Type} (part : σ → τ) (update : σ → τ → σ) (m : Prog τ ε α) : Prog σ ε α := do
  let s ← get
  match m.exec (part s) with
  | (.ok a, t) => set (update s t); pure a
  | (.error e, t) => set (update s t); throw e

/-! ## Running -/

@[simp] theorem exec_pure (a : α) (s : σ) : exec (pure a : Prog σ ε α) s = (.ok a, s) := rfl

@[simp] theorem exec_throw (e : ε) (s : σ) : exec (throw e : Prog σ ε α) s = (.error e, s) := rfl

@[simp] theorem exec_get (s : σ) : exec (get : Prog σ ε σ) s = (.ok s, s) := rfl

@[simp] theorem exec_set (t s : σ) : exec (set t : Prog σ ε PUnit) s = (.ok ⟨⟩, t) := rfl

@[simp] theorem exec_modify (f : σ → σ) (s : σ) : exec (modify f : Prog σ ε PUnit) s = (.ok ⟨⟩, f s) := rfl

theorem exec_bind (m : Prog σ ε α) (f : α → Prog σ ε β) (s : σ) :
    exec (m >>= f) s = match exec m s with
      | (.ok a, s') => exec (f a) s'
      | (.error e, s') => (.error e, s') := by
  show (ExceptT.bind m f).run s = _
  simp only [exec, ExceptT.bind, ExceptT.run, ExceptT.mk, bind, StateT.bind]
  rcases m s with ⟨a | a, s'⟩ <;> rfl

theorem exec_tryCatch (m : Prog σ ε α) (h : ε → Prog σ ε α) (s : σ) :
    exec (tryCatch m h) s = match exec m s with
      | (.ok a, s') => (.ok a, s')
      | (.error e, s') => exec (h e) s' := by
  show (ExceptT.tryCatch m h).run s = _
  simp only [exec, ExceptT.tryCatch, ExceptT.run, ExceptT.mk, bind, StateT.bind]
  rcases m s with ⟨a | a, s'⟩ <;> rfl

/-- A part that returns is gone through. -/
theorem exec_bind_ok {m : Prog σ ε α} {s s' : σ} {a : α} (h : m.exec s = (.ok a, s')) (f : α → Prog σ ε β) :
    exec (m >>= f) s = exec (f a) s' := by rw [exec_bind, h]

theorem exec_bind_error {m : Prog σ ε α} {s s' : σ} {e : ε} (h : m.exec s = (.error e, s')) (f : α → Prog σ ε β) :
    exec (m >>= f) s = (.error e, s') := by rw [exec_bind, h]

/-- A program that returns has gone through its parts. -/
theorem of_exec_bind {m : Prog σ ε α} {f : α → Prog σ ε β} {s s' : σ} {b : β} (h : exec (m >>= f) s = (.ok b, s')) :
    ∃ a t, m.exec s = (.ok a, t) ∧ (f a).exec t = (.ok b, s') := by
  rw [exec_bind] at h
  cases ran : m.exec s with
  | mk outcome t =>
    rw [ran] at h
    cases outcome with
    | ok a => exact ⟨a, t, rfl, h⟩
    | error e => cases h

/-- The outcome of a program that returns, with the state it leaves. -/
theorem exec_of_fst {m : Prog σ ε α} {s : σ} {a : α} (h : (m.exec s).1 = .ok a) : m.exec s = (.ok a, m.after s) :=
  Prod.ext h rfl

/-- What follows depends on the outcome alone. -/
theorem exec_bind_congr {m m' : Prog σ ε α} {s s' : σ} (h : m.exec s = m'.exec s') (f : α → Prog σ ε β) :
    exec (m >>= f) s = exec (m' >>= f) s' := by rw [exec_bind, exec_bind, h]

theorem exec_tryCatch_congr {m m' : Prog σ ε α} {s s' : σ} (h : m.exec s = m'.exec s') (handler : ε → Prog σ ε α) :
    exec (tryCatch m handler) s = exec (tryCatch m' handler) s' := by rw [exec_tryCatch, exec_tryCatch, h]

/-! ## Pre- and postconditions -/

section Rules

variable {Q : α → σ → Prop} {E : ε → σ → Prop} {s : σ}

@[simp] theorem wp_pure (a : α) : wp (pure a : Prog σ ε α) Q E s ↔ Q a s := Iff.rfl

@[simp] theorem wp_throw (e : ε) : wp (throw e : Prog σ ε α) Q E s ↔ E e s := Iff.rfl

@[simp] theorem wp_get {Q : σ → σ → Prop} : wp (get : Prog σ ε σ) Q E s ↔ Q s s := Iff.rfl

@[simp] theorem wp_set {Q : PUnit → σ → Prop} (t : σ) : wp (set t : Prog σ ε PUnit) Q E s ↔ Q ⟨⟩ t := Iff.rfl

@[simp] theorem wp_modify {Q : PUnit → σ → Prop} (f : σ → σ) :
    wp (modify f : Prog σ ε PUnit) Q E s ↔ Q ⟨⟩ (f s) := Iff.rfl

@[simp] theorem wp_bind {Q : β → σ → Prop} (m : Prog σ ε α) (f : α → Prog σ ε β) :
    wp (m >>= f) Q E s ↔ wp m (fun a s' => wp (f a) Q E s') E s := by
  unfold wp
  rw [exec_bind]
  rcases exec m s with ⟨a | a, s'⟩ <;> rfl

@[simp] theorem wp_map {Q : β → σ → Prop} (m : Prog σ ε α) (f : α → β) :
    wp (f <$> m) Q E s ↔ wp m (fun a s' => Q (f a) s') E s := by
  rw [← bind_pure_comp, wp_bind]
  rfl

@[simp] theorem wp_tryCatch (m : Prog σ ε α) (h : ε → Prog σ ε α) :
    wp (tryCatch m h) Q E s ↔ wp m Q (fun e s' => wp (h e) Q E s') s := by
  unfold wp
  rw [exec_tryCatch]
  rcases exec m s with ⟨a | a, s'⟩ <;> rfl

@[simp] theorem wp_ite (c : Prop) [Decidable c] (m n : Prog σ ε α) :
    wp (if c then m else n) Q E s ↔ (c → wp m Q E s) ∧ (¬c → wp n Q E s) := by
  by_cases h : c <;> simp [h]

@[simp] theorem wp_ofExcept (r : Except ε α) :
    wp (ofExcept r) Q E s ↔ (∀ a, r = .ok a → Q a s) ∧ ∀ e, r = .error e → E e s := by
  cases r <;> simp [ofExcept]

@[simp] theorem wp_zoom {τ : Type} (part : σ → τ) (update : σ → τ → σ) (m : Prog τ ε α) :
    wp (zoom part update m) Q E s ↔
      wp m (fun a t => Q a (update s t)) (fun e t => E e (update s t)) (part s) := by
  rw [zoom, wp_bind, wp_get]
  conv_rhs => unfold wp
  rcases m.exec (part s) with ⟨a | a, t⟩ <;> simp

@[simp] theorem wp_throwIf {Q : Unit → σ → Prop} (c : Prop) [Decidable c] (e : ε) :
    wp (throwIf c e : Prog σ ε Unit) Q E s ↔ (c → E e s) ∧ (¬c → Q () s) := by
  simp [throwIf]

@[simp] theorem wp_when {Q : Unit → σ → Prop} (c : Prop) [Decidable c] (m : Prog σ ε Unit) :
    wp (when c m) Q E s ↔ (c → wp m Q E s) ∧ (¬c → Q () s) := by
  simp [when]

/-- The rule of consequence. -/
theorem wp_mono {Q' : α → σ → Prop} {E' : ε → σ → Prop} {m : Prog σ ε α} (h : wp m Q E s)
    (hq : ∀ a s', Q a s' → Q' a s') (he : ∀ e s', E e s' → E' e s') : wp m Q' E' s := by
  unfold wp at *
  split at h
  · exact hq _ _ h
  · exact he _ _ h

/-- What holds under a condition that the program does not change. -/
theorem wp_imp {p : Prop} {m : Prog σ ε α} (h : p → wp m Q E s) : wp m (fun a s' => p → Q a s') (fun e s' => p → E e s') s := by
  unfold wp at *
  split
  · next heq => exact fun hp => by simpa [heq] using h hp
  · next heq => exact fun hp => by simpa [heq] using h hp

theorem wp_and {Q' : α → σ → Prop} {E' : ε → σ → Prop} {m : Prog σ ε α} (h : wp m Q E s) (h' : wp m Q' E' s) :
    wp m (fun a s' => Q a s' ∧ Q' a s') (fun e s' => E e s' ∧ E' e s') s := by
  unfold wp at *
  split at h
  · next heq => exact ⟨h, by simpa [heq] using h'⟩
  · next heq => exact ⟨h, by simpa [heq] using h'⟩

theorem wp_trivial (m : Prog σ ε α) (s : σ) : wp m (fun _ _ => True) (fun _ _ => True) s := by
  unfold wp
  split <;> trivial

/-- The outcome of a program, as one of the two cases of its specification. -/
theorem exec_cases {m : Prog σ ε α} (h : wp m Q E s) :
    (∃ a s', Q a s' ∧ m.exec s = (.ok a, s')) ∨ ∃ e s', E e s' ∧ m.exec s = (.error e, s') := by
  unfold wp at h
  split at h
  · exact .inl ⟨_, _, h, by assumption⟩
  · exact .inr ⟨_, _, h, by assumption⟩

/-- What holds however a program ends holds of the state it leaves. -/
theorem after_of_wp {P : σ → Prop} {m : Prog σ ε α} (h : wp m (fun _ => P) (fun _ => P) s) : P (m.after s) := by
  unfold wp at h
  unfold after
  split at h <;> next heq => rw [heq]; exact h

/-- A program whose outcome is known. -/
theorem wp_of_exec {m : Prog σ ε α} {a : α} {s' : σ} (h : m.exec s = (.ok a, s')) : wp m Q E s ↔ Q a s' := by
  unfold wp
  rw [h]

/-- What holds when a program returns. -/
theorem of_wp_ok {m : Prog σ ε α} {a : α} {s' : σ} (h : wp m Q E s) (he : m.exec s = (.ok a, s')) : Q a s' := by
  unfold wp at h
  rwa [he] at h

/-- What holds when a program throws. -/
theorem of_wp_error {m : Prog σ ε α} {e : ε} {s' : σ} (h : wp m Q E s) (he : m.exec s = (.error e, s')) : E e s' := by
  unfold wp at h
  rwa [he] at h

end Rules

/-! ## Two programs -/

/-- From `s` two programs do the same, and end in `I`. -/
structure Alike (I : σ → Prop) (m m' : Prog σ ε α) (s : σ) : Prop where
  same : m.exec s = m'.exec s
  ends : wp m (fun _ => I) (fun _ => I) s

namespace Alike

variable {I J : σ → Prop} {m m' : Prog σ ε α} {s : σ}

theorem refl (h : wp m (fun _ => I) (fun _ => I) s) : Alike I m m s := ⟨rfl, h⟩

theorem mono (h : Alike I m m' s) (weaker : ∀ s, I s → J s) : Alike J m m' s :=
  ⟨h.same, wp_mono h.ends (fun _ s => weaker s) fun _ s => weaker s⟩

theorem bind {f f' : α → Prog σ ε β} {Q : α → σ → Prop} (h : Alike I m m' s) (spec : wp m Q (fun _ _ => True) s)
    (hf : ∀ a s', I s' → Q a s' → Alike I (f a) (f' a) s') : Alike I (m >>= f) (m' >>= f') s := by
  obtain ⟨same, ends⟩ := h
  refine ⟨?_, ?_⟩
  · rw [exec_bind, exec_bind, ← same]
    rcases exec_cases (wp_and ends spec) with ⟨a, s', h, e⟩ | ⟨a, s', h, e⟩ <;> rw [e]
    exact (hf a s' h.1 h.2).same
  · rw [wp_bind]
    exact wp_mono (wp_and ends spec) (fun a s' h => (hf a s' h.1 h.2).ends) fun _ _ h => h.1

/-- The first part is the same program. -/
theorem andThen {f f' : α → Prog σ ε β} {Q : α → σ → Prop} (spec : wp m Q (fun _ => I) s)
    (hf : ∀ a s', Q a s' → Alike I (f a) (f' a) s') : Alike I (m >>= f) (m >>= f') s := by
  refine ⟨?_, ?_⟩
  · rw [exec_bind, exec_bind]
    rcases exec_cases spec with ⟨a, s', h, e⟩ | ⟨a, s', h, e⟩ <;> rw [e]
    exact (hf a s' h).same
  · rw [wp_bind]
    exact wp_mono spec (fun a s' h => (hf a s' h).ends) fun _ _ h => h

theorem tryCatch {h h' : ε → Prog σ ε α} {E : ε → σ → Prop} (hm : Alike I m m' s) (spec : wp m (fun _ _ => True) E s)
    (hh : ∀ e s', I s' → E e s' → Alike I (h e) (h' e) s') : Alike I (tryCatch m h) (tryCatch m' h') s := by
  obtain ⟨same, ends⟩ := hm
  refine ⟨?_, ?_⟩
  · rw [exec_tryCatch, exec_tryCatch, ← same]
    rcases exec_cases (wp_and ends spec) with ⟨a, s', h, e⟩ | ⟨a, s', h, e⟩ <;> rw [e]
    exact (hh a s' h.1 h.2).same
  · rw [wp_tryCatch]
    exact wp_mono (wp_and ends spec) (fun _ _ h => h.1) fun e s' h => (hh e s' h.1 h.2).ends

theorem when {c : Prop} [Decidable c] {m m' : Prog σ ε Unit} (hm : c → Alike I m m' s) (here : I s) :
    Alike I (when c m) (when c m') s := by
  unfold Prog.when
  by_cases h : c
  · rw [if_pos h, if_pos h]
    exact hm h
  · rw [if_neg h, if_neg h]
    exact .refl here

end Alike

/-- From `s` and `t` two programs end alike, in states that `R` relates. -/
def Matches {τ : Type} (R : σ → τ → Prop) (m : Prog σ ε α) (m' : Prog τ ε α) (s : σ) (t : τ) : Prop :=
  (m.exec s).1 = (m'.exec t).1 ∧ R (m.exec s).2 (m'.exec t).2

namespace Matches

variable {τ : Type} {R : σ → τ → Prop} {s : σ} {t : τ}

theorem refl (m : Prog σ ε α) (s : σ) : Matches Eq m m s s := ⟨rfl, rfl⟩

theorem pure (a : α) (h : R s t) : Matches R (Pure.pure a : Prog σ ε α) (Pure.pure a) s t := ⟨rfl, h⟩

theorem throw (e : ε) (h : R s t) : Matches R (MonadExcept.throw e : Prog σ ε α) (MonadExcept.throw e) s t := ⟨rfl, h⟩

theorem update {f : σ → σ} {g : τ → τ} (h : R (f s) (g t)) :
    Matches R (modify f : Prog σ ε PUnit) (modify g) s t := ⟨rfl, h⟩

theorem bind {m : Prog σ ε α} {m' : Prog τ ε α} {f : α → Prog σ ε β} {f' : α → Prog τ ε β} (h : Matches R m m' s t)
    (hf : ∀ a s t, R s t → Matches R (f a) (f' a) s t) : Matches R (m >>= f) (m' >>= f') s t := by
  obtain ⟨same, ends⟩ := h
  unfold Matches
  rw [exec_bind, exec_bind]
  cases ran : m.exec s with
  | mk outcome s' =>
    cases ran' : m'.exec t with
    | mk outcome' t' =>
      rw [ran, ran'] at same ends
      obtain rfl : outcome = outcome' := same
      cases outcome with
      | ok a => exact hf a s' t' ends
      | error e => exact ⟨rfl, ends⟩

/-- Each program goes on from its own state. -/
theorem get {f : σ → Prog σ ε α} {f' : τ → Prog τ ε α} (h : Matches R (f s) (f' t) s t) :
    Matches R (MonadState.get >>= f) (MonadState.get >>= f') s t := h

theorem tryCatch {m : Prog σ ε α} {m' : Prog τ ε α} {f : ε → Prog σ ε α} {f' : ε → Prog τ ε α} (h : Matches R m m' s t)
    (hf : ∀ e s t, R s t → Matches R (f e) (f' e) s t) :
    Matches R (MonadExcept.tryCatch m f) (MonadExcept.tryCatch m' f') s t := by
  obtain ⟨same, ends⟩ := h
  unfold Matches
  rw [exec_tryCatch, exec_tryCatch]
  cases ran : m.exec s with
  | mk outcome s' =>
    cases ran' : m'.exec t with
    | mk outcome' t' =>
      rw [ran, ran'] at same ends
      obtain rfl : outcome = outcome' := same
      cases outcome with
      | ok a => exact ⟨rfl, ends⟩
      | error e => exact hf e s' t' ends

theorem when {c : Prop} [Decidable c] {m : Prog σ ε Unit} {m' : Prog τ ε Unit} (h : Matches R m m' s t) (here : R s t) :
    Matches R (when c m) (when c m') s t := by
  unfold Prog.when
  split
  · exact h
  · exact pure () here

/-- A part of each state. -/
theorem zoom {υ φ : Type} {S : υ → φ → Prop} {part : σ → υ} {update : σ → υ → σ} {part' : τ → φ} {update' : τ → φ → τ}
    {m : Prog υ ε α} {m' : Prog φ ε α} (h : Matches S m m' (part s) (part' t))
    (hu : ∀ u v, S u v → R (update s u) (update' t v)) : Matches R (zoom part update m) (zoom part' update' m') s t := by
  obtain ⟨same, ends⟩ := h
  show Matches R (MonadState.get >>= _) (MonadState.get >>= _) s t
  apply get
  cases ran : m.exec (part s) with
  | mk outcome u =>
    cases ran' : m'.exec (part' t) with
    | mk outcome' v =>
      rw [ran, ran'] at same ends
      obtain rfl : outcome = outcome' := same
      cases outcome with
      | ok a => exact ⟨rfl, hu u v ends⟩
      | error e => exact ⟨rfl, hu u v ends⟩

end Matches

/-- What `m` returns with `P`, `m'` returns as well. -/
def Covers (P : α → Prop) (m m' : Prog σ ε α) : Prop :=
  ∀ s a s', m.exec s = (.ok a, s') → P a → m'.exec s = (.ok a, s')

namespace Covers

variable {P : α → Prop} {R : β → Prop} {m : Prog σ ε α} {f f' : α → Prog σ ε β}

theorem refl : Covers P m m := fun _ _ _ ran _ => ran

/-- The first part is the same program. -/
theorem andThen (h : ∀ a, Covers R (f a) (f' a)) : Covers R (m >>= f) (m >>= f') := by
  intro s b s' ran good
  obtain ⟨a, t, first, rest⟩ := of_exec_bind ran
  rw [exec_bind_ok first]
  exact h a t b s' rest good

/-- What follows is the same function of the result. -/
theorem map {m' : Prog σ ε α} {g : α → β} (h : Covers P m m') (good : ∀ a, R (g a) → P a) :
    Covers R (m >>= fun a => pure (g a)) (m' >>= fun a => pure (g a)) := by
  intro s b s' ran holds
  obtain ⟨a, t, first, rest⟩ := of_exec_bind ran
  cases rest
  rw [exec_bind_ok (h s a _ first (good a holds))]
  rfl

/-- Two programs over two lists, item by item. -/
theorem mapM {ι κ : Type} {f : ι → Prog σ ε α} {g : κ → Prog σ ε α} {xs : List ι} {ys : List κ}
    (each : List.Forall₂ (fun x y => Covers P (f x) (g y)) xs ys) : Covers (fun as => ∀ a ∈ as, P a) (xs.mapM f) (ys.mapM g) := by
  induction each with
  | nil => exact refl
  | cons one _ ih =>
    intro s as s' ran good
    rw [List.mapM_cons] at ran ⊢
    obtain ⟨a, t, first, ran⟩ := of_exec_bind ran
    obtain ⟨rest, t', others, ran⟩ := of_exec_bind ran
    cases ran
    rw [List.forall_mem_cons] at good
    rw [exec_bind_ok (one s a t first good.1), exec_bind_ok (ih t rest _ others good.2)]
    rfl

end Covers

end Prog

end RosBridge.Lib
