import Mathlib.Logic.Function.Basic
import Mathlib.Logic.Relation
import Mathlib.Tactic.Common
/-!
# Interleaved threads

A thread performs operations on a state that it shares with others, one at a time; what an
operation gives, and what it leaves, need not be determined, and a thread may stop between
any two of its operations. `Protocol.safe` says of one thread that it keeps to a protocol
whatever the others do that keep to it, and is closed under the constructs of a program.
Threads that are safe one by one are safe together (`Run.safe`).
-/

namespace RosBridge.Lib

/-- A computation that performs operations. Each gives a result or fails. -/
inductive Thread (Op : Type) (Res : Op → Type) (ε α : Type) where
  | done (result : Except ε α)
  | perform (op : Op) (next : Except ε (Res op) → Thread Op Res ε α)

namespace Thread

variable {Op : Type} {Res : Op → Type} {ε α β : Type}

def bind : Thread Op Res ε α → (α → Thread Op Res ε β) → Thread Op Res ε β
  | done (.ok a), f => f a
  | done (.error e), _ => done (.error e)
  | perform op next, f => perform op fun r => bind (next r) f

instance : Monad (Thread Op Res ε) where
  pure a := done (.ok a)
  bind := bind

/-- `try … catch …` -/
def orCatch : Thread Op Res ε α → (ε → Thread Op Res ε α) → Thread Op Res ε α
  | done (.ok a), _ => done (.ok a)
  | done (.error e), h => h e
  | perform op next, h => perform op fun r => orCatch (next r) h

/-- `try … finally …` -/
def andFinally : Thread Op Res ε α → Thread Op Res ε Unit → Thread Op Res ε α
  | done r, last => bind last fun _ => done r
  | perform op next, last => perform op fun r => andFinally (next r) last

/-- Perform one operation. -/
def call (op : Op) : Thread Op Res ε (Res op) := perform op done

def fail (e : ε) : Thread Op Res ε α := done (.error e)

/-- Throw `e` under a condition. -/
def throwIf (c : Prop) [Decidable c] (e : ε) : Thread Op Res ε Unit := if c then fail e else pure ()

/-- Run a thread to its end, with nobody else. -/
def exec {σ : Type} (perform : (op : Op) → σ → Except ε (Res op) × σ) : Thread Op Res ε α → σ → Except ε α × σ
  | done r, s => (r, s)
  | .perform op next, s => exec perform (next (perform op s).1) (perform op s).2

/-- What every operation keeps is kept. -/
theorem exec_inv {σ : Type} {perform : (op : Op) → σ → Except ε (Res op) × σ} {I : σ → Prop}
    (keep : ∀ op s, I s → I (perform op s).2) (t : Thread Op Res ε α) {s : σ} (h : I s) : I (t.exec perform s).2 := by
  induction t generalizing s with
  | done r => exact h
  | perform op next ih => exact ih _ (keep op s h)

end Thread

section Together

variable {Op : Type} {Res : Op → Type} {ε σ ι α : Type}

/-- Threads and the state they share. -/
structure Pool (Op : Type) (Res : Op → Type) (ε σ ι α : Type) where
  state : σ
  threads : ι → Thread Op Res ε α

/-- Some thread performs its next operation. -/
inductive Step [DecidableEq ι] (Effect : ι → (op : Op) → σ → Except ε (Res op) → σ → Prop) :
    Pool Op Res ε σ ι α → Pool Op Res ε σ ι α → Prop where
  | perform {pool : Pool Op Res ε σ ι α} {op : Op} {next : Except ε (Res op) → Thread Op Res ε α} {r : Except ε (Res op)} {s' : σ}
    (c : ι) : pool.threads c = .perform op next → Effect c op pool.state r s' →
      Step Effect pool ⟨s', Function.update pool.threads c (next r)⟩

/-- Threads take turns in any order. -/
def Run [DecidableEq ι] (Effect : ι → (op : Op) → σ → Except ε (Res op) → σ → Prop) :
    Pool Op Res ε σ ι α → Pool Op Res ε σ ι α → Prop := Relation.ReflTransGen (Step Effect)

end Together

/-- What threads with names in `ι` do to a shared state, the invariant they keep, what a thread
relies on when the others go on, and what it guarantees itself. -/
structure Protocol (Op : Type) (Res : Op → Type) (ε σ ι : Type) where
  Effect : ι → (op : Op) → σ → Except ε (Res op) → σ → Prop
  Inv : σ → Prop
  Rely : ι → σ → σ → Prop
  Guar : ι → σ → σ → Prop
  rely_refl : ∀ c s, Rely c s s
  rely_trans : ∀ {c s s' s''}, Rely c s s' → Rely c s' s'' → Rely c s s''
  other : ∀ {c d s s'}, c ≠ d → Guar c s s' → Rely d s s'

namespace Protocol

open Thread

variable {Op : Type} {Res : Op → Type} {ε σ ι α β : Type} (p : Protocol Op Res ε σ ι)

/-- From this state the thread keeps to the protocol, and ends in `Q`. -/
def safe (c : ι) : Thread Op Res ε α → (Except ε α → σ → Prop) → σ → Prop
  | done r, Q, s => Q r s
  | perform op next, Q, s => ∀ s1, p.Rely c s s1 → p.Inv s1 → ∀ r s2, p.Effect c op s1 r s2 →
      p.Inv s2 ∧ p.Guar c s1 s2 ∧ safe c (next r) Q s2

/-- What the others do does not make it false. -/
def Stable (c : ι) (P : σ → Prop) : Prop := ∀ s s', P s → p.Rely c s s' → P s'

variable {p} {c : ι} {Q : Except ε α → σ → Prop} {s : σ}

theorem safe_mono {t : Thread Op Res ε α} {P : Except ε α → σ → Prop} (h : p.safe c t P s) (imp : ∀ r s, P r s → Q r s) :
    p.safe c t Q s := by
  induction t generalizing s with
  | done r => exact imp r s h
  | perform op next ih =>
    intro s1 rely inv r s2 effect
    obtain ⟨kept, guar, rest⟩ := h s1 rely inv r s2 effect
    exact ⟨kept, guar, ih r rest⟩

theorem safe_bind {t : Thread Op Res ε β} {f : β → Thread Op Res ε α} {P : Except ε β → σ → Prop} (h : p.safe c t P s)
    (ok : ∀ b s, P (.ok b) s → p.safe c (f b) Q s) (error : ∀ e s, P (.error e) s → Q (.error e) s) :
    p.safe c (t >>= f) Q s := by
  induction t generalizing s with
  | done r =>
    cases r with
    | ok b => exact ok b s h
    | error e => exact error e s h
  | perform op next ih =>
    intro s1 rely inv r s2 effect
    obtain ⟨kept, guar, rest⟩ := h s1 rely inv r s2 effect
    exact ⟨kept, guar, ih r rest⟩

theorem safe_orCatch {t : Thread Op Res ε α} {handler : ε → Thread Op Res ε α} {P : Except ε α → σ → Prop} (h : p.safe c t P s)
    (ok : ∀ a s, P (.ok a) s → Q (.ok a) s) (error : ∀ e s, P (.error e) s → p.safe c (handler e) Q s) :
    p.safe c (t.orCatch handler) Q s := by
  induction t generalizing s with
  | done r =>
    cases r with
    | ok a => exact ok a s h
    | error e => exact error e s h
  | perform op next ih =>
    intro s1 rely inv r s2 effect
    obtain ⟨kept, guar, rest⟩ := h s1 rely inv r s2 effect
    exact ⟨kept, guar, ih r rest⟩

theorem safe_andFinally {t : Thread Op Res ε α} {last : Thread Op Res ε Unit} {P : Except ε α → σ → Prop}
    (h : p.safe c t P s) (ends : ∀ r s, P r s → p.safe c (last >>= fun _ => done r) Q s) : p.safe c (t.andFinally last) Q s := by
  induction t generalizing s with
  | done r => exact ends r s h
  | perform op next ih =>
    intro s1 rely inv r s2 effect
    obtain ⟨kept, guar, rest⟩ := h s1 rely inv r s2 effect
    exact ⟨kept, guar, ih r rest⟩

/-- One operation, in a state that has what is stable. -/
theorem safe_call {op : Op} {Q : Except ε (Res op) → σ → Prop} {P : σ → Prop} (stable : p.Stable c P) (here : P s)
    (keeps : ∀ s1 r s2, P s1 → p.Inv s1 → p.Effect c op s1 r s2 → p.Inv s2 ∧ p.Guar c s1 s2 ∧ Q r s2) :
    p.safe c (call op) Q s := by
  intro s1 rely inv r s2 effect
  exact keeps s1 r s2 (stable s s1 here rely) inv effect

/-- A condition that is checked. -/
theorem safe_throwIf {b : Prop} [Decidable b] {e : ε} {Q : Except ε Unit → σ → Prop} (throws : b → Q (.error e) s)
    (returns : ¬b → Q (.ok ()) s) : p.safe c (throwIf b e) Q s := by
  unfold throwIf
  split
  · next h => exact throws h
  · next h => exact returns h

/-! ## Threads that keep a property -/

variable (p c) in
/-- The thread keeps to the protocol and leaves `P` as it is. -/
def Keeping (P : σ → Prop) (t : Thread Op Res ε α) : Prop := ∀ s, P s → p.safe c t (fun _ s' => P s') s

theorem Keeping.bind {P : σ → Prop} {t : Thread Op Res ε β} {f : β → Thread Op Res ε α} (h : p.Keeping c P t)
    (rest : ∀ b, p.Keeping c P (f b)) : p.Keeping c P (t >>= f) := by
  intro s here
  exact safe_bind (h s here) (fun b s' kept => rest b s' kept) fun _ _ kept => kept

theorem Keeping.orCatch {P : σ → Prop} {t : Thread Op Res ε α} {handler : ε → Thread Op Res ε α} (h : p.Keeping c P t)
    (rest : ∀ e, p.Keeping c P (handler e)) : p.Keeping c P (t.orCatch handler) := by
  intro s here
  exact safe_orCatch (h s here) (fun _ _ kept => kept) fun e s' kept => rest e s' kept

theorem Keeping.throwIf {P : σ → Prop} {b : Prop} [Decidable b] {e : ε} :
    p.Keeping c P (Thread.throwIf b e : Thread Op Res ε Unit) := by
  intro s here
  exact safe_throwIf (fun _ => here) fun _ => here

theorem Keeping.andFinally {P : σ → Prop} {t : Thread Op Res ε α} {last : Thread Op Res ε Unit} (h : p.Keeping c P t)
    (ends : p.Keeping c P last) : p.Keeping c P (t.andFinally last) := by
  intro s here
  apply safe_andFinally (h s here)
  intro r s' kept
  exact safe_bind (ends s' kept) (fun _ _ kept' => kept') fun _ _ kept' => kept'

/-! ## Safe threads together -/

/-- A thread that is safe stays so while the others go on. -/
theorem safe_rely {t : Thread Op Res ε α} (stable : ∀ r, p.Stable c (Q r)) {s' : σ} (h : p.safe c t Q s) (rely : p.Rely c s s') :
    p.safe c t Q s' := by
  cases t with
  | done r => exact stable r s s' h rely
  | perform op next => exact fun s1 rely' => h s1 (p.rely_trans rely rely')

/-- The invariant holds and every thread is safe. -/
structure SafePool (p : Protocol Op Res ε σ ι) (Q : ι → Except ε α → σ → Prop) (pool : Pool Op Res ε σ ι α) : Prop where
  inv : p.Inv pool.state
  threads : ∀ c, p.safe c (pool.threads c) (Q c) pool.state

variable [DecidableEq ι] {pool pool' : Pool Op Res ε σ ι α} {Q : ι → Except ε α → σ → Prop}

theorem safe_step (stable : ∀ c r, p.Stable c (Q c r)) (step : Step p.Effect pool pool') (h : p.SafePool Q pool) :
    p.SafePool Q pool' ∧ ∃ c, p.Guar c pool.state pool'.state := by
  cases step with
  | @perform op next r s' c running effect =>
    have own := h.threads c
    rw [running] at own
    obtain ⟨inv, guar, rest⟩ := own pool.state (p.rely_refl c _) h.inv r s' effect
    refine ⟨⟨inv, fun d => ?_⟩, c, guar⟩
    dsimp only
    by_cases same : d = c
    · subst same
      rw [Function.update_self]
      exact rest
    · rw [Function.update_of_ne same]
      exact safe_rely (stable d) (h.threads d) (p.other (Ne.symm same) guar)

/-- Threads that are safe stay safe in every order of their operations, and what each step
guarantees holds from the first state to the last. -/
theorem safe_run (stable : ∀ c r, p.Stable c (Q c r)) {T : σ → σ → Prop} (refl : ∀ s, T s s)
    (trans : ∀ s s' s'', T s s' → T s' s'' → T s s'') (guar : ∀ c s s', p.Guar c s s' → T s s')
    (run : Run p.Effect pool pool') (h : p.SafePool Q pool) : p.SafePool Q pool' ∧ T pool.state pool'.state := by
  induction run with
  | refl => exact ⟨h, refl _⟩
  | tail _ step ih =>
    obtain ⟨safe, whole⟩ := ih
    obtain ⟨safe', c, one⟩ := safe_step stable step safe
    exact ⟨safe', trans _ _ _ whole (guar c _ _ one)⟩

end Protocol

end RosBridge.Lib
