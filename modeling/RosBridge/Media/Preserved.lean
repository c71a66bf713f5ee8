import RosBridge.Media.SourceRuns
/-!
# Sources inside a larger state

The code of a source runs alike in two states that match: their sources are the same,
and they still match after a change of the source and after a call of a viewer
(`Port.Simulates`). In particular, a property of the larger state that survives these
two survives all code of the source (`Port.Preserves`).
-/

namespace RosBridge.Media

variable {σ τ ν : Type}

/-- States that `R` relates hold the same source, and `R` is kept by a change of it and
by the viewers' callbacks. -/
structure Port.Simulates (p : Port σ ν) (q : Port τ ν) (R : σ → τ → Prop) : Prop where
  view : ∀ w v, R w v → p.view w = q.view v
  put : ∀ w v s, R w v → R (p.put w s) (q.put v s)
  told : ∀ viewer state w v, R w v → R (p.told viewer state w) (q.told viewer state v)
  startup : p.startup = q.startup
  keyframe : p.keyframe = q.keyframe

namespace Port.Simulates

variable {p : Port σ ν} {q : Port τ ν} {R : σ → τ → Prop} {w : σ} {v : τ}

theorem modify (h : p.Simulates q R) (f : SourceSystem ν → SourceSystem ν) (hw : R w v) : R (p.modify f w) (q.modify f v) := by
  unfold Port.modify
  rw [h.view w v hw]
  exact h.put _ _ _ hw

variable [DecidableEq ν]

theorem notify (h : p.Simulates q R) (hw : R w v) : R (p.notify w) (q.notify v) := by
  unfold Port.notify
  rw [h.view w v hw]
  generalize (q.view v).viewers = viewers
  induction viewers generalizing w v with
  | nil => exact hw
  | cons viewer viewers ih =>
    rw [List.foldl_cons, List.foldl_cons, h.view w v hw]
    split
    · exact ih (h.told _ _ _ _ hw)
    · exact ih hw

theorem finish (h : p.Simulates q R) (phase : VideoState) (hw : R w v) : R (p.finish phase w) (q.finish phase v) := by
  have settled : ∀ f, R (if phase = .failed then p.modify (fun s => { s with viewers := [] }) (p.notify (p.modify f w))
      else p.notify (p.modify f w)) (if phase = .failed then q.modify (fun s => { s with viewers := [] })
      (q.notify (q.modify f v)) else q.notify (q.modify f v)) := by
    intro f
    split
    · exact h.modify _ (h.notify (h.modify _ hw))
    · exact h.notify (h.modify _ hw)
  unfold Port.finish
  dsimp only
  rw [h.view w v hw]
  split
  · exact settled _
  · exact h.modify _ (settled _)

theorem deliver (h : p.Simulates q R) (packet : RtpPacket) (hw : R w v) : R (p.deliver packet w) (q.deliver packet v) := by
  unfold Port.deliver
  dsimp only
  rw [h.view w v hw]
  split
  · exact h.modify _ (h.notify (h.modify _ hw))
  · exact h.modify _ hw

theorem signal (h : p.Simulates q R) (encoder : Nat) (signal : Signal) (hw : R w v) :
    R (p.signal encoder w signal) (q.signal encoder v signal) := by
  unfold Port.signal
  rw [h.view w v hw]
  split
  · exact hw
  · cases signal with
    | packet packet => exact h.deliver packet hw
    | failed => exact h.finish .failed hw

theorem signals (h : p.Simulates q R) (encoder : Nat) (signals : List Signal) (hw : R w v) :
    R (signals.foldl (p.signal encoder) w) (signals.foldl (q.signal encoder) v) := by
  induction signals generalizing w v with
  | nil => exact hw
  | cons s signals ih => exact ih (h.signal encoder s hw)

theorem requestKeyframe (h : p.Simulates q R) (hw : R w v) : R (p.requestKeyframe w) (q.requestKeyframe v) := by
  unfold Port.requestKeyframe
  dsimp only
  rw [h.view w v hw, h.keyframe]
  split
  · exact hw
  · split
    · exact h.modify _ hw
    · exact h.signals _ _ (h.modify _ hw)

theorem beginRest (h : p.Simulates q R) (hw : R w v) : R (p.beginRest w) (q.beginRest v) := by
  unfold Port.beginRest
  dsimp only
  rw [h.view w v hw, h.startup]
  split
  · exact hw
  · exact h.signals _ _ (h.modify _ hw)

theorem beginStart (h : p.Simulates q R) (hw : R w v) : R (p.beginStart w) (q.beginStart v) := by
  have armed := h.modify (·.armStart) (h.notify (h.modify (fun s => { s with phase := .starting }) hw))
  unfold Port.beginStart
  dsimp only
  rw [h.view _ _ armed]
  split
  · exact h.modify _ armed
  · exact h.beginRest armed

theorem add (h : p.Simulates q R) (viewer : ν) (hw : R w v) : R (p.add viewer w) (q.add viewer v) := by
  have joined := h.modify (fun s => { s.cancel s.cancelGrace with
    viewers := if viewer ∈ s.viewers then s.viewers else s.viewers ++ [viewer]
    cancelGrace := none }) hw
  unfold Port.add
  dsimp only
  rw [h.view _ _ joined]
  split
  · exact h.beginStart joined
  · split
    · have asked := h.requestKeyframe joined
      rw [h.view _ _ asked]
      exact h.told _ _ _ _ asked
    · rw [h.view _ _ joined]
      exact h.told _ _ _ _ joined

theorem close (h : p.Simulates q R) (hw : R w v) : R (p.close w) (q.close v) := by
  unfold Port.close
  have left := h.modify (fun s => { s with viewers := [] }) hw
  dsimp only
  rw [h.view _ _ left]
  exact h.modify _ (h.finish .idle left)

theorem fire (h : p.Simulates q R) (timer : Nat) (hw : R w v) : R (p.fire timer w) (q.fire timer v) := by
  unfold Port.fire
  rw [h.view w v hw]
  split
  · exact hw
  · next t _ =>
    cases t.kind with
    | grace => exact h.finish .idle (h.modify _ (h.modify _ hw))
    | start => exact h.finish .failed (h.modify _ hw)

theorem refused (h : p.Simulates q R) (encoder : Nat) (hw : R w v) : R (p.refused encoder w) (q.refused encoder v) := by
  unfold Port.refused
  rw [h.view w v hw]
  split
  · exact hw
  · exact h.finish .failed (h.modify _ hw)

theorem resume (h : p.Simulates q R) (hw : R w v) : R (p.resume w) (q.resume v) := by
  unfold Port.resume
  rw [h.view w v hw]
  split
  · exact hw
  · exact h.beginRest (h.modify _ hw)

theorem step (h : p.Simulates q R) (event : Event ν) (hw : R w v) : R (p.step event w) (q.step event v) := by
  unfold Port.step
  cases event with
  | add viewer => exact h.add viewer hw
  | remove | started | stopped | closing | advance => exact h.modify _ hw
  | requestKeyframe => exact h.requestKeyframe hw
  | close => exact h.close hw
  | fire timer => exact h.fire timer hw
  | packet encoder packet => exact h.signal encoder (.packet packet) hw
  | failure encoder => exact h.signal encoder .failed hw
  | refused encoder => exact h.refused encoder hw
  | resume => exact h.resume hw

end Port.Simulates

/-- `P` does not depend on the source and is kept by the viewers' callbacks. -/
structure Port.Preserves (p : Port σ ν) (P : σ → Prop) : Prop where
  put : ∀ w s, P w → P (p.put w s)
  told : ∀ v state w, P w → P (p.told v state w)

namespace Port.Preserves

variable {p : Port σ ν} {P : σ → Prop} {w : σ}

/-- Every state with `P` matches itself. -/
theorem simulates (h : p.Preserves P) : p.Simulates p fun w v => w = v ∧ P v where
  view w v hw := by rw [hw.1]
  put w v s hw := ⟨by rw [hw.1], h.put v s hw.2⟩
  told viewer state w v hw := ⟨by rw [hw.1], h.told viewer state v hw.2⟩
  startup := rfl
  keyframe := rfl

variable [DecidableEq ν]

theorem requestKeyframe (h : p.Preserves P) (hw : P w) : P (p.requestKeyframe w) :=
  (h.simulates.requestKeyframe ⟨rfl, hw⟩).2

theorem add (h : p.Preserves P) (viewer : ν) (hw : P w) : P (p.add viewer w) := (h.simulates.add viewer ⟨rfl, hw⟩).2

theorem close (h : p.Preserves P) (hw : P w) : P (p.close w) := (h.simulates.close ⟨rfl, hw⟩).2

theorem step (h : p.Preserves P) (event : Event ν) (hw : P w) : P (p.step event w) :=
  (h.simulates.step event ⟨rfl, hw⟩).2

end Port.Preserves

end RosBridge.Media
