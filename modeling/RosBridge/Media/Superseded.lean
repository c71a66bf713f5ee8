import RosBridge.Media.Encoders
/-!
# Superseded encoders

Once an encoder is no longer `this.source`, its packets and its failure callback do
nothing, whatever state the source is in. A start promise that rejects late is not
asked whose it is (`refused`), and fails whatever replaced the encoder.
-/

namespace RosBridge.Media

open Lib

variable {σ ν : Type} [DecidableEq ν]

/-- What encoder `e` does: a packet, its failure callback, or its start rejecting. -/
def Event.By (e : Nat) : Event ν → Prop
  | .packet encoder _ => encoder = e
  | .failure encoder => encoder = e
  | .refused encoder => encoder = e
  | _ => False

/-- The source with a record of every state a viewer was told. -/
def Input.logged (i : Input ν) : Port (SourceSystem ν × List (ν × VideoState)) ν where
  view w := w.1
  put w s := (s, w.2)
  told v state w := ((i.told v state).foldl SourceSystem.remove w.1, w.2 ++ [(v, state)])
  startup := i.startup
  keyframe := i.keyframe

/-- An input by which a superseded encoder does something leaves the whole source as it
was (the promise of its start counts as settled), and no viewer is told anything. -/
def Inert (s : SourceSystem ν) (i : Input ν) : Prop :=
  ∀ e, i.event.By e → s.source ≠ some e →
    { s.step i with opening := s.opening } = s ∧ (i.logged.step i.event (s, [])).2 = []

/-- A `finish` that fails now would change nothing. -/
structure Settled (s : SourceSystem ν) : Prop where
  phase : s.phase = .failed
  failedAt : s.failedAt = some s.now
  viewers : s.viewers = []
  source : s.source = none
  cancelStart : s.cancelStart = none
  cancelGrace : s.cancelGrace = none

/-- No start of a superseded encoder rejects, unless the source has failed at that very
time anyway. -/
def Prompt (s : SourceSystem ν) (i : Input ν) : Prop :=
  ∀ e, i.event = .refused e → e ∈ s.opening → s.source ≠ some e → Settled s

/-! ## Packets and failure callbacks -/

/-- At any moment, also in the middle of a turn, the callbacks of a superseded encoder
are ignored. -/
theorem signal_superseded (p : Port σ ν) (e : Nat) (w : σ) (signal : Signal)
    (superseded : (p.view w).source ≠ some e) : p.signal e w signal = w := by
  unfold Port.signal
  rw [if_pos superseded]

/-! ## A start that rejects -/

omit [DecidableEq ν] in
theorem cancel_none (s : SourceSystem ν) : s.cancel none = s := by
  simp [SourceSystem.cancel]

/-- Without viewers nobody is told, and nobody can react. -/
theorem notify_alone (p : Port σ ν) (w : σ) (alone : (p.view w).viewers = []) : p.notify w = w := by
  rw [Port.notify, alone, List.foldl_nil]

theorem finish_settled (p : Port σ ν) {w : σ} {s : SourceSystem ν} (view : p.view w = s) (lawful : ∀ w s, p.view (p.put w s) = s)
    (again : ∀ w s t, p.put (p.put w s) t = p.put w t) (h : Settled s) : p.finish .failed w = p.put w s := by
  have same : ({ (s.cancel s.cancelStart).cancel s.cancelGrace with
      cancelStart := none, cancelGrace := none, source := none, phase := .failed, failedAt := some s.now } :
      SourceSystem ν) = s := by
    obtain ⟨phase, failedAt, -, source, start, grace⟩ := h
    rw [start, grace, cancel_none, cancel_none]
    rcases s with ⟨⟨⟩⟩
    simp_all
  have empty : ({ s with viewers := [] } : SourceSystem ν) = s := by
    have viewers := h.viewers
    rcases s with ⟨⟨⟩⟩
    simp_all
  simp only [Port.finish, Port.modify, view, if_true, h.source]
  rw [same, notify_alone p _ (by rw [lawful, h.viewers]), lawful, empty, again]

theorem refused_absent (p : Port σ ν) {e : Nat} {w : σ} (settled : e ∉ (p.view w).opening) : p.refused e w = w := by
  rw [Port.refused, if_pos settled]

theorem refused_present (p : Port σ ν) {e : Nat} {w : σ} (opening : e ∈ (p.view w).opening) :
    p.refused e w = p.finish .failed (p.modify (fun s => { s with opening := s.opening.filter (· ≠ e) }) w) := by
  rw [Port.refused, if_neg (not_not.2 opening)]

theorem inert_of_prompt {s : SourceSystem ν} {i : Input ν} (prompt : Prompt s i) : Inert s i := by
  intro e by_ superseded
  rw [SourceSystem.step]
  cases hi : i.event with
  | packet encoder packet =>
    obtain rfl : encoder = e := by simpa [hi, Event.By] using by_
    constructor
    · show { i.port.signal encoder s (.packet packet) with opening := s.opening } = s
      rw [signal_superseded i.port encoder s _ superseded]
    · show (i.logged.signal encoder (s, []) (.packet packet)).2 = []
      rw [signal_superseded i.logged encoder (s, []) _ superseded]
  | failure encoder =>
    obtain rfl : encoder = e := by simpa [hi, Event.By] using by_
    constructor
    · show { i.port.signal encoder s .failed with opening := s.opening } = s
      rw [signal_superseded i.port encoder s _ superseded]
    · show (i.logged.signal encoder (s, []) .failed).2 = []
      rw [signal_superseded i.logged encoder (s, []) _ superseded]
  | refused encoder =>
    obtain rfl : encoder = e := by simpa [hi, Event.By] using by_
    by_cases opening : encoder ∈ s.opening
    · have h := prompt encoder hi opening superseded
      have h' : Settled { s with opening := s.opening.filter (· ≠ encoder) } :=
        ⟨h.phase, h.failedAt, h.viewers, h.source, h.cancelStart, h.cancelGrace⟩
      constructor
      · show { i.port.refused encoder s with opening := s.opening } = s
        rw [refused_present i.port opening, Input.port_modify, finish_settled i.port (Input.port_view i _) (fun _ _ => rfl)
          (fun _ _ _ => rfl) h']
        rfl
      · show (i.logged.refused encoder (s, [])).2 = []
        rw [refused_present i.logged opening, Port.modify, finish_settled i.logged (s := { s with opening := s.opening.filter (· ≠ encoder) }) rfl
          (fun _ _ => rfl) (fun _ _ _ => rfl) h']
        rfl
    · constructor
      · show { i.port.refused encoder s with opening := s.opening } = s
        rw [refused_absent i.port opening]
      · show (i.logged.refused encoder (s, [])).2 = []
        rw [refused_absent i.logged opening]
  | add | remove | requestKeyframe | close | fire | started | stopped | resume | closing | advance =>
    simp [hi, Event.By] at by_

/-- If a `finish` changes nothing, there was nothing to change. -/
theorem settled_of_finish {s s' : SourceSystem ν} (i : Input ν) (same : { i.port.finish .failed s with opening := s'.opening } = s')
    (opening : s = { s' with opening := s.opening }) : Settled s' := by
  have viewers : s'.viewers = [] := by
    rw [← same]
    simp only [Port.finish, Input.port_view, Input.port_modify, if_true]
    split <;> rfl
  rw [opening] at same
  simp only [Port.finish, Input.port_view, Input.port_modify, if_true] at same
  rw [notify_alone i.port _ (by exact viewers)] at same
  cases hsrc : s'.source with
  | none =>
    simp only [hsrc] at same
    refine ⟨?_, ?_, viewers, hsrc, ?_, ?_⟩
    · exact (congrArg (fun s => s.phase) same).symm
    · exact (congrArg (fun s => s.failedAt) same).symm
    · exact (congrArg (fun s => s.cancelStart) same).symm
    · exact (congrArg (fun s => s.cancelGrace) same).symm
  | some encoder =>
    simp only [hsrc] at same
    have gone := congrArg (fun s => s.source) same
    simp [SourceSystem.stop, hsrc] at gone

theorem prompt_of_inert {s : SourceSystem ν} {i : Input ν} (inert : Inert s i) : Prompt s i := by
  intro e hi opening superseded
  have same := (inert e (by simp [hi, Event.By]) superseded).1
  rw [SourceSystem.step, hi] at same
  refine settled_of_finish (s := { s with opening := s.opening.filter (· ≠ e) }) i ?_ rfl
  have refused : i.port.step (.refused e) s = i.port.finish .failed { s with opening := s.opening.filter (· ≠ e) } :=
    refused_present i.port opening
  rwa [refused] at same

/-- Superseded encoders are inert all along a run exactly when no start of one rejects
where a failure can be seen. -/
theorem superseded_inert_iff (options : VideoSourceOptions) (inputs : List (Input ν)) :
    (∀ pre i post, inputs = pre ++ i :: post → Inert ((SourceSystem.init options).run pre) i) ↔
      Along SourceSystem.step Prompt (.init options) inputs :=
  along_iff_forall.symm.trans (along_congr fun _ _ => ⟨prompt_of_inert, inert_of_prompt⟩)

/-- The first encoder delivers and is stopped in the grace window; the promise of its
`start` is still open when the second viewer has an encoder of its own. -/
def replaced : List (Input Nat) :=
  [.add 1, .packet 0 keyframe, .remove 1, .advance 2000, .fire 1, .stopped 0, .add 2].map Event.alone

/-- The late rejection fails the second encoder. -/
theorem late_rejection : ¬Inert ((SourceSystem.init exampleOptions).run replaced) (Event.refused 0).alone := by
  intro inert
  have settled := prompt_of_inert inert 0 rfl (by decide +kernel) (by decide +kernel)
  have phase : ((SourceSystem.init exampleOptions).run replaced).phase = .starting := by decide +kernel
  rw [settled.phase] at phase
  cases phase

end RosBridge.Media
