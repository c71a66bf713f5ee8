import RosBridge.Media.Books
/-!
# The writes of a source

Everything a `VideoSource` does to its fields in one turn is a sequence of the writes of
`Write`, whatever its viewers and encoders do meanwhile. What every write keeps, every
turn keeps. Two of them are under conditions of the turn: a source starts only when a
viewer is added, and its clock goes on only by itself (`Terms`).
-/

namespace RosBridge.Media

open Relation

variable {ν : Type} [DecidableEq ν]

/-- When a source may start, and whether its clock may go on. -/
structure Terms (ν : Type) where
  starts : SourceSystem ν → Prop
  ticks : Prop

/-- No condition. -/
def Terms.free : Terms ν := ⟨fun _ => True, True⟩

/-- The single assignments of the methods, with the conditions they are under. -/
inductive Write (terms : Terms ν) (s : SourceSystem ν) : SourceSystem ν → Prop where
  | remove (viewer : ν) : Write terms s (s.remove viewer)
  | join (viewers : List ν) : Write terms s { s.cancel s.cancelGrace with viewers := viewers, cancelGrace := none }
  | starting (allowed : terms.starts s) (phase : s.phase = .idle ∨ s.phase = .failed) : Write terms s { s with phase := .starting }
  | armStart : Write terms s s.armStart
  | wait (encoder : Nat) : Write terms s { s with waiting := s.waiting ++ [encoder] }
  | create (phase : s.phase = .starting) (watched : s.viewers ≠ []) : Write terms s s.create
  | activate (phase : s.phase = .starting) : Write terms s { s.cancel s.cancelStart with cancelStart := none, phase := .active }
  | fanOut (packet : RtpPacket) : Write terms s (s.fanOut packet)
  | keyframe : Write terms s { s with lastKeyframeAt := some s.now, keyframeRequests := s.keyframeRequests + 1 }
  | finish (phase : VideoState) (terminal : phase = .idle ∨ phase = .failed) :
      Write terms s { (s.cancel s.cancelStart).cancel s.cancelGrace with
        cancelStart := none
        cancelGrace := none
        source := none
        phase := phase
        failedAt := if phase = .failed then some s.now else s.failedAt }
  | clear : Write terms s { s with viewers := [] }
  | stop (encoder : Nat) : Write terms s (s.stop encoder)
  | fire (timer : Nat) : Write terms s { s with timers := s.timers.filter fun t => t.id ≠ timer }
  | grace : Write terms s { s with cancelGrace := none }
  | open (encoder : Nat) : Write terms s { s with opening := s.opening.filter (· ≠ encoder) }
  | stopped (encoder : Nat) : Write terms s (s.stopped encoder)
  | resume : Write terms s { s with ready := s.ready - 1 }
  | closing (call : Nat) : Write terms s (s.advanceClose call)
  | closes (closes : List CloseFrame) : Write terms s { s with closes := closes }
  | advance (allowed : terms.ticks) (now : ℚ) : Write terms s { s with now := max s.now now }

variable (i : Input ν) {terms : Terms ν} (s : SourceSystem ν)

/-- Nothing a start depends on has changed yet. -/
structure Early (s w : SourceSystem ν) : Prop where
  options : w.options = s.options
  failedAt : w.failedAt = s.failedAt
  now : w.now = s.now

theorem writes_foldl {α : Type} (f : SourceSystem ν → α → SourceSystem ν) (h : ∀ s a, ReflTransGen (Write terms) s (f s a)) (l : List α)
    (s : SourceSystem ν) : ReflTransGen (Write terms) s (l.foldl f s) := by
  induction l generalizing s with
  | nil => exact .refl
  | cons a l ih => exact (h s a).trans (ih (f s a))

theorem writes_told (v : ν) (state : VideoState) : ReflTransGen (Write terms) s (i.port.told v state s) :=
  writes_foldl _ (fun _ v => .single (.remove v)) _ s

theorem writes_notify : ReflTransGen (Write terms) s (i.port.notify s) := by
  refine writes_foldl (fun w v => if v ∈ (i.port.view w).viewers then i.port.told v (i.port.view w).phase w else w) ?_ _ s
  intro s v
  split
  · exact writes_told i s v _
  · exact .refl

theorem writes_finish {phase : VideoState} (terminal : phase = .idle ∨ phase = .failed) :
    ReflTransGen (Write terms) s (i.port.finish phase s) := by
  simp only [Port.finish, Input.port_view, Input.port_modify]
  have ended : Write terms s _ := .finish phase terminal
  have told := ReflTransGen.head ended (writes_notify i _)
  generalize i.port.notify _ = w at told
  have left : ReflTransGen (Write terms) s (if phase = .failed then { w with viewers := [] } else w) := by
    split
    · exact told.tail .clear
    · exact told
  cases s.source with
  | none => exact left
  | some encoder => exact left.tail (.stop encoder)

theorem writes_deliver (packet : RtpPacket) : ReflTransGen (Write terms) s (i.port.deliver packet s) := by
  show ReflTransGen (Write terms) s ((if s.phase = .starting then
    i.port.notify { s.cancel s.cancelStart with cancelStart := none, phase := .active } else s).fanOut packet)
  refine ReflTransGen.tail ?_ (.fanOut packet)
  split
  · next starting => exact .head (.activate starting) (writes_notify i _)
  · exact .refl

theorem writes_signal (encoder : Nat) (signal : Signal) : ReflTransGen (Write terms) s (i.port.signal encoder s signal) := by
  rw [Input.port_signal]
  split
  · exact .refl
  · cases signal with
    | packet packet => exact writes_deliver i s packet
    | failed => exact writes_finish i s (.inr rfl)

theorem writes_signals (encoder : Nat) (signals : List Signal) :
    ReflTransGen (Write terms) s (signals.foldl (i.port.signal encoder) s) :=
  writes_foldl _ (fun s signal => writes_signal i s encoder signal) signals s

theorem writes_requestKeyframe : ReflTransGen (Write terms) s (i.port.requestKeyframe s) := by
  rw [Input.port_requestKeyframe]
  split
  · exact .refl
  · dsimp only
    split
    · exact .single .keyframe
    · next encoder _ => exact .head .keyframe (writes_signals i _ encoder i.keyframe)

theorem writes_beginRest : ReflTransGen (Write terms) s (i.port.beginRest s) := by
  rw [Input.port_beginRest]
  split
  · exact .refl
  · next wanted =>
    rw [not_or, not_not] at wanted
    exact .head (.create wanted.1 wanted.2) (writes_signals i _ s.created i.startup)

theorem writes_beginStart (allowed : terms.starts s) (phase : s.phase = .idle ∨ s.phase = .failed) : ReflTransGen (Write terms) s (i.port.beginStart s) := by
  simp only [Port.beginStart, Input.port_view, Input.port_modify]
  have starts : Write terms s _ := .starting allowed phase
  have armed := (ReflTransGen.head starts (writes_notify i _)).tail .armStart
  generalize SourceSystem.armStart _ = w at armed
  cases w.release with
  | some encoder => exact armed.tail (.wait encoder)
  | none => exact armed.trans (writes_beginRest i w)

theorem writes_add (viewer : ν) (starts : ∀ w : SourceSystem ν, Early s w → terms.starts w) : ReflTransGen (Write terms) s (i.port.add viewer s) := by
  rw [Input.port_add]
  generalize (if viewer ∈ s.viewers then s.viewers else s.viewers ++ [viewer]) = viewers
  refine ReflTransGen.head (.join viewers) ?_
  dsimp only
  split
  · next terminal => exact writes_beginStart i _ (starts _ ⟨rfl, rfl, rfl⟩) terminal
  · split
    · exact (writes_requestKeyframe i _).trans (writes_told i _ viewer _)
    · exact writes_told i _ viewer _

theorem writes_fire (timer : Nat) : ReflTransGen (Write terms) s (i.port.fire timer s) := by
  unfold Port.fire
  split
  · exact .refl
  · next t _ =>
    rw [Input.port_modify]
    refine ReflTransGen.head (.fire timer) ?_
    cases t.kind with
    | grace => exact .head .grace (writes_finish i _ (.inl rfl))
    | start => exact writes_finish i _ (.inr rfl)

/-- A turn of a source is a sequence of its writes. -/
theorem step_writes (starts : ∀ viewer, i.event = .add viewer → ∀ w : SourceSystem ν, Early s w → terms.starts w)
    (ticks : ∀ now, i.event = .advance now → terms.ticks) : ReflTransGen (Write terms) s (s.step i) := by
  unfold SourceSystem.step Port.step
  cases event : i.event with
  | add viewer => exact writes_add i s viewer (starts viewer event)
  | remove viewer => exact .single (.remove viewer)
  | requestKeyframe => exact writes_requestKeyframe i s
  | close => exact .head .clear ((writes_finish i _ (.inl rfl)).tail (.closes _))
  | fire timer => exact writes_fire i s timer
  | packet encoder packet => exact writes_signal i s encoder (.packet packet)
  | failure encoder => exact writes_signal i s encoder .failed
  | started encoder => exact .single (.open encoder)
  | refused encoder =>
    unfold Port.refused
    dsimp only
    split
    · exact .refl
    · exact .head (.open encoder) (writes_finish i _ (.inr rfl))
  | stopped encoder => exact .single (.stopped encoder)
  | resume =>
    dsimp only
    rw [Input.port_resume]
    split
    · exact .refl
    · exact .head .resume (writes_beginRest i _)
  | closing call => exact .single (.closing call)
  | advance now => exact .single (.advance (ticks now event) now)

end RosBridge.Media
