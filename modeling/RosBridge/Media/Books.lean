import RosBridge.Media.SourceRuns
import Mathlib.Logic.Relation
/-!
# The encoder books of a source

`Books` is what the life of the encoders depends on: the phase, the viewers, the
current encoder, the one being released, and the calls that wait. `Turn` says what an
input does to the books first, and `Follow` what the callbacks it runs into may do
after that; `books_step` is the refinement, every step of the source is one of these. The
properties of encoders are proved over the books alone.
-/

namespace RosBridge.Media

open Relation

structure Books (ν : Type) where
  phase : VideoState
  viewers : List ν
  source : Option Nat
  release : Option Nat
  created : Nat
  live : List Nat
  releasing : List Nat
  waiting : List Nat
  ready : Nat
  closes : List CloseFrame
  deriving DecidableEq

variable {ν : Type}

def SourceSystem.books (s : SourceSystem ν) : Books ν :=
  ⟨s.phase, s.viewers, s.source, s.release, s.created, s.live, s.releasing, s.waiting, s.ready, s.closes⟩

namespace Books

/-- `finish`, without the notifications. -/
def finish (b : Books ν) (phase : VideoState) : Books ν :=
  { b with
    phase := phase
    viewers := if phase = .failed then [] else b.viewers
    source := none
    release := b.source <|> b.release
    releasing := b.releasing ++ b.source.toList }

/-- An encoder is created and started. -/
def create (b : Books ν) : Books ν :=
  { b with source := some b.created, created := b.created + 1, live := b.live ++ [b.created] }

/-- What callbacks do: viewers leave, the first packet arrives, the source finishes. -/
inductive Follow : Books ν → Books ν → Prop where
  | leave (b : Books ν) (viewers : List ν) (sub : viewers ⊆ b.viewers) : Follow b { b with viewers := viewers }
  | activate (b : Books ν) (encoder : Nat) (source : b.source = some encoder) (phase : b.phase = .starting) :
      Follow b { b with phase := .active }
  | finish (b : Books ν) (phase : VideoState) (terminal : phase = .idle ∨ phase = .failed) : Follow b (b.finish phase)

/-- `beginRest`: it gives up, or creates an encoder. -/
inductive Rest (b : Books ν) : Books ν → Prop where
  | quit (unwanted : b.phase ≠ .starting ∨ b.viewers = []) : Rest b b
  | create (phase : b.phase = .starting) (wanted : b.viewers ≠ []) : Rest b b.create

/-- `begin`, after `viewers` are left by the notification: it waits, or goes on. -/
inductive Begin (b : Books ν) : Books ν → Prop where
  | wait (viewers : List ν) (sub : viewers ⊆ b.viewers) (encoder : Nat) (release : b.release = some encoder) :
      Begin b { b with phase := .starting, viewers := viewers, waiting := b.waiting ++ [encoder] }
  | rest (viewers : List ν) (sub : viewers ⊆ b.viewers) (release : b.release = none) (b' : Books ν)
      (rest : Rest { b with phase := .starting, viewers := viewers } b') : Begin b b'

/-- What an event does to the books before any callback. -/
inductive Turn (b : Books ν) : Event ν → Books ν → Prop where
  | quiet (event : Event ν) : Turn b event b
  | join (viewer : ν) (viewers : List ν) (new : ∀ v ∈ viewers, v = viewer ∨ v ∈ b.viewers)
      (phase : b.phase = .starting ∨ b.phase = .active) : Turn b (.add viewer) { b with viewers := viewers }
  | start (viewer : ν) (viewers : List ν) (b' : Books ν) (phase : b.phase = .idle ∨ b.phase = .failed)
      (start : Begin { b with viewers := viewers } b') : Turn b (.add viewer) b'
  | stopped (encoder : Nat) (waited : encoder ∈ b.releasing) : Turn b (.stopped encoder) { b with
      release := none
      live := b.live.filter (· ≠ encoder)
      releasing := b.releasing.filter (· ≠ encoder)
      waiting := b.waiting.filter (· ≠ encoder)
      ready := b.ready + b.waiting.count encoder }
  | resume (b' : Books ν) (ready : 0 < b.ready) (rest : Rest { b with ready := b.ready - 1 } b') : Turn b .resume b'
  | close : Turn b .close
      { ({ b with viewers := [] } : Books ν).finish .idle with closes := b.closes ++ [.finishing b.source] }
  | closing (call : Nat) (on : Option Nat) (frame : b.closes[call]? = some (.finishing on)) :
      Turn b (.closing call) { b with closes := b.closes.set call (.releasing b.release) }
  | closed (call : Nat) (on : Option Nat) (frame : b.closes[call]? = some (.releasing on))
      (ended : ∀ e ∈ on, e ∉ b.releasing) : Turn b (.closing call) { b with closes := b.closes.set call .done }

end Books

open Books

/-! ## Callbacks -/

/-- From `s` to `s'` some viewers have left, and nothing else in the books changed. -/
def Left (s s' : SourceSystem ν) : Prop := ∃ viewers, viewers ⊆ s.viewers ∧ s'.books = { s.books with viewers := viewers }

theorem Left.refl (s : SourceSystem ν) : Left s s := ⟨s.viewers, List.Subset.refl _, rfl⟩

theorem Left.trans {s s' s'' : SourceSystem ν} (h : Left s s') (h' : Left s' s'') : Left s s'' := by
  obtain ⟨vs, hvs, e⟩ := h
  obtain ⟨vs', hvs', e'⟩ := h'
  have hv : s'.viewers = vs := congrArg Books.viewers e
  exact ⟨vs', List.Subset.trans hvs' (hv ▸ hvs), by rw [e', e]⟩

theorem Left.follow {s s' : SourceSystem ν} (h : Left s s') : ReflTransGen Follow s.books s'.books := by
  obtain ⟨vs, hvs, e⟩ := h
  rw [e]
  exact .single (.leave _ _ hvs)

theorem left_foldl {α : Type} (f : SourceSystem ν → α → SourceSystem ν) (h : ∀ s a, Left s (f s a)) (l : List α)
    (s : SourceSystem ν) : Left s (l.foldl f s) := by
  induction l generalizing s with
  | nil => exact .refl s
  | cons a l ih => exact (h s a).trans (ih (f s a))

theorem books_renumber (s : SourceSystem ν) (packet : RtpPacket) : (s.renumber packet).1.books = s.books := by
  unfold SourceSystem.renumber
  cases s.origin <;> rfl

variable [DecidableEq ν]

theorem left_remove (s : SourceSystem ν) (v : ν) : Left s (s.remove v) := by
  unfold SourceSystem.remove
  split
  · exact .refl s
  · have sub : s.viewers.erase v ⊆ s.viewers := List.erase_subset
    simp only
    split
    · exact ⟨_, sub, rfl⟩
    · exact ⟨_, sub, rfl⟩

theorem left_told (i : Input ν) (v : ν) (state : VideoState) (s : SourceSystem ν) : Left s (i.port.told v state s) :=
  left_foldl _ left_remove _ s

theorem left_notify (i : Input ν) (s : SourceSystem ν) : Left s (i.port.notify s) := by
  refine left_foldl (fun w v => if v ∈ (i.port.view w).viewers then i.port.told v (i.port.view w).phase w else w) ?_ _ s
  intro s v
  split
  · exact left_told i v _ s
  · exact .refl s

/-! The methods that branch, as they run on the source alone. -/

section Alone

variable (i : Input ν) (s : SourceSystem ν)

@[simp] theorem Input.port_view : i.port.view s = s := rfl

@[simp] theorem Input.port_modify (f : SourceSystem ν → SourceSystem ν) : i.port.modify f s = f s := rfl

theorem Input.port_signal (encoder : Nat) (signal : Signal) : i.port.signal encoder s signal =
    if s.source ≠ some encoder then s
    else match signal with
      | .packet packet => i.port.deliver packet s
      | .failed => i.port.finish .failed s := rfl

theorem Input.port_requestKeyframe : i.port.requestKeyframe s =
    if !s.elapsed s.lastKeyframeAt s.options.settings.pliMinIntervalMs then s
    else
      let w := { s with lastKeyframeAt := some s.now, keyframeRequests := s.keyframeRequests + 1 }
      match s.source with
      | none => w
      | some encoder => i.keyframe.foldl (i.port.signal encoder) w := rfl

theorem Input.port_beginRest : i.port.beginRest s =
    if s.phase ≠ .starting ∨ s.viewers = [] then s
    else i.startup.foldl (i.port.signal s.created) s.create := rfl

theorem Input.port_add (v : ν) : i.port.add v s =
    let w : SourceSystem ν := { s.cancel s.cancelGrace with
      viewers := if v ∈ s.viewers then s.viewers else s.viewers ++ [v]
      cancelGrace := none }
    if s.phase = .idle ∨ s.phase = .failed then i.port.beginStart w
    else
      let w := if s.phase = .active then i.port.requestKeyframe w else w
      i.port.told v w.phase w := rfl

theorem Input.port_resume : i.port.resume s =
    if s.ready = 0 then s else i.port.beginRest { s with ready := s.ready - 1 } := rfl

end Alone

theorem books_finish (i : Input ν) (phase : VideoState) (s : SourceSystem ν) :
    ∃ viewers, viewers ⊆ s.viewers ∧ (i.port.finish phase s).books = ({ s.books with viewers := viewers } : Books ν).finish phase := by
  simp only [Port.finish, Input.port_view, Input.port_modify]
  generalize hw : ({ (s.cancel s.cancelStart).cancel s.cancelGrace with
    cancelStart := none, cancelGrace := none, source := none, phase := phase,
    failedAt := if phase = .failed then some s.now else s.failedAt } : SourceSystem ν) = w
  obtain ⟨vs, hvs, e⟩ := left_notify i w
  have hb : w.books = { s.books with phase := phase, source := none } := by rw [← hw]; rfl
  rw [hb] at e
  refine ⟨vs, ?_, ?_⟩
  · rw [← hw] at hvs
    exact hvs
  · generalize i.port.notify w = w' at e
    -- The books of the notified source, field by field.
    obtain ⟨h1, h2, h3, h4, h5, h6, h7, h8, h9, h10⟩ := (Books.mk.injEq ..).mp e
    simp only [SourceSystem.books] at h1 h2 h3 h4 h5 h6 h7 h8 h9 h10
    cases hsrc : s.source <;> by_cases hp : phase = .failed <;>
      simp [SourceSystem.books, SourceSystem.stop, Books.finish, hsrc, hp, h1, h2, h3, h4, h5, h6, h7, h8, h9, h10]

theorem follow_finish (i : Input ν) {phase : VideoState} (terminal : phase = .idle ∨ phase = .failed) (s : SourceSystem ν) :
    ReflTransGen Follow s.books (i.port.finish phase s).books := by
  obtain ⟨vs, hvs, e⟩ := books_finish i phase s
  rw [e]
  exact .head (.leave s.books vs hvs) (.single (.finish _ _ terminal))

theorem follow_deliver (i : Input ν) {encoder : Nat} {s : SourceSystem ν} (hs : s.source = some encoder)
    (packet : RtpPacket) : ReflTransGen Follow s.books (i.port.deliver packet s).books := by
  have sent : ∀ s : SourceSystem ν, (i.port.modify (·.fanOut packet) s).books = s.books := by
    intro s
    exact books_renumber { s with packets := s.packets + 1 } packet
  rw [Port.deliver, sent, Input.port_view, Input.port_modify]
  by_cases hp : s.phase = .starting
  · rw [if_pos hp]
    refine .head (.activate s.books encoder hs hp) ?_
    exact (left_notify i { s.cancel s.cancelStart with cancelStart := none, phase := .active }).follow
  · rw [if_neg hp]

theorem follow_signal (i : Input ν) (encoder : Nat) (s : SourceSystem ν) (signal : Signal) :
    ReflTransGen Follow s.books (i.port.signal encoder s signal).books := by
  rw [Input.port_signal]
  split
  · exact .refl
  · next hs =>
    cases signal with
    | packet packet => exact follow_deliver i (not_not.1 hs) packet
    | failed => exact follow_finish i (.inr rfl) s

theorem follow_signals (i : Input ν) (encoder : Nat) (signals : List Signal) (s : SourceSystem ν) :
    ReflTransGen Follow s.books (signals.foldl (i.port.signal encoder) s).books := by
  induction signals generalizing s with
  | nil => exact .refl
  | cons signal signals ih => exact (follow_signal i encoder s signal).trans (ih _)

theorem follow_requestKeyframe (i : Input ν) (s : SourceSystem ν) :
    ReflTransGen Follow s.books (i.port.requestKeyframe s).books := by
  rw [Input.port_requestKeyframe]
  split
  · exact .refl
  · dsimp only
    split
    · exact .refl
    · next encoder _ =>
      exact follow_signals i encoder i.keyframe
        { s with lastKeyframeAt := some s.now, keyframeRequests := s.keyframeRequests + 1 }

/-! ## Turns -/

/-- A turn, then what its callbacks do. -/
def Step (event : Event ν) (b b' : Books ν) : Prop := ∃ mid, Turn b event mid ∧ ReflTransGen Follow mid b'

omit [DecidableEq ν] in
theorem Step.of_follow {event : Event ν} {b b' : Books ν} (h : ReflTransGen Follow b b') : Step event b b' :=
  ⟨b, .quiet event, h⟩

theorem books_beginRest (i : Input ν) (s : SourceSystem ν) :
    ∃ mid, Rest s.books mid ∧ ReflTransGen Follow mid (i.port.beginRest s).books := by
  rw [Input.port_beginRest]
  split
  · next h => exact ⟨_, .quit h, .refl⟩
  · next h =>
    rw [not_or, not_not] at h
    exact ⟨_, .create h.1 h.2, follow_signals i s.created i.startup s.create⟩

theorem books_beginStart (i : Input ν) (s : SourceSystem ν) :
    ∃ mid, Begin s.books mid ∧ ReflTransGen Follow mid (i.port.beginStart s).books := by
  simp only [Port.beginStart, Input.port_view, Input.port_modify]
  obtain ⟨vs, hvs, e⟩ := left_notify i { s with phase := .starting }
  generalize i.port.notify { s with phase := .starting } = w at e
  have hb : w.armStart.books = { s.books with phase := .starting, viewers := vs } := e
  generalize w.armStart = w' at hb
  have hr : s.books.release = w'.release := (congrArg Books.release hb).symm
  cases h : w'.release with
  | some encoder =>
    refine ⟨_, .wait vs hvs encoder (hr.trans h), ?_⟩
    show ReflTransGen Follow _ { w'.books with waiting := w'.books.waiting ++ [encoder] }
    rw [hb]
  | none =>
    obtain ⟨mid, hm, hf⟩ := books_beginRest i w'
    rw [hb] at hm
    exact ⟨mid, .rest vs hvs (hr.trans h) mid hm, hf⟩

theorem step_add (i : Input ν) (v : ν) (s : SourceSystem ν) : Step (.add v) s.books (i.port.add v s).books := by
  rw [Input.port_add]
  generalize hvs : (if v ∈ s.viewers then s.viewers else s.viewers ++ [v]) = vs
  generalize hw : ({ s.cancel s.cancelGrace with viewers := vs, cancelGrace := none } : SourceSystem ν) = w
  have hb : w.books = { s.books with viewers := vs } := by rw [← hw]; rfl
  dsimp only
  split
  · next h =>
    obtain ⟨mid, hm, hf⟩ := books_beginStart i w
    rw [hb] at hm
    exact ⟨mid, .start v vs mid h hm, hf⟩
  · next h =>
    have phase : s.phase = .starting ∨ s.phase = .active := by
      cases hph : s.phase <;> simp [hph] at h ⊢
    have new : ∀ x ∈ vs, x = v ∨ x ∈ s.viewers := by
      rw [← hvs]
      intro x hx
      split at hx
      · exact .inr hx
      · simpa [or_comm] using hx
    refine ⟨_, .join v vs new phase, ?_⟩
    rw [show ({ s.books with viewers := vs } : Books ν) = w.books from hb.symm]
    split
    · exact (follow_requestKeyframe i w).trans (left_told i v _ _).follow
    · exact (left_told i v _ w).follow

theorem books_close (i : Input ν) (s : SourceSystem ν) : (i.port.close s).books =
    { ({ s.books with viewers := [] } : Books ν).finish .idle with closes := s.closes ++ [.finishing s.source] } := by
  simp only [Port.close, Input.port_view, Input.port_modify]
  obtain ⟨vs, hvs, e⟩ := books_finish i .idle { s with viewers := [] }
  obtain rfl : vs = [] := List.eq_nil_of_subset_nil hvs
  generalize i.port.finish .idle { s with viewers := [] } = w at e
  show ({ w.books with closes := w.books.closes ++ [.finishing s.source] } : Books ν) = _
  rw [e]
  rfl

theorem follow_fired (i : Input ν) (kind : TimerKind) (s : SourceSystem ν) :
    ReflTransGen Follow s.books (i.port.fired s kind).books := by
  cases kind with
  | grace => exact follow_finish i (.inl rfl) { s with cancelGrace := none }
  | start => exact follow_finish i (.inr rfl) s

theorem follow_fire (i : Input ν) (timer : Nat) (s : SourceSystem ν) :
    ReflTransGen Follow s.books (i.port.fire timer s).books := by
  unfold Port.fire
  split
  · exact .refl
  · next t _ => exact follow_fired i t.kind { s with timers := s.timers.filter fun t => t.id ≠ timer }

theorem follow_refused (i : Input ν) (encoder : Nat) (s : SourceSystem ν) :
    ReflTransGen Follow s.books (i.port.refused encoder s).books := by
  unfold Port.refused
  split
  · exact .refl
  · exact follow_finish i (.inr rfl) { s with opening := s.opening.filter (· ≠ encoder) }

omit [DecidableEq ν] in
theorem step_stopped (encoder : Nat) (s : SourceSystem ν) : Step (.stopped encoder) s.books (s.stopped encoder).books := by
  unfold SourceSystem.stopped
  split
  · exact .of_follow .refl
  · next h => exact ⟨_, .stopped encoder (not_not.1 h), .refl⟩

theorem step_resume (i : Input ν) (s : SourceSystem ν) : Step .resume s.books (i.port.resume s).books := by
  unfold Port.resume
  split
  · exact .of_follow .refl
  · next h =>
    obtain ⟨mid, hm, hf⟩ := books_beginRest i { s with ready := s.ready - 1 }
    exact ⟨mid, .resume mid (Nat.pos_of_ne_zero h) hm, hf⟩

omit [DecidableEq ν] in
theorem step_closing (call : Nat) (s : SourceSystem ν) : Step (.closing call) s.books (s.advanceClose call).books := by
  unfold SourceSystem.advanceClose
  split
  · next on frame =>
    split
    · exact ⟨_, .closing call on frame, .refl⟩
    · exact .of_follow .refl
  · next on frame =>
    split
    · next ended => exact ⟨_, .closed call on frame ended, .refl⟩
    · exact .of_follow .refl
  · exact .of_follow .refl

/-- Every step of a source is a turn of its books. -/
theorem books_step (s : SourceSystem ν) (i : Input ν) : Step i.event s.books (s.step i).books := by
  unfold SourceSystem.step Port.step
  cases i.event with
  | add v => exact step_add i v s
  | remove v => exact .of_follow (left_remove s v).follow
  | requestKeyframe => exact .of_follow (follow_requestKeyframe i s)
  | close => exact ⟨_, .close, by rw [books_close]; exact .refl⟩
  | fire timer => exact .of_follow (follow_fire i timer s)
  | packet e packet => exact .of_follow (follow_signal i e s _)
  | failure e => exact .of_follow (follow_signal i e s _)
  | started e => exact .of_follow .refl
  | refused e => exact .of_follow (follow_refused i e s)
  | stopped e => exact step_stopped e s
  | resume => exact step_resume i s
  | closing call => exact step_closing call s
  | advance now => exact .of_follow .refl

end RosBridge.Media
