import Mathlib.Data.List.Nodup
import RosBridge.Media.Writes
/-!
# The timers of a source

What `VideoSource` holds between turns, when the viewers' callbacks do not come back to
it: the start deadline is armed while it is starting, the grace timer while nobody
watches, and nothing is left of either in a terminal phase.
-/

namespace RosBridge.Media

open Lib Relation

variable {ν : Type}

/-- A turn in which viewers that are told a state do nothing to the source. -/
def Input.Quiet (i : Input ν) : Prop := ∀ v state, i.told v state = []

/-- The handle of a timer. -/
def SourceSystem.handle (s : SourceSystem ν) : TimerKind → Option Nat
  | .grace => s.cancelGrace
  | .start => s.cancelStart

/-- The phase, the timers and their handles, the viewers and the encoder fit together. -/
structure Timed (s : SourceSystem ν) : Prop where
  held : ∀ t ∈ s.timers, s.handle t.kind = some t.id
  armed : ∀ kind id, s.handle kind = some id → ∃ t ∈ s.timers, t.kind = kind ∧ t.id = id
  nodup : (s.timers.map (·.id)).Nodup
  old : ∀ t ∈ s.timers, t.id < s.nextTimer
  start : s.cancelStart ≠ none ↔ s.phase = .starting
  grace : s.phase = .starting ∨ s.phase = .active → (s.cancelGrace ≠ none ↔ s.viewers = [])
  active : s.phase = .active → s.source ≠ none
  ended : s.phase = .idle ∨ s.phase = .failed → s.source = none ∧ s.viewers = [] ∧ s.timers = []

variable {s s' : SourceSystem ν}

/-- The other fields do not matter. -/
theorem Timed.same (h : Timed s) (timers : s'.timers = s.timers) (nextTimer : s'.nextTimer = s.nextTimer)
    (cancelStart : s'.cancelStart = s.cancelStart) (cancelGrace : s'.cancelGrace = s.cancelGrace) (phase : s'.phase = s.phase)
    (viewers : s'.viewers = s.viewers) (source : s'.source = s.source) : Timed s' := by
  have handle : s'.handle = s.handle := by
    funext kind
    cases kind
    · exact cancelGrace
    · exact cancelStart
  constructor
  · rw [timers, handle]
    exact h.held
  · rw [timers, handle]
    exact h.armed
  · rw [timers]
    exact h.nodup
  · rw [timers, nextTimer]
    exact h.old
  · rw [cancelStart, phase]
    exact h.start
  · rw [cancelGrace, phase, viewers]
    exact h.grace
  · rw [phase, source]
    exact h.active
  · rw [phase, source, viewers, timers]
    exact h.ended

theorem Timed.handled (h : Timed s) (kind : TimerKind) : s.handle kind ≠ none ↔ ∃ t ∈ s.timers, t.kind = kind := by
  constructor
  · intro some
    obtain ⟨id, handle⟩ := Option.ne_none_iff_exists'.1 some
    obtain ⟨t, mem, here, -⟩ := h.armed kind id handle
    exact ⟨t, mem, here⟩
  · rintro ⟨t, mem, rfl⟩ none
    rw [h.held t mem] at none
    cases none

/-- A source whose timer is armed is starting or active. -/
theorem Timed.phase_of_timer (h : Timed s) {t : Timer} (mem : t ∈ s.timers) : s.phase = .starting ∨ s.phase = .active := by
  cases phase : s.phase with
  | starting => exact .inl rfl
  | active => exact .inr rfl
  | idle =>
    rw [(h.ended (.inl phase)).2.2] at mem
    cases mem
  | failed =>
    rw [(h.ended (.inr phase)).2.2] at mem
    cases mem

theorem settled_init (options : VideoSourceOptions) : Timed (SourceSystem.init options : SourceSystem ν) := by
  constructor
  · intro t mem
    cases mem
  · intro kind id handle
    cases kind <;> cases handle
  · exact List.nodup_nil
  · intro t mem
    cases mem
  · exact ⟨fun h => absurd rfl h, fun h => by cases h⟩
  · rintro (h | h) <;> cases h
  · intro h
    cases h
  · exact fun _ => ⟨rfl, rfl, rfl⟩

/-! ## What single writes do -/

/-- An encoder is created while the source is starting. -/
theorem Timed.create (h : Timed s) (starting : s.phase = .starting) : Timed s.create := by
  refine ⟨h.held, h.armed, h.nodup, h.old, h.start, h.grace, fun active => ?_, fun terminal => ?_⟩
  · cases starting.symm.trans active
  · rcases terminal with phase | phase
    · cases starting.symm.trans phase
    · cases starting.symm.trans phase

/-- The first packet ends the start. -/
theorem Timed.activate (h : Timed s) (starting : s.phase = .starting) (source : s.source ≠ none) :
    Timed ({ s.cancel s.cancelStart with cancelStart := none, phase := .active } : SourceSystem ν) := by
  have left : ∀ t ∈ s.timers.filter (fun t => some t.id ≠ s.cancelStart), t ∈ s.timers ∧ some t.id ≠ s.cancelStart := by
    intro t mem
    obtain ⟨mem, other⟩ := List.mem_filter.1 mem
    exact ⟨mem, of_decide_eq_true other⟩
  constructor
  · intro t mem
    obtain ⟨mem, other⟩ := left t mem
    have held := h.held t mem
    cases kind : t.kind with
    | grace =>
      rw [kind] at held
      exact held
    | start =>
      rw [kind] at held
      exact absurd held.symm other
  · intro kind id handle
    cases kind with
    | start => cases handle
    | grace =>
      obtain ⟨t, mem, here, rfl⟩ := h.armed .grace id handle
      refine ⟨t, List.mem_filter.2 ⟨mem, decide_eq_true fun same => ?_⟩, here, rfl⟩
      -- The two handles are of different timers: the start handle belongs to one of kind start.
      obtain ⟨t', mem', here', id'⟩ := h.armed .start t.id same.symm
      have equal : t' = t := List.inj_on_of_nodup_map h.nodup mem' mem id'
      rw [equal, here] at here'
      cases here'
  · exact h.nodup.sublist (List.filter_sublist.map _)
  · exact fun t mem => h.old t (left t mem).1
  · exact ⟨fun h => absurd rfl h, fun h => by cases h⟩
  · exact fun _ => h.grace (.inl starting)
  · exact fun _ => source
  · rintro (phase | phase) <;> cases phase

/-- The last viewer leaves: the grace timer is armed. -/
theorem Timed.armGrace (h : Timed s) (phase : s.phase = .starting ∨ s.phase = .active) (watched : s.viewers ≠ []) :
    Timed ({ s with viewers := [] } : SourceSystem ν).armGrace := by
  have none : s.cancelGrace = none := by
    by_contra some
    exact watched ((h.grace phase).1 some)
  have start : ∀ t ∈ s.timers, t.kind = .start := by
    intro t mem
    cases kind : t.kind with
    | start => rfl
    | grace =>
      have held := h.held t mem
      rw [kind] at held
      cases none.symm.trans held
  constructor
  · intro t mem
    rcases List.mem_append.1 mem with old | new
    · have held := h.held t old
      rw [start t old] at held ⊢
      exact held
    · rw [List.mem_singleton.1 new]
      rfl
  · intro kind id handle
    cases kind with
    | start =>
      obtain ⟨t, mem, here⟩ := h.armed .start id handle
      exact ⟨t, List.mem_append_left _ mem, here⟩
    | grace =>
      obtain rfl := Option.some.inj handle
      exact ⟨_, List.mem_append_right _ List.mem_cons_self, rfl, rfl⟩
  · show ((s.timers ++ [_]).map fun t : Timer => t.id).Nodup
    rw [List.map_append, List.nodup_append]
    refine ⟨h.nodup, List.nodup_singleton _, ?_⟩
    rintro id mem _ new rfl
    obtain ⟨t, old, rfl⟩ := List.mem_map.1 mem
    have before := h.old t old
    rw [List.mem_singleton.1 new] at before
    exact Nat.lt_irrefl _ before
  · intro t mem
    rcases List.mem_append.1 mem with old | new
    · exact Nat.lt_succ_of_lt (h.old t old)
    · rw [List.mem_singleton.1 new]
      exact Nat.lt_succ_self _
  · exact h.start
  · exact fun _ => ⟨fun _ => rfl, fun _ => Option.some_ne_none _⟩
  · exact h.active
  · intro terminal
    rcases phase with phase | phase <;> rcases terminal with other | other <;> cases phase.symm.trans other

/-- The source starts, with somebody watching. -/
theorem settled_armStart (starting : s.phase = .starting) (timers : s.timers = []) (grace : s.cancelGrace = none)
    (watched : s.viewers ≠ []) : Timed s.armStart := by
  have one : s.armStart.timers = [⟨s.nextTimer, .start, s.now + s.options.settings.startTimeoutMs⟩] := by
    show s.timers ++ [_] = _
    rw [timers]
    rfl
  constructor
  · rw [one]
    intro t mem
    rw [List.mem_singleton.1 mem]
    rfl
  · rw [one]
    intro kind id handle
    cases kind with
    | start =>
      obtain rfl := Option.some.inj handle
      exact ⟨_, List.mem_cons_self, rfl, rfl⟩
    | grace => cases grace.symm.trans handle
  · rw [one]
    exact List.nodup_singleton _
  · rw [one]
    intro t mem
    rw [List.mem_singleton.1 mem]
    exact Nat.lt_succ_self _
  · exact ⟨fun _ => starting, fun _ => Option.some_ne_none _⟩
  · exact fun _ => ⟨fun some => absurd grace some, fun none => absurd none watched⟩
  · intro active
    cases starting.symm.trans active
  · rintro (phase | phase) <;> cases starting.symm.trans phase

/-! ## The methods -/

variable [DecidableEq ν] {i : Input ν}

theorem Input.Quiet.told (quiet : i.Quiet) (v : ν) (state : VideoState) (s : SourceSystem ν) : i.port.told v state s = s := by
  show (i.told v state).foldl SourceSystem.remove s = s
  rw [quiet]
  rfl

theorem Input.Quiet.notify (quiet : i.Quiet) (s : SourceSystem ν) : i.port.notify s = s := by
  have stays : ∀ (vs : List ν) (s : SourceSystem ν), vs.foldl (fun w v => if v ∈ (i.port.view w).viewers then
      i.port.told v (i.port.view w).phase w else w) s = s := by
    intro vs
    induction vs with
    | nil => exact fun _ => rfl
    | cons v vs ih =>
      intro s
      rw [List.foldl_cons]
      split
      · rw [quiet.told]
        exact ih s
      · exact ih s
  exact stays _ s

/-- After `finish` nothing is armed and no encoder is held. -/
theorem settled_finish (quiet : i.Quiet) {phase : VideoState} (terminal : phase = .idle ∨ phase = .failed)
    (held : ∀ t ∈ s.timers, s.cancelStart = some t.id ∨ s.cancelGrace = some t.id)
    (alone : phase = .failed ∨ s.viewers = []) : Timed (i.port.finish phase s) := by
  simp only [Port.finish, Input.port_view, Input.port_modify, quiet.notify]
  have timers : (s.timers.filter fun t => some t.id ≠ s.cancelStart).filter (fun t => some t.id ≠ s.cancelGrace) = [] := by
    rw [List.filter_filter, List.filter_eq_nil_iff]
    intro t mem both
    simp only [Bool.and_eq_true, decide_eq_true_eq] at both
    rcases held t mem with start | grace
    · exact both.2 start.symm
    · exact both.1 grace.symm
  have settled : ∀ w : SourceSystem ν, w.timers = [] → w.cancelStart = none → w.cancelGrace = none → w.phase = phase →
      w.viewers = [] → w.source = none → Timed w := by
    intro w timers start grace ended viewers source
    constructor
    · rw [timers]
      intro t mem
      cases mem
    · intro kind id handle
      cases kind with
      | start => cases start.symm.trans handle
      | grace => cases grace.symm.trans handle
    · rw [timers]
      exact List.nodup_nil
    · rw [timers]
      intro t mem
      cases mem
    · refine ⟨fun some => absurd start some, fun starting => ?_⟩
      rcases terminal with rfl | rfl <;> cases ended.symm.trans starting
    · rintro (other | other) <;> rcases terminal with rfl | rfl <;> cases ended.symm.trans other
    · intro active
      rcases terminal with rfl | rfl <;> cases ended.symm.trans active
    · exact fun _ => ⟨source, viewers, timers⟩
  have stopped : ∀ (w : SourceSystem ν) encoder, Timed w → Timed (w.stop encoder) := by
    intro w encoder h
    exact h.same rfl rfl rfl rfl rfl rfl rfl
  rcases terminal with rfl | rfl
  · have empty : s.viewers = [] := alone.resolve_left fun h => by cases h
    split
    · exact settled _ timers rfl rfl rfl empty rfl
    · apply stopped
      exact settled _ timers rfl rfl rfl empty rfl
  · split
    · exact settled _ timers rfl rfl rfl rfl rfl
    · apply stopped
      exact settled _ timers rfl rfl rfl rfl rfl

theorem Timed.finish (h : Timed s) (quiet : i.Quiet) {phase : VideoState} (terminal : phase = .idle ∨ phase = .failed)
    (alone : phase = .failed ∨ s.viewers = []) : Timed (i.port.finish phase s) := by
  refine settled_finish quiet terminal (fun t mem => ?_) alone
  have held := h.held t mem
  cases kind : t.kind with
  | start =>
    rw [kind] at held
    exact .inl held
  | grace =>
    rw [kind] at held
    exact .inr held

omit [DecidableEq ν] in
theorem Timed.fanOut (h : Timed s) (packet : RtpPacket) : Timed (s.fanOut packet) := by
  unfold SourceSystem.fanOut SourceSystem.renumber
  cases s.origin with
  | none => exact h.same rfl rfl rfl rfl rfl rfl rfl
  | some origin => exact h.same rfl rfl rfl rfl rfl rfl rfl

theorem Timed.signal (h : Timed s) (quiet : i.Quiet) (encoder : Nat) (signal : Signal) :
    Timed (i.port.signal encoder s signal) := by
  rw [Input.port_signal]
  split
  · exact h
  · next source =>
    have source : s.source = some encoder := not_not.1 source
    cases signal with
    | failed => exact h.finish quiet (.inr rfl) (.inl rfl)
    | packet packet =>
      show Timed ((if s.phase = .starting then i.port.notify { s.cancel s.cancelStart with cancelStart := none, phase := .active }
        else s).fanOut packet)
      by_cases starting : s.phase = .starting
      · rw [if_pos starting, quiet.notify]
        exact (h.activate starting (by simp [source])).fanOut packet
      · rw [if_neg starting]
        exact h.fanOut packet

theorem Timed.signals (h : Timed s) (quiet : i.Quiet) (encoder : Nat) (signals : List Signal) :
    Timed (signals.foldl (i.port.signal encoder) s) :=
  foldl_inv (fun _ signal h => h.signal quiet encoder signal) h signals

theorem Timed.requestKeyframe (h : Timed s) (quiet : i.Quiet) : Timed (i.port.requestKeyframe s) := by
  rw [Input.port_requestKeyframe]
  have counted : Timed { s with lastKeyframeAt := some s.now, keyframeRequests := s.keyframeRequests + 1 } :=
    h.same rfl rfl rfl rfl rfl rfl rfl
  split
  · exact h
  · dsimp only
    split
    · exact counted
    · next encoder _ => exact counted.signals quiet encoder i.keyframe

theorem Timed.beginRest (h : Timed s) (quiet : i.Quiet) : Timed (i.port.beginRest s) := by
  rw [Input.port_beginRest]
  split
  · exact h
  · next wanted =>
    rw [not_or, not_not] at wanted
    exact (h.create wanted.1).signals quiet s.created i.startup

theorem settled_beginStart (quiet : i.Quiet) (timers : s.timers = []) (grace : s.cancelGrace = none) (watched : s.viewers ≠ []) :
    Timed (i.port.beginStart s) := by
  simp only [Port.beginStart, Input.port_view, Input.port_modify, quiet.notify]
  have armed : Timed ({ s with phase := .starting } : SourceSystem ν).armStart :=
    settled_armStart rfl timers grace watched
  generalize ({ s with phase := .starting } : SourceSystem ν).armStart = w at armed
  cases w.release with
  | some encoder => exact armed.same rfl rfl rfl rfl rfl rfl rfl
  | none => exact armed.beginRest quiet

omit [DecidableEq ν] in
/-- A viewer joins a source that is starting or active: the grace timer is cancelled. -/
theorem Timed.join (h : Timed s) (phase : s.phase = .starting ∨ s.phase = .active) {viewers : List ν} (watched : viewers ≠ []) :
    Timed ({ s.cancel s.cancelGrace with viewers := viewers, cancelGrace := none } : SourceSystem ν) := by
  have left : ∀ t ∈ s.timers.filter (fun t => some t.id ≠ s.cancelGrace), t ∈ s.timers ∧ t.kind = .start := by
    intro t mem
    obtain ⟨mem, other⟩ := List.mem_filter.1 mem
    refine ⟨mem, ?_⟩
    have held := h.held t mem
    cases kind : t.kind with
    | start => rfl
    | grace =>
      rw [kind] at held
      exact absurd held.symm (of_decide_eq_true other)
  constructor
  · intro t mem
    obtain ⟨mem, kind⟩ := left t mem
    have held := h.held t mem
    rw [kind] at held ⊢
    exact held
  · intro kind id handle
    cases kind with
    | grace => cases handle
    | start =>
      obtain ⟨t, mem, here, rfl⟩ := h.armed .start id handle
      refine ⟨t, List.mem_filter.2 ⟨mem, decide_eq_true fun same => ?_⟩, here, rfl⟩
      obtain ⟨t', mem', here', id'⟩ := h.armed .grace t.id same.symm
      have equal : t' = t := List.inj_on_of_nodup_map h.nodup mem' mem id'
      rw [equal, here] at here'
      cases here'
  · exact h.nodup.sublist (List.filter_sublist.map _)
  · exact fun t mem => h.old t (left t mem).1
  · exact h.start
  · exact fun _ => ⟨fun some => absurd rfl some, fun none => absurd none watched⟩
  · exact h.active
  · intro terminal
    rcases phase with phase | phase <;> rcases terminal with other | other <;> cases phase.symm.trans other

theorem Timed.add (h : Timed s) (quiet : i.Quiet) (viewer : ν) : Timed (i.port.add viewer s) := by
  rw [Input.port_add]
  have watched : (if viewer ∈ s.viewers then s.viewers else s.viewers ++ [viewer]) ≠ [] := by
    split
    · next mem => exact List.ne_nil_of_mem mem
    · simp
  generalize (if viewer ∈ s.viewers then s.viewers else s.viewers ++ [viewer]) = viewers at watched
  dsimp only
  split
  · next terminal =>
    obtain ⟨-, -, none⟩ := h.ended terminal
    refine settled_beginStart quiet ?_ rfl watched
    show s.timers.filter _ = []
    rw [none]
    rfl
  · next going =>
    have phase : s.phase = .starting ∨ s.phase = .active := by
      cases phase : s.phase with
      | starting => exact .inl rfl
      | active => exact .inr rfl
      | idle => exact absurd (.inl phase) going
      | failed => exact absurd (.inr phase) going
    rw [quiet.told]
    split
    · exact (h.join phase watched).requestKeyframe quiet
    · exact h.join phase watched

theorem Timed.remove (h : Timed s) (viewer : ν) : Timed (s.remove viewer) := by
  unfold SourceSystem.remove
  split
  · exact h
  · next member =>
    have member : viewer ∈ s.viewers := not_not.1 member
    have phase : s.phase = .starting ∨ s.phase = .active := by
      cases phase : s.phase with
      | starting => exact .inl rfl
      | active => exact .inr rfl
      | idle =>
        rw [(h.ended (.inl phase)).2.1] at member
        cases member
      | failed =>
        rw [(h.ended (.inr phase)).2.1] at member
        cases member
    have watched : s.viewers ≠ [] := List.ne_nil_of_mem member
    dsimp only
    split
    · next still =>
      have rest : s.viewers.erase viewer ≠ [] := by
        rcases still with more | idle
        · exact List.ne_nil_of_length_pos more
        · rcases phase with other | other <;> cases idle.symm.trans other
      refine ⟨h.held, h.armed, h.nodup, h.old, h.start, fun going => ?_, h.active, fun terminal => ?_⟩
      · exact ⟨fun some => absurd ((h.grace going).1 some) watched, fun none => absurd none rest⟩
      · rcases phase with phase | phase <;> rcases terminal with other | other <;> cases phase.symm.trans other
    · next last =>
      rw [not_or, Nat.not_lt, Nat.le_zero, List.length_eq_zero_iff] at last
      rw [last.1]
      exact h.armGrace phase watched

theorem Timed.fire (h : Timed s) (quiet : i.Quiet) (timer : Nat) : Timed (i.port.fire timer s) := by
  unfold Port.fire
  split
  · exact h
  · next t found =>
    have mem : t ∈ s.timers := List.mem_of_find?_eq_some found
    have due := List.find?_some found
    have here : t.id = timer := (of_decide_eq_true due).1
    have held := h.held t mem
    have rest : ∀ t' ∈ s.timers.filter (fun t => t.id ≠ timer), t' ∈ s.timers ∧ t'.id ≠ timer := by
      intro t' mem'
      obtain ⟨mem', other⟩ := List.mem_filter.1 mem'
      exact ⟨mem', of_decide_eq_true other⟩
    rw [Input.port_modify]
    cases kind : t.kind with
    | start =>
      refine settled_finish quiet (.inr rfl) (fun t' mem' => ?_) (.inl rfl)
      have held' := h.held t' (rest t' mem').1
      cases kind' : t'.kind with
      | start =>
        rw [kind'] at held'
        exact .inl held'
      | grace =>
        rw [kind'] at held'
        exact .inr held'
    | grace =>
      rw [kind] at held
      have alone : s.viewers = [] := (h.grace (h.phase_of_timer mem)).1 fun none => by cases none.symm.trans held
      refine settled_finish quiet (.inl rfl) (fun t' mem' => ?_) (.inr alone)
      have held' := h.held t' (rest t' mem').1
      cases kind' : t'.kind with
      | start =>
        rw [kind'] at held'
        exact .inl held'
      | grace =>
        rw [kind'] at held'
        have same : some t'.id = some t.id := held'.symm.trans held
        exact absurd ((Option.some.inj same).trans here) (rest t' mem').2

theorem Timed.step (h : Timed s) (quiet : i.Quiet) : Timed (s.step i) := by
  unfold SourceSystem.step Port.step
  cases i.event with
  | add viewer => exact h.add quiet viewer
  | remove viewer => exact h.remove viewer
  | requestKeyframe => exact h.requestKeyframe quiet
  | close =>
    have finished : Timed (i.port.finish .idle { s with viewers := [] }) := by
      refine settled_finish quiet (.inl rfl) (fun t mem => ?_) (.inr rfl)
      have held := h.held t mem
      cases kind : t.kind with
      | start =>
        rw [kind] at held
        exact .inl held
      | grace =>
        rw [kind] at held
        exact .inr held
    exact finished.same rfl rfl rfl rfl rfl rfl rfl
  | fire timer => exact h.fire quiet timer
  | packet encoder packet => exact h.signal quiet encoder (.packet packet)
  | failure encoder => exact h.signal quiet encoder .failed
  | started encoder => exact h.same rfl rfl rfl rfl rfl rfl rfl
  | refused encoder =>
    unfold Port.refused
    dsimp only
    split
    · exact h
    · rw [Input.port_modify]
      have opened : Timed { s with opening := s.opening.filter (· ≠ encoder) } := h.same rfl rfl rfl rfl rfl rfl rfl
      exact opened.finish quiet (.inr rfl) (.inl rfl)
  | stopped encoder =>
    show Timed (s.stopped encoder)
    unfold SourceSystem.stopped
    split
    · exact h
    · exact h.same rfl rfl rfl rfl rfl rfl rfl
  | resume =>
    dsimp only
    rw [Input.port_resume]
    split
    · exact h
    · have next : Timed { s with ready := s.ready - 1 } := h.same rfl rfl rfl rfl rfl rfl rfl
      exact next.beginRest quiet
  | closing call =>
    show Timed (s.advanceClose call)
    unfold SourceSystem.advanceClose
    split
    · split
      · exact h.same rfl rfl rfl rfl rfl rfl rfl
      · exact h
    · split
      · exact h.same rfl rfl rfl rfl rfl rfl rfl
      · exact h
    · exact h
  | advance now => exact h.same rfl rfl rfl rfl rfl rfl rfl

/-! ## Windows -/

/-- Timers are numbered in the order they are armed, and never armed twice. -/
structure Newer (s s' : SourceSystem ν) : Prop where
  next : s.nextTimer ≤ s'.nextTimer
  timers : ∀ t ∈ s'.timers, t ∈ s.timers ∨ s.nextTimer ≤ t.id

omit [DecidableEq ν] in
theorem Newer.trans {s s' s'' : SourceSystem ν} (h : Newer s s') (h' : Newer s' s'') : Newer s s'' := by
  refine ⟨Nat.le_trans h.next h'.next, fun t mem => ?_⟩
  rcases h'.timers t mem with old | new
  · exact h.timers t old
  · exact .inr (Nat.le_trans h.next new)

omit [DecidableEq ν] in
/-- Timers only go. -/
theorem Newer.of_subset (next : s'.nextTimer = s.nextTimer) (timers : s'.timers ⊆ s.timers) : Newer s s' :=
  ⟨Nat.le_of_eq next.symm, fun _ mem => .inl (timers mem)⟩

omit [DecidableEq ν] in
/-- One timer is armed. -/
theorem Newer.of_armed {kind : TimerKind} {due : ℚ} (next : s'.nextTimer = s.nextTimer + 1)
    (timers : s'.timers = s.timers ++ [⟨s.nextTimer, kind, due⟩]) : Newer s s' := by
  refine ⟨by omega, fun t mem => ?_⟩
  rw [timers] at mem
  rcases List.mem_append.1 mem with old | new
  · exact .inl old
  · rw [List.mem_singleton.1 new]
    exact .inr (Nat.le_refl _)

theorem write_newer {terms : Terms ν} (h : Write terms s s') : Newer s s' := by
  have same : ∀ w : SourceSystem ν, w.nextTimer = s.nextTimer → w.timers = s.timers → Newer s w := by
    intro w next timers
    exact .of_subset next (by rw [timers]; exact List.Subset.refl _)
  cases h with
  | remove viewer =>
    unfold SourceSystem.remove
    split
    · exact same _ rfl rfl
    · dsimp only
      split
      · exact same _ rfl rfl
      · exact .of_armed rfl rfl
  | armStart => exact .of_armed rfl rfl
  | join | activate | fire => exact .of_subset rfl fun _ mem => List.mem_of_mem_filter mem
  | finish => exact .of_subset rfl fun _ mem => List.mem_of_mem_filter (List.mem_of_mem_filter mem)
  | fanOut packet =>
    unfold SourceSystem.fanOut SourceSystem.renumber
    cases s.origin <;> exact same _ rfl rfl
  | stopped encoder =>
    unfold SourceSystem.stopped
    split <;> exact same _ rfl rfl
  | closing call =>
    unfold SourceSystem.advanceClose
    split
    · split <;> exact same _ rfl rfl
    · split <;> exact same _ rfl rfl
    · exact same _ rfl rfl
  | starting | wait | create | keyframe | clear | stop | grace | «open» | resume | closes | advance => exact same _ rfl rfl

theorem run_newer (s : SourceSystem ν) (inputs : List (Input ν)) : Newer s (s.run inputs) := by
  have step : ∀ (s : SourceSystem ν) (i : Input ν), Newer s (s.step i) := by
    intro s i
    have writes : ReflTransGen (Write Terms.free) s (s.step i) := step_writes i s (fun _ _ _ _ => trivial) fun _ _ => trivial
    generalize s.step i = w at writes
    induction writes with
    | refl => exact .of_subset rfl (List.Subset.refl _)
    | tail _ write ih => exact ih.trans (write_newer write)
  induction inputs generalizing s with
  | nil => exact .of_subset rfl (List.Subset.refl _)
  | cons i inputs ih => exact (step s i).trans (ih (s.step i))

theorem settled_run (h : Timed s) {inputs : List (Input ν)} (quiet : ∀ i ∈ inputs, i.Quiet) : Timed (s.run inputs) := by
  induction inputs generalizing s with
  | nil => exact h
  | cons i inputs ih => exact ih (h.step (quiet i List.mem_cons_self)) fun i' mem => quiet i' (List.mem_cons_of_mem _ mem)

omit [DecidableEq ν] in
theorem Timed.one (h : Timed s) (kind : TimerKind) : s.timers.countP (·.kind = kind) ≤ 1 := by
  have ids : ∀ t ∈ s.timers.filter (·.kind = kind), t.id = (s.handle kind).getD 0 := by
    intro t mem
    obtain ⟨mem, here⟩ := List.mem_filter.1 mem
    have held := h.held t mem
    rw [of_decide_eq_true here] at held
    rw [held]
    rfl
  have nodup : ((s.timers.filter (·.kind = kind)).map (·.id)).Nodup := h.nodup.sublist (List.filter_sublist.map _)
  rw [List.countP_eq_length_filter]
  generalize s.timers.filter (·.kind = kind) = timers at ids nodup
  match timers with
  | [] => exact Nat.zero_le _
  | [_] => exact Nat.le_refl _
  | t :: t' :: _ =>
    have first := ids t List.mem_cons_self
    have second := ids t' (List.mem_cons_of_mem _ List.mem_cons_self)
    have fresh : t.id ∉ t'.id :: _ := (List.nodup_cons.1 nodup).1
    rw [first, ← second] at fresh
    exact absurd List.mem_cons_self fresh

/-- A timer that is armed now and later is armed all the time between. -/
theorem armed_between (inputs : List (Input ν)) (h : Timed s) (quiet : ∀ i ∈ inputs, i.Quiet) {t : Timer} (now : t ∈ s.timers)
    (later : t ∈ (s.run inputs).timers) {between : List (Input ν)} (middle : between <+: inputs) : t ∈ (s.run between).timers := by
  obtain ⟨rest, rfl⟩ := middle
  have settled : Timed (s.run between) := settled_run h fun i mem => quiet i (List.mem_append_left _ mem)
  have split : s.run (between ++ rest) = (s.run between).run rest := List.foldl_append ..
  rw [split] at later
  rcases (run_newer (s.run between) rest).timers t later with armed | new
  · exact armed
  · exact absurd (Nat.lt_of_lt_of_le (h.old t now) (run_newer s between).next) (Nat.not_lt.2 new)

/-- In every run in which the viewers' callbacks do not come back to the source: the
start deadline is armed exactly while it is starting, an active source has an encoder, a
source that ended has neither encoder nor viewers nor timers, the grace timer is armed
exactly while nobody watches a source that runs, and no kind of timer is armed twice. So
a timer that can fire later belongs to the start, or to the grace window, that is still on. -/
theorem source_settled (options : VideoSourceOptions) (inputs : List (Input ν)) (quiet : ∀ i ∈ inputs, i.Quiet) :
    let s := (SourceSystem.init options : SourceSystem ν).run inputs
    ((∃ t ∈ s.timers, t.kind = .start) ↔ s.phase = .starting) ∧ (s.phase = .active → s.source ≠ none) ∧
      (s.phase = .idle ∨ s.phase = .failed → s.source = none ∧ s.viewers = [] ∧ s.timers = []) ∧
      (s.phase = .starting ∨ s.phase = .active → ((∃ t ∈ s.timers, t.kind = .grace) ↔ s.viewers = [])) ∧
      (∀ kind, s.timers.countP (·.kind = kind) ≤ 1) ∧
      ∀ later : List (Input ν), (∀ i ∈ later, i.Quiet) → ∀ t ∈ s.timers, t ∈ (s.run later).timers → ∀ between, between <+: later →
        (t.kind = .start → (s.run between).phase = .starting) ∧
        (t.kind = .grace → ((s.run between).phase = .starting ∨ (s.run between).phase = .active) ∧ (s.run between).viewers = []) := by
  intro s
  have h : Timed s := settled_run (settled_init options) quiet
  refine ⟨(h.handled .start).symm.trans h.start, h.active, h.ended, fun going => (h.handled .grace).symm.trans (h.grace going),
    h.one, fun later more t now armed between middle => ?_⟩
  have settled : Timed (s.run between) := settled_run h fun i mem => more i (middle.subset mem)
  have here := armed_between later h more now armed middle
  refine ⟨fun kind => ?_, fun kind => ?_⟩
  · exact settled.start.1 ((settled.handled .start).2 ⟨t, here, kind⟩)
  · have going := settled.phase_of_timer here
    exact ⟨going, (settled.grace going).1 ((settled.handled .grace).2 ⟨t, here, kind⟩)⟩

/-- A short window of every kind. -/
def shortOptions : VideoSourceOptions := ⟨⟨6000, 3000, 1500, 250, by decide⟩, 29, by decide⟩

/-- The first viewer leaves before the first packet. -/
def leftEarly : List (Input Nat) := [.add 1, .remove 1].map Event.alone

theorem source_settled_left :
    let s := (SourceSystem.init shortOptions : SourceSystem Nat).run leftEarly
    (∃ t ∈ s.timers, t.kind = .start) ∧ ∃ t ∈ s.timers, t.kind = .grace := by
  intro s
  have quiet : ∀ i ∈ leftEarly, i.Quiet := by
    intro i mem
    obtain ⟨event, -, rfl⟩ := List.mem_map.1 mem
    exact fun _ _ => rfl
  obtain ⟨start, -, -, grace, -⟩ := source_settled shortOptions leftEarly quiet
  exact ⟨start.2 rfl, (grace (.inl rfl)).2 rfl⟩

end RosBridge.Media
