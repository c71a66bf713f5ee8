import RosBridge.Media.Pipelines
import RosBridge.Media.Writes
/-!
# Retries

`attach` asks whether a source may start (`retryable`), and encoders are created later,
by a `begin` that may have waited for a release. What keeps the two together is the
phase: a failure ends it, and only an attachment starts a source again. `Throttle` is
what of a source this depends on, and every call of the service moves it by the moves
of `Throttle.Move`.
-/

namespace RosBridge.Media

open Relation Lib Prog

/-- The clock, the phase, the last failure and the number of encoders created so far. -/
structure Throttle where
  retryMinIntervalMs : Nat
  pos : 0 < retryMinIntervalMs
  now : ℚ
  phase : VideoState
  failedAt : Option ℚ
  created : Nat

namespace Throttle

variable {ticks : Prop} {a b c : Throttle}

/-- No failure is too recent. -/
def Retryable (a : Throttle) : Prop := ∀ t, a.failedAt = some t → binary64.atLeast (a.now - t) a.retryMinIntervalMs = true

def Terminal (a : Throttle) : Prop := a.phase = .idle ∨ a.phase = .failed

inductive Move (ticks : Prop) (a : Throttle) : Throttle → Prop where
  | starting (retryable : a.Retryable) : Move ticks a { a with phase := .starting }
  | create (phase : a.phase = .starting) : Move ticks a { a with created := a.created + 1 }
  | activate (phase : a.phase = .starting) : Move ticks a { a with phase := .active }
  | finish (phase : VideoState) (terminal : phase = .idle ∨ phase = .failed) :
      Move ticks a { a with phase := phase, failedAt := if phase = .failed then some a.now else a.failedAt }
  | advance (allowed : ticks) (now : ℚ) : Move ticks a { a with now := max a.now now }

theorem interval_pos (a : Throttle) : (0 : ℚ) < a.retryMinIntervalMs := Nat.cast_pos.2 a.pos

/-- A source that has started was retryable, and no failure is yet to come. -/
structure Sound (a : Throttle) : Prop where
  past : ∀ t, a.failedAt = some t → t ≤ a.now
  started : a.Terminal ∨ a.Retryable

theorem Move.sound (m : Move ticks a b) (h : a.Sound) : b.Sound := by
  cases m with
  | starting retryable => exact ⟨h.past, .inr retryable⟩
  | create phase => exact ⟨h.past, h.started⟩
  | activate phase =>
    refine ⟨h.past, .inr ?_⟩
    rcases h.started with terminal | retryable
    · rcases terminal with other | other <;> cases phase.symm.trans other
    · exact retryable
  | finish phase terminal =>
    refine ⟨fun t failed => ?_, .inl terminal⟩
    dsimp only at failed ⊢
    split at failed
    · exact le_of_eq (Option.some.inj failed).symm
    · exact h.past t failed
  | advance _ now =>
    refine ⟨fun t failed => le_max_of_le_left (h.past t failed), h.started.imp id ?_⟩
    exact fun retryable t failed =>
      BinaryFormat.atLeast_mono a.interval_pos (sub_le_sub_right (le_max_left _ _) t) (retryable t failed)

theorem moves_sound (m : ReflTransGen (Move ticks) a b) (h : a.Sound) : b.Sound := by
  induction m with
  | refl => exact h
  | tail _ m ih => exact m.sound ih

/-- `b` comes after `a`: a failure is only replaced by a later one. -/
structure Later (a b : Throttle) : Prop where
  interval : b.retryMinIntervalMs = a.retryMinIntervalMs
  now : a.now ≤ b.now
  created : a.created ≤ b.created
  failed : ∀ t, a.failedAt = some t → ∃ t', b.failedAt = some t' ∧ t ≤ t'

theorem Later.refl (a : Throttle) : Later a a := ⟨rfl, le_rfl, Nat.le_refl _, fun t failed => ⟨t, failed, le_rfl⟩⟩

theorem Later.trans (h : Later a b) (h' : Later b c) : Later a c := by
  refine ⟨h'.interval.trans h.interval, h.now.trans h'.now, h.created.trans h'.created, fun t failed => ?_⟩
  obtain ⟨t', failed', le⟩ := h.failed t failed
  obtain ⟨t'', failed'', le'⟩ := h'.failed t' failed'
  exact ⟨t'', failed'', le.trans le'⟩

theorem Move.later (m : Move ticks a b) (h : a.Sound) : Later a b := by
  cases m with
  | starting | activate => exact ⟨rfl, le_rfl, Nat.le_refl _, (Later.refl a).failed⟩
  | create => exact ⟨rfl, le_rfl, Nat.le_succ _, (Later.refl a).failed⟩
  | finish phase =>
    refine ⟨rfl, le_rfl, Nat.le_refl _, fun t failed => ?_⟩
    dsimp only
    split
    · exact ⟨a.now, rfl, h.past t failed⟩
    · exact ⟨t, failed, le_rfl⟩
  | advance _ now => exact ⟨rfl, le_max_left _ _, Nat.le_refl _, (Later.refl a).failed⟩

theorem moves_later (m : ReflTransGen (Move ticks) a b) (h : a.Sound) : Later a b := by
  induction m with
  | refl => exact .refl a
  | tail m last ih => exact ih.trans (last.later (moves_sound m h))

/-- What a call in which the clock stands still comes to. -/
structure Turned (a b : Throttle) : Prop where
  interval : b.retryMinIntervalMs = a.retryMinIntervalMs
  now : b.now = a.now
  /-- After a failure in the call, nothing starts in it. -/
  failedAt : b.failedAt = a.failedAt ∨ (b.failedAt = some a.now ∧ b.Terminal)
  failed : b.phase = .failed → b.failedAt = some a.now ∨ (a.phase = .failed ∧ b.created = a.created)
  created : a.created < b.created → a.Retryable
  /-- Encoders are created before that. -/
  order : ∃ w, ReflTransGen (Move False) a w ∧ w.failedAt = a.failedAt ∧ ReflTransGen (Move False) w b ∧ w.created = b.created

theorem Turned.refl (a : Throttle) : Turned a a :=
  ⟨rfl, rfl, .inl rfl, fun phase => .inr ⟨phase, rfl⟩, fun more => absurd more (Nat.lt_irrefl _), a, .refl, rfl, .refl, rfl⟩

/-- A source that goes on has not failed in this call. -/
theorem Turned.failedAt_of_starting (h : Turned a b) (phase : b.phase = .starting) : b.failedAt = a.failedAt := by
  rcases h.failedAt with same | ⟨-, terminal⟩
  · exact same
  · rcases terminal with other | other <;> cases phase.symm.trans other

/-- Right after a failure nothing is retryable. -/
theorem Turned.failedAt_of_retryable (h : Turned a b) (retryable : b.Retryable) : b.failedAt = a.failedAt := by
  rcases h.failedAt with same | ⟨failed, -⟩
  · exact same
  · have window := retryable a.now failed
    rw [h.now, sub_self, BinaryFormat.not_atLeast_zero b.interval_pos] at window
    cases window

theorem Turned.tail (h : Turned a b) (m : Move False b c) (sound : b.Sound) : Turned a c := by
  obtain ⟨w, before, failedAt, after, created⟩ := h.order
  cases m with
  | starting retryable =>
    refine ⟨h.interval, h.now, .inl (h.failedAt_of_retryable retryable), fun failed => (by cases failed), h.created, ?_⟩
    exact ⟨w, before, failedAt, after.tail (.starting retryable), created⟩
  | create phase =>
    have same := h.failedAt_of_starting phase
    refine ⟨h.interval, h.now, .inl same, fun failed => (by cases phase.symm.trans failed), fun _ => ?_, ?_⟩
    · rcases sound.started with terminal | retryable
      · rcases terminal with other | other <;> cases phase.symm.trans other
      · intro t failed
        rw [← h.interval, ← h.now]
        exact retryable t (same.trans failed)
    · exact ⟨_, (before.trans after).tail (.create phase), same, .refl, rfl⟩
  | activate phase =>
    refine ⟨h.interval, h.now, .inl (h.failedAt_of_starting phase), fun failed => (by cases failed), h.created, ?_⟩
    exact ⟨w, before, failedAt, after.tail (.activate phase), created⟩
  | finish phase terminal =>
    refine ⟨h.interval, h.now, ?_, fun failed => ?_, h.created, w, before, failedAt, after.tail (.finish phase terminal), created⟩
    · dsimp only
      split
      · exact .inr ⟨congrArg some h.now, terminal⟩
      · exact h.failedAt.imp id fun failed => ⟨failed.1, terminal⟩
    · have failed : phase = .failed := failed
      rw [if_pos failed]
      exact .inl (congrArg some h.now)
  | advance allowed => exact allowed.elim

theorem moves_turned (m : ReflTransGen (Move False) a b) (h : a.Sound) : Turned a b := by
  induction m with
  | refl => exact .refl a
  | tail m last ih => exact ih.tail last (moves_sound m h)

theorem Move.ticking {ticks' : Prop} (m : Move ticks a b) (h : ticks → ticks') : Move ticks' a b := by
  cases m with
  | starting retryable => exact .starting retryable
  | create phase => exact .create phase
  | activate phase => exact .activate phase
  | finish phase terminal => exact .finish phase terminal
  | advance allowed now => exact .advance (h allowed) now

theorem moves_ticking {ticks' : Prop} (m : ReflTransGen (Move ticks) a b) (h : ticks → ticks') :
    ReflTransGen (Move ticks') a b := by
  induction m with
  | refl => exact .refl
  | tail _ m ih => exact ih.tail (m.ticking h)

end Throttle

/-! ## One source -/

variable {ν : Type}

def SourceSystem.throttle (s : SourceSystem ν) : Throttle where
  retryMinIntervalMs := s.options.settings.retryMinIntervalMs
  pos := s.options.settings.pos.2.1
  now := s.now
  phase := s.phase
  failedAt := s.failedAt
  created := s.created

theorem retryable_iff (s : SourceSystem ν) : s.retryable = true ↔ s.throttle.Retryable := by
  unfold SourceSystem.retryable SourceSystem.elapsed Throttle.Retryable
  cases failed : s.failedAt with
  | none =>
    constructor
    · intro _ t other
      cases failed.symm.trans other
    · exact fun _ => rfl
  | some t =>
    constructor
    · intro elapsed t' same
      obtain rfl := Option.some.inj (failed.symm.trans same)
      exact elapsed
    · exact fun retryable => retryable t failed

/-- The terms of a call of the service. -/
def Terms.throttled (ν : Type) (ticks : Prop) : Terms ν := ⟨fun s => s.retryable = true, ticks⟩

variable [DecidableEq ν]

theorem remove_throttle (s : SourceSystem ν) (viewer : ν) : (s.remove viewer).throttle = s.throttle := by
  unfold SourceSystem.remove
  split
  · rfl
  · dsimp only
    split <;> rfl

/-- Every write is a move or none. -/
theorem write_move {ticks : Prop} {s s' : SourceSystem ν} (h : Write (.throttled ν ticks) s s') :
    ReflTransGen (Throttle.Move ticks) s.throttle s'.throttle := by
  cases h with
  | starting allowed => exact .single (.starting ((retryable_iff s).1 allowed))
  | create phase => exact .single (.create phase)
  | activate phase => exact .single (.activate phase)
  | finish phase terminal => exact .single (.finish phase terminal)
  | advance allowed now => exact .single (.advance allowed now)
  | remove viewer =>
    rw [remove_throttle]
  | fanOut packet =>
    unfold SourceSystem.fanOut SourceSystem.renumber
    cases s.origin <;> exact .refl
  | stopped encoder =>
    unfold SourceSystem.stopped
    split <;> exact .refl
  | closing call =>
    unfold SourceSystem.advanceClose
    split
    · split <;> exact .refl
    · split <;> exact .refl
    · exact .refl
  | join | armStart | wait | keyframe | clear | stop | fire | grace | «open» | resume | closes => exact .refl

/-- A turn of a source that is added to only when it is retryable. -/
theorem step_moves (i : Input ν) (s : SourceSystem ν) (asked : ∀ viewer, i.event = .add viewer → s.retryable = true) :
    ReflTransGen (Throttle.Move (∃ now, i.event = .advance now)) s.throttle (s.step i).throttle := by
  have writes : ReflTransGen (Write (.throttled ν (∃ now, i.event = .advance now))) s (s.step i) := by
    apply step_writes
    · intro viewer event w early
      have retryable := asked viewer event
      show w.elapsed w.failedAt w.options.settings.retryMinIntervalMs = true
      unfold SourceSystem.retryable SourceSystem.elapsed at retryable
      unfold SourceSystem.elapsed
      rw [early.failedAt, early.options, early.now]
      exact retryable
    · exact fun now event => ⟨now, event⟩
  generalize s.step i = w at writes
  induction writes with
  | refl => exact .refl
  | tail _ write ih => exact ih.trans (write_move write)

/-! ## Sources in the service -/

namespace MediaService

variable {m : MediaService ν} (outside : Outside ν) {track t : String}

/-- The other sources only lose viewers. -/
theorem step_others (event : Event ν) (apart : t ≠ track) :
    (((port outside track).step event m).sources t).throttle = (m.sources t).throttle := by
  have kept : (port outside track).Preserves fun w => (w.sources t).throttle = (m.sources t).throttle := by
    constructor
    · intro w s same
      show SourceSystem.throttle (if t = track then s else w.sources t) = _
      rw [if_neg apart]
      exact same
    · intro viewer state w same
      refine foldl_inv (I := fun w : MediaService ν => (w.sources t).throttle = _) (fun w gone same => ?_) same _
      rw [detach_after]
      split
      · show SourceSystem.throttle (if t = gone.1 then (w.sources gone.1).remove gone.2 else w.sources t) = _
        split
        · next here =>
          rw [remove_throttle, ← here]
          exact same
        · exact same
      · exact same
  exact kept.step event rfl

theorem event_moves (event : Event ν) (asked : ∀ viewer, event = .add viewer → (m.sources track).retryable = true) (t : String) :
    ReflTransGen (Throttle.Move (∃ now, event = .advance now)) (m.sources t).throttle
      (((port outside track).step event m).sources t).throttle := by
  by_cases here : t = track
  · have beside : Beside m track ((port outside track).step event m) _ := step_beside outside event
    rw [here, beside.source]
    exact step_moves (alone m outside track event) (m.sources track) asked
  · rw [step_others outside event here]

/-- Only the clock itself advances it. -/
def Call.ticks (call : Call ν) : Prop := ∃ track now, call = .event track (.advance now)

variable (m) in
/-- The moves of one source between two states of the service. -/
def Moved (ticks : Prop) (t : String) (w : MediaService ν) : Prop :=
  ReflTransGen (Throttle.Move ticks) (m.sources t).throttle (w.sources t).throttle

theorem call_moved (call : Outside ν × Call ν) (t : String) : Moved m call.2.ticks t (m.step call) := by
  obtain ⟨outside, call⟩ := call
  have still : ∀ (w : MediaService ν) track event, (∀ now, event ≠ .advance now) →
      (∀ viewer, event = .add viewer → (w.sources track).retryable = true) →
      Moved w call.ticks t ((port outside track).step event w) := by
    intro w track event standing asked
    apply Throttle.moves_ticking (event_moves outside event asked t)
    rintro ⟨now, advance⟩
    exact absurd advance (standing now)
  unfold MediaService.step
  cases call with
  | attach track viewer =>
    apply after_of_wp (P := Moved m _ t)
    apply wp_mono (attach_spec m outside track viewer)
    · rintro _ _ ⟨rfl, -, retryable⟩
      exact still m track (.add viewer) (fun _ h => by cases h) fun _ _ => retryable
    · rintro _ _ rfl
      exact .refl
  | detach track viewer =>
    show Moved m _ t ((detach track viewer).after m)
    rw [detach_after]
    split
    · exact still m track (.remove viewer) (fun _ h => by cases h) fun _ h => by cases h
    · exact .refl
  | requestKeyframe track =>
    apply after_of_wp (P := Moved m _ t)
    simp only [Call.code, MediaService.requestKeyframe, source, wp_bind, wp_get, wp_throwIf, wp_pure, wp_modify]
    exact ⟨fun _ => .refl, fun _ => still m track .requestKeyframe (fun _ h => by cases h) fun _ h => by cases h⟩
  | close =>
    show Moved m _ t (m.tracks.foldl (fun m track => (port outside track).close m) { m with closed := true })
    have shut : Moved m (Call.ticks (.close : Call ν)) t { m with closed := true } := ReflTransGen.refl
    refine foldl_inv (fun w track (moved : Moved m _ t w) => ?_) shut _
    exact moved.trans (still w track .close (fun _ h => by cases h) fun _ h => by cases h)
  | event track e =>
    apply after_of_wp (P := Moved m _ t)
    simp only [Call.code, wp_when, wp_modify]
    refine ⟨fun internal => ?_, fun _ => .refl⟩
    have asked : ∀ viewer, e = .add viewer → (m.sources track).retryable = true := by
      rintro viewer rfl
      cases internal
    apply Throttle.moves_ticking (event_moves outside e asked t)
    rintro ⟨now, rfl⟩
    exact ⟨track, now, rfl⟩

/-- In a call of its own the clock does nothing else. -/
theorem ticks_created {call : Outside ν × Call ν} (ticks : call.2.ticks) (t : String) :
    ((m.step call).sources t).created = (m.sources t).created ∧ ((m.step call).sources t).failedAt = (m.sources t).failedAt ∧
      ((m.step call).sources t).phase = (m.sources t).phase := by
  obtain ⟨outside, _⟩ := call
  obtain ⟨track, now, rfl⟩ := ticks
  show (if t = track then _ else m.sources t).created = _ ∧ (if t = track then _ else m.sources t).failedAt = _ ∧
    (if t = track then _ else m.sources t).phase = _
  split
  · next here =>
    rw [here]
    exact ⟨rfl, rfl, rfl⟩
  · exact ⟨rfl, rfl, rfl⟩

theorem call_turned (call : Outside ν × Call ν) (t : String) (standing : ¬call.2.ticks) (sound : (m.sources t).throttle.Sound) :
    Throttle.Turned (m.sources t).throttle ((m.step call).sources t).throttle :=
  Throttle.moves_turned (Throttle.moves_ticking (call_moved call t) standing) sound

theorem run_moved (m : MediaService ν) (calls : List (Outside ν × Call ν)) (t : String) : Moved m True t (m.run calls) := by
  refine foldl_inv (fun w call (moved : Moved m True t w) => ?_) .refl calls
  exact moved.trans (Throttle.moves_ticking (call_moved call t) fun _ => trivial)

/-- The source of a track has failed in a call: it was going on before or has been
started in it, and ended up failed. -/
def Fails (s s' : SourceSystem ν) : Prop := s'.phase = .failed ∧ (s.phase ≠ .failed ∨ s.created < s'.created)

/-- The encoders that a call creates for a source come before its failure in that call. -/
def CreatesFirst (s s' : SourceSystem ν) : Prop :=
  ∃ w, ReflTransGen (Throttle.Move False) s.throttle w ∧ w.failedAt = s.failedAt ∧
    ReflTransGen (Throttle.Move False) w s'.throttle ∧ w.created = s'.created

/-- In every run, whatever the encoders do: if a source fails in a call at clock value
`t`, the call itself creates no encoder for it after that, and no later call does until
the clock has moved on by `retryMinIntervalMs` in doubles, which is short of that by
half a unit in the last place at most. -/
theorem retry_throttled (tracks : List String) (nodup : tracks.Nodup) (maxPipelines : Nat) (options : String → VideoSourceOptions)
    (calls : List (Outside ν × Call ν)) (call : Outside ν × Call ν) (track : String) :
    let m := (create tracks nodup maxPipelines options).run calls
    let m' := m.step call
    let interval := (options track).settings.retryMinIntervalMs
    (Fails (m.sources track) (m'.sources track) → (m'.sources track).failedAt = some (m'.sources track).now ∧
      CreatesFirst (m.sources track) (m'.sources track)) ∧
    ∀ t, (m'.sources track).failedAt = some t → ∀ later again,
      ((m'.run later).sources track).created < (((m'.run later).step again).sources track).created →
      ((m'.run later).sources track).elapsed (some t) interval = true ∧
        (interval ≤ 2 ^ 53 → interval ≤ (((m'.run later).sources track).now - t) * (1 + 2 ^ (-53 : ℤ))) := by
  intro m m' interval
  have start : ((create tracks nodup maxPipelines options : MediaService ν).sources track).throttle.Sound :=
    ⟨fun _ failed => (by cases failed), .inl (.inl rfl)⟩
  have moved := run_moved (create tracks nodup maxPipelines options) calls track
  have sound : (m.sources track).throttle.Sound := Throttle.moves_sound moved start
  have sound' : (m'.sources track).throttle.Sound := Throttle.moves_sound (call_moved call track) sound
  have same : (m'.sources track).throttle.retryMinIntervalMs = interval :=
    (Throttle.moves_later (call_moved call track) sound).interval.trans (Throttle.moves_later moved start).interval
  constructor
  · rintro ⟨failed, fresh⟩
    by_cases ticks : call.2.ticks
    · obtain ⟨created, -, phase⟩ := ticks_created (m := m) ticks track
      rcases fresh with going | more
      · exact absurd (phase.symm.trans failed) going
      · exact absurd created.symm (Nat.ne_of_lt more)
    -- No time passes within a call, so the failure has the clock it ends with.
    · have turned := call_turned call track ticks sound
      refine ⟨?_, turned.order⟩
      rcases turned.failed failed with at_ | ⟨before, same⟩
      · exact at_.trans (congrArg some turned.now.symm)
      · rcases fresh with going | more
        · exact absurd before going
        · exact absurd same.symm (Nat.ne_of_lt more)
  · intro t failed later again more
    have past := Throttle.moves_later (run_moved m' later track) sound'
    have soundLater : ((m'.run later).sources track).throttle.Sound := Throttle.moves_sound (run_moved m' later track) sound'
    by_cases ticks : again.2.ticks
    · rw [(ticks_created ticks track).1] at more
      exact absurd more (Nat.lt_irrefl _)
    -- The start was allowed by the last failure, by the difference that the code rounds.
    · have retryable := (call_turned again track ticks soundLater).created more
      obtain ⟨t', failed', le⟩ := past.failed t failed
      have window := retryable t' failed'
      rw [past.interval, same] at window
      have pos : 0 < interval := (options track).settings.pos.2.1
      -- The last failure is not before `t`.
      have passed : binary64.atLeast (((m'.run later).sources track).now - t) interval = true :=
        BinaryFormat.atLeast_mono (Nat.cast_pos.2 pos) (sub_le_sub_left le _) window
      refine ⟨passed, fun safe => ?_⟩
      have finite : (interval : ℚ) ≤ 2 ^ (binary64.emax + 1) := by
        have exponent : (53 : ℤ) ≤ binary64.emax + 1 := by decide
        refine le_trans ?_ (zpow_le_zpow_right₀ one_le_two exponent)
        exact_mod_cast safe
      have missed := BinaryFormat.le_of_atLeast (by decide) (Nat.one_le_cast.2 pos) finite passed
      have precision : (-binary64.precision : ℤ) = -53 := rfl
      rwa [precision] at missed

/-- A camera whose encoder fails from inside `start`. -/
def unplugged : Outside Nat × Call Nat := (⟨fun _ _ => [], [.failed], []⟩, .attach "front" 0)

/-- The clock advances, and the encoder that failed is stopped. -/
def recovery (now : ℚ) : List (Outside Nat × Call Nat) :=
  [.event "front" (.advance now), .event "front" (.stopped 0)].map (⟨fun _ _ => [], [], []⟩, ·)

theorem retry_throttled_unplugged :
    ((twoCameras.step unplugged).sources "front").failedAt = some 0 ∧
      (((twoCameras.step unplugged).step unplugged).sources "front").created = 1 ∧
      50 ≤ (((twoCameras.step unplugged).run (recovery 50)).sources "front").now * (1 + 2 ^ (-53 : ℤ)) := by
  obtain ⟨fails, throttled⟩ := retry_throttled (ν := Nat) ["front", "rear"] (by decide) 1
    (fun _ => ⟨⟨100, 50, 20, 10, by decide⟩, 25, by decide⟩) [] unplugged "front"
  obtain ⟨failed, -⟩ := fails ⟨by decide +kernel, .inl (by decide +kernel)⟩
  refine ⟨failed.trans (by decide +kernel), by decide +kernel, ?_⟩
  obtain ⟨-, window⟩ := throttled 0 (by decide +kernel) (recovery 50) unplugged (by decide +kernel)
  have window := window (by decide)
  rw [sub_zero] at window
  exact le_trans (by norm_num) window

/-- The double 3.299999999999997. -/
def early : ℚ := 232216855786291 / 70368744177664

/-- The double 253.29999999999998, less than 250 after that and the same after rounding. -/
def late : ℚ := 8912201450101145 / 35184372088832

def oneCamera : MediaService Nat := create ["front"] (by decide) 1 fun _ => ⟨⟨100, 250, 20, 10, by decide⟩, 25, Nat.succ_pos 24⟩

/-- The encoder fails at 3.299999999999997, and one is created at 253.29999999999998. -/
theorem retry_early :
    let idle := oneCamera.step (⟨fun _ _ => [], [], []⟩, .event "front" (.advance early))
    let m := idle.step unplugged
    (idle.sources "front").phase = .idle ∧ (m.sources "front").phase = .failed ∧ (m.sources "front").failedAt = some early ∧
      ((m.run (recovery late)).sources "front").created < (((m.run (recovery late)).step unplugged).sources "front").created ∧
      ((m.run (recovery late)).sources "front").now < early + 250 := by
  decide +kernel

end MediaService

end RosBridge.Media
