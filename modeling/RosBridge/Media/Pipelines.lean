import RosBridge.Media.Books
import RosBridge.Media.Preserved
import RosBridge.Media.Service
/-!
# The bound on pipelines

Only `attach` turns a source running (`Books.Turn.quieter`), and it counts first. A call
of the service is a step of one source on its own (`port_simulates`), while viewers may
leave the others.
-/

namespace RosBridge.Media

open Relation Lib Prog Books

variable {ν : Type}

/-! ## One source -/

namespace Books

/-- A source that has an encoder is starting or active. -/
def Claimed (b : Books ν) : Prop := b.source ≠ none → b.phase = .starting ∨ b.phase = .active

def Running (b : Books ν) : Prop := b.release ≠ none ∨ b.phase = .starting ∨ b.phase = .active

/-- `b'` is as it has to be, and running only if `b` was. -/
structure Quieter (b b' : Books ν) : Prop where
  claimed : b'.Claimed
  running : b'.Running → b.Running

variable {b b' : Books ν}

theorem Quieter.refl (h : b.Claimed) : Quieter b b := ⟨h, id⟩

theorem Quieter.trans {b'' : Books ν} (h : Quieter b b') (h' : Quieter b' b'') : Quieter b b'' :=
  ⟨h'.claimed, fun running => h.running (h'.running running)⟩

/-- An encoder that is being stopped was there before. -/
theorem Claimed.finish (h : b.Claimed) {phase : VideoState} (terminal : phase = .idle ∨ phase = .failed) :
    Quieter b (b.finish phase) := by
  constructor
  · exact fun source => absurd rfl source
  · rintro (release | phase)
    · cases source : b.source with
      | none => exact .inl (by simpa [Books.finish, source] using release)
      | some encoder => exact .inr (h (by simp [source]))
    · rcases terminal with rfl | rfl <;> rcases phase with phase | phase <;> cases phase

theorem Follow.quieter (f : Follow b b') (h : b.Claimed) : Quieter b b' := by
  cases f with
  | leave viewers sub => exact ⟨h, id⟩
  | activate encoder source phase => exact ⟨fun _ => .inr rfl, fun _ => .inr (.inl phase)⟩
  | finish phase terminal => exact h.finish terminal

theorem follows_quieter (f : ReflTransGen Follow b b') (h : b.Claimed) : Quieter b b' := by
  induction f with
  | refl => exact .refl h
  | tail _ f ih => exact ih.trans (f.quieter ih.claimed)

theorem Rest.quieter (r : Rest b b') (h : b.Claimed) : Quieter b b' := by
  cases r with
  | quit unwanted => exact .refl h
  | create phase wanted => exact ⟨fun _ => .inl phase, id⟩

theorem Begin.claimed (r : Begin b b') : b'.Claimed := by
  cases r with
  | wait viewers sub encoder release => exact fun _ => .inl rfl
  | rest viewers sub release _ rest =>
    have claimed : Claimed { b with phase := .starting, viewers := viewers } := fun _ => .inl rfl
    exact (rest.quieter claimed).claimed

theorem Turn.claimed {event : Event ν} (t : Turn b event b') (h : b.Claimed) : b'.Claimed := by
  cases t with
  | quiet => exact h
  | join viewer viewers new phase => exact fun _ => phase
  | start viewer viewers _ phase start => exact start.claimed
  | stopped encoder waited => exact h
  | resume _ ready rest =>
    have same : Claimed { b with ready := b.ready - 1 } := h
    exact (rest.quieter same).claimed
  | close => exact fun source => absurd rfl source
  | closing call on frame => exact h
  | closed call on frame ended => exact h

/-- No event turns a source running, except that a viewer is added. -/
theorem Turn.quieter {event : Event ν} (t : Turn b event b') (h : b.Claimed) (other : ∀ viewer, event ≠ .add viewer) :
    Quieter b b' := by
  refine ⟨t.claimed h, ?_⟩
  cases t with
  | quiet => exact id
  | join viewer => exact absurd rfl (other viewer)
  | start viewer => exact absurd rfl (other viewer)
  | stopped encoder waited =>
    rintro (release | phase)
    · exact absurd rfl release
    · exact .inr phase
  | resume _ ready rest =>
    have same : Claimed { b with ready := b.ready - 1 } := h
    exact (rest.quieter same).running
  | close =>
    have left : ({ b with viewers := [] } : Books ν).Claimed := h
    exact (left.finish (.inl rfl)).running
  | closing call on frame => exact id
  | closed call on frame ended => exact id

end Books

theorem running_iff (s : SourceSystem ν) : s.running = true ↔ s.books.Running := by
  cases phase : s.phase <;> cases release : s.release <;> simp [SourceSystem.running, Books.Running, SourceSystem.books, phase, release]

theorem Left.quieter {s s' : SourceSystem ν} (h : Left s s') (claimed : s.books.Claimed) : Quieter s.books s'.books :=
  follows_quieter h.follow claimed

variable [DecidableEq ν]

theorem step_claimed {s : SourceSystem ν} (i : Input ν) (h : s.books.Claimed) : (s.step i).books.Claimed := by
  obtain ⟨mid, turn, follows⟩ := books_step s i
  exact (follows_quieter follows (turn.claimed h)).claimed

theorem step_quieter {s : SourceSystem ν} (i : Input ν) (h : s.books.Claimed) (other : ∀ viewer, i.event ≠ .add viewer) :
    Quieter s.books (s.step i).books := by
  obtain ⟨mid, turn, follows⟩ := books_step s i
  exact (turn.quieter h other).trans (follows_quieter follows (turn.claimed h))

/-! ## Sources in the service -/

namespace MediaService

variable (m : MediaService ν) (outside : Outside ν) (track : String)

theorem detach_after (viewer : ν) : (detach track viewer).after m =
    if track ∈ m.tracks ∧ m.closed = false then m.setSource track ((m.sources track).remove viewer) else m := by
  apply after_of_wp (P := fun m' => m' = if track ∈ m.tracks ∧ m.closed = false then _ else m)
  simp only [detach, source, wp_bind, wp_get, wp_throwIf, wp_pure, wp_modify]
  constructor
  · intro unknown
    rw [if_neg (by simpa [imp_iff_not_or] using unknown)]
  · intro known
    rw [if_pos (by simpa using known)]

/-- What a call of the service is to one source. -/
def alone (event : Event ν) : Input ν where
  event := event
  told viewer state :=
    if track ∈ m.tracks ∧ m.closed = false then ((outside.told viewer state).filter (·.1 = track)).map Prod.snd else []
  startup := outside.startup
  keyframe := outside.keyframe

/-- From `m` to `w` one source has got to `s`, and viewers have left others. -/
structure Beside (w : MediaService ν) (s : SourceSystem ν) : Prop where
  source : w.sources track = s
  tracks : w.tracks = m.tracks
  closed : w.closed = m.closed
  maxPipelines : w.maxPipelines = m.maxPipelines
  others : ∀ t, t ≠ track → Left (m.sources t) (w.sources t)

variable {m track}

omit [DecidableEq ν] in
theorem Beside.put {w : MediaService ν} {s : SourceSystem ν} (h : Beside m track w s) (s' : SourceSystem ν) :
    Beside m track (w.setSource track s') s' := by
  constructor
  · exact if_pos rfl
  · exact h.tracks
  · exact h.closed
  · exact h.maxPipelines
  · intro t apart
    show Left _ (if t = track then s' else w.sources t)
    rw [if_neg apart]
    exact h.others t apart

theorem Beside.detach {w : MediaService ν} {s : SourceSystem ν} (h : Beside m track w s) (gone : String × ν) :
    Beside m track ((MediaService.detach gone.1 gone.2).after w)
      (if (track ∈ m.tracks ∧ m.closed = false) ∧ gone.1 = track then s.remove gone.2 else s) := by
  rw [detach_after, h.tracks, h.closed]
  by_cases known : gone.1 ∈ m.tracks ∧ m.closed = false
  · rw [if_pos known]
    by_cases same : gone.1 = track
    · rw [same] at known ⊢
      rw [if_pos ⟨known, rfl⟩, h.source]
      exact h.put _
    · rw [if_neg fun here => same here.2]
      constructor
      · show (if track = gone.1 then _ else w.sources track) = s
        rw [if_neg fun here => same here.symm, h.source]
      · exact h.tracks
      · exact h.closed
      · exact h.maxPipelines
      · intro t apart
        show Left _ (if t = gone.1 then _ else w.sources t)
        split
        · next here =>
          rw [← here]
          exact (h.others t apart).trans (left_remove _ _)
        · exact h.others t apart
  · have away : ¬((track ∈ m.tracks ∧ m.closed = false) ∧ gone.1 = track) := by
      intro here
      rw [here.2] at known
      exact known here.1
    rw [if_neg known, if_neg away]
    exact h

/-- Inside the service a source does what it does alone. -/
theorem port_simulates (event : Event ν) :
    (port outside track).Simulates (alone m outside track event).port (Beside m track) where
  view _ _ h := h.source
  put _ _ s h := h.put s
  told viewer state w s h := by
    show Beside m track ((outside.told viewer state).foldl _ w)
      ((if track ∈ m.tracks ∧ m.closed = false then _ else []).foldl SourceSystem.remove s)
    generalize outside.told viewer state = gone
    induction gone generalizing w s with
    | nil => split <;> exact h
    | cons first gone ih =>
      have next := ih _ _ (h.detach first)
      rw [List.foldl_cons]
      by_cases known : track ∈ m.tracks ∧ m.closed = false
      · by_cases same : first.1 = track
        · simpa [known, same] using next
        · simpa [known, same] using next
      · simpa [known] using next
  startup := rfl
  keyframe := rfl

/-- An event reaches one source of the service. -/
theorem step_beside (event : Event ν) :
    Beside m track ((port outside track).step event m) ((m.sources track).step (alone m outside track event)) := by
  have here : Beside m track m (m.sources track) := ⟨rfl, rfl, rfl, rfl, fun t _ => .refl _⟩
  exact (port_simulates outside event).step event here

/-! ## The whole service -/

/-- Every source is as it has to be, and not too many are running. -/
structure Sound (m : MediaService ν) : Prop where
  claimed : ∀ t, (m.sources t).books.Claimed
  bounded : m.running ≤ m.maxPipelines

/-- Only sources that were running are. -/
structure Quieter (m m' : MediaService ν) : Prop where
  tracks : m'.tracks = m.tracks
  maxPipelines : m'.maxPipelines = m.maxPipelines
  sources : ∀ t, Books.Quieter (m.sources t).books (m'.sources t).books

variable {m' : MediaService ν}

omit [DecidableEq ν] in
theorem Quieter.running (h : Quieter m m') : m'.running ≤ m.running := by
  unfold MediaService.running
  rw [h.tracks]
  apply List.countP_mono_left
  intro t _ running
  rw [running_iff] at running ⊢
  exact (h.sources t).running running

omit [DecidableEq ν] in
theorem Quieter.sound (h : Quieter m m') (sound : Sound m) : Sound m' := by
  refine ⟨fun t => (h.sources t).claimed, ?_⟩
  rw [h.maxPipelines]
  exact Nat.le_trans h.running sound.bounded

omit [DecidableEq ν] in
theorem Beside.quieter {s : SourceSystem ν} (h : Beside m track m' s) (claimed : ∀ t, (m.sources t).books.Claimed)
    (here : Books.Quieter (m.sources track).books s.books) : Quieter m m' := by
  refine ⟨h.tracks, h.maxPipelines, fun t => ?_⟩
  by_cases same : t = track
  · rw [same, h.source]
    exact here
  · exact (h.others t same).quieter (claimed t)

/-- What reaches a source, other than a viewer, turns nothing running. -/
theorem event_quieter (event : Event ν) (other : ∀ viewer, event ≠ .add viewer) (claimed : ∀ t, (m.sources t).books.Claimed) :
    Quieter m ((port outside track).step event m) :=
  (step_beside outside event).quieter claimed (step_quieter _ (claimed track) other)

/-- One more track at most satisfies `p'`. -/
theorem countP_le_succ {p p' : String → Bool} {tracks : List String} (nodup : tracks.Nodup) {track : String}
    (others : ∀ t, t ≠ track → p' t = true → p t = true) : tracks.countP p' ≤ tracks.countP p + 1 := by
  induction tracks with
  | nil => exact Nat.zero_le _
  | cons t tracks ih =>
    obtain ⟨fresh, nodup⟩ := List.nodup_cons.1 nodup
    rw [List.countP_cons, List.countP_cons]
    by_cases same : t = track
    · have rest : tracks.countP p' ≤ tracks.countP p := by
        apply List.countP_mono_left
        intro t' mem
        apply others t'
        rintro rfl
        exact fresh (same ▸ mem)
      split <;> split <;> omega
    · have first := others t same
      have rest := ih nodup
      split
      · next here =>
        rw [if_pos (first here)]
        omega
      · omega

variable (m track) in
/-- An attachment goes on only if the source is running or another may, and only if the
source may start. -/
theorem attach_spec (viewer : ν) : wp (attach outside track viewer)
    (fun _ m' => m' = (port outside track).step (.add viewer) m ∧
      ((m.sources track).running = false → m.running < m.maxPipelines) ∧ (m.sources track).retryable = true)
    (fun _ m' => m' = m) m := by
  simp only [attach, source, wp_bind, wp_get, wp_throwIf, wp_pure, wp_modify]
  refine ⟨fun _ => trivial, fun _ => ⟨fun _ => trivial, fun free => ⟨fun _ => trivial, fun soon => ⟨rfl, fun idle => ?_, ?_⟩⟩⟩⟩
  · simpa [idle] using free
  · simpa using soon

theorem attach_sound (viewer : ν) (h : Sound m)
    (free : (m.sources track).running = false → m.running < m.maxPipelines) :
    Sound ((port outside track).step (.add viewer) m) := by
  have beside : Beside m track ((port outside track).step (.add viewer) m) _ := step_beside outside (.add viewer)
  have others : ∀ t, t ≠ track →
      Books.Quieter (m.sources t).books (((port outside track).step (.add viewer) m).sources t).books :=
    fun t apart => (beside.others t apart).quieter (h.claimed t)
  constructor
  · intro t
    by_cases same : t = track
    · rw [same, beside.source]
      exact step_claimed _ (h.claimed track)
    · exact (others t same).claimed
  · have still : ∀ t, t ≠ track →
        (((port outside track).step (.add viewer) m).sources t).running = true → (m.sources t).running = true := by
      intro t apart running
      rw [running_iff] at running ⊢
      exact (others t apart).running running
    rw [beside.maxPipelines]
    cases before : (m.sources track).running with
    | false =>
      have more := countP_le_succ m.nodup still
      rw [MediaService.running, beside.tracks]
      exact Nat.le_trans more (free before)
    | true =>
      apply Nat.le_trans _ h.bounded
      unfold MediaService.running
      rw [beside.tracks]
      apply List.countP_mono_left
      intro t _ running
      by_cases same : t = track
      · rw [same]
        exact before
      · exact still t same running

/-- Closing ends every source. -/
theorem close_sound (h : Sound m) : Sound ((MediaService.close outside).after m) := by
  show Sound (m.tracks.foldl (fun m track => (port outside track).close m) { m with closed := true })
  have shut : Sound { m with closed := true } := ⟨h.claimed, h.bounded⟩
  refine foldl_inv (fun m track (h : Sound m) => ?_) shut _
  have quieter : Quieter m ((port outside track).step .close m) := event_quieter outside .close (fun _ h => by cases h) h.claimed
  exact quieter.sound h

theorem step_sound (call : Outside ν × Call ν) (h : Sound m) : Sound (m.step call) := by
  obtain ⟨outside, call⟩ := call
  have event : ∀ track e, (∀ viewer, e ≠ .add viewer) → Sound ((port outside track).step e m) :=
    fun track e other => (event_quieter outside e other h.claimed).sound h
  unfold MediaService.step
  cases call with
  | attach track viewer =>
    apply after_of_wp
    apply wp_mono (attach_spec m outside track viewer)
    · rintro _ _ ⟨rfl, free, -⟩
      exact attach_sound outside viewer h free
    · rintro _ _ rfl
      exact h
  | detach track viewer =>
    show Sound ((detach track viewer).after m)
    rw [detach_after]
    split
    · exact event track (.remove viewer) fun _ same => by cases same
    · exact h
  | requestKeyframe track =>
    apply after_of_wp
    simp only [Call.code, MediaService.requestKeyframe, source, wp_bind, wp_get, wp_throwIf, wp_pure, wp_modify]
    exact ⟨fun _ => h, fun _ => event track .requestKeyframe fun _ same => by cases same⟩
  | close => exact close_sound outside h
  | event track e =>
    apply after_of_wp
    simp only [Call.code, wp_when, wp_modify]
    refine ⟨fun internal => event track e ?_, fun _ => h⟩
    rintro viewer rfl
    cases internal

omit [DecidableEq ν] in
theorem create_sound (tracks : List String) (nodup : tracks.Nodup) (maxPipelines : Nat) (options : String → VideoSourceOptions) :
    Sound (create tracks nodup maxPipelines options : MediaService ν) := by
  constructor
  · exact fun t source => absurd rfl source
  · have idle : (create tracks nodup maxPipelines options : MediaService ν).running = 0 :=
      List.countP_eq_zero.2 fun _ _ running => Bool.noConfusion running
    rw [idle]
    exact Nat.zero_le _

/-- What a service keeps to. -/
structure Capped (m : MediaService ν) : Prop where
  bounded : m.running ≤ m.maxPipelines
  held : ∀ t, (m.sources t).source ≠ none ∨ (m.sources t).release ≠ none → (m.sources t).running = true
  /-- A refused viewer leaves the service as it is. -/
  refused : ∀ outside track viewer error m', (attach outside track viewer).exec m = (.error error, m') → m' = m

theorem Sound.capped (h : Sound m) : Capped m := by
  constructor
  · exact h.bounded
  · intro t held
    rw [running_iff]
    rcases held with source | release
    · exact .inr (h.claimed t source)
    · exact .inl release
  · intro outside track viewer error m' refused
    have spec := attach_spec m outside track viewer
    rw [wp, refused] at spec
    exact spec

/-- Any number of tracks, and anything that reaches them, in any order. -/
theorem run_capped (tracks : List String) (nodup : tracks.Nodup) (maxPipelines : Nat) (options : String → VideoSourceOptions)
    (calls : List (Outside ν × Call ν)) : Capped ((create tracks nodup maxPipelines options).run calls) := by
  apply Sound.capped
  exact foldl_inv (fun m call (h : Sound m) => step_sound call h) (create_sound tracks nodup maxPipelines options) calls

/-- Two cameras, and an encoder for one. -/
def twoCameras : MediaService Nat :=
  create ["front", "rear"] (by decide) 1 fun _ => ⟨⟨100, 50, 20, 10, by decide⟩, 25, by decide⟩

/-- The second camera is refused until the first is stopped, and gets the encoder then. -/
def twoCalls : List (Outside Nat × Call Nat) :=
  [.attach "front" 0, .attach "rear" 1, .detach "front" 0, .attach "rear" 1, .event "front" (.advance 20), .event "front" (.fire 1),
    .attach "rear" 1, .event "front" (.stopped 0), .attach "rear" 1].map (⟨fun _ _ => [], [], []⟩, ·)

theorem run_capped_two : (twoCameras.run twoCalls).running = 1 ∧ ((twoCameras.run twoCalls).sources "rear").viewers = [1] ∧
    Capped (twoCameras.run twoCalls) := by
  refine ⟨by decide +kernel, by decide +kernel, ?_⟩
  exact run_capped ["front", "rear"] (by decide) 1 _ twoCalls

end MediaService

end RosBridge.Media
