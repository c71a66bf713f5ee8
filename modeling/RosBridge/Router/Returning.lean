import RosBridge.Router.Inputs
import RosBridge.Router.Rechecking
import RosBridge.Router.Releasing
/-!
# Entry points return

`receive`, the ROS sample callback and a viewer's state callback never throw. `flush`
throws exactly when rechecking the watched tracks throws or leaves the router closed,
since the control stream is gone then (`flush_returns_iff`). Whether it does is up to the
hook that is asked for each of them, until it refuses one (`Agrees`).
-/

namespace RosBridge.Router

open Lib Prog Session Config

variable {η α : Type} {allow : Allow} {env : Env η} {k : Nat} {w w' : World η}

/-- Re-evaluate authorization for every watched track; `VideoRouter.revalidate`. -/
def revalidate (env : Env η) (k : Nat) : Code η Unit := do
  revalidateWith env (flush env k) k (((← router k).video.map (·.bound.keys)).getD [])

/-- `m` returns, and router `k` is closed if it can queue no control envelopes. -/
def Returns (m : Code η Unit) (k : Nat) (w : World η) : Prop :=
  wp m (fun _ w' => (w'.routers k).Settled) (fun _ _ => False) w

/-- Rechecking the watched tracks in a flush neither throws nor closes the router. -/
def Revalidates (env : Env η) (k : Nat) (w : World η) : Prop :=
  wp (revalidate env k) (fun _ w' => (w'.routers k).closed = false) (fun _ _ => False)
    { w with history := w.history ++ [.flushing k] }

/-! ## Closed routers -/

/-- A closed router has no streams. -/
def Spent (w : World η) : Prop := ∀ k, (w.routers k).closed = true → (w.routers k).queue.streams = .empty

theorem Control.spent {r r' : SessionRouter η} {bytes : Bytes} (c : Control r bytes r') (h : r.queue.streams = .empty) :
    r'.queue.streams = .empty := by
  cases c with
  | queued s q found | jammed s q found => simp [h] at found
  | dead => exact h

theorem Sent.spent {q q' : DeliveryQueue Bytes} {stream : String} {next : Bytes} {accepted : Bool}
    (s : Sent q stream next accepted q') : q.streams ≠ .empty := by
  intro h
  cases s with
  | refused s rest found | accepted s rest _ found => simp [h] at found

theorem Turn.spent {r : SessionRouter η} (t : Turn allow w k r) (whole : ¬(allow.torn ∨ w.media.closed = true))
    (h : (w.routers k).closed = true → (w.routers k).queue.streams = .empty) (closed : r.closed = true) :
    r.queue.streams = .empty := by
  cases t with
  | move _ move =>
    have h := h (move.same.closed.symm.trans closed)
    cases move with
    | control bytes _ control => exact control.spent h
    | sampled stream sub native data ok q found ready fits encoded stored options =>
      cases stored with
      | stored s _ here | dropped s _ here => simp [h] at here
    | _ => exact h
  | subscribed entry requestId _ isOpen found free room announced =>
    rw [announced.same.1.closed] at closed
    exact absurd (closed.symm.trans isOpen) (by simp)
  | removed stream sub q found options streams =>
    rw [SessionRouter.unsubscribe, streams, h closed]
    rfl
  | spoiled stream sub native q found ready fits options streams =>
    rw [SessionRouter.unsubscribe, streams, h closed]
    rfl
  -- Nothing is handed over from a queue without streams.
  | handedControl next accepted q sent => exact absurd (h closed) sent.spent
  | handedData stream sub next accepted q found isOpen idle sent => exact absurd (h closed) sent.spent
  | finished => rfl
  | torn v f marks isOpen video torn => exact absurd torn whole
  | _ => exact h closed

theorem Step.spent (s : Step allow w w') (whole : ¬(allow.torn ∨ w.media.closed = true)) (h : Spent w) : Spent w' := by
  intro k closed
  rcases s.turn k with same | turn | born
  · rw [same] at closed ⊢
    exact h k closed
  · exact turn.spent whole (h k) closed
  · rw [born.fresh.isOpen] at closed
    cases closed

/-- A service that was closed stays closed. -/
theorem Step.media_closed (s : Step allow w w') (closed : w.media.closed = true) : w'.media.closed = true := by
  cases s with
  | mediaClosed => rfl
  | _ => exact closed

theorem Goes.spent (g : Goes allow w w') (whole : ¬(allow.torn ∨ w'.media.closed = true)) (h : Spent w) : Spent w' := by
  induction g with
  | refl => exact h
  | tail _ s ih =>
    have before : ¬(allow.torn ∨ _) := fun torn => whole (torn.imp_right s.media_closed)
    exact s.spent before (ih before)

/-! ## Draining -/

/-- A router without a control stream cannot be drained. -/
theorem drain_throws (channel : Channel) (w : World η) (gone : (w.routers k).queue.streams = .empty) :
    wp (drain env k "control" channel) (fun _ _ => False) (fun _ _ => True) w := by
  rw [drain, wp_bind, wp_router]
  dsimp only
  rw [drainLoop, wp_bind, wp_onQueue]
  refine wp_mono (DeliveryQueue.peek_spec "control" (w.routers k).queue) ?_ fun _ _ _ => trivial
  rintro next _ ⟨-, s, found, -⟩
  simp [gone] at found

/-! ## Flushing -/

theorem not_breaks (isOpen : w.media.closed = false) : ¬Breaks .steady w := by
  rintro (h | h | h)
  · exact h
  · exact h
  · simp [isOpen] at h

theorem Ends.returns {m : Code η Unit} (h : Ends .steady m) (sane : w.Sane) (isOpen : w.media.closed = false)
    (settled : (w.routers k).Settled) : Returns m k w :=
  wp_mono (h w sane) (fun _ _ trip => trip.settled k (by simp) settled) fun _ _ h => not_breaks isOpen h.2

section Flushing

variable {again : Code η Unit} (permits : Permits .steady env) (roams : Roams .steady again)

include permits roams

theorem recheckWith_returns (stream name : String) (w : World η) (sane : w.Sane) (isOpen : w.media.closed = false) :
    wp (recheckWith env again k stream name) (fun _ _ => True) (fun _ _ => False) w := by
  rw [recheckWith, wp_tryCatch, wp_bind]
  refine wp_mono (entry_entered permits k name .subscribe w sane) (fun _ _ _ => trivial) fun _ w₁ hooked => ?_
  have sane₁ := hooked.trip.sane sane
  simp only [wp_bind, wp_note, wp_router, wp_when, wp_pure]
  have told : ∀ w₂ : World η, w₂.Sane → w₂.media.closed = false →
      wp (errorWith env again k none) (fun _ _ => True) (fun _ _ => False) w₂ :=
    fun w₂ sane isOpen => wp_mono (errorWith_ends permits roams k none w₂ sane) (fun _ _ _ => trivial)
      fun _ _ h => not_breaks isOpen h.2
  have open₁ : w₁.media.closed = false := hooked.trip.media.trans isOpen
  refine ⟨fun has => ?_, fun _ => told _ (sane₁.noted _) open₁⟩
  refine wp_mono (removeSubscription_spec permits k stream _ (sane₁.noted _).registered) ?_ ?_
  · intro _ w₂ removed
    have trip : Trip .steady none w₁ w₂ := removed.trip sane₁ (.inr rfl)
    exact told w₂ (trip.sane sane₁) (trip.media.trans open₁)
  · rintro _ _ (⟨-, stuck⟩ | ⟨-, absent⟩)
    · exact stuck
    · simp [Table.has, absent] at has

theorem flushStreamsWith_returns (subs : List (String × Subscription η)) (w : World η) (sane : w.Sane)
    (flushing : .flushing k ∈ w.history) (idle : (w.routers k).Idle "control")
    (here : ∀ p ∈ subs, (w.routers k).subscriptions.get? p.1 = some p.2) (isOpen : w.media.closed = false) :
    wp (flushStreamsWith env again k subs) (fun _ _ => True) (fun _ _ => False) w := by
  -- On the subscriptions that are left: they stay as long as each recheck says so.
  induction subs generalizing w with
  | nil => trivial
  | cons p rest ih =>
    obtain ⟨stream, sub⟩ := p
    have found := here _ List.mem_cons_self
    have walks := recheckWith_walks permits roams k stream sub.entry.binding.publicName w sane flushing
      ((sane.routers k).issued stream sub found) (sane.born_of_subscription found)
    rw [flushStreamsWith, wp_bind]
    refine wp_mono (wp_and walks (recheckWith_returns permits roams stream _ w sane isOpen)) ?_ fun _ _ h => h.2
    rintro ok w₁ ⟨⟨trip, checked⟩, -⟩
    rw [wp_when]
    refine ⟨fun hok => ?_, fun _ => trivial⟩
    obtain ⟨same, live, rechecked⟩ := checked hok
    have sane₁ := trip.sane sane
    have drains : Walks .steady none (drain env k stream (dataChannel sub.entry.binding.delivery)) w₁ _ :=
      drain_data k stream sub w₁ sane₁ (same ▸ found) (same ▸ live) (same ▸ idle) rechecked
    have streamLive : (w₁.routers k).Live stream := same ▸ (sane.routers k).live stream sub found
    rw [wp_bind]
    refine wp_mono (wp_and drains (drain_returns stream _ w₁ streamLive)) ?_ fun _ _ h => h.2
    rintro done w₂ ⟨⟨trip₂, drained⟩, -⟩
    rw [wp_when]
    refine ⟨fun hdone => ?_, fun _ => trivial⟩
    obtain ⟨idle₂, subs₂⟩ := drained hdone
    refine ih w₂ (trip₂.sane sane₁) ((trip.goes.history.trans trip₂.goes.history).subset flushing) idle₂ (fun p hp => ?_) ?_
    · rw [subs₂, same]
      exact here p (List.mem_cons_of_mem _ hp)
    · rw [trip₂.media, trip.media, isOpen]

end Flushing

/-- An open router's flush returns exactly when rechecking the watched tracks does and
leaves the router open. -/
theorem flush_returns_iff (permits : Permits .steady env) (sane : w.Sane) (isOpen : w.media.closed = false) (spent : Spent w)
    (open_ : (w.routers k).closed = false) (settled : (w.routers k).Settled) :
    Returns (flush env k) k w ↔ Revalidates env k w := by
  have roams := flush_walks permits k
  set w₁ : World η := { w with history := w.history ++ [.flushing k] } with hw₁
  have sane₁ : w₁.Sane := sane.noted _
  set tracks := ((w.routers k).video.map (·.bound.keys)).getD [] with htracks
  have walks := revalidateWith_walks permits roams k tracks w₁ sane₁
  have whole : Returns (flush env k) k w ↔ wp (do
      revalidateWith env (flush env k) k tracks
      when (← drain env k "control" .control) do
        flushStreamsWith env (flush env k) k (← router k).subscriptions.entries)
      (fun _ w' => (w'.routers k).Settled) (fun _ _ => False) w₁ := by
    rw [Returns, wp, flush_unfold k sane, ← wp, flushWith, wp_bind, wp_router, wp_when]
    refine ⟨fun h => ?_, fun h => ⟨fun _ => ?_, fun closed => by simp [open_] at closed⟩⟩
    · have h := h.1 (by simp [open_])
      rwa [wp_bind, wp_note] at h
    · rwa [wp_bind, wp_note]
  have recheck : Revalidates env k w ↔ wp (revalidateWith env (flush env k) k tracks) (fun _ w' => (w'.routers k).closed = false)
      (fun _ _ => False) w₁ := Iff.rfl
  -- What follows the recheck returns exactly when the router is still open.
  have rest : ∀ w₂, Trip .steady none w₁ w₂ → (wp (do
      when (← drain env k "control" .control) do
        flushStreamsWith env (flush env k) k (← router k).subscriptions.entries)
      (fun _ w' => (w'.routers k).Settled) (fun _ _ => False) w₂ ↔ (w₂.routers k).closed = false) := by
    intro w₂ trip
    have sane₂ := trip.sane sane₁
    have settled₂ := trip.settled k (by simp) settled
    rw [wp_bind]
    constructor
    · intro h
      by_contra closed
      have gone := trip.goes.spent (by simp [Allow.steady, trip.media, hw₁, isOpen]) spent k (by simpa using closed)
      rcases exec_cases (wp_and h (drain_throws .control w₂ gone)) with ⟨_, _, h, _⟩ | ⟨_, _, h, _⟩
      · exact h.2
      · exact h.1
    · intro live
      have control : (w₂.routers k).Live "control" := settled₂.resolve_left (by simp [live])
      have drains : Walks .steady none (drain env k "control" .control) w₂ _ := drain_control k w₂
      refine wp_mono (wp_and drains (drain_returns "control" .control w₂ control)) ?_ fun _ _ h => h.2
      rintro done w₃ ⟨⟨trip₃, idle⟩, -⟩
      have sane₃ := trip₃.sane sane₂
      have settled₃ := trip₃.settled k (by simp) settled₂
      rw [wp_when]
      refine ⟨fun hdone => ?_, fun _ => settled₃⟩
      rw [wp_bind, wp_router]
      have flushing : .flushing k ∈ w₃.history :=
        (trip.goes.history.trans trip₃.goes.history).subset (by simp [hw₁])
      have here : ∀ p ∈ (w₃.routers k).subscriptions.entries, (w₃.routers k).subscriptions.get? p.1 = some p.2 :=
        fun p hp => Table.mem_entries_iff.1 hp
      have walks := flushStreamsWith_walks permits roams k _ w₃ sane₃ flushing (idle hdone) here
      have open₃ : w₃.media.closed = false := by rw [trip₃.media, trip.media, isOpen]
      have returns := flushStreamsWith_returns permits roams _ w₃ sane₃ flushing (idle hdone) here open₃
      exact wp_mono (wp_and walks returns) (fun _ _ h => h.1.1.settled k (by simp) settled₃) fun _ _ h => h.2
  rw [whole, recheck, wp_bind]
  constructor
  · exact fun h => wp_mono (wp_and walks h) (fun _ w₂ h => (rest w₂ h.1.1).1 h.2) fun _ _ h => h.2
  · exact fun h => wp_mono (wp_and walks h) (fun _ w₂ h => (rest w₂ h.1.1).2 h.2) fun _ _ h => h.2

/-! ## Rechecking -/

/-- The hook, asked `n` times in turn, neither throws nor leaves router `k` closed, until it
refuses a track, which it does only if `refusable`. -/
def Agrees (env : Env η) (k : Nat) (refusable : Prop) : Nat → World η → Prop
  | 0, _ => True
  | n + 1, w => wp (hook env env.videoAuthorize)
      (fun ok w' => (w'.routers k).closed = false ∧ if ok then Agrees env k refusable n w' else refusable) (fun _ _ => False) w

/-- The hook agrees to the watched tracks, one after the other, once a flush has begun. -/
def Rechecks (env : Env η) (k : Nat) (refusable : Prop) (w : World η) : Prop :=
  Agrees env k refusable (w.routers k).watched { w with history := w.history ++ [.flushing k] }

/-- A track may be taken back: no hook closes the router, the one of the tracks does not throw,
and the control queue has room for a state for each watched track and an error for each
subscription. -/
def Refusable (env : Env η) (k : Nat) (w : World η) : Prop :=
  env.Gentle k ∧ ∃ size, (w.routers k).Room w.numbers size (w.routers k).owed

/-- Whether a track is watched. -/
def SessionRouter.watches (r : SessionRouter η) (track : String) : Bool :=
  (r.video.bind fun v => v.bound.get? track).any (·.watching)

theorem SessionRouter.watched_eq (r : SessionRouter η) :
    r.watched = ((r.video.map (·.bound.keys)).getD []).countP r.watches := by
  rw [SessionRouter.watched]
  cases video : r.video with
  | none => rfl
  | some v =>
    rw [Option.map_some, Option.map_some, Option.getD_some, Option.getD_some, Table.countP_values, Table.keys, List.countP_map]
    refine List.countP_congr fun e mem => ?_
    have found : v.bound.get? e.1 = some e.2 := Table.mem_entries_iff.1 mem
    simp [SessionRouter.watches, video, found]

/-- The recheck of a track that is not watched does nothing. -/
theorem revalidateTrackWith_unwatched {again : Code η Unit} {track : String} (unwatched : ¬(w.routers k).watches track = true) :
    wp (revalidateTrackWith env again k track) (fun _ w' => w' = w) (fun _ _ => False) w := by
  rw [revalidateTrackWith, wp_bind, wp_bindingOf]
  split
  · trivial
  · next entry bound =>
    rw [wp_when]
    exact ⟨fun watching => absurd (by simp [SessionRouter.watches, bound, watching]) unwatched, fun _ => rfl⟩

section Rechecking

variable (permits : Permits .steady env) (sane : w.Sane) (serving : w.media.closed = false) {w₁ : World η}

include permits sane

/-- As long as the hook agrees, the router stays as it is; when it refuses a track that may be
refused, there is room for the rest. -/
theorem revalidateWith_of_agrees (tracks : List String) (trip : Trip .steady none w w₁) (same : w₁.routers k = w.routers k)
    (isOpen : (w₁.routers k).closed = false) (serving : w.media.closed = false)
    (agrees : Agrees env k (Refusable env k w) (tracks.countP (w.routers k).watches) w₁) :
    wp (revalidateWith env (flush env k) k tracks) (fun _ w' => (w'.routers k).closed = false) (fun _ _ => False) w₁ := by
  induction tracks generalizing w₁ with
  | nil => exact isOpen
  | cons track tracks ih =>
    rw [revalidateWith, wp_bind]
    by_cases watches : (w.routers k).watches track = true
    swap
    · rw [List.countP_cons_of_neg watches] at agrees
      refine wp_mono (revalidateTrackWith_unwatched (same ▸ watches)) ?_ fun _ _ impossible => impossible
      rintro _ _ rfl
      exact ih trip same isOpen agrees
    rw [List.countP_cons_of_pos watches] at agrees
    obtain ⟨entry, bound, watching⟩ := (Option.any_eq_true _ _).1 watches
    have sane₁ := trip.sane sane
    rw [revalidateTrackWith, wp_bind, wp_bindingOf, same, bound, wp_when]
    refine ⟨fun _ => ?_, fun unwatched => absurd watching unwatched⟩
    rw [wp_bind]
    refine wp_mono (wp_and (hook_asked permits env.videoAuthorize permits.videoAuthorize w₁ sane₁) agrees) ?_ fun _ _ h => h.2
    rintro ok w₂ ⟨asked, isOpen₂, answer⟩
    have same₂ : w₂.routers k = w.routers k := (asked.router_eq isOpen₂).trans same
    have trip₂ := trip.trans asked.trip
    rw [wp_when]
    cases ok with
    | true => exact ⟨fun refused => by simp at refused, fun _ => ih trip₂ same₂ isOpen₂ answer⟩
    | false =>
      obtain ⟨gentle, size, room⟩ : Refusable env k w := answer
      have h₂ : Roomy w.numbers k size 0 w₂ :=
        ⟨trip₂.sane sane, trip₂.media.trans serving, trip₂.goes.numbers, isOpen₂, same₂ ▸ room⟩
      have again : ∀ w', Roomy w.numbers k size 0 w' → Stays w.numbers k size (flush env k) w' :=
        fun w' h => flush_roomy permits gentle h
      refine ⟨fun _ => ?_, fun agreed => by simp at agreed⟩
      rw [wp_bind]
      refine wp_mono (release_roomy permits (same₂ ▸ bound) watching h₂) (fun _ w₃ h₃ => ?_) fun _ _ impossible => impossible
      refine wp_mono (viewerStateWith_roomy again track h₃) (fun _ w₄ h₄ => ?_) fun _ _ impossible => impossible
      exact wp_mono (revalidateWith_roomy again permits gentle tracks h₄) (fun _ _ h => h.isOpen) fun _ _ impossible => impossible

/-- A recheck that leaves the router open was agreed to, up to the first refusal. -/
theorem agrees_of_revalidateWith (tracks : List String) (trip : Trip .steady none w w₁) (same : w₁.routers k = w.routers k)
    (isOpen : (w₁.routers k).closed = false)
    (returns : wp (revalidateWith env (flush env k) k tracks) (fun _ w' => (w'.routers k).closed = false) (fun _ _ => False) w₁) :
    Agrees env k True (tracks.countP (w.routers k).watches) w₁ := by
  have roams : Roams .steady (flush env k) := flush_walks permits k
  induction tracks generalizing w₁ with
  | nil => trivial
  | cons track tracks ih =>
    rw [revalidateWith, wp_bind] at returns
    by_cases watches : (w.routers k).watches track = true
    swap
    · rw [List.countP_cons_of_neg watches]
      rcases exec_cases (wp_and returns (revalidateTrackWith_unwatched (same ▸ watches))) with ⟨_, _, ⟨h, rfl⟩, _⟩ | ⟨_, _, ⟨h, _⟩, _⟩
      · exact ih trip same isOpen h
      · exact h.elim
    rw [List.countP_cons_of_pos watches]
    obtain ⟨entry, bound, watching⟩ := (Option.any_eq_true _ _).1 watches
    rw [revalidateTrackWith, wp_bind, wp_bindingOf, same, bound, wp_when] at returns
    have sane₁ := trip.sane sane
    have returns := returns.1 watching
    rw [wp_bind] at returns
    refine wp_mono (wp_and (hook_asked permits env.videoAuthorize permits.videoAuthorize w₁ sane₁) returns) ?_ fun _ _ h => h.2
    rintro ok w₂ ⟨asked, rest⟩
    have trip₂ := trip.trans asked.trip
    have sane₂ := trip₂.sane sane
    -- A router that is closed would still be closed in the end.
    have isOpen₂ : (w₂.routers k).closed = false := by
      by_contra closed
      have closed : (w₂.routers k).closed = true := by simpa using closed
      have born : k < w₂.born := (sane₁.born isOpen).trans_le (Goes.born asked.trip.goes)
      have stays : wp (do
          when (!ok) do
            release env k track
            viewerStateWith env (flush env k) k track .failed
          revalidateWith env (flush env k) k tracks) (fun _ w' => (w'.routers k).closed = true) (fun _ _ => True) w₂ := by
        have told : Walks .steady none (when (!ok) do
            release env k track
            viewerStateWith env (flush env k) k track .failed) w₂ fun _ _ => True :=
          .when (fun _ => ((release_walks k track).walks sane₂).bind fun _ w₃ trip₃ _ =>
            (viewerStateWith_ends permits roams k track .failed).roams.walks (trip₃.sane sane₂)) fun _ => trivial
        have walks : Walks .steady none _ w₂ fun _ _ => True :=
          told.bind fun _ w₃ trip₃ _ => revalidateWith_walks permits roams k tracks w₃ (trip₃.sane sane₂)
        exact wp_mono walks (fun _ w' h => (Goes.kept h.1.goes born).closed closed) fun _ _ _ => trivial
      rw [wp_bind] at stays
      rcases exec_cases (wp_and rest stays) with ⟨_, _, h, _⟩ | ⟨_, _, h, _⟩
      · rcases exec_cases (wp_and h.1 h.2) with ⟨_, _, h, _⟩ | ⟨_, _, h, _⟩
        · exact absurd (h.1.symm.trans h.2) (by simp)
        · exact h.1
      · exact h.1
    have same₂ : w₂.routers k = w.routers k := (asked.router_eq isOpen₂).trans same
    refine ⟨isOpen₂, ?_⟩
    cases ok with
    | false => trivial
    | true =>
      rw [wp_when] at rest
      exact ih trip₂ same₂ isOpen₂ (rest.2 (by simp))

end Rechecking

/-! ## Runs -/

/-- `unsubscribe` and `detach` do not throw. -/
structure Env.Steady (env : Env η) : Prop where
  unsubscribe : ∀ n, env.unsubscribe n = true
  detach : ∀ n, env.detach n = true

/-- The media service is open too. -/
structure Steady (i : Env η × Input η) : Prop where
  env : i.1.Steady
  serving : i.2 ≠ .mediaClose

theorem Env.Steady.permits (h : env.Steady) : Permits .steady env := ⟨.inl trivial, .inr h.unsubscribe, .inr h.detach⟩

/-- What steady inputs keep. -/
structure Serving (w : World η) : Prop where
  sane : w.Sane
  spent : Spent w
  serving : w.media.closed = false
  settled : ∀ k, (w.routers k).Settled

theorem Serving.step {i : Env η × Input η} (h : Serving w) (steady : Steady i) : Serving (w.step i) := by
  have trip : Trip .steady none w (w.step i) := after_of_wp (input_trips steady.env.permits trivial i.2
    (fun _ _ => .inl trivial) w h.sane (.inl trivial) (.inl trivial) steady.serving)
  have serving : (w.step i).media.closed = false := trip.media.trans h.serving
  refine ⟨trip.sane h.sane, trip.goes.spent ?_ h.spent, serving, fun k => trip.settled k (by simp) (h.settled k)⟩
  simp [Allow.steady, serving]

theorem Serving.run {inputs : List (Env η × Input η)} (h : Serving w) (steady : ∀ i ∈ inputs, Steady i) : Serving (w.run inputs) := by
  induction inputs generalizing w with
  | nil => exact h
  | cons i inputs ih =>
    exact ih (h.step (steady i List.mem_cons_self)) fun j hj => steady j (List.mem_cons_of_mem _ hj)

theorem start_serving (numbers : NumberText) {guard : CommandGuard} {media : MediaService} (unused : guard.handles = .empty)
    (serving : media.closed = false) : Serving (World.start numbers guard media : World η) :=
  ⟨start_sane numbers media unused, fun _ _ => rfl, serving, fun _ => .inl rfl⟩

/-- Every entry point of router `k` returns. -/
structure Entrances (env : Env η) (k : Nat) (w : World η) : Prop where
  receive : ∀ label raw, Returns (receive env k label raw) k w
  flush : Returns (flush env k) k w
  sample : ∀ stream native, Returns (sample env k stream native) k w
  viewerState : ∀ track state, Returns (viewerState env k track state) k w

/-- The entry points of an open router return exactly when its recheck does. -/
theorem Serving.entrances_iff (h : Serving w) (permits : Permits .steady env) :
    Entrances env k w ↔ (w.routers k).closed = true ∨ Revalidates env k w := by
  have whole : Returns (Router.flush env k) k w ↔ (w.routers k).closed = true ∨ Revalidates env k w := by
    cases closed : (w.routers k).closed with
    | true =>
      refine iff_of_true ?_ (.inl rfl)
      rw [Returns, wp, flush_unfold k h.sane, ← wp, flushWith, wp_bind, wp_router, wp_when]
      exact ⟨fun isOpen => by simp [closed] at isOpen, fun _ => .inl closed⟩
    | false =>
      rw [flush_returns_iff permits h.sane h.serving h.spent closed (h.settled k)]
      simp
  refine ⟨fun entrances => whole.1 entrances.flush, fun fine => ⟨fun label raw => ?_, whole.2 fine, fun stream native => ?_,
    fun track state => ?_⟩⟩
  · refine wp_mono (receive_ends permits trivial k label raw w h.sane (.inl trivial)) (fun _ _ trip => ?_) fun _ _ broken => ?_
    · exact trip.settled k (by simp) (h.settled k)
    · exact not_breaks h.serving broken.2
  · exact (sample_ends permits k stream native).returns h.sane h.serving (h.settled k)
  · exact (viewerState_ends permits k track state).returns h.sane h.serving (h.settled k)

/-- A flush that the hook agrees to returns. -/
theorem Serving.revalidates (h : Serving w) (permits : Permits .steady env) (isOpen : (w.routers k).closed = false)
    (agrees : Rechecks env k (Refusable env k w) w) : Revalidates env k w := by
  rw [Rechecks, SessionRouter.watched_eq] at agrees
  have begun : Trip .steady none w { w with history := w.history ++ [.flushing k] } := .single (.flushing k isOpen) rfl rfl
  exact revalidateWith_of_agrees permits h.sane _ begun rfl isOpen h.serving agrees

/-- Only a flush that the hook agrees to, up to the first refusal, returns. -/
theorem Serving.rechecks (h : Serving w) (permits : Permits .steady env) (isOpen : (w.routers k).closed = false)
    (returns : Revalidates env k w) : Rechecks env k True w := by
  rw [Rechecks, SessionRouter.watched_eq]
  have begun : Trip .steady none w { w with history := w.history ++ [.flushing k] } := .single (.flushing k isOpen) rfl rfl
  exact agrees_of_revalidateWith permits h.sane _ begun rfl isOpen returns

/-- The hook of the tracks closes router `k` before it answers. -/
def Env.leaves (k : Nat) : Env η where
  clock _ := none
  guardClock _ := none
  authorize _ := .answer (.ok false)
  guardAuthorize _ := .answer (.ok false)
  videoAuthorize _ := .closeRouter k (.answer (.ok true))
  videoCatalog _ := []
  send _ := true
  subscribe _ := none
  unsubscribe _ := true
  detach _ := true
  publish _ := true
  startup _ := []
  keyframe _ := []

/-- It agrees to no track. -/
theorem not_agrees_leaves (sane : w.Sane) (n : Nat) : ¬Agrees (.leaves k) k True (n + 1) w := by
  intro agrees
  have closes : wp (hook (.leaves k) (Env.leaves k : Env η).videoAuthorize) (fun _ w' => (w'.routers k).closed = true)
      (fun _ _ => True) w := by
    simp only [hook, Env.leaves, react, wp_bind, wp_note, wp_ask, wp_tryCatch, wp_pure]
    set w₁ : World η := { w with history := w.history ++ [.asked], tick := w.tick + 1 } with hw₁
    have sane₁ : w₁.Sane := ⟨sane.routers, sane.handles, sane.guarded, sane.attached, sane.unborn, sane.silent⟩
    exact wp_mono (close_hooked (permits_any (.leaves k)) k w₁ sane₁) (fun _ _ h => h.2) fun _ _ h => h.1.2
  rcases exec_cases (wp_and agrees closes) with ⟨_, _, h, _⟩ | ⟨_, _, h, _⟩
  · exact absurd (h.1.1.symm.trans h.2) (by simp)
  · exact h.1

theorem Returns.toBool {m : Code η Unit} (h : Returns m k w) : (m.exec w).1.toBool = true := by
  rcases exec_cases h with ⟨_, _, _, e⟩ | ⟨_, _, impossible, _⟩
  · rw [e]
    rfl
  · exact impossible.elim

theorem calm_steady (t : ℚ) : (Env.calm t).Steady := ⟨fun _ => rfl, fun _ => rfl⟩

theorem videoVisit_steady : ∀ i ∈ videoVisit, Steady i := by
  simp only [videoVisit, List.forall_mem_cons, List.not_mem_nil, false_implies, implies_true, and_true]
  refine ⟨?_, ?_, ?_, ?_⟩ <;> exact ⟨calm_steady _, by simp⟩

/-- The hook refuses the tracks. -/
def Env.refusingTracks : Env Json := { Env.calm 0 with videoAuthorize := fun _ => .answer (.ok false) }

theorem agrees_refusing {refusable : Prop} (h : refusable) (n : Nat) {w : World Json} (isOpen : (w.routers k).closed = false) :
    Agrees .refusingTracks k refusable (n + 1) w := ⟨isOpen, h⟩

theorem states_fit {numbers : NumberText} {size : Nat} {r : SessionRouter η}
    (fit : (r.video.all fun v => v.bound.entries.all fun e =>
      (encode numbers (.videoState e.1 e.2.slot.mid .failed)).byteLength ≤ size) = true) (track : String) (b : Binding)
    (bound : (r.video.bind fun v => v.bound.get? track) = some b) :
    (encode numbers (.videoState track b.slot.mid .failed)).byteLength ≤ size := by
  obtain ⟨v, video, found⟩ := Option.bind_eq_some_iff.1 bound
  rw [video, Option.all_some, List.all_eq_true] at fit
  exact of_decide_eq_true (fit (track, b) (Table.mem_entries_iff.2 found))

/-- The peer's router: it is open and watches one track, and there is room for what a flush may say. -/
theorem videoBridge_facts :
    (videoBridge.routers 0).closed = false ∧ (videoBridge.routers 0).watched = 1 ∧
      ((videoBridge.routers 0).queue.streams.get? "control").any
        (fun s => s.stopped = false ∧ s.messages.length + (videoBridge.routers 0).owed ≤ s.maxMessages) = true ∧
      (videoBridge.routers 0).queue.bytes + ((videoBridge.routers 0).owed * 200 : Nat) ≤ (videoBridge.routers 0).queue.options.maxBytes ∧
      200 ≤ (videoBridge.routers 0).queue.options.maxMessageBytes ∧ (encode videoBridge.numbers (.error none)).byteLength ≤ 200 ∧
      ((videoBridge.routers 0).video.all fun v => v.bound.entries.all fun e =>
        (encode videoBridge.numbers (.videoState e.1 e.2.slot.mid .failed)).byteLength ≤ 200) = true := by decide +kernel

theorem videoBridge_room : (videoBridge.routers 0).Room videoBridge.numbers 200 (videoBridge.routers 0).owed := by
  obtain ⟨-, -, run, budget, limit, error, states⟩ := videoBridge_facts
  obtain ⟨s, found, room⟩ := (Option.any_eq_true _ _).1 run
  exact ⟨⟨s, found, of_decide_eq_true room⟩, budget, limit, error, states_fit states⟩

/-- A hook that closes the router and then answers. -/
def Env.leaving : Env Json := { Env.calm 0 with videoAuthorize := fun _ => .closeRouter 0 (.answer (.ok true)) }

end RosBridge.Router
