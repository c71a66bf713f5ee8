import RosBridge.Router.Walk
/-!
# Flushes inside flushes

A flush that takes a track or a stream back from a peer says so and flushes again. Each
time one is gone, so flushes nest no deeper than `depth`, and `flush` is its own
recursion (`flush_unfold`).
-/

namespace RosBridge.Router

open Lib Prog Session Config

variable {η : Type} {env : Env η} {k n : Nat} {w w' : World η}

/-- Flushes of router `k` nest at most `n` deep. -/
structure Within (k n : Nat) (w : World η) : Prop where
  sane : w.Sane
  depth : (w.routers k).depth ≤ n

theorem Within.raise (h : Within k n w) : Within k (n + 1) w := ⟨h.sane, h.depth.trans (Nat.le_succ n)⟩

/-- The history does not matter. -/
theorem World.Sane.noted (h : w.Sane) (notes : List Note) : { w with history := notes }.Sane :=
  ⟨h.routers, h.handles, h.guarded, h.attached, h.unborn, h.silent⟩

theorem Within.noted (h : Within k n w) (notes : List Note) : Within k n { w with history := notes } :=
  ⟨h.sane.noted notes, h.depth⟩

theorem Hooked.within (h : Hooked .any w w') (within : Within k n w) : Within k n w' := by
  refine ⟨h.trip.sane within.sane, ?_⟩
  rcases h.routers k with same | shut
  · exact same ▸ within.depth
  · exact shut.depth.trans within.depth

/-- A stream is still there after a hook, unless the router was closed. -/
theorem Hooked.has {stream : String} {sub : Subscription η} (h : Hooked .any w w')
    (found : (w.routers k).subscriptions.get? stream = some sub) :
    (w'.routers k).closed = true ∨ (w'.routers k).subscriptions.has stream = true := by
  rcases h.routers k with same | shut
  · exact .inr (Table.has_iff.2 ⟨sub, same ▸ found⟩)
  · exact .inl shut.closed

theorem close_within (h : Within k n w) : wp (close env k) (fun _ => Within k n) (fun _ => Within k n) w :=
  wp_mono (close_hooked (permits_any env) k w h.sane) (fun _ _ h' => h'.1.within h) fun _ _ h' => h'.1.1.within h

theorem respond_within (envelope : Envelope) (plain : envelope.stream = none) (h : Within k n w) :
    wp (respond k envelope) (fun _ => Within k n) (fun _ => Within k n) w := by
  have queued : ∀ r, Control (w.routers k) (encode w.numbers envelope) r → Within k n (w.setRouter k r) := by
    intro r control
    have trip : Trip .any (some k) w (w.setRouter k r) := control.trip plain
    refine ⟨trip.sane h.sane, ?_⟩
    rw [World.setRouter_self]
    refine le_trans (SessionRouter.depth_le (le_of_eq ?_) (le_of_eq ?_)) h.depth
    · rw [SessionRouter.watched, SessionRouter.watched, control.same.2.2]
    · rw [control.subscriptions]
  rw [respond, wp_bind, wp_router, wp_bind, wp_throwIf]
  refine ⟨fun _ => h, fun _ => ?_⟩
  rw [wp_bind]
  refine wp_mono (encoded_spec k envelope w) ?_ ?_
  · rintro bytes _ ⟨rfl, rfl, -⟩
    refine wp_mono (queueControl_spec k _ w (h.sane.routers k)) ?_ ?_
    · rintro _ _ ⟨r, control, -, rfl⟩
      exact queued r control
    · rintro _ _ (⟨r, control, rfl⟩ | ⟨rfl, -⟩)
      · exact queued r control
      · exact h
  · rintro _ _ ⟨rfl, -⟩
    exact h

theorem respond_closed (envelope : Envelope) (closed : (w.routers k).closed = true) :
    wp (respond k envelope) (fun _ _ => False) (fun _ w' => w' = w) w := by
  rw [respond, wp_bind, wp_router, wp_bind, wp_throwIf]
  exact ⟨fun _ => rfl, fun isOpen => absurd closed isOpen⟩

/-- Fewer tracks are watched. -/
theorem Within.flag (h : Within k n w) (track : String) {f : Binding → Binding} (slot : ∀ b, (f b).slot = b.slot)
    (known : ∀ b, (f b).attached = true → b.attached = true) (fewer : ∀ b, (f b).watching = true → b.watching = true) :
    Within k n (w.setRouter k ((w.routers k).flag track f)) := by
  have trip : Trip .any none w (w.setRouter k ((w.routers k).flag track f)) := .flag w k track f slot fun b hb => .inl (known b hb)
  refine ⟨trip.sane h.sane, ?_⟩
  rw [World.setRouter_self]
  refine le_trans (SessionRouter.depth_le (watched_mapValues rfl fun t b hb => ?_) (le_refl _)) h.depth
  split at hb
  · exact fewer b hb
  · exact hb

/-- A track that is released is not watched any more. -/
theorem release_within (track : String) (h : Within k n w) :
    wp (release env k track)
      (fun _ w' => Within k n w' ∧ (w'.routers k).closed = (w.routers k).closed ∧
        ∀ b, ((w.routers k).video.bind fun v => v.bound.get? track) = some b → b.watching = true →
          (w'.routers k).depth < (w.routers k).depth)
      (fun _ => Within k n) w := by
  have less : ((w.routers k).release track).depth ≤ (w.routers k).depth := by
    refine SessionRouter.depth_le (watched_mapValues rfl fun t b hb => ?_) (le_refl _)
    split at hb
    · cases hb
    · exact hb
  have fewer : ∀ b, ((w.routers k).video.bind fun v => v.bound.get? track) = some b → b.watching = true →
      ((w.routers k).release track).depth < (w.routers k).depth := by
    intro b bound watching
    obtain ⟨v, hv, hb⟩ := Option.bind_eq_some_iff.1 bound
    have lt := Table.countP_modify_lt hb (f := Binding.released) (p := (·.watching)) watching fun _ => rfl
    rw [SessionRouter.depth_eq, SessionRouter.depth_eq, SessionRouter.watched, SessionRouter.watched, SessionRouter.release, hv]
    simp only [Option.map_some, Option.getD_some]
    omega
  have walks : Walks .any none (release env k track) w fun _ _ => True := release_walks k track w h.sane
  refine wp_mono (wp_and (release_spec env k track w) walks) ?_ ?_
  · rintro _ _ ⟨⟨-, sources, rfl⟩, trip, -⟩
    have own : (((w.setRouter k ((w.routers k).release track)).elapsed
        (if track ∈ (w.routers k).attached then w.tick + 1 else w.tick) sources).routers k) = (w.routers k).release track :=
      World.setRouter_self _ _ _
    rw [own]
    exact ⟨⟨trip.sane h.sane, (by rw [own]; exact less.trans h.depth)⟩, rfl, fewer⟩
  · rintro _ _ ⟨⟨-, rfl⟩, trip⟩
    have own : (((w.setRouter k ((w.routers k).release track)).elapsed (w.tick + 1) w.media.sources).routers k) =
        (w.routers k).release track := World.setRouter_self _ _ _
    exact ⟨trip.sane h.sane, (by rw [own]; exact less.trans h.depth)⟩

/-! ## The nested flush is used further down only -/

section Nested

variable {again again' : Code η Unit} (nested : ∀ w, Within k n w → Alike (Within k n) again again' w)

include nested in
theorem errorWith_alike (id : Option String) (h : Within k n w) :
    Alike (Within k n) (errorWith env again k id) (errorWith env again' k id) w := by
  refine Alike.andThen (Q := fun _ w' => w = w') rfl ?_
  rintro r _ rfl
  refine Alike.when (fun _ => ?_) h
  refine Alike.tryCatch ?_ (wp_trivial _ _) fun _ w₁ h₁ _ => .refl (close_within h₁)
  exact Alike.andThen (respond_within (.error id) rfl h) fun _ w₁ h₁ => nested w₁ h₁

theorem errorWith_alike_closed (id : Option String) (closed : (w.routers k).closed = true) (h : Within k n w) :
    Alike (Within k n) (errorWith env again k id) (errorWith env again' k id) w := by
  refine Alike.andThen (Q := fun r w' => w = w' ∧ r = w.routers k) ⟨rfl, rfl⟩ ?_
  rintro r _ ⟨rfl, rfl⟩
  exact Alike.when (fun isOpen => by simp [closed] at isOpen) h

include nested in
theorem eventWith_alike (envelope : Envelope) (plain : envelope.stream = none) (h : Within k n w) :
    Alike (Within k n) (eventWith env again k envelope) (eventWith env again' k envelope) w := by
  refine Alike.tryCatch ?_ (wp_trivial _ _) fun _ w₁ h₁ _ => errorWith_alike nested none h₁
  exact Alike.andThen (respond_within envelope plain h) fun _ w₁ h₁ => nested w₁ h₁

theorem eventWith_alike_closed (envelope : Envelope) (closed : (w.routers k).closed = true) (h : Within k n w) :
    Alike (Within k n) (eventWith env again k envelope) (eventWith env again' k envelope) w := by
  have thrown : ∀ next : Code η Unit, wp (do respond k envelope; next) (fun _ _ => True) (fun _ w' => w' = w) w := by
    intro next
    rw [wp_bind]
    exact wp_mono (respond_closed envelope closed) (fun _ _ impossible => impossible.elim) fun _ _ same => same
  refine Alike.tryCatch ?_ (thrown again) ?_
  · refine Alike.andThen (Q := fun _ _ => False) ?_ fun _ _ impossible => impossible.elim
    exact wp_mono (respond_closed envelope closed) (fun _ _ impossible => impossible) fun _ _ same => same ▸ h
  · rintro _ _ _ rfl
    exact errorWith_alike_closed none closed h

/-- Whatever the rest does with the event. -/
theorem viewerStateWith_alike_of (track : String) (state : Media.VideoState)
    (event : ∀ w' envelope, envelope.stream = none → Within k n w' → (w'.routers k).closed = (w.routers k).closed →
      Alike (Within k n) (eventWith env again k envelope) (eventWith env again' k envelope) w') (h : Within k n w) :
    Alike (Within k n) (viewerStateWith env again k track state) (viewerStateWith env again' k track state) w := by
  refine Alike.andThen (Q := fun _ w' => w = w') rfl ?_
  rintro bound _ rfl
  cases bound with
  | none => exact .refl h
  | some entry =>
    refine Alike.andThen (Q := fun _ w' => Within k n w' ∧ (w'.routers k).closed = (w.routers k).closed) ?_
      fun _ w₁ h₁ => event w₁ _ rfl h₁.1 h₁.2
    rw [wp_when]
    refine ⟨fun _ => ⟨h.flag track (by intro _; rfl) (by simp) (by simp), ?_⟩, fun _ => ⟨h, rfl⟩⟩
    rw [World.setRouter_self]

include nested in
theorem viewerStateWith_alike (track : String) (state : Media.VideoState) (h : Within k n w) :
    Alike (Within k n) (viewerStateWith env again k track state) (viewerStateWith env again' k track state) w :=
  viewerStateWith_alike_of track state (fun _ envelope plain h₁ _ => eventWith_alike nested envelope plain h₁) h

include nested in
/-- A track that is refused is released before its peer is told. -/
theorem revalidateTrackWith_alike (track : String) (h : Within k (n + 1) w) :
    Alike (Within k (n + 1)) (revalidateTrackWith env again k track) (revalidateTrackWith env again' k track) w := by
  refine Alike.andThen (Q := fun bound w' => w = w' ∧ bound = (w.routers k).video.bind fun v => v.bound.get? track) ⟨rfl, rfl⟩ ?_
  rintro bound _ ⟨rfl, rfl⟩
  split
  · exact .refl h
  next entry bound =>
  refine Alike.when (fun watching => ?_) h
  refine Alike.andThen (Q := fun _ w₁ => Hooked .any w w₁) ?_ fun ok w₁ hooked => ?_
  · exact wp_mono (hook_asked (permits_any env) env.videoAuthorize (permits_any env).videoAuthorize w h.sane)
      (fun _ _ h => h.toHooked) fun _ _ h' => h'.toHooked.within h
  have h₁ := hooked.within h
  refine Alike.when (fun _ => ?_) h₁
  refine Alike.andThen (release_within track h₁) ?_
  rintro _ w₂ ⟨h₂, kept, less⟩
  cases closed : (w₁.routers k).closed with
  | true =>
    refine viewerStateWith_alike_of track .failed (fun w₃ envelope _ h₃ same => ?_) h₂
    exact eventWith_alike_closed envelope (same.trans (kept.trans closed)) h₃
  | false =>
    have same := hooked.router_eq closed
    rw [same] at less
    have lower : Within k n w₂ := ⟨h₂.sane, by
      have := less entry bound watching
      have := h.depth
      omega⟩
    exact (viewerStateWith_alike nested track .failed lower).mono fun _ h => h.raise

include nested in
theorem revalidateWith_alike (tracks : List String) (h : Within k (n + 1) w) :
    Alike (Within k (n + 1)) (revalidateWith env again k tracks) (revalidateWith env again' k tracks) w := by
  induction tracks generalizing w with
  | nil => exact .refl h
  | cons track tracks ih =>
    exact Alike.bind (revalidateTrackWith_alike nested track h) (wp_trivial _ _) fun _ w₁ h₁ _ => ih h₁

/-- Only the queue and the trace of a router change. -/
structure Drained (k : Nat) (w w' : World η) : Prop where
  video : (w'.routers k).video = (w.routers k).video
  subscriptions : (w'.routers k).subscriptions = (w.routers k).subscriptions
  closed : (w'.routers k).closed = (w.routers k).closed

/-- Something else of the router changes. -/
theorem Drained.set {r : SessionRouter η} (h : Drained k w w') (video : r.video = (w'.routers k).video)
    (subscriptions : r.subscriptions = (w'.routers k).subscriptions) (closed : r.closed = (w'.routers k).closed) :
    Drained k w (w'.setRouter k r) := by
  constructor <;> rw [World.setRouter_self]
  exacts [video.trans h.video, subscriptions.trans h.subscriptions, closed.trans h.closed]

theorem Drained.within (h : Drained k w w') (sane : w'.Sane) (within : Within k n w) : Within k n w' := by
  refine ⟨sane, le_trans (SessionRouter.depth_le (le_of_eq ?_) (le_of_eq ?_)) within.depth⟩
  · rw [SessionRouter.watched, SessionRouter.watched, h.video]
  · rw [h.subscriptions]

theorem drain_drained (stream : String) (channel : Channel) (w : World η) :
    wp (drain env k stream channel) (fun _ => Drained k w) (fun _ => Drained k w) w := by
  rw [drain, wp_bind, wp_router]
  dsimp only
  generalize (Option.map _ _).getD 0 + 1 = fuel
  have loop : ∀ w', Drained k w w' →
      wp (drainLoop env k stream channel fuel) (fun _ => Drained k w) (fun _ => Drained k w) w' := by
    induction fuel with
    | zero => exact fun w' h => h
    | succ fuel ih =>
      intro w' h
      have queue : ∀ w₁ q, Drained k w w₁ → Drained k w (w₁.setRouter k { w₁.routers k with queue := q }) :=
        fun w₁ q h => h.set rfl rfl rfl
      rw [drainLoop, wp_bind, wp_onQueue]
      refine wp_mono (wp_trivial _ _) (fun next q _ => ?_) fun _ q _ => queue w' q h
      cases next with
      | none => exact queue w' q h
      | some next =>
        rw [wp_bind, wp_ask, wp_bind, wp_mark, wp_bind, wp_note]
        generalize env.send _ = accepted
        have asked : Drained k w { w'.setRouter k { w'.routers k with queue := q } with tick := w'.tick + 1 } :=
          have h := queue w' q h
          ⟨h.video, h.subscriptions, h.closed⟩
        have marked := asked.set (r := (SessionRouter.marked _ (.handed channel next.envelope accepted))) rfl rfl rfl
        have noted : ∀ w₁ notes, Drained k w w₁ → Drained k w { w₁ with history := notes } :=
          fun w₁ notes h => ⟨h.video, h.subscriptions, h.closed⟩
        cases accepted with
        | false => exact noted _ _ marked
        | true =>
          rw [if_pos rfl, wp_bind, wp_onQueue]
          exact wp_mono (wp_trivial _ _) (fun _ q _ => ih _ (queue _ q (noted _ _ marked))) fun _ q _ => queue _ q (noted _ _ marked)
  exact loop w ⟨rfl, rfl, rfl⟩

/-- A stream that is removed counts no more. -/
theorem removeSubscription_within {stream : String} {sub : Subscription η} (h : Within k (n + 1) w)
    (found : (w.routers k).subscriptions.get? stream = some sub) :
    wp (removeSubscription env k stream) (fun _ => Within k n) (fun _ => Within k (n + 1)) w := by
  have removed : ∀ w', Removed .any k stream w w' → Within k n w' := by
    intro w' r
    have trip : Trip .any none w w' := have quiet : Removed .any k stream { w with history := w.history ++ [] } w' := by simpa using r
      quiet.trip h.sane (.inl rfl)
    obtain ⟨sub, q, listeners, tick, found, options, streams, left, rfl⟩ := r
    refine ⟨trip.sane h.sane, ?_⟩
    dsimp only
    rw [World.setRouter_self]
    have less : ((w.routers k).subscriptions.erase stream).size < (w.routers k).subscriptions.size := Table.size_erase_lt found
    have bound := h.depth
    rw [SessionRouter.depth_eq] at bound
    rw [SessionRouter.depth_eq, SessionRouter.unsubscribe, SessionRouter.watched]
    rw [SessionRouter.watched] at bound
    dsimp only
    omega
  refine wp_mono (removeSubscription_spec (permits_any env) k stream w h.sane.registered) (fun _ => removed) ?_
  rintro _ w' (⟨r, -⟩ | ⟨rfl, -⟩)
  · exact (removed w' r).raise
  · exact h

/-- Afterwards a refused stream is gone, or its router was closed. -/
theorem refuse_within (stream : String) (h : Within k (n + 1) w)
    (here : (w.routers k).closed = true ∨ (w.routers k).subscriptions.has stream = true) :
    wp (do
      note (.refused k stream)
      when ((← router k).subscriptions.has stream) <| removeSubscription env k stream)
      (fun _ w' => Within k n w' ∨ Within k (n + 1) w' ∧ (w'.routers k).closed = true) (fun _ => Within k (n + 1)) w := by
  have noted := h.noted (w.history ++ [.refused k stream])
  simp only [wp_bind, wp_note, wp_router, wp_when]
  refine ⟨fun has => ?_, fun absent => .inr ⟨noted, here.resolve_right absent⟩⟩
  obtain ⟨sub, found⟩ := Table.has_iff.1 has
  exact wp_mono (removeSubscription_within noted found) (fun _ _ => .inl) fun _ _ h' => h'

variable (nested : ∀ w, Within k n w → Alike (Within k n) again again' w)

include nested in
theorem recheckWith_alike {stream : String} {sub : Subscription η} (name : String) (h : Within k (n + 1) w)
    (found : (w.routers k).subscriptions.get? stream = some sub) :
    Alike (Within k (n + 1)) (recheckWith env again k stream name) (recheckWith env again' k stream name) w := by
  have checked : wp (do let _ ← entry env k name .subscribe; return true) (fun _ => Hooked .any w) (fun _ => Hooked .any w) w := by
    rw [wp_bind]
    exact wp_mono (entry_entered (permits_any env) k name .subscribe w h.sane) (fun _ _ e => e.toAsked.toHooked) fun _ _ h' => h'
  refine Alike.tryCatch (.refl ?_) (wp_mono checked (fun _ _ _ => trivial) fun _ _ h' => h') fun _ w₁ h₁ hooked => ?_
  · exact wp_mono checked (fun _ _ h' => h'.within h) fun _ _ h' => h'.within h
  have handler : Alike (Within k (n + 1)) (do
        (do note (.refused k stream); when ((← router k).subscriptions.has stream) <| removeSubscription env k stream)
        errorWith env again k none
        return false) (do
        (do note (.refused k stream); when ((← router k).subscriptions.has stream) <| removeSubscription env k stream)
        errorWith env again' k none
        return false) w₁ := by
    refine Alike.andThen (refuse_within stream h₁ (hooked.has found)) fun _ w₃ h₃ => ?_
    have told : Alike (Within k (n + 1)) (errorWith env again k none) (errorWith env again' k none) w₃ := by
      rcases h₃ with lower | ⟨h₃, closed⟩
      · exact (errorWith_alike nested none lower).mono fun _ h => h.raise
      · exact errorWith_alike_closed none closed h₃
    exact Alike.bind told (wp_trivial _ _) fun _ _ h' _ => .refl h'
  rwa [bind_assoc, bind_assoc] at handler

include nested in
theorem flushStreamsWith_alike (roams : Roams .any again) (subs : List (String × Subscription η)) (h : Within k (n + 1) w)
    (flushing : .flushing k ∈ w.history) (idle : (w.routers k).Idle "control")
    (here : ∀ p ∈ subs, (w.routers k).subscriptions.get? p.1 = some p.2) :
    Alike (Within k (n + 1)) (flushStreamsWith env again k subs) (flushStreamsWith env again' k subs) w := by
  induction subs generalizing w with
  | nil => exact .refl h
  | cons p rest ih =>
    obtain ⟨stream, sub⟩ := p
    have found := here _ List.mem_cons_self
    have walks := recheckWith_walks (permits_any env) roams k stream sub.entry.binding.publicName w h.sane flushing
      ((h.sane.routers k).issued stream sub found) (h.sane.born_of_subscription found)
    refine Alike.bind (recheckWith_alike nested _ h found) (wp_mono walks (fun _ _ h => h) fun _ _ _ => trivial) ?_
    rintro ok w₁ h₁ ⟨trip, checked⟩
    refine Alike.when (fun hok => ?_) h₁
    obtain ⟨same, isOpen, rechecked⟩ := checked hok
    have drains : Walks .any none (drain env k stream (dataChannel sub.entry.binding.delivery)) w₁ _ :=
      drain_data k stream sub w₁ h₁.sane (same ▸ found) (same ▸ isOpen) (same ▸ idle) rechecked
    refine Alike.andThen (wp_mono (wp_and drains (drain_drained stream _ w₁)) (fun _ _ h => h) ?_) ?_
    · rintro _ w₂ ⟨trip₂, drained⟩
      exact drained.within (trip₂.sane h₁.sane) h₁
    · rintro done w₂ ⟨⟨trip₂, idle₂⟩, drained⟩
      have h₂ := drained.within (trip₂.sane h₁.sane) h₁
      refine Alike.when (fun hdone => ?_) h₂
      refine ih h₂ ((trip.goes.history.trans trip₂.goes.history).subset flushing) (idle₂ hdone).1 fun p hp => ?_
      rw [drained.subscriptions, same]
      exact here p (List.mem_cons_of_mem _ hp)

include nested in
/-- Flushes alike further down are alike. -/
theorem flushWith_alike (roams : Roams .any again) (h : Within k (n + 1) w) :
    Alike (Within k (n + 1)) (flushWith env again k) (flushWith env again' k) w := by
  refine Alike.andThen (Q := fun r w' => w = w' ∧ r = w.routers k) ⟨rfl, rfl⟩ ?_
  rintro r _ ⟨rfl, rfl⟩
  refine Alike.when (fun isOpen => ?_) h
  have isOpen : (w.routers k).closed = false := by simpa using isOpen
  set w₁ : World η := { w with history := w.history ++ [.flushing k] } with hw₁
  have h₁ : Within k (n + 1) w₁ := h.noted _
  refine Alike.andThen (Q := fun _ w' => w₁ = w') rfl ?_
  rintro _ _ rfl
  have walks := revalidateWith_walks (permits_any env) roams k (((w.routers k).video.map (·.bound.keys)).getD []) w₁ h₁.sane
  refine Alike.bind (revalidateWith_alike nested _ h₁) (wp_mono walks (fun _ _ h => h.1) fun _ _ _ => trivial) ?_
  intro _ w₂ h₂ trip
  have drains : Walks .any none (drain env k "control" .control) w₂ _ := drain_control k w₂
  refine Alike.andThen (wp_mono (wp_and drains (drain_drained "control" .control w₂)) (fun _ _ h => h) ?_) ?_
  · rintro _ w₃ ⟨trip₃, drained⟩
    exact drained.within (trip₃.sane h₂.sane) h₂
  · rintro done w₃ ⟨⟨trip₃, idle⟩, drained⟩
    have h₃ := drained.within (trip₃.sane h₂.sane) h₂
    refine Alike.when (fun hdone => ?_) h₃
    refine Alike.andThen (Q := fun r w' => w₃ = w' ∧ r = w₃.routers k) ⟨rfl, rfl⟩ ?_
    rintro r _ ⟨rfl, rfl⟩
    refine flushStreamsWith_alike nested roams _ h₃ ?_ (idle hdone) fun p hp => Table.mem_entries_iff.1 hp
    exact (trip.goes.history.trans trip₃.goes.history).subset (by simp [hw₁])

end Nested

/-! ## No flush is cut short -/

/-- Any depth that is enough gives the same flush. -/
theorem flushDepth_alike (more : Nat) (h : Within k n w) :
    Alike (Within k n) (flushDepth env k (n + more)) (flushDepth env k n) w := by
  induction n generalizing w with
  | zero =>
    have := h.depth
    rw [SessionRouter.depth_eq] at this
    omega
  | succ n ih =>
    rw [Nat.succ_add]
    exact flushWith_alike (fun w h => ih h) (flushDepth_walks (permits_any env) k _) h

theorem flush_exec (env : Env η) (k : Nat) (w : World η) : (flush env k).exec w = (flushDepth env k (w.routers k).depth).exec w := by
  have read : (router k).exec w = (.ok (w.routers k), w) := rfl
  rw [flush, exec_bind, read]

theorem flush_alike (h : Within k n w) : Alike (Within k n) (flush env k) (flushDepth env k n) w := by
  have same := flush_exec env k w
  have enough : Alike (Within k (w.routers k).depth) (flushDepth env k ((w.routers k).depth + (n - (w.routers k).depth)))
      (flushDepth env k (w.routers k).depth) w := flushDepth_alike _ ⟨h.sane, le_refl _⟩
  rw [Nat.add_sub_cancel' h.depth] at enough
  refine ⟨same.trans enough.same.symm, ?_⟩
  have whole : Alike (Within k n) (flushDepth env k n) (flushDepth env k n) w := flushDepth_alike 0 h
  have ends := whole.ends
  unfold wp at ends ⊢
  rwa [same, ← enough.same]

/-- `flush` is its own recursion. -/
theorem flush_unfold (k : Nat) (sane : w.Sane) : (flush env k).exec w = (flushWith env (flush env k) k).exec w := by
  obtain ⟨n, hn⟩ : ∃ n, (w.routers k).depth = n + 1 := ⟨_, SessionRouter.depth_eq _⟩
  have whole : (flush env k).exec w = (flushWith env (flushDepth env k n) k).exec w := by
    have alike : Alike (Within k (n + 1)) (flush env k) (flushDepth env k (n + 1)) w := flush_alike ⟨sane, le_of_eq hn⟩
    rw [alike.same, flushDepth]
  have inner : ∀ w, Within k n w → Alike (Within k n) (flush env k) (flushDepth env k n) w := fun w h => flush_alike h
  exact whole.trans (flushWith_alike inner (flush_walks (permits_any env) k) ⟨sane, le_of_eq hn⟩).same.symm

end RosBridge.Router
