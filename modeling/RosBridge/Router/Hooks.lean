import RosBridge.Router.Closing
/-!
# What a hook can do

Whatever an authorization hook does before it answers, a router is afterwards as it was
or closed, and the guard has no new handle (`Hooked`).
-/

namespace RosBridge.Router

open Lib Prog Session Config Relation CommandGuard

variable {η α : Type}

/-- The outside fails in the allowed ways only. -/
structure Permits (allow : Allow) (env : Env η) : Prop where
  hooks : allow.wild ∨ env.Hooks Reaction.Mild
  unsubscribe : allow.stuck ∨ ∀ n, env.unsubscribe n = true
  detach : allow.torn ∨ ∀ n, env.detach n = true

/-- Everything may happen. -/
def Allow.any : Allow := ⟨True, True, True, True, True, True⟩

theorem permits_any (env : Env η) : Permits .any env := ⟨.inl trivial, .inl trivial, .inl trivial⟩

/-- Whatever hooks do, `send`, `unsubscribe` and `detach` do not throw. -/
def Allow.steady : Allow := ⟨True, True, False, False, True, True⟩

/-! ## Trips -/

/-- From `w` to `w'` in steps, after which control envelopes can still be queued on
every open router, the one that is `loose` apart. -/
structure Trip (allow : Allow) (loose : Option Nat) (w w' : World η) : Prop where
  goes : Goes allow w w'
  settled : ∀ j, loose ≠ some j → (w.routers j).Settled → (w'.routers j).Settled
  media : w'.media.closed = w.media.closed

section Trips

variable {allow : Allow} {loose : Option Nat} {w w' w'' : World η}

theorem Trip.refl (w : World η) : Trip allow loose w w := ⟨.refl, fun _ _ h => h, rfl⟩

theorem Trip.of_eq (h : w' = w) : Trip allow loose w w' := h ▸ .refl w'

theorem Trip.trans (h : Trip allow loose w w') (h' : Trip allow loose w' w'') : Trip allow loose w w'' :=
  ⟨h.goes.trans h'.goes, fun j hj s => h'.settled j hj (h.settled j hj s), h'.media.trans h.media⟩

theorem Trip.loosen (h : Trip allow none w w') : Trip allow loose w w' :=
  ⟨h.goes, fun j _ => h.settled j nofun, h.media⟩

/-- A loose router that is settled in the end is not loose. -/
theorem Trip.tighten {k : Nat} (h : Trip allow (some k) w w') (settled : (w'.routers k).Settled) : Trip allow none w w' := by
  refine ⟨h.goes, fun j _ hj => ?_, h.media⟩
  by_cases e : some k = some j
  · exact Option.some.inj e ▸ settled
  · exact h.settled j e hj

theorem Trip.sane (h : Trip allow loose w w') (s : w.Sane) : w'.Sane := h.goes.sane s

theorem Goes.numbers (g : Goes allow w w') : w'.numbers = w.numbers := by
  induction g with
  | refl => rfl
  | tail _ s ih => exact s.numbers.trans ih

theorem Goes.tracks (g : Goes allow w w') : w'.media.tracks = w.media.tracks := by
  induction g with
  | refl => rfl
  | tail _ s ih => exact s.tracks.trans ih

/-- A step that leaves the routers alone. -/
theorem Trip.single (s : Step allow w w') (routers : w'.routers = w.routers) (media : w'.media.closed = w.media.closed) :
    Trip allow loose w w' := ⟨.single s, fun _ _ h => routers ▸ h, media⟩

/-- A step that changes router `k`. -/
theorem Trip.step {k : Nat} (s : Step allow w w') (others : ∀ j, j ≠ k → w'.routers j = w.routers j)
    (settled : loose ≠ some k → (w.routers k).Settled → (w'.routers k).Settled)
    (media : w'.media.closed = w.media.closed) : Trip allow loose w w' := by
  refine ⟨.single s, fun j hj h => ?_, media⟩
  by_cases e : j = k
  · subst e
    exact settled hj h
  · exact (others j e).symm ▸ h

theorem Trip.move {k : Nat} {r : SessionRouter η} (m : Move w.numbers allow w.media (w.routers k) r)
    (settled : loose ≠ some k → (w.routers k).Settled → r.Settled) : Trip allow loose w (w.setRouter k r) :=
  .step (.router k r m) (fun _ h => World.setRouter_ne w r h) (by rwa [World.setRouter_self]) rfl

/-- A move after others of the same router. -/
theorem Trip.next {k : Nat} {r r' : SessionRouter η} (h : Trip allow none w (w.setRouter k r))
    (m : Move w.numbers allow w.media r r') (settled : loose ≠ some k → r.Settled → r'.Settled) :
    Trip allow loose w (w.setRouter k r') := by
  have last : Trip allow loose (w.setRouter k r) ((w.setRouter k r).setRouter k r') :=
    .move (by rw [World.setRouter_self]; exact m) (by rwa [World.setRouter_self])
  rw [World.setRouter_setRouter] at last
  exact h.loosen.trans last

/-- The outside has changed. -/
theorem Trip.elapsed (w : World η) (tick : Nat) (sources : String → Media.SourceSystem ViewerId) :
    Trip allow loose w (w.elapsed tick sources) := .single (.outside tick sources) rfl rfl

theorem Trip.ticked (w : World η) (tick : Nat) : Trip allow loose w { w with tick := tick } :=
  .elapsed w tick w.media.sources

end Trips

/-- A change that keeps the registered streams keeps a router settled. -/
theorem SessionRouter.Settled.of_streams {r r' : SessionRouter η} (h : r.Settled) (closed : r'.closed = r.closed)
    (streams : r'.queue.streams = r.queue.streams) : r'.Settled := by
  rcases h with h | ⟨s, found, live⟩
  · exact .inl (closed.trans h)
  · exact .inr ⟨s, by rwa [streams], live⟩

/-! ## How deep flushes nest -/

/-- The number of tracks watched. -/
def SessionRouter.watched (r : SessionRouter η) : Nat := (r.video.map fun v => v.bound.values.countP (·.watching)).getD 0

theorem SessionRouter.depth_eq (r : SessionRouter η) : r.depth = r.watched + r.subscriptions.size + 1 := by
  simp only [SessionRouter.depth, SessionRouter.watched, List.countP_eq_length_filter]

theorem SessionRouter.depth_le {r r' : SessionRouter η} (watched : r'.watched ≤ r.watched)
    (subscriptions : r'.subscriptions.size ≤ r.subscriptions.size) : r'.depth ≤ r.depth := by
  rw [r'.depth_eq, r.depth_eq]
  omega

theorem watched_mapValues {r r' : SessionRouter η} {f : String → Binding → Binding}
    (video : r'.video = r.video.map fun v => { v with bound := v.bound.mapValues f })
    (fewer : ∀ t b, (f t b).watching = true → b.watching = true) : r'.watched ≤ r.watched := by
  rw [SessionRouter.watched, SessionRouter.watched, video]
  cases r.video with
  | none => exact le_refl _
  | some v => exact v.bound.countP_mapValues_le fewer

/-! ## Hooks -/

/-- The bindings change in their flags only. -/
def Reflagged (v v' : Option VideoRouter) : Prop :=
  ∃ f : String → Binding → Binding, (∀ t b, (f t b).slot = b.slot) ∧
    v' = v.map fun v => { v with bound := v.bound.mapValues f }

theorem Reflagged.refl (v : Option VideoRouter) : Reflagged v v := by
  refine ⟨fun _ b => b, fun _ _ => rfl, ?_⟩
  cases v with
  | none => rfl
  | some v => rw [Option.map_some, Table.mapValues_id]

theorem Reflagged.trans {u v v' : Option VideoRouter} (h : Reflagged u v) (h' : Reflagged v v') : Reflagged u v' := by
  obtain ⟨f, slot, rfl⟩ := h
  obtain ⟨g, slot', rfl⟩ := h'
  refine ⟨fun t b => g t (f t b), fun t b => (slot' t _).trans (slot t b), ?_⟩
  cases u with
  | none => rfl
  | some v => simp only [Option.map_some, Table.mapValues_mapValues]

/-- A router was closed. -/
structure Shut (r r' : SessionRouter η) : Prop where
  closed : r'.closed = true
  entries : r'.entries = r.entries
  sessionId : r'.sessionId = r.sessionId
  lastTime : r'.lastTime = r.lastTime
  nextId : r'.nextId = r.nextId
  depth : r'.depth ≤ r.depth
  video : Reflagged r.video r'.video

structure Hooked (allow : Allow) (w w' : World η) : Prop where
  trip : Trip allow none w w'
  routers : ∀ j, w'.routers j = w.routers j ∨ Shut (w.routers j) (w'.routers j)
  notes : ∃ after, w'.history = w.history ++ after ∧ ∀ n ∈ after, n.OfHook
  handles : ∀ h, w.guard.handles.get? h = none → w'.guard.handles.get? h = none
  options : w'.guard.options = w.guard.options
  prefixId : w'.guard.prefixId = w.guard.prefixId
  nextId : w.guard.nextId ≤ w'.guard.nextId

namespace Hooked

variable {allow : Allow} {w w' w'' : World η}

theorem refl (w : World η) : Hooked allow w w :=
  ⟨.refl w, fun _ => .inl rfl, ⟨[], by simp⟩, fun _ h => h, rfl, rfl, le_refl _⟩

theorem trans (h : Hooked allow w w') (h' : Hooked allow w' w'') : Hooked allow w w'' where
  trip := h.trip.trans h'.trip
  routers j := by
    rcases h'.routers j with e' | shut'
    · rw [e']
      exact h.routers j
    · rcases h.routers j with e | shut
      · exact .inr (e ▸ shut')
      · exact .inr ⟨shut'.closed, shut'.entries.trans shut.entries, shut'.sessionId.trans shut.sessionId,
          shut'.lastTime.trans shut.lastTime, shut'.nextId.trans shut.nextId,
          shut'.depth.trans shut.depth, shut.video.trans shut'.video⟩
  notes := by
    obtain ⟨a, e, ha⟩ := h.notes
    obtain ⟨a', e', ha'⟩ := h'.notes
    refine ⟨a ++ a', by rw [e', e, List.append_assoc], fun n hn => ?_⟩
    rcases List.mem_append.1 hn with hn | hn
    · exact ha n hn
    · exact ha' n hn
  handles j hj := h'.handles j (h.handles j hj)
  options := h'.options.trans h.options
  prefixId := h'.prefixId.trans h.prefixId
  nextId := h.nextId.trans h'.nextId

/-- A router that is open after a hook is as it was. -/
theorem router_eq (h : Hooked allow w w') {k : Nat} (hk : (w'.routers k).closed = false) :
    w'.routers k = w.routers k := by
  rcases h.routers k with e | e
  · exact e
  · exact absurd (hk.symm.trans e.closed) (by simp)

/-- Closing a router does not change what it was built from. -/
theorem entries (h : Hooked allow w w') (k : Nat) : (w'.routers k).entries = (w.routers k).entries := by
  rcases h.routers k with e | e
  · exact congrArg _ e
  · exact e.entries

theorem sessionId (h : Hooked allow w w') (k : Nat) : (w'.routers k).sessionId = (w.routers k).sessionId := by
  rcases h.routers k with e | e
  · exact congrArg _ e
  · exact e.sessionId

theorem lastTime (h : Hooked allow w w') (k : Nat) : (w'.routers k).lastTime = (w.routers k).lastTime := by
  rcases h.routers k with e | e
  · exact congrArg _ e
  · exact e.lastTime

theorem issued (h : Hooked allow w w') {k : Nat} {id : String} (hk : (w.routers k).Issued id) : (w'.routers k).Issued id := by
  rcases h.routers k with e | e
  · rwa [e]
  · obtain ⟨n, bound, rfl⟩ := hk
    exact ⟨n, by rwa [e.nextId], by rw [e.sessionId]⟩

theorem elapsed (w : World η) (tick : Nat) (sources : String → Media.SourceSystem ViewerId) :
    Hooked allow w (w.elapsed tick sources) :=
  ⟨.elapsed w tick sources, fun _ => .inl rfl, ⟨[], by simp [World.elapsed]⟩, fun _ h => h, rfl, rfl, le_refl _⟩

theorem asked (w : World η) : Hooked allow w { w with history := w.history ++ [.asked] } :=
  ⟨.single .asked rfl rfl, fun _ => .inl rfl, ⟨[.asked], rfl, by simp [Note.OfHook]⟩, fun _ h => h, rfl, rfl, le_refl _⟩

theorem answered (w : World η) (k : Nat) (name : String) (operation : Operation) (ok : Bool) :
    Hooked allow w { w with history := w.history ++ [.answered k name operation ok] } :=
  ⟨.single (.answered k name operation ok) rfl rfl, fun _ => .inl rfl,
    ⟨[.answered k name operation ok], rfl, by simp [Note.OfHook]⟩, fun _ h => h, rfl, rfl, le_refl _⟩

/-- The guard's clock, sequences or leases change. -/
theorem tended {cause : Cause} {g : CommandGuard} {notes : List Note} (t : Tended w.guard g cause notes)
    (ofHook : ∀ n ∈ notes, n.OfHook) : Hooked allow w { w with guard := g, history := w.history ++ notes } := by
  refine ⟨.single (.tended cause g notes t) rfl rfl, fun _ => .inl rfl, ⟨notes, rfl, ofHook⟩, fun h hh => ?_, t.options,
    t.prefixId, t.nextId⟩
  by_contra hne
  obtain ⟨st, hst⟩ := Option.ne_none_iff_exists'.1 hne
  rcases t.change.origin hst with ⟨st₀, h₀, -⟩ | rfl
  · rw [hh] at h₀
    cases h₀
  · cases t.recorded

theorem clock {g : CommandGuard} (h : Ticked w.guard g) : Hooked allow w { w with guard := g } := by
  obtain ⟨t, -, rfl⟩ := h
  have same : Tended w.guard { w.guard with lastTime := t } .quiet [] := ⟨.same, .quiet, rfl, le_refl _, rfl, rfl, rfl⟩
  simpa using tended same (by simp)

/-- A postcondition of a hook, from where the hook starts to where the caller started. -/
theorem wp_trans {m : Code η α} (h : Hooked allow w w')
    (hm : wp m (fun _ => Hooked allow w') (fun _ => Hooked allow w') w') :
    wp m (fun _ => Hooked allow w) (fun _ => Hooked allow w) w' :=
  wp_mono hm (fun _ _ h' => h.trans h') (fun _ _ h' => h.trans h')

end Hooked

/-! ## Closing -/

section Closing

variable {allow : Allow} {env : Env η}

/-- A handle that a revocation leaves was there before. -/
theorem revoke_handles (sessionId h : String) (g : CommandGuard) (none : g.handles.get? h = none) :
    ((revokeSession sessionId).after g).handles.get? h = Option.none := by
  rw [revokeSession_after, Table.get?_filter, none]
  rfl

theorem Finished.hooked {k : Nat} {gone : List String} {w w' : World η} (isOpen : (w.routers k).closed = false)
    (all : allow.stuck ∨ ∀ s ∈ (w.routers k).subscriptions.keys, s ∈ gone) (h : Finished k gone w w') :
    Hooked allow w w' := by
  obtain ⟨only, tick, sources, rfl⟩ := h
  have others : ∀ j, j ≠ k → (w.finish k gone).routers j = w.routers j := fun j h => World.setRouter_ne w _ h
  have own : (w.finish k gone).routers k = (w.routers k).finished := World.setRouter_self _ _ _
  suffices finished : Hooked allow w (w.finish k gone) from finished.trans (.elapsed _ _ _)
  refine ⟨?_, fun j => ?_, ?_, fun h => revoke_handles _ _ _, rfl, rfl, le_refl _⟩
  · exact .step (.closed k gone isOpen only all) others (fun _ _ => .inl (by rw [own]; rfl)) rfl
  · by_cases e : j = k
    · subst e
      rw [own]
      have watched : (w.routers j).finished.watched ≤ (w.routers j).watched :=
        watched_mapValues rfl (by simp [Binding.released])
      exact .inr ⟨rfl, rfl, rfl, rfl, rfl, SessionRouter.depth_le watched (Nat.zero_le _),
        fun _ b => b.released, fun _ _ => rfl, rfl⟩
    · exact .inl (others j e)
  · exact ⟨_, rfl, by simp [Note.OfHook]⟩

theorem Torn.hooked {k : Nat} {w w' : World η} (isOpen : (w.routers k).closed = false)
    (torn : allow.torn ∨ w.media.closed = true) (h : Torn k w w') : Hooked allow w w' := by
  obtain ⟨v, n, tick, sources, video, rfl⟩ := h
  have others : ∀ j, j ≠ k → (w.tear k v n).routers j = w.routers j := fun j h => World.setRouter_ne w _ h
  have own : ((w.tear k v n).routers k).closed = true := by simp [World.tear]
  have step : Step allow w (w.tear k v n) := by
    refine .torn k v _ _ isOpen video torn (fun track b => ?_) fun m hm => ?_
    · split
      · exact ⟨rfl, fun attached => (by cases attached)⟩
      · exact ⟨rfl, id⟩
    · obtain ⟨track, -, rfl⟩ := List.mem_map.1 hm
      exact ⟨track, rfl⟩
  suffices closed : Hooked allow w (w.tear k v n) from closed.trans (.elapsed _ _ _)
  refine ⟨.step step others (fun _ _ => .inl own) rfl, fun j => ?_, ?_, fun h hh => hh, rfl, rfl, le_refl _⟩
  · by_cases e : j = k
    · subst e
      have torn : (w.tear j v n).routers j = { w.routers j with
          closed := true
          video := some { v with bound := v.bound.mapValues fun t b => if t ∈ v.bound.keys.take n then b.released else b }
          trace := (w.routers j).trace ++ ((v.bound.keys.take n).filter v.holds).map .detaching } := by simp [World.tear]
      rw [torn]
      refine .inr ⟨rfl, rfl, rfl, rfl, rfl, SessionRouter.depth_le (watched_mapValues (by rw [video]; rfl) fun t b => ?_) (le_refl _),
        fun t b => if t ∈ v.bound.keys.take n then b.released else b, fun t b => ?_, by rw [video]; rfl⟩
      · split <;> simp [Binding.released]
      · dsimp only
        split <;> rfl
    · exact .inl (others j e)
  · exact ⟨_, rfl, by simp [Note.OfHook]⟩

/-- Detaching viewers does not throw, unless that is allowed or the media plane is
closed: a viewer is attached to a track of the service only. -/
theorem detaches_of (permits : Permits allow env) {w : World η} (sane : w.Sane) (k n : Nat)
    (fine : ¬(allow.torn ∨ w.media.closed = true)) : Detaches env w.media n (w.routers k).attached := by
  rw [not_or, Bool.not_eq_true] at fine
  have returns := permits.detach.resolve_left fine.1
  have known : ∀ track ∈ (w.routers k).attached, track ∈ w.media.tracks := by
    intro track h
    obtain ⟨v, b, video, bound, attached⟩ := mem_attached.1 h
    exact sane.attached k v track b video bound attached
  generalize (w.routers k).attached = tracks at known
  induction tracks generalizing n with
  | nil => trivial
  | cons track tracks ih =>
    exact ⟨⟨returns n, known track List.mem_cons_self, fine.2⟩, ih (n + 1) fun t ht => known t (List.mem_cons_of_mem _ ht)⟩

/-- What happens when `close` throws. -/
def Breaks (allow : Allow) (w : World η) : Prop := allow.stuck ∨ allow.torn ∨ w.media.closed = true

theorem close_hooked (permits : Permits allow env) (k : Nat) (w : World η) (sane : w.Sane) :
    wp (close env k) (fun _ w' => Hooked allow w w' ∧ (w'.routers k).closed = true)
      (fun _ w' => (Hooked allow w w' ∧ (w'.routers k).closed = true) ∧ Breaks allow w) w := by
  cases isOpen : (w.routers k).closed with
  | true =>
    rw [close, wp_bind, wp_router, wp_when]
    exact ⟨fun h => absurd isOpen (by simpa using h), fun _ => ⟨.refl w, isOpen⟩⟩
  | false =>
    have finished : ∀ {gone w'}, Finished k gone w w' → (w'.routers k).closed = true := by
      rintro gone _ ⟨-, tick, sources, rfl⟩
      simp [World.elapsed, World.finish, SessionRouter.finished]
    have torn : ∀ {w'}, Torn k w w' → (w'.routers k).closed = true := by
      rintro _ ⟨v, n, tick, sources, -, rfl⟩
      simp [World.elapsed, World.tear]
    refine wp_mono (close_spec env k w isOpen) ?_ ?_
    · rintro _ w' ⟨-, gone, h, all⟩
      exact ⟨h.hooked isOpen (.inr all), finished h⟩
    · rintro _ w' (⟨-, stuck, gone, h⟩ | ⟨thrown, h⟩)
      · have stuck : allow.stuck := permits.unsubscribe.resolve_right stuck
        exact ⟨⟨h.hooked isOpen (.inl stuck), finished h⟩, .inl stuck⟩
      · have broken : allow.torn ∨ w.media.closed = true := by
          by_contra fine
          exact thrown (detaches_of permits sane k w.tick fine)
        exact ⟨⟨h.hooked isOpen broken, torn h⟩, .inr broken⟩

end Closing

/-! ## Reactions -/

section Reactions

variable {allow : Allow} {env : Env η}

theorem armFinish_hooked (sessionId handle : String) (clock : Session.Num) (w : World η) :
    wp (armFinish sessionId handle clock) (fun _ w' => Hooked allow w w' ∧ w'.routers = w.routers)
      (fun _ w' => Hooked allow w w' ∧ w'.routers = w.routers) w := by
  simp only [armFinish, wp_bind, wp_get, wp_onGuard, wp_note, wp_pure]
  refine wp_mono (armRest_spec sessionId handle clock w.guard) ?_ (fun _ g h => ⟨.clock h, trivial⟩)
  rintro lease g ⟨st, t, own, owner, rfl, -, free, rfl, rfl⟩
  refine ⟨.tended ⟨.armed sessionId handle st t _ own owner free, .armed sessionId handle t, rfl, Nat.le_succ _, rfl, rfl,
    rfl⟩ (by simp [Note.OfHook]), trivial⟩

theorem react_hooked (permits : Permits allow env) (reaction : Reaction) (mild : allow.wild ∨ reaction.Mild) (w : World η)
    (sane : w.Sane) : wp (react env reaction) (fun _ => Hooked allow w) (fun _ => Hooked allow w) w := by
  induction reaction generalizing w with
  | answer result =>
    rw [react, wp_ofExcept]
    exact ⟨fun _ _ => .refl w, fun _ _ => .refl w⟩
  | arm sessionId handle hook clock rest ihHook ihRest =>
    have wild : allow.wild := mild.resolve_right id
    have next : ∀ w₁, Hooked allow w w₁ → wp (react env rest) (fun _ => Hooked allow w) (fun _ => Hooked allow w) w₁ :=
      fun w₁ h₁ => h₁.wp_trans (ihRest (.inl wild) w₁ (h₁.trip.sane sane))
    simp only [react, wp_bind, wp_tryCatch, wp_onGuard, wp_note, wp_throwIf, wp_pure]
    refine wp_mono (armBegin_spec sessionId handle w.guard) ?_ ?_
    · rintro _ g rfl
      have h₁ : Hooked allow w { w with history := w.history ++ [.asked] } := .asked w
      refine wp_mono (ihHook (.inl wild) _ (h₁.trip.sane sane))
        (fun ok w₂ h₂ => ⟨fun _ => next w₂ (h₁.trans h₂), fun _ => ?_⟩) (fun _ w₂ h₂ => next w₂ (h₁.trans h₂))
      exact wp_mono (armFinish_hooked sessionId handle clock w₂) (fun _ w₃ h₃ => next w₃ ((h₁.trans h₂).trans h₃.1))
        (fun _ w₃ h₃ => next w₃ ((h₁.trans h₂).trans h₃.1))
    · rintro _ g rfl
      exact next _ (.refl w)
  | closeHandle sessionId handle rest ih =>
    have wild : allow.wild := mild.resolve_right id
    have next : ∀ w₁, Hooked allow w w₁ → wp (react env rest) (fun _ => Hooked allow w) (fun _ => Hooked allow w) w₁ :=
      fun w₁ h₁ => h₁.wp_trans (ih (.inl wild) w₁ (h₁.trip.sane sane))
    simp only [react, guardCloseHandle, wp_bind, wp_tryCatch, wp_onGuard, wp_note, wp_pure]
    refine wp_mono (closeHandle_spec sessionId handle w.guard) ?_ ?_
    · rintro _ g ⟨st, own, owner, rfl⟩
      refine next _ ⟨.single (.handleTaken sessionId handle st wild own owner) rfl rfl, fun _ => .inl rfl,
        ⟨_, rfl, by simp [Note.OfHook]⟩, fun h hh => ?_, rfl, rfl, le_refl _⟩
      rw [Table.get?_erase]
      split
      · rfl
      · exact hh
    · rintro _ g rfl
      exact next _ (.refl w)
  | revokeSession sessionId rest ih =>
    have wild : allow.wild := mild.resolve_right id
    rw [react, wp_bind, wp_onGuard, wp_revokeSession, wp_bind, wp_note]
    have revoked : Hooked allow w { w with
        guard := (revokeSession sessionId).after w.guard, history := w.history ++ [.revoked sessionId] } :=
      ⟨.single (.sessionTaken sessionId wild) rfl rfl, fun _ => .inl rfl, ⟨_, rfl, by simp [Note.OfHook]⟩,
        fun h => revoke_handles _ _ _, rfl, rfl, le_refl _⟩
    exact revoked.wp_trans (ih (.inl wild) _ (revoked.trip.sane sane))
  | closeRouter k rest ih =>
    have next : ∀ w₁, Hooked allow w w₁ → wp (react env rest) (fun _ => Hooked allow w) (fun _ => Hooked allow w) w₁ :=
      fun w₁ h₁ => h₁.wp_trans (ih mild w₁ (h₁.trip.sane sane))
    simp only [react, wp_bind, wp_tryCatch, wp_pure]
    exact wp_mono (close_hooked permits k w sane) (fun _ w₁ h₁ => next w₁ h₁.1) (fun _ w₁ h₁ => next w₁ h₁.1.1)

/-- A hook was evaluated. -/
structure Asked (allow : Allow) (w w' : World η) : Prop extends Hooked allow w w' where
  asked : ∃ after, w'.history = w.history ++ after ∧ .asked ∈ after ∧ ∀ n ∈ after, n.OfHook

theorem hook_asked (permits : Permits allow env) (reactions : Nat → Reaction)
    (mild : allow.wild ∨ ∀ n, (reactions n).Mild) (w : World η) (sane : w.Sane) :
    wp (hook env reactions) (fun _ => Asked allow w) (fun _ => Asked allow w) w := by
  rw [hook, wp_bind, wp_note, wp_bind, wp_ask]
  have h₁ : Hooked allow w { w with history := w.history ++ [.asked], tick := w.tick + 1 } :=
    (Hooked.asked w).trans (.elapsed _ _ _)
  have asked : ∀ w', Hooked allow { w with history := w.history ++ [.asked], tick := w.tick + 1 } w' → Asked allow w w' := by
    intro w' h
    refine ⟨h₁.trans h, ?_⟩
    obtain ⟨after, e, ofHook⟩ := h.notes
    refine ⟨.asked :: after, by rw [e, List.append_assoc]; rfl, by simp, fun n hn => ?_⟩
    rcases List.mem_cons.1 hn with rfl | hn
    · trivial
    · exact ofHook n hn
  exact wp_mono (react_hooked permits _ (mild.imp_right fun h => h _) _ (h₁.trip.sane sane)) (fun _ w' => asked w')
    (fun _ w' => asked w')

theorem Permits.authorize (permits : Permits allow env) : allow.wild ∨ ∀ n, (env.authorize n).Mild :=
  permits.hooks.imp_right fun h n => (h n).1

theorem Permits.guardAuthorize (permits : Permits allow env) : allow.wild ∨ ∀ n, (env.guardAuthorize n).Mild :=
  permits.hooks.imp_right fun h n => (h n).2.1

theorem Permits.videoAuthorize (permits : Permits allow env) : allow.wild ∨ ∀ n, (env.videoAuthorize n).Mild :=
  permits.hooks.imp_right fun h n => (h n).2.2

theorem guardAuthorize_asked (permits : Permits allow env) (w : World η) (sane : w.Sane) :
    wp (guardAuthorize env) (fun _ => Asked allow w) (fun _ => Asked allow w) w := by
  rw [guardAuthorize, wp_bind]
  refine wp_mono (hook_asked permits env.guardAuthorize permits.guardAuthorize w sane) (fun ok w₁ h => ?_) (fun _ _ h => h)
  rw [wp_throwIf]
  exact ⟨fun _ => h, fun _ => h⟩

/-- What `entry` has checked when it returns: a hook was asked and answered `true` just
now, and the router is open and as it was. -/
structure Entered (allow : Allow) (k : Nat) (name : String) (operation : Operation) (w : World η) (e : RouterBinding η)
    (w' : World η) : Prop extends Asked allow w w' where
  same : w'.routers k = w.routers k
  isOpen : (w.routers k).closed = false
  found : (w.routers k).entries.get? name = some e
  direction : e.binding.direction = operation.direction
  answered : ∃ before, w'.history = before ++ [.answered k e.binding.publicName operation true] ∧ w.history <+: before

theorem entry_entered (permits : Permits allow env) (k : Nat) (name : String) (operation : Operation) (w : World η)
    (sane : w.Sane) :
    wp (entry env k name operation) (fun e => Entered allow k name operation w e) (fun _ => Hooked allow w) w := by
  rw [entry, wp_bind, wp_router]
  split
  · exact .refl w
  · next e found =>
    simp only [allowed, wp_bind, wp_ite, wp_pure, wp_throwIf, wp_router, wp_note]
    refine ⟨fun direction => ?_, fun _ => ⟨fun _ => .refl w, fun h => absurd rfl h⟩⟩
    refine wp_mono (hook_asked permits env.authorize permits.authorize w sane) (fun ok w₁ h => ?_) (fun _ _ h => h.toHooked)
    have h₂ := h.toHooked.trans (.answered w₁ k e.binding.publicName operation ok)
    refine ⟨fun _ => h₂, fun granted => ⟨fun _ => h₂, fun isOpen => ?_⟩⟩
    obtain rfl : ok = true := by simpa using granted
    have isOpen : (w₁.routers k).closed = false := by simpa using isOpen
    have same := h.toHooked.router_eq isOpen
    obtain ⟨after, history, asked, ofHook⟩ := h.asked
    refine ⟨⟨h₂, after ++ [.answered k e.binding.publicName operation true], ?_, ?_, ?_⟩, same,
      same ▸ isOpen, found, direction, w₁.history, rfl, history ▸ List.prefix_append _ _⟩
    · simp [history]
    · simp [asked]
    · simpa [Note.OfHook, or_imp, forall_and] using ofHook

end Reactions

end RosBridge.Router
