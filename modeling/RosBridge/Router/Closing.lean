import RosBridge.Router.Sane
import RosBridge.Session.GuardSpecs
/-!
# What `close` does

`close_spec` says exactly what a router leaves behind. It stops early when a `detach`
throws, and only then.
-/

namespace RosBridge.Router

open Lib Prog Session Config

variable {η α : Type}

/-! ## Rules for the primitives -/

section Rules

variable {E : String → World η → Prop} {w : World η}

@[simp] theorem wp_router {Q : SessionRouter η → World η → Prop} (k : Nat) :
    wp (router k) Q E w ↔ Q (w.routers k) w := Iff.rfl

@[simp] theorem wp_update {Q : Unit → World η → Prop} (k : Nat) (f : SessionRouter η → SessionRouter η) :
    wp (update k f) Q E w ↔ Q () (w.setRouter k (f (w.routers k))) := Iff.rfl

@[simp] theorem wp_mark {Q : Unit → World η → Prop} (k : Nat) (m : Mark η) :
    wp (mark k m) Q E w ↔ Q () (w.setRouter k ((w.routers k).marked m)) := Iff.rfl

@[simp] theorem wp_note {Q : Unit → World η → Prop} (n : Note) :
    wp (note n) Q E w ↔ Q () { w with history := w.history ++ [n] } := Iff.rfl

@[simp] theorem wp_ask {Q : α → World η → Prop} (answers : Nat → α) :
    wp (ask answers) Q E w ↔ Q (answers w.tick) { w with tick := w.tick + 1 } := Iff.rfl

@[simp] theorem wp_onGuard {Q : α → World η → Prop} (m : CommandGuard.GuardM α) :
    wp (onGuard m) Q E w ↔
      wp m (fun a g => Q a { w with guard := g }) (fun e g => E e { w with guard := g }) w.guard := by
  rw [onGuard, wp_zoom]

@[simp] theorem wp_onQueue {Q : α → World η → Prop} (k : Nat) (m : QueueM Bytes α) :
    wp (onQueue k m) Q E w ↔
      wp m (fun a q => Q a (w.setRouter k { w.routers k with queue := q }))
        (fun e q => E e (w.setRouter k { w.routers k with queue := q })) (w.routers k).queue := by
  rw [onQueue, wp_zoom]

@[simp] theorem wp_onCache {Q : α → World η → Prop} (k : Nat) (m : RequestCache.CacheM α) :
    wp (onCache k m) Q E w ↔
      wp m (fun a c => Q a (w.setRouter k { w.routers k with cache := c }))
        (fun e c => E e (w.setRouter k { w.routers k with cache := c })) (w.routers k).cache := by
  rw [onCache, wp_zoom]

@[simp] theorem wp_bindingOf {Q : Option Binding → World η → Prop} (k : Nat) (track : String) :
    wp (bindingOf k track) Q E w ↔ Q ((w.routers k).video.bind fun v => v.bound.get? track) w := Iff.rfl

@[simp] theorem wp_setBinding {Q : Unit → World η → Prop} (k : Nat) (track : String) (f : Binding → Binding) :
    wp (setBinding k track f) Q E w ↔ Q () (w.setRouter k ((w.routers k).flag track f)) := Iff.rfl

end Rules

@[simp] theorem World.setRouter_setRouter (w : World η) (k : Nat) (r r' : SessionRouter η) :
    (w.setRouter k r).setRouter k r' = w.setRouter k r' := by
  simp only [World.setRouter, World.mk.injEq, true_and, and_true]
  funext j
  split <;> rfl

/-- Worlds with the same routers that agree in the rest. -/
theorem World.eq_of {w w' : World η} (routers : ∀ j, w.routers j = w'.routers j)
    (rest : { w with routers := w'.routers } = w') : w = w' := by
  rw [← rest, ← funext routers]

/-- The world at another tick and with other sources: what the outside changes. -/
def World.elapsed (w : World η) (tick : Nat) (sources : String → Media.SourceSystem ViewerId) : World η :=
  { w with tick := tick, media := { w.media with sources := sources } }

theorem World.elapsed_self (w : World η) : w.elapsed w.tick w.media.sources = w := rfl

/-! ## Detaching -/

/-- The viewer of a track is being detached, if it is attached. -/
def SessionRouter.release (r : SessionRouter η) (track : String) : SessionRouter η :=
  { r with
    video := r.video.map fun v => { v with bound := v.bound.modify track Binding.released }
    trace := r.trace ++ if track ∈ r.attached then [.detaching track] else [] }

/-- Detaching these tracks, one after the other from tick `n` on, does not throw. -/
def Detaches (env : Env η) (media : MediaService) : Nat → List String → Prop
  | _, [] => True
  | n, track :: tracks =>
    (env.detach n = true ∧ track ∈ media.tracks ∧ media.closed = false) ∧ Detaches env media (n + 1) tracks

theorem mem_attached {r : SessionRouter η} {track : String} :
    track ∈ r.attached ↔ ∃ v b, r.video = some v ∧ v.bound.get? track = some b ∧ b.attached = true := by
  unfold SessionRouter.attached
  split
  · next h => simp [h]
  · next v h =>
    simp only [List.mem_filter, VideoRouter.holds, Option.any_eq_true, Table.mem_keys_iff]
    constructor
    · rintro ⟨-, b, hb, ha⟩
      exact ⟨v, b, h, hb, ha⟩
    · rintro ⟨v', b, h', hb, ha⟩
      obtain rfl := Option.some.inj (h.symm.trans h')
      exact ⟨⟨b, hb⟩, b, hb, ha⟩

theorem held_iff {r : SessionRouter η} {track : String} {b : Binding}
    (bound : (r.video.bind fun v => v.bound.get? track) = some b) : track ∈ r.attached ↔ b.attached = true := by
  obtain ⟨v, hv, hb⟩ := Option.bind_eq_some_iff.1 bound
  rw [mem_attached]
  constructor
  · rintro ⟨v', b', hv', hb', ha⟩
    obtain rfl := Option.some.inj (hv.symm.trans hv')
    exact Option.some.inj (hb.symm.trans hb') ▸ ha
  · exact fun ha => ⟨v, b, hv, hb, ha⟩

/-- Nothing is released for a track without a slot. -/
theorem release_unbound {r : SessionRouter η} {track : String}
    (unbound : (r.video.bind fun v => v.bound.get? track) = none) : track ∉ r.attached ∧ r.release track = r := by
  have loose : track ∉ r.attached := by
    rw [mem_attached]
    rintro ⟨v, b, hv, hb, -⟩
    simp [hv, hb] at unbound
  refine ⟨loose, ?_⟩
  rw [SessionRouter.release, if_neg loose, List.append_nil]
  cases hv : r.video with
  | none => rw [Option.map_none, ← hv]
  | some v =>
    rw [hv] at unbound
    rw [Option.map_some, Table.modify_of_get?_none _ unbound, ← hv]

/-- A track that is not attached is released by no longer being watched. -/
theorem released_once {r : SessionRouter η} {track : String} {b : Binding}
    (bound : (r.video.bind fun v => v.bound.get? track) = some b) (loose : track ∉ r.attached) :
    r.release track = r.flag track fun b => { b with watching := false } := by
  obtain ⟨v, hv, hb⟩ := Option.bind_eq_some_iff.1 bound
  have detached : b.attached = false := by simpa using fun h => loose ((held_iff bound).2 h)
  have same : ∀ b', v.bound.get? track = some b' → b'.released = { b' with watching := false } := by
    intro b' hb'
    obtain rfl := Option.some.inj (hb.symm.trans hb')
    rw [Binding.released, ← detached]
  rw [SessionRouter.release, SessionRouter.flag, if_neg loose, List.append_nil, hv, Option.map_some, Option.map_some,
    Table.modify_congr same]

theorem released_twice {r : SessionRouter η} {track : String} (held : track ∈ r.attached) :
    ((r.flag track fun b => { b with watching := false }).flag track fun b => { b with attached := false }).marked
      (.detaching track) = r.release track := by
  rw [SessionRouter.release, if_pos held]
  cases hv : r.video with
  | none => simp only [SessionRouter.flag, SessionRouter.marked, hv, Option.map_none]
  | some v =>
    simp only [SessionRouter.flag, SessionRouter.marked, hv, Option.map_some, Table.modify_modify]
    rfl

section Detaching

variable (env : Env η) (k : Nat)

theorem release_spec (track : String) (w : World η) :
    wp (release env k track)
      (fun _ w' => (track ∈ (w.routers k).attached →
          env.detach w.tick = true ∧ track ∈ w.media.tracks ∧ w.media.closed = false) ∧
        ∃ sources, w' = (w.setRouter k ((w.routers k).release track)).elapsed
          (if track ∈ (w.routers k).attached then w.tick + 1 else w.tick) sources)
      (fun _ w' => (track ∈ (w.routers k).attached ∧
          ¬(env.detach w.tick = true ∧ track ∈ w.media.tracks ∧ w.media.closed = false)) ∧
        w' = (w.setRouter k ((w.routers k).release track)).elapsed (w.tick + 1) w.media.sources) w := by
  set r := w.routers k with hr
  rw [release, wp_bind, wp_bindingOf, ← hr]
  split
  · next unbound =>
    obtain ⟨loose, same⟩ := release_unbound unbound
    refine ⟨fun h => absurd h loose, w.media.sources, ?_⟩
    rw [if_neg loose, same, hr, World.setRouter_same, World.elapsed_self]
  · next b bound =>
    rw [wp_bind, wp_setBinding, wp_when]
    refine ⟨fun attached => ?_, fun attached => ?_⟩
    · have held := (held_iff bound).2 attached
      simp only [detach, wp_bind, wp_setBinding, wp_mark, wp_ask, wp_throwIf, wp_get, wp_modify, World.setRouter_self,
        World.setRouter_setRouter, ← hr, released_twice held]
      refine ⟨fun refused => ?_, fun answered => ⟨fun gone => ?_, fun here => ?_⟩⟩
      · exact ⟨⟨held, fun h => by simp [h.1] at refused⟩, rfl⟩
      · refine ⟨⟨held, fun h => ?_⟩, rfl⟩
        rcases gone with absent | closed
        · exact absent h.2.1
        · exact absurd (h.2.2.symm.trans closed) (by simp)
      · rw [not_or, not_not, Bool.not_eq_true] at here
        refine ⟨fun _ => ⟨by simpa using answered, here⟩,
          fun t => if t = track then (w.media.sources t).remove (k, track) else w.media.sources t, ?_⟩
        rw [if_pos held]
        rfl
    · have loose : track ∉ r.attached := fun h => attached ((held_iff bound).1 h)
      refine ⟨fun h => absurd h loose, w.media.sources, ?_⟩
      rw [if_neg loose, released_once bound loose]
      rfl

theorem detaches_elapsed (w : World η) (r : SessionRouter η) (tick n : Nat) (sources : String → Media.SourceSystem ViewerId)
    (tracks : List String) :
    Detaches env ((w.setRouter k r).elapsed tick sources).media n tracks ↔ Detaches env w.media n tracks := by
  induction tracks generalizing n with
  | nil => exact Iff.rfl
  | cons track tracks ih =>
    rw [Detaches, Detaches, ih]
    rfl

/-- Releasing one track leaves the others attached or not, as they were. -/
theorem attached_release (r : SessionRouter η) {track other : String} (h : other ≠ track) :
    other ∈ (r.release track).attached ↔ other ∈ r.attached := by
  simp only [mem_attached, SessionRouter.release]
  constructor
  · rintro ⟨v', b, hv', hb, ha⟩
    obtain ⟨v, hv, rfl⟩ := Option.map_eq_some_iff.1 hv'
    rw [Table.get?_modify, if_neg h] at hb
    exact ⟨v, b, hv, hb, ha⟩
  · rintro ⟨v, b, hv, hb, ha⟩
    exact ⟨_, b, by rw [hv]; rfl, by rw [Table.get?_modify, if_neg h, hb], ha⟩

/-- Every track up to the first whose `detach` throws is released. -/
theorem releaseAll_spec (tracks : List String) (nodup : tracks.Nodup) (w : World η) :
    wp (releaseAll env k tracks)
      (fun _ w' => Detaches env w.media w.tick (tracks.filter (· ∈ (w.routers k).attached)) ∧
        ∃ tick sources, w' = (w.setRouter k (tracks.foldl SessionRouter.release (w.routers k))).elapsed tick sources)
      (fun _ w' => ¬Detaches env w.media w.tick (tracks.filter (· ∈ (w.routers k).attached)) ∧
        ∃ n tick sources,
          w' = (w.setRouter k ((tracks.take n).foldl SessionRouter.release (w.routers k))).elapsed tick sources) w := by
  induction tracks generalizing w with
  | nil =>
    refine ⟨trivial, w.tick, w.media.sources, ?_⟩
    rw [List.foldl_nil, World.setRouter_same, World.elapsed_self]
  | cons track tracks ih =>
    obtain ⟨other, nodup⟩ := List.nodup_cons.1 nodup
    rw [releaseAll, wp_bind]
    refine wp_mono (release_spec env k track w) ?_ ?_
    · rintro _ _ ⟨answered, sources, rfl⟩
      set tick := if track ∈ (w.routers k).attached then w.tick + 1 else w.tick with htick
      have now : ((w.setRouter k ((w.routers k).release track)).elapsed tick sources).routers k =
          (w.routers k).release track := World.setRouter_self _ _ _
      -- The rest of the tracks are attached or not as before.
      have rest : tracks.filter (· ∈ ((w.routers k).release track).attached) = tracks.filter (· ∈ (w.routers k).attached) := by
        refine List.filter_congr fun t ht => ?_
        simp only [attached_release (w.routers k) fun e : t = track => other (e ▸ ht)]
      have whole : Detaches env w.media w.tick ((track :: tracks).filter (· ∈ (w.routers k).attached)) ↔
          Detaches env w.media tick (tracks.filter (· ∈ (w.routers k).attached)) := by
        by_cases held : track ∈ (w.routers k).attached
        · simp only [List.filter_cons, held, decide_true, if_true, Detaches, htick]
          exact and_iff_right (answered held)
        · simp only [List.filter_cons, held, decide_false, htick]
          exact Iff.rfl
      have again : ∀ (r : SessionRouter η) (n : Nat) (s : String → Media.SourceSystem ViewerId),
          (((w.setRouter k ((w.routers k).release track)).elapsed tick sources).setRouter k r).elapsed n s =
            (w.setRouter k r).elapsed n s := by
        intro r n s
        rw [← World.setRouter_setRouter w k ((w.routers k).release track) r]
        rfl
      have ih := ih nodup ((w.setRouter k ((w.routers k).release track)).elapsed tick sources)
      simp only [now, rest, detaches_elapsed, again] at ih
      rw [whole]
      refine wp_mono ih ?_ ?_
      · rintro _ _ ⟨detaches, n, s, rfl⟩
        exact ⟨detaches, n, s, rfl⟩
      · rintro _ _ ⟨thrown, m, n, s, rfl⟩
        exact ⟨thrown, m + 1, n, s, rfl⟩
    · rintro _ _ ⟨⟨held, thrown⟩, rfl⟩
      refine ⟨?_, 1, w.tick + 1, w.media.sources, rfl⟩
      simp only [List.filter_cons, held, decide_true, if_true, Detaches]
      exact fun h => thrown h.1

end Detaching

/-! ## What is left of the video of a closed router -/

/-- The tracks released so far. -/
theorem foldl_release (r : SessionRouter η) {v : VideoRouter} (video : r.video = some v) (tracks : List String)
    (nodup : tracks.Nodup) :
    tracks.foldl SessionRouter.release r = { r with
      video := some { v with bound := v.bound.mapValues fun t b => if t ∈ tracks then b.released else b }
      trace := r.trace ++ (tracks.filter v.holds).map .detaching } := by
  induction tracks generalizing r v with
  | nil =>
    have same : (v.bound.mapValues fun t b => if t ∈ ([] : List String) then b.released else b) = v.bound := by
      simp [Table.mapValues]
    rw [List.foldl_nil, same, List.filter_nil, List.map_nil, List.append_nil, ← video]
  | cons track tracks ih =>
    obtain ⟨other, nodup⟩ := List.nodup_cons.1 nodup
    set v₁ : VideoRouter := { v with bound := v.bound.modify track Binding.released } with hv₁
    have video₁ : (r.release track).video = some v₁ := by rw [SessionRouter.release, video, Option.map_some]
    have holds : tracks.filter v₁.holds = tracks.filter v.holds := by
      refine List.filter_congr fun t ht => ?_
      have ne : t ≠ track := fun e => other (e ▸ ht)
      simp only [VideoRouter.holds, hv₁, Table.get?_modify, if_neg ne]
    have held : track ∈ r.attached ↔ v.holds track = true := by
      rw [mem_attached, VideoRouter.holds, Option.any_eq_true]
      constructor
      · rintro ⟨v', b, hv', hb, ha⟩
        obtain rfl := Option.some.inj (video.symm.trans hv')
        exact ⟨b, hb, ha⟩
      · rintro ⟨b, hb, ha⟩
        exact ⟨v, b, video, hb, ha⟩
    have bound : (v₁.bound.mapValues fun t b => if t ∈ tracks then b.released else b) =
        v.bound.mapValues fun t b => if t ∈ track :: tracks then b.released else b := by
      simp only [hv₁, Table.modify, Table.mapValues, List.map_map, Table.mk.injEq]
      refine List.map_congr_left fun e _ => ?_
      by_cases h : e.1 = track
      · simp [h, other]
      · simp [h]
    rw [List.foldl_cons, ih (r.release track) video₁ nodup, bound, holds]
    simp only [SessionRouter.release, List.append_assoc, List.filter_cons]
    by_cases h : v.holds track = true
    · rw [if_pos (held.2 h), if_pos h]
      rfl
    · rw [if_neg fun e => h (held.1 e), if_neg h]
      rfl

/-! ## Unsubscribing -/

section Closing

variable (env : Env η) (k : Nat)

theorem wp_revokeSession {Q : Unit → CommandGuard → Prop} {E : String → CommandGuard → Prop} (sessionId : String)
    (g : CommandGuard) : wp (CommandGuard.revokeSession sessionId) Q E g ↔
      Q () ((CommandGuard.revokeSession sessionId).after g) := Iff.rfl

theorem unsubscribeAll_spec (streams : List String) (w : World η) :
    wp (unsubscribeAll env k streams)
      (fun ok w' => ∃ gone tick, (∀ s ∈ gone, s ∈ streams) ∧ (ok = true → ∀ s ∈ streams, s ∈ gone) ∧
        ((∀ n, env.unsubscribe n = true) → ok = true) ∧
        w' = { w.setRouter k { w.routers k with trace := (w.routers k).trace ++ streams.map .unsubscribing } with
          tick := tick
          listeners := unheard k gone w.listeners })
      (fun _ _ => False) w := by
  induction streams generalizing w with
  | nil =>
    have all : unheard k [] w.listeners = w.listeners := by simp [unheard]
    refine ⟨[], w.tick, by simp, by simp, by simp, ?_⟩
    rw [all, List.map_nil, List.append_nil, World.setRouter_same]
  | cons stream streams ih =>
    simp only [unsubscribeAll, unsubscribe, wp_bind, wp_tryCatch, wp_pure, wp_mark, wp_ask, wp_throwIf, wp_modify,
      World.setRouter_tick]
    refine ⟨fun thrown => ?_, fun returned => ?_⟩
    · refine wp_mono (ih _) ?_ fun _ _ h => h
      rintro rest _ ⟨gone, tick, only, all, never, rfl⟩
      refine ⟨gone, tick, fun s hs => List.mem_cons_of_mem _ (only s hs), by simp, fun h => by simp [h] at thrown, ?_⟩
      refine World.eq_of (fun j => ?_) rfl
      by_cases h : j = k <;> simp [World.setRouter, SessionRouter.marked, h]
    · refine wp_mono (ih _) ?_ fun _ _ h => h
      rintro rest _ ⟨gone, tick, only, all, never, rfl⟩
      refine ⟨stream :: gone, tick, ?_, ?_, fun h => by rw [never h]; rfl, ?_⟩
      · rintro s hs
        rcases List.mem_cons.1 hs with rfl | hs
        · exact List.mem_cons_self
        · exact List.mem_cons_of_mem _ (only s hs)
      · rintro ok s hs
        rcases List.mem_cons.1 hs with rfl | hs
        · exact List.mem_cons_self
        · exact List.mem_cons_of_mem _ (all (by simpa using ok) s hs)
      · have both : unheard k gone (w.listeners.filter (· ≠ (k, stream))) = unheard k (stream :: gone) w.listeners := by
          simp only [unheard, List.filter_filter]
          refine List.filter_congr fun l _ => ?_
          obtain ⟨j, s⟩ := l
          by_cases h : j = k <;> by_cases h' : s = stream <;> simp [h, h']
        rw [← both]
        refine World.eq_of (fun j => ?_) rfl
        by_cases h : j = k <;> simp [World.setRouter, SessionRouter.marked, h]

/-- The router of a call that has detached every viewer. -/
def SessionRouter.detached (r : SessionRouter η) : SessionRouter η :=
  { r with
    video := r.video.map fun v => { v with bound := v.bound.mapValues fun _ b => b.released }
    trace := r.trace ++ r.attached.map .detaching }

theorem filter_attached {r : SessionRouter η} {v : VideoRouter} (video : r.video = some v) :
    v.bound.keys.filter (· ∈ r.attached) = r.attached := by
  have attached : r.attached = v.bound.keys.filter v.holds := by simp only [SessionRouter.attached, video]
  rw [attached]
  refine List.filter_congr fun t ht => ?_
  simp [List.mem_filter, ht]

theorem videoClose_spec (w : World η) :
    wp (videoClose env k)
      (fun _ w' => Detaches env w.media w.tick (w.routers k).attached ∧
        ∃ tick sources, w' = (w.setRouter k (w.routers k).detached).elapsed tick sources)
      (fun _ w' => ¬Detaches env w.media w.tick (w.routers k).attached ∧ ∃ v n tick sources, (w.routers k).video = some v ∧
        w' = (w.setRouter k ((v.bound.keys.take n).foldl SessionRouter.release (w.routers k))).elapsed tick sources) w := by
  rw [videoClose, wp_bind, wp_router]
  split
  · next video =>
    have none : (w.routers k).attached = [] := by simp only [SessionRouter.attached, video]
    refine ⟨by rw [none]; trivial, w.tick, w.media.sources, ?_⟩
    rw [SessionRouter.detached, none, video, Option.map_none, List.map_nil, List.append_nil, ← video, World.setRouter_same,
      World.elapsed_self]
  · next v video =>
    have spec := releaseAll_spec env k v.bound.keys v.bound.nodup w
    rw [filter_attached video] at spec
    have whole : v.bound.keys.foldl SessionRouter.release (w.routers k) = (w.routers k).detached := by
      have all : (v.bound.mapValues fun t b => if t ∈ v.bound.keys then b.released else b) =
          v.bound.mapValues fun _ b => b.released := by
        refine Table.ext_entries (List.map_congr_left fun e he => ?_)
        have : e.1 ∈ v.bound.keys := List.mem_map.2 ⟨e, he, rfl⟩
        simp [this]
      rw [foldl_release _ video v.bound.keys v.bound.nodup, all, SessionRouter.detached, video, Option.map_some]
      simp only [SessionRouter.attached, video]
    rw [whole] at spec
    refine wp_mono spec (fun _ _ h => h) ?_
    rintro _ _ ⟨thrown, n, tick, sources, rfl⟩
    exact ⟨thrown, v, n, tick, sources, video, rfl⟩

/-- What a `close` leaves that a `detach` has stopped. -/
def World.tear (w : World η) (k : Nat) (v : VideoRouter) (n : Nat) : World η :=
  { w.setRouter k { w.routers k with
      closed := true
      video := some { v with bound := v.bound.mapValues fun t b => if t ∈ v.bound.keys.take n then b.released else b }
      trace := (w.routers k).trace ++ ((v.bound.keys.take n).filter v.holds).map .detaching } with
    history := w.history ++ [.shut k] }

/-- Everything was released; the listeners of the streams `gone` are gone. -/
def Finished (k : Nat) (gone : List String) (w w' : World η) : Prop :=
  (∀ s ∈ gone, s ∈ (w.routers k).subscriptions.keys) ∧ ∃ tick sources, w' = (w.finish k gone).elapsed tick sources

/-- A `detach` has thrown. -/
def Torn (k : Nat) (w w' : World η) : Prop :=
  ∃ v n tick sources, (w.routers k).video = some v ∧ w' = (w.tear k v n).elapsed tick sources

/-- Either every `detach` returns and everything is released, or one throws and `close`
stops there. An `unsubscribe` that throws stops nothing. -/
theorem close_spec (w : World η) (isOpen : (w.routers k).closed = false) :
    wp (close env k)
      (fun _ w' => Detaches env w.media w.tick (w.routers k).attached ∧
        ∃ gone, Finished k gone w w' ∧ ∀ s ∈ (w.routers k).subscriptions.keys, s ∈ gone)
      (fun _ w' =>
        Detaches env w.media w.tick (w.routers k).attached ∧ (¬∀ n, env.unsubscribe n = true) ∧
          (∃ gone, Finished k gone w w') ∨
        ¬Detaches env w.media w.tick (w.routers k).attached ∧ Torn k w w') w := by
  set r := w.routers k with hr
  rw [close, wp_bind, wp_router, ← hr, wp_when]
  refine ⟨fun _ => ?_, fun h => absurd isOpen (by simpa using h)⟩
  rw [wp_bind, wp_update, wp_bind, wp_note]
  set w₁ : World η := { w.setRouter k { w.routers k with closed := true } with
    history := (w.setRouter k { w.routers k with closed := true }).history ++ [.shut k] } with hw₁
  have r₁ : w₁.routers k = { r with closed := true } := World.setRouter_self _ _ _
  have attached : (w₁.routers k).attached = r.attached := by rw [r₁]; rfl
  have video : (w₁.routers k).video = r.video := by rw [r₁]
  rw [wp_bind]
  refine wp_mono (videoClose_spec env k w₁) ?_ ?_
  · rw [attached]
    rintro _ _ ⟨detaches, tick, sources, rfl⟩
    rw [wp_bind, wp_onGuard, wp_revokeSession, wp_bind, wp_note, wp_bind]
    refine wp_mono (unsubscribeAll_spec env k r.subscriptions.keys _) ?_ fun _ _ h => h.elim
    rintro ok _ ⟨gone, tick', only, all, never, rfl⟩
    rw [wp_bind, wp_update, wp_bind, wp_mark, wp_throwIf]
    -- Whether or not an `unsubscribe` threw, everything is released.
    have done : ∀ w', Finished k gone w w' →
        ((!ok) = true → Detaches env w.media w.tick r.attached ∧ (¬∀ n, env.unsubscribe n = true) ∧
          (∃ gone, Finished k gone w w') ∨ ¬Detaches env w.media w.tick r.attached ∧ Torn k w w') ∧
        (¬(!ok) = true → Detaches env w.media w.tick r.attached ∧
          ∃ gone, Finished k gone w w' ∧ ∀ s ∈ r.subscriptions.keys, s ∈ gone) := by
      refine fun w' h => ⟨fun thrown => .inl ⟨detaches, fun h => ?_, gone, h⟩,
        fun returned => ⟨detaches, gone, h, all (by simpa using returned)⟩⟩
      rw [never h] at thrown
      cases thrown
    refine done _ ⟨only, tick', sources, World.eq_of (fun j => ?_) ?_⟩
    · by_cases h : j = k
      · simp [h, World.finish, World.elapsed, World.setRouter_self, SessionRouter.marked, SessionRouter.detached, r₁]
        rw [← hr, SessionRouter.finished]
        simp only [List.append_assoc]
        rfl
      · simp [World.finish, World.elapsed, World.setRouter_ne _ _ h, hw₁]
    · simp [World.finish, World.elapsed, hw₁, ← hr]
  · rw [attached, video]
    rintro _ _ ⟨thrown, v, n, tick, sources, video, rfl⟩
    refine .inr ⟨thrown, v, n, tick, sources, video, World.eq_of (fun j => ?_) rfl⟩
    by_cases h : j = k
    · have released := foldl_release (w₁.routers k) (by rw [r₁]; exact video) (v.bound.keys.take n)
        (v.bound.nodup.sublist (List.take_sublist n _))
      rw [h, released, r₁]
      simp [World.tear, World.elapsed, ← hr]
    · simp [World.tear, World.elapsed, World.setRouter_ne _ _ h, hw₁]

end Closing

end RosBridge.Router
