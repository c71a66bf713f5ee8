import RosBridge.Router.Closing
import RosBridge.Router.Runs
/-!
# What is released

`close` releases everything exactly when no `detach` throws.
-/

namespace RosBridge.Router

open Lib Prog Session Config

variable {η : Type} {w w' : World η} {k : Nat}

/-- The track a mark says is being detached. -/
def Mark.detaching? : Mark η → Option String
  | .detaching track => some track
  | _ => none

/-- The stream a mark says is being unsubscribed. -/
def Mark.unsubscribing? : Mark η → Option String
  | .unsubscribing stream => some stream
  | _ => none

def Mark.isNotified : Mark η → Bool
  | .notified => true
  | _ => false

/-- What closing router `k` is for: the session is revoked, each listener and each
attached viewer is taken back once, nothing is left in the router, `onClosed` was called
once, and closing again does nothing. -/
structure Released (w : World η) (k : Nat) (w' : World η) : Prop where
  session : w'.guard.sessions.has (w.routers k).sessionId = false
  handles : ∀ h st, w'.guard.handles.get? h = some st → st.identity.sessionId ≠ (w.routers k).sessionId
  attempts : ∃ marks, (w'.routers k).trace = (w.routers k).trace ++ marks ∧
    marks.filterMap Mark.detaching? = (w.routers k).attached ∧
    marks.filterMap Mark.unsubscribing? = (w.routers k).subscriptions.keys ∧ marks.countP Mark.isNotified = 1
  subscriptions : (w'.routers k).subscriptions = .empty
  publishers : (w'.routers k).publishers = .empty
  queue : (w'.routers k).queue.streams = .empty ∧ (w'.routers k).queue.bytes = 0
  cache : (w'.routers k).cache.entries = .empty ∧ (w'.routers k).cache.bytes = 0
  again : ∀ env, (close env k).exec w' = (.ok (), w')

/-- A closed router has nothing left to close. -/
theorem close_closed (env : Env η) (closed : (w.routers k).closed = true) : (close env k).exec w = (.ok (), w) := by
  have alone : wp (close env k) (fun _ w' => w' = w) (fun _ _ => False) w := by
    rw [close, wp_bind, wp_router, wp_when]
    exact ⟨fun isOpen => by simp [closed] at isOpen, fun _ => rfl⟩
  rcases exec_cases alone with ⟨_, w', rfl, e⟩ | ⟨_, _, impossible, _⟩
  · exact e
  · exact impossible.elim

theorem Finished.released {gone : List String} (h : Finished k gone w w') : Released w k w' := by
  obtain ⟨-, tick, sources, rfl⟩ := h
  have record : ((w.finish k gone).elapsed tick sources).routers k = (w.routers k).finished := World.setRouter_self _ _ _
  refine ⟨?_, ?_, ⟨_, by rw [record]; rfl, ?_, ?_, ?_⟩, ?_, ?_, ?_, ?_, ?_⟩
  · simp [World.elapsed, World.finish, Table.has_erase]
  · intro h st found
    simp only [World.elapsed, World.finish, CommandGuard.revokeSession_after, Table.get?_filter] at found
    simpa using (Option.filter_eq_some_iff.1 found).2
  · simp [List.filterMap_append, List.filterMap_map, Function.comp_def, Mark.detaching?]
  · simp [List.filterMap_append, List.filterMap_map, Function.comp_def, Mark.unsubscribing?]
  · simp [List.countP_append, List.countP_map, Function.comp_def, Mark.isNotified]
  · rw [record]
    rfl
  · rw [record]
    rfl
  · rw [record]
    exact ⟨rfl, rfl⟩
  · rw [record]
    exact ⟨rfl, rfl⟩
  · intro env
    apply close_closed
    rw [record]
    rfl

/-- After a `detach` has thrown, `onClosed` was not called. -/
theorem Torn.unnotified (h : Torn k w w') : ¬Released w k w' := by
  obtain ⟨v, n, tick, sources, video, rfl⟩ := h
  intro released
  obtain ⟨marks, trace, -, -, notified⟩ := released.attempts
  have record : (((w.tear k v n).elapsed tick sources).routers k).trace =
      (w.routers k).trace ++ ((v.bound.keys.take n).filter v.holds).map .detaching := by
    simp [World.elapsed, World.tear]
  rw [record] at trace
  rw [← List.append_cancel_left trace] at notified
  simp [List.countP_map, Function.comp_def, Mark.isNotified] at notified

/-- `close` releases everything exactly when no attached viewer's `detach` throws. -/
theorem close_releases (env : Env η) (isOpen : (w.routers k).closed = false) :
    Released w k ((close env k).after w) ↔ Detaches env w.media w.tick (w.routers k).attached := by
  have spec := close_spec env k w isOpen
  have exact : wp (close env k) (fun _ w' => Released w k w' ↔ Detaches env w.media w.tick (w.routers k).attached)
      (fun _ w' => Released w k w' ↔ Detaches env w.media w.tick (w.routers k).attached) w := by
    refine wp_mono spec ?_ ?_
    · rintro _ w' ⟨detaches, gone, finished, -⟩
      exact iff_of_true finished.released detaches
    · rintro _ w' (⟨detaches, -, gone, finished⟩ | ⟨thrown, torn⟩)
      · exact iff_of_true finished.released detaches
      · exact iff_of_false torn.unnotified thrown
  exact after_of_wp (P := fun w' => Released w k w' ↔ Detaches env w.media w.tick (w.routers k).attached) exact

/-- An outside in which no viewer can be detached. -/
def Env.holding : Env Json := { Env.calm 0 with detach := fun _ => false }

/-- The peer's viewer is detached and everything released. -/
theorem close_releases_video :
    (videoBridge.routers 0).closed = false ∧ (videoBridge.routers 0).attached = ["front"] ∧
      Released videoBridge 0 ((close (Env.calm 0) 0).after videoBridge) := by
  obtain ⟨isOpen, attached, serves⟩ : (videoBridge.routers 0).closed = false ∧ (videoBridge.routers 0).attached = ["front"] ∧
      "front" ∈ videoBridge.media.tracks ∧ videoBridge.media.closed = false := by decide +kernel
  refine ⟨isOpen, attached, (close_releases (Env.calm 0) isOpen).2 ?_⟩
  rw [attached]
  exact ⟨⟨rfl, serves⟩, trivial⟩

/-- A `detach` that throws leaves the session with the guard. -/
theorem close_holds_session : (videoBridge.routers 0).closed = false ∧
    ¬Released videoBridge 0 ((close .holding 0).after videoBridge) := by
  refine ⟨by decide +kernel, fun released => ?_⟩
  have session := released.session
  revert session
  decide +kernel

end RosBridge.Router
