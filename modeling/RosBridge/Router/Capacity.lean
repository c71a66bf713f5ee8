import Mathlib.Algebra.Order.BigOperators.Group.List
import Mathlib.Data.List.Perm.Subperm
import RosBridge.Router.Accounting
import RosBridge.Router.Inputs
import RosBridge.Router.Returning
/-!
# How much of the guard routers take up

The guard counts sessions and handles for all routers together. Where the open routers
are among a list of routers, each allowed so many handles, the guard holds no more
sessions than that list is long (`Housed.sessions_le`) and no more handles than all of
these are allowed together (`Housed.handles_lt`).
-/

namespace RosBridge.Router

open Lib Prog Session Config Relation CommandGuard

variable {η : Type} {allow : Allow} {w w' : World η} {H : Nat} {ks : List Nat}

/-- The limits of the guard never change. -/
theorem Step.guard_options (s : Step allow w w') : w'.guard.options = w.guard.options := by
  cases s with
  | tended cause g notes tended => exact tended.options
  | sessionTaken | closed => simp [World.finish]
  | _ => rfl

theorem Goes.guard_options (g : Goes allow w w') : w'.guard.options = w.guard.options := by
  induction g with
  | refl => rfl
  | tail _ s ih => exact s.guard_options.trans ih

/-- Hooks only answer and close routers, and neither listeners nor viewers are left behind. -/
def Allow.tidy : Allow := ⟨True, False, False, False, True, True⟩

/-- The accounts of every router, with media or without. -/
structure Ledger (w : World η) : Prop where
  sane : w.Sane
  named : Named w
  accounted : ∀ k, k < w.born → Accounted w k

theorem Ledger.step (h : Ledger w) (s : Step .tidy w w') (whole : w.media.closed = true → ∀ k, (w.routers k).closed = true) :
    Ledger w' := by
  refine ⟨s.sane h.sane, s.named h.sane h.named, fun k born => ?_⟩
  by_cases old : k < w.born
  · refine s.accounted id id h.sane h.named old ?_ (h.accounted k old)
    by_cases closed : w.media.closed = true
    · exact .inl (whole closed k)
    · exact .inr (.inr (not_or.2 ⟨id, closed⟩))
  · exact s.accounted_born h.named (s.new old born)

/-- The media service is closed only when no router is open. -/
theorem Ledger.goes (h : Ledger w) (g : Goes .tidy w w')
    (whole : w'.media.closed = true → w'.born = w.born ∧ ∀ k, (w.routers k).closed = true) : Ledger w' := by
  induction g with
  | refl => exact h
  | tail before s ih =>
    have earlier := fun closed => whole (s.media_closed closed)
    refine (ih fun closed => ⟨?_, (earlier closed).2⟩).step s fun closed k => ?_
    · exact le_antisymm ((earlier closed).1 ▸ s.born) (Goes.born before)
    · by_cases old : k < w.born
      · exact (Goes.kept before old).closed ((earlier closed).2 k)
      · exact (Goes.sane before h.sane).unborn k (((earlier closed).1 ▸ s.born).trans (not_lt.1 old))

/-- A closed guard owes nothing to routers that are closed. -/
theorem Ledger.guardClosed (h : Ledger w) (closed : ∀ k, (w.routers k).closed = true) :
    Ledger { w with guard := { w.guard with closed := true, sessions := .empty, handles := .empty } } := by
  refine ⟨{ h.sane with handles := by simp }, { h.named with sessions := by simp [Table.has], owners := by simp }, fun k born => ?_⟩
  refine ⟨fun isOpen => absurd isOpen (by simp [closed k]), fun ended => ⟨?_, rfl⟩⟩
  exact { ((h.accounted k born).ended ended).1 with owns := by simp [Owned] }

/-- Closed routers have no listeners. -/
theorem Ledger.unheard (h : Ledger w) (closed : ∀ k, (w.routers k).closed = true) : Ledger { w with listeners := [] } := by
  refine ⟨{ h.sane with }, { h.named with listeners := by simp }, fun k born => ?_⟩
  refine ⟨fun isOpen => absurd isOpen (by simp [closed k]), fun ended => ?_⟩
  obtain ⟨emptied, gone⟩ := (h.accounted k born).ended ended
  exact ⟨{ emptied with heard := by simp [World.heard] }, gone⟩

/-- A router is constructed, or nothing is. -/
theorem construct_housed {env : Env η} (makes : allow.makes) (options : RouterOptions η)
    (handles : positiveLimit options.maxHandles = some H) (w : World η) (sane : w.Sane) : wp (construct env options)
      (fun _ w' => Trip allow none w w' ∧ w'.born = w.born + 1 ∧ (w'.routers w.born).limits.maxHandles = H)
      (fun _ w' => Trip allow none w w' ∧ w'.born = w.born) w := by
  have walked : Walks allow none (construct env options) w _ := construct_walks makes options w sane
  have failed : wp (construct env options) (fun _ _ => True) (fun _ w' => w'.born = w.born) w := by
    simp only [construct, wp_bind, wp_get, wp_ofExcept, wp_ask]
    refine ⟨fun r _ => ?_, fun _ _ => trivial⟩
    split
    · rfl
    · simp only [wp_bind, wp_throwIf, wp_onGuard, wp_modify, implies_true, true_and]
      exact fun _ => wp_mono (wp_trivial _ _) (fun _ _ _ => trivial) fun _ _ _ => trivial
  refine wp_mono (wp_and walked (wp_and (construct_spec options w) failed)) ?_ fun _ _ h => ⟨h.1, h.2.2⟩
  rintro _ w' ⟨⟨trip, -⟩, ⟨born, r, sessionId, t, made, here⟩, -⟩
  refine ⟨trip, born, ?_⟩
  obtain ⟨limits, entries, valid, -, -, rfl⟩ := router_made made
  rw [here]
  unfold RouterOptions.limits at valid
  rw [handles] at valid
  split at valid
  · next same _ _ _ =>
    obtain rfl := Except.ok.inj valid
    exact (Option.some.inj same).symm
  · cases valid

/-- Each router may have `H` handles, and the open ones are among `ks`. -/
structure Housed (w : World η) (H : Nat) (ks : List Nat) : Prop where
  ledger : Ledger w
  limits : ∀ k, k < w.born → (w.routers k).limits.maxHandles = H
  owners : ∀ k, (w.routers k).closed = false → k ∈ ks
  made : ∀ k ∈ ks, k < w.born

namespace Housed

/-- Without a new router nothing is added to the open ones. -/
theorem goes (h : Housed w H ks) (g : Goes .tidy w w') (same : w'.born = w.born)
    (whole : w'.media.closed = true → ∀ k, (w.routers k).closed = true) : Housed w' H ks := by
  have ledger := h.ledger.goes g fun closed => ⟨same, whole closed⟩
  refine ⟨ledger, fun k born => ?_, fun k isOpen => ?_, fun k there => same ▸ h.made k there⟩
  · have born : k < w.born := same ▸ born
    exact (g.kept born).limits ▸ h.limits k born
  · have born : k < w.born := same ▸ ledger.sane.born isOpen
    refine h.owners k ?_
    by_contra closed
    rw [(g.kept born).closed (by simpa using closed)] at isOpen
    cases isOpen

/-- A session of the guard is that of an open router. -/
theorem session (h : Housed w H ks) {sessionId : String} (has : w.guard.sessions.has sessionId) :
    ∃ k ∈ ks, (w.routers k).closed = false ∧ (w.routers k).sessionId = sessionId := by
  obtain ⟨k, born, own⟩ := h.ledger.named.sessions sessionId has
  have isOpen : (w.routers k).closed = false := by
    by_contra closed
    have gone := ((h.ledger.accounted k born).ended (by simpa using closed)).2
    rw [own, has] at gone
    cases gone
  exact ⟨k, h.owners k isOpen, isOpen, own⟩

theorem sessions_le (h : Housed w H ks) : w.guard.sessions.size ≤ ks.length := by
  have sub : w.guard.sessions.keys ⊆ ks.map fun k => (w.routers k).sessionId := by
    intro sessionId mem
    obtain ⟨k, there, -, own⟩ := h.session (Table.has_iff.2 (Table.mem_keys_iff.1 mem))
    exact List.mem_map.2 ⟨k, there, own⟩
  have length := (List.subperm_of_subset w.guard.sessions.nodup sub).length_le
  simpa [Table.keys, Table.size] using length

/-- The publishers of a router are within its limit, and none are left once it is closed. -/
theorem publishers_le (h : Housed w H ks) {k : Nat} (born : k < w.born) : (w.routers k).publishers.size ≤ H := by
  have accounted := h.ledger.accounted k born
  cases closed : (w.routers k).closed with
  | true =>
    rw [(accounted.ended closed).1.publishers]
    exact Nat.zero_le H
  | false =>
    have room := (accounted.live closed).1.room
    rw [h.limits k born] at room
    exact (Nat.le_add_left _ _).trans room

/-- A handle of the guard is that of a publisher of an open router. -/
theorem handle (h : Housed w H ks) {handle : String} {st : HandleState} (found : w.guard.handles.get? handle = some st) :
    ∃ k ∈ ks, (w.routers k).sessionId = st.identity.sessionId ∧ handle ∈ (w.routers k).publishers.keys := by
  obtain ⟨k, born, own⟩ := h.ledger.named.owners handle st found
  have mine : Owned w.guard (w.routers k).sessionId handle := ⟨st, found, own.symm⟩
  have isOpen : (w.routers k).closed = false := by
    by_contra closed
    exact ((h.ledger.accounted k born).ended (by simpa using closed)).1.owns handle mine
  have guards := (((h.ledger.accounted k born).live isOpen).1.owns handle).1 mine
  obtain ⟨p, there, -⟩ := Option.any_eq_true _ _ |>.1 guards
  exact ⟨k, h.owners k isOpen, own, Table.mem_keys_iff.2 ⟨p, there⟩⟩

/-- A session has no more handles than its router may have. -/
theorem owned_le (h : Housed w H ks) {sessionId : String} {handles : List String} (nodup : handles.Nodup)
    (owned : ∀ handle ∈ handles, Owned w.guard sessionId handle) : handles.length ≤ H := by
  cases handles with
  | nil => exact Nat.zero_le H
  | cons first rest =>
    obtain ⟨st, found, own⟩ := owned first List.mem_cons_self
    obtain ⟨k, there, session, -⟩ := h.handle found
    have sub : first :: rest ⊆ (w.routers k).publishers.keys := by
      intro handle mem
      obtain ⟨st', found', own'⟩ := owned handle mem
      obtain ⟨j, there', session', key⟩ := h.handle found'
      obtain rfl : j = k := h.ledger.named.distinct j k (h.made j there') (h.made k there)
        (by rw [session', own', session, own])
      exact key
    have length := (List.subperm_of_subset nodup sub).length_le
    refine length.trans ?_
    simpa [Table.keys, Table.size] using h.publishers_le (h.made k there)

/-- While an open router may have one more handle, so may the guard. -/
theorem handles_lt (h : Housed w H ks) {k : Nat} (isOpen : (w.routers k).closed = false)
    (room : (w.routers k).handles < (w.routers k).limits.maxHandles) : w.guard.handles.size < ks.length * H := by
  have there := h.owners k isOpen
  have sub : w.guard.handles.keys ⊆ ks.flatMap fun j => (w.routers j).publishers.keys := by
    intro handle mem
    obtain ⟨st, found⟩ := Table.mem_keys_iff.1 mem
    obtain ⟨j, there, -, key⟩ := h.handle found
    exact List.mem_flatMap.2 ⟨j, there, key⟩
  have bound : (ks.map fun j => (w.routers j).publishers.size).sum < (ks.map fun _ => H).sum := by
    refine List.sum_lt_sum _ _ (fun j mem => h.publishers_le (h.made j mem)) ⟨k, there, ?_⟩
    rw [h.limits k (h.made k there)] at room
    exact (Nat.le_add_left _ _).trans_lt room
  calc w.guard.handles.size
      = w.guard.handles.keys.length := by simp [Table.keys, Table.size]
    _ ≤ (ks.flatMap fun j => (w.routers j).publishers.keys).length :=
        (List.subperm_of_subset w.guard.handles.nodup sub).length_le
    _ = (ks.map fun j => (w.routers j).publishers.size).sum := by simp [List.length_flatMap, Table.keys, Table.size]
    _ < (ks.map fun _ => H).sum := bound
    _ = ks.length * H := by simp

end Housed

end RosBridge.Router
