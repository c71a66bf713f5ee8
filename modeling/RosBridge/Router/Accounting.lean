import RosBridge.Router.Inputs
import RosBridge.Router.Names
import RosBridge.Router.Releasing
/-!
# Accounts

While a router is open its streams, listeners, handles of the guard, subscriptions and
publishers match. Once it is closed nothing of it is left.
-/

namespace RosBridge.Router

open Lib Prog Session Config Relation CommandGuard

variable {η : Type} {allow : Allow} {w w' : World η} {k : Nat} {r r' : SessionRouter η} {counts : String → Nat}
  {mine : String → Prop}

/-- How often `onClosed` was called. -/
def SessionRouter.notices (r : SessionRouter η) : Nat := (r.trace.filter Mark.isNotified).length

/-- A handle of a guarded publisher. -/
def SessionRouter.guards (r : SessionRouter η) (handle : String) : Bool := (r.publishers.get? handle).any (·.guarded)

/-- The listeners ROS holds for a stream. -/
def World.heard (w : World η) (k : Nat) (stream : String) : Nat := w.listeners.count (k, stream)

/-- A handle of the guard that belongs to a session. -/
def Owned (g : CommandGuard) (sessionId handle : String) : Prop :=
  ∃ st, g.handles.get? handle = some st ∧ st.identity.sessionId = sessionId

/-- An open router: the queue has the streams of the subscriptions and the control
stream, ROS has one listener for each, the guard has the handles of the guarded
publishers, and there are no more of them than allowed. -/
structure Balanced (r : SessionRouter η) (heard : String → Nat) (owns : String → Prop) : Prop where
  streams : ∀ id, r.queue.streams.has id = (decide (id = "control") || r.subscriptions.has id)
  heard : ∀ stream, heard stream = if r.subscriptions.has stream then 1 else 0
  owns : ∀ handle, owns handle ↔ r.guards handle = true
  room : r.handles ≤ r.limits.maxHandles
  notices : r.notices = 0

/-- A closed router: nothing is left of it, and `onClosed` was called once. -/
structure Emptied (r : SessionRouter η) (heard : String → Nat) (owns : String → Prop) : Prop where
  streams : r.queue.streams = .empty
  bytes : r.queue.bytes = 0
  subscriptions : r.subscriptions = .empty
  publishers : r.publishers = .empty
  heard : ∀ stream, heard stream = 0
  owns : ∀ handle, ¬owns handle
  notices : r.notices = 1

structure Accounted (w : World η) (k : Nat) : Prop where
  live : (w.routers k).closed = false →
    Balanced (w.routers k) (w.heard k) (Owned w.guard (w.routers k).sessionId) ∧ w.guard.sessions.has (w.routers k).sessionId = true
  ended : (w.routers k).closed = true →
    Emptied (w.routers k) (w.heard k) (Owned w.guard (w.routers k).sessionId) ∧ w.guard.sessions.has (w.routers k).sessionId = false

/-! ## Moves -/

/-- Nothing that is accounted for changes, and there is still room for it. -/
structure SessionRouter.Even (r r' : SessionRouter η) : Prop where
  streams : ∀ id, r'.queue.streams.has id = r.queue.streams.has id
  subscriptions : ∀ id, r'.subscriptions.has id = r.subscriptions.has id
  guards : ∀ handle, r'.guards handle = r.guards handle
  notices : r'.notices = r.notices
  room : r.handles ≤ r.limits.maxHandles → r'.handles ≤ r'.limits.maxHandles

theorem notices_append (r : SessionRouter η) (marks : List (Mark η)) (quiet : ∀ m ∈ marks, m.isNotified = false) :
    ((r.trace ++ marks).filter Mark.isNotified).length = r.notices := by
  have none : marks.filter Mark.isNotified = [] := List.filter_eq_nil_iff.2 (by simpa using quiet)
  rw [List.filter_append, none, List.append_nil, SessionRouter.notices]

theorem Control.even {bytes : Bytes} (c : Control r bytes r') : r.Even r' := by
  cases c with
  | queued s q found live options streams =>
    refine ⟨fun id => ?_, fun _ => rfl, fun _ => rfl, notices_append r _ (by simp [Mark.isNotified]), id⟩
    simp only [SessionRouter.marked, streams, Table.has_set_of_get?_some _ found]
  | jammed s q found live options streams =>
    refine ⟨fun id => ?_, fun _ => rfl, fun _ => rfl, rfl, id⟩
    simp only [streams, Table.has_set_of_get?_some _ found]
  | dead => exact ⟨fun _ => rfl, fun _ => rfl, fun _ => rfl, rfl, id⟩

theorem Sent.even {stream : String} {next : Bytes} {accepted : Bool} {q : DeliveryQueue Bytes}
    (s : Sent r.queue stream next accepted q) (channel : Channel) :
    r.Even ({ r with queue := q }.marked (.handed channel next.envelope accepted)) := by
  refine ⟨fun id => ?_, fun _ => rfl, fun _ => rfl, notices_append r _ (by simp [Mark.isNotified]), id⟩
  cases s with
  | refused => rfl
  | accepted s rest _ found live head options streams =>
    simp only [SessionRouter.marked, streams, Table.has_set_of_get?_some _ found]

theorem guards_modify (r : SessionRouter η) (handle : String) (f : Publisher η → Publisher η)
    (guarded : ∀ p, (f p).guarded = p.guarded) (other : String) :
    ((r.publishers.modify handle f).get? other).any (·.guarded) = r.guards other := by
  unfold SessionRouter.guards
  rw [Table.get?_modify]
  split
  · next e =>
    subst e
    cases r.publishers.get? other with
    | none => rfl
    | some p => simp [guarded]
  · rfl

theorem Move.even {numbers : NumberText} {media : MediaService} (m : Move numbers allow media r r')
    (free : r.guards r.nextStream = false) : r.Even r' := by
  have marks : ∀ ms : List (Mark η), (∀ m ∈ ms, m.isNotified = false) →
      ((r.trace ++ ms).filter Mark.isNotified).length = r.notices := notices_append r
  have modified : ∀ stream f, (r.subscriptions.modify stream f).size + r.publishers.size = r.handles := by
    intro stream f
    rw [Table.size_modify, SessionRouter.handles]
  cases m with
  | counted | ticked | issued | expired | flagged | bound =>
    exact ⟨fun _ => rfl, fun _ => rfl, fun _ => rfl, rfl, id⟩
  | control bytes _ control => exact control.even
  | paced stream t => exact ⟨fun _ => rfl, by simp, fun _ => rfl, rfl, (modified _ _).trans_le⟩
  | readied stream sub found =>
    exact ⟨fun _ => rfl, by simp, fun _ => rfl, marks _ (by simp [Mark.isNotified]), (modified _ _).trans_le⟩
  | unsubscribed | stored | detaching =>
    exact ⟨fun _ => rfl, fun _ => rfl, fun _ => rfl, marks _ (by simp [Mark.isNotified]), id⟩
  | sampled stream sub native data ok q found ready fits encoded stored options =>
    refine ⟨fun id => ?_, by simp [SessionRouter.number], fun _ => rfl, marks _ (by simp [Mark.isNotified]), (modified _ _).trans_le⟩
    cases stored with
    | stored s _ here live streams => simp only [streams, Table.has_set_of_get?_some _ here]
    | dropped s _ here live policy streams => simp only [streams, Table.has_set_of_get?_some _ here]
  | advertised entry isOpen found direction unguarded room =>
    refine ⟨fun _ => rfl, fun _ => rfl, fun handle => ?_, rfl, fun _ => ?_⟩
    · simp only [SessionRouter.advertise, SessionRouter.guards, Table.get?_set]
      split
      · next e =>
        rw [e]
        simpa [unguarded, SessionRouter.guards] using free.symm
      · rfl
    · have := Table.size_set_le r.publishers r.nextStream ⟨entry, entry.binding.commandGuard.isSome, -1, 0⟩
      simp only [SessionRouter.advertise, SessionRouter.handles] at *
      omega
  | unadvertised handle p found unguarded =>
    refine ⟨fun _ => rfl, fun _ => rfl, fun other => ?_, rfl, fun room => ?_⟩
    · simp only [SessionRouter.unadvertise, SessionRouter.guards, Table.get?_erase]
      split
      · next e => simp [e, found, unguarded]
      · rfl
    · have := Table.size_erase_le r.publishers handle
      simp only [SessionRouter.unadvertise, SessionRouter.handles] at *
      omega
  | admitted handle entry seq t now due =>
    refine ⟨fun _ => rfl, fun _ => rfl, guards_modify r handle _ (by intro _; rfl), marks _ (by simp [Mark.isNotified]), fun room => ?_⟩
    simpa [SessionRouter.handles] using room

theorem Balanced.even (h : Balanced r counts mine) (e : r.Even r') : Balanced r' counts mine :=
  ⟨fun id => by rw [e.streams, e.subscriptions, h.streams], fun stream => by rw [e.subscriptions, h.heard],
    fun handle => by rw [e.guards, h.owns], e.room h.room, e.notices.trans h.notices⟩

theorem Balanced.congr {counts' : String → Nat} {mine' : String → Prop} (h : Balanced r counts mine)
    (heard : ∀ stream, counts' stream = counts stream) (owns : ∀ handle, mine' handle ↔ mine handle) :
    Balanced r counts' mine' :=
  ⟨h.streams, fun stream => (heard stream).trans (h.heard stream), fun handle => (owns handle).trans (h.owns handle), h.room,
    h.notices⟩

theorem Emptied.congr {counts' : String → Nat} {mine' : String → Prop} (h : Emptied r counts mine)
    (heard : ∀ stream, counts' stream = counts stream) (owns : ∀ handle, mine' handle ↔ mine handle) :
    Emptied r counts' mine' :=
  ⟨h.streams, h.bytes, h.subscriptions, h.publishers, fun stream => (heard stream).trans (h.heard stream),
    fun handle own => h.owns handle ((owns handle).1 own), h.notices⟩

/-- A router of which nothing is left stays that way. -/
theorem Move.emptied {numbers : NumberText} {media : MediaService} (m : Move numbers allow media r r')
    (closed : r.closed = true) (h : Emptied r counts mine) : Emptied r' counts mine := by
  have marks : ∀ ms : List (Mark η), (∀ m ∈ ms, m.isNotified = false) →
      ((r.trace ++ ms).filter Mark.isNotified).length = 1 := fun ms hm => (notices_append r ms hm).trans h.notices
  cases m with
  | counted | ticked | issued | expired | flagged | bound => exact ⟨h.1, h.2, h.3, h.4, h.5, h.6, h.7⟩
  | control bytes _ control =>
    cases control with
    | queued s q found | jammed s q found => simp [h.streams] at found
    | dead => exact h
  | readied stream sub found | sampled stream sub native data ok q found => simp [h.subscriptions] at found
  | paced stream t =>
    refine ⟨h.1, h.2, ?_, h.4, h.5, h.6, h.7⟩
    dsimp only
    rw [h.subscriptions]
    rfl
  | unsubscribed | stored | detaching => exact ⟨h.1, h.2, h.3, h.4, h.5, h.6, marks _ (by simp [Mark.isNotified])⟩
  | advertised entry isOpen => simp [closed] at isOpen
  | unadvertised handle p found => simp [h.publishers] at found
  | admitted handle entry seq t now due =>
    refine ⟨h.1, h.2, h.3, ?_, h.5, h.6, marks _ (by simp [Mark.isNotified])⟩
    dsimp only
    rw [h.publishers]
    rfl

theorem Announced.even {numbers : NumberText} {envelope : Envelope} (a : Announced numbers allow r envelope r') : r.Even r' := by
  cases a with
  | announced id input t _ cached storable now control =>
    have stored : r.Even (r.store id input (encode numbers envelope) t) :=
      ⟨fun _ => rfl, fun _ => rfl, fun _ => rfl, notices_append r _ (by simp [Mark.isNotified]), fun room => room⟩
    have e := control.even
    exact ⟨fun id => (e.1 id).trans (stored.1 id), fun id => (e.2 id).trans (stored.2 id), fun h => (e.3 h).trans (stored.3 h),
      e.4.trans stored.4, fun room => e.5 (stored.5 room)⟩
  | large => exact ⟨fun _ => rfl, fun _ => rfl, fun _ => rfl, rfl, id⟩

theorem SessionRouter.Even.number (r : SessionRouter η) (stream : String) (seq : Nat) (native : η) :
    r.Even (r.number stream seq native) := by
  refine ⟨fun _ => rfl, by simp [SessionRouter.number], fun _ => rfl, notices_append r _ (by simp [Mark.isNotified]), fun room => ?_⟩
  simpa [SessionRouter.number, SessionRouter.handles] using room

/-! ## Opening and closing -/

theorem Balanced.advertise (h : Balanced r counts mine) {entry : RouterBinding η} (handle : String)
    (guarded : entry.binding.commandGuard.isSome) (room : r.handles < r.limits.maxHandles) :
    Balanced (r.advertise handle entry) counts fun other => mine other ∨ other = handle := by
  refine ⟨h.streams, h.heard, fun other => ?_, ?_, h.notices⟩
  · rw [h.owns]
    simp only [SessionRouter.advertise, SessionRouter.guards, Table.get?_set]
    by_cases e : other = handle <;> simp [e, guarded]
  · have := Table.size_set_le r.publishers handle ⟨entry, entry.binding.commandGuard.isSome, -1, 0⟩
    simp only [SessionRouter.advertise, SessionRouter.handles] at *
    omega

theorem Balanced.unadvertise (h : Balanced r counts mine) (handle : String) :
    Balanced (r.unadvertise handle) counts fun other => mine other ∧ other ≠ handle := by
  refine ⟨h.streams, h.heard, fun other => ?_, ?_, h.notices⟩
  · rw [h.owns]
    simp only [SessionRouter.unadvertise, SessionRouter.guards, Table.get?_erase]
    by_cases e : other = handle <;> simp [e]
  · have := Table.size_erase_le r.publishers handle
    have := h.room
    simp only [SessionRouter.unadvertise, SessionRouter.handles] at *
    omega

theorem Balanced.subscribe (h : Balanced r counts mine) (entry : RouterBinding η) (room : r.handles < r.limits.maxHandles) :
    Balanced (r.subscribe entry) (fun stream => if stream = r.nextStream then 1 else counts stream) mine := by
  refine ⟨fun id => ?_, fun stream => ?_, h.owns, ?_, (notices_append r _ (by simp [Mark.isNotified])).trans h.notices⟩
  · simp only [SessionRouter.subscribe, Table.has_set, h.streams]
    exact Bool.or_left_comm _ _ _
  · simp only [SessionRouter.subscribe, Table.has_set, h.heard]
    by_cases e : stream = r.nextStream <;> simp [e]
  · have := Table.size_set_le r.subscriptions r.nextStream ⟨entry, false, 0, 0⟩
    simp only [SessionRouter.subscribe, SessionRouter.handles] at *
    omega

theorem Balanced.unsubscribe (h : Balanced r counts mine) {stream : String} {q : DeliveryQueue Bytes}
    (streams : q.streams = r.queue.streams.erase stream) (ne : stream ≠ "control") :
    Balanced (r.unsubscribe stream q) (fun other => if other = stream then 0 else counts other) mine := by
  refine ⟨fun id => ?_, fun other => ?_, h.owns, ?_, (notices_append r _ (by simp [Mark.isNotified])).trans h.notices⟩
  · simp only [SessionRouter.unsubscribe, streams, Table.has_erase, h.streams]
    by_cases e : id = stream
    · simp [e, ne]
    · simp [e]
  · simp only [SessionRouter.unsubscribe, Table.has_erase, h.heard]
    by_cases e : other = stream <;> simp [e]
  · have := Table.size_erase_le r.subscriptions stream
    have := h.room
    simp only [SessionRouter.unsubscribe, SessionRouter.handles] at *
    omega

theorem Balanced.finished (h : Balanced r counts mine) : Emptied r.finished (fun _ => 0) fun _ => False := by
  refine ⟨rfl, rfl, rfl, rfl, fun _ => rfl, fun _ => id, ?_⟩
  simp only [SessionRouter.notices, SessionRouter.finished, ← List.append_assoc]
  have none : r.trace.filter Mark.isNotified = [] := List.length_eq_zero_iff.1 h.notices
  simp [List.filter_append, none, List.filter_map, Function.comp_def, Mark.isNotified]
  rfl

/-! ## Steps -/

/-- Nothing that concerns a router's accounts changes, but maybe the router itself. -/
theorem Accounted.kept (h : Accounted w k) (closed : (w'.routers k).closed = (w.routers k).closed)
    (sessionId : (w'.routers k).sessionId = (w.routers k).sessionId) (heard : ∀ stream, w'.heard k stream = w.heard k stream)
    (owned : ∀ handle, Owned w'.guard (w.routers k).sessionId handle ↔ Owned w.guard (w.routers k).sessionId handle)
    (session : w'.guard.sessions.has (w.routers k).sessionId = w.guard.sessions.has (w.routers k).sessionId)
    (live : ∀ {counts mine}, (w.routers k).closed = false → Balanced (w.routers k) counts mine → Balanced (w'.routers k) counts mine)
    (ended : ∀ {counts mine}, (w.routers k).closed = true → Emptied (w.routers k) counts mine → Emptied (w'.routers k) counts mine) :
    Accounted w' k := by
  have heard : w'.heard k = w.heard k := funext heard
  have owned : Owned w'.guard (w.routers k).sessionId = Owned w.guard (w.routers k).sessionId :=
    funext fun handle => propext (owned handle)
  refine ⟨fun isOpen => ?_, fun isClosed => ?_⟩
  · rw [closed] at isOpen
    obtain ⟨balanced, has⟩ := h.live isOpen
    rw [sessionId, heard, owned, session]
    exact ⟨live isOpen balanced, has⟩
  · rw [closed] at isClosed
    obtain ⟨emptied, has⟩ := h.ended isClosed
    rw [sessionId, heard, owned, session]
    exact ⟨ended isClosed emptied, has⟩

/-- Something happens that does not concern a router. -/
theorem Accounted.frame (h : Accounted w k) (same : w'.routers k = w.routers k)
    (heard : ∀ stream, w'.heard k stream = w.heard k stream)
    (owned : ∀ handle, Owned w'.guard (w.routers k).sessionId handle ↔ Owned w.guard (w.routers k).sessionId handle)
    (session : w'.guard.sessions.has (w.routers k).sessionId = w.guard.sessions.has (w.routers k).sessionId) :
    Accounted w' k :=
  h.kept (congrArg _ same) (congrArg _ same) heard owned session (fun _ b => same ▸ b) fun _ e => same ▸ e

/-- The guard's clock, sequences and leases leave the owners of handles alone. -/
theorem Tended.owned {g g' : CommandGuard} {cause : Cause} {notes : List Note} (t : Tended g g' cause notes)
    (sessionId handle : String) : Owned g' sessionId handle ↔ Owned g sessionId handle := by
  have mild : cause = .quiet ∨ ∃ sessionId handle t, cause = .armed sessionId handle t := by
    cases t.recorded with
    | quiet | validated => exact .inl rfl
    | armed sessionId handle time => exact .inr ⟨sessionId, handle, time, rfl⟩
  constructor
  · rintro ⟨st, found, owner⟩
    rcases t.change.origin found with ⟨st₀, h₀, e⟩ | rfl
    · exact ⟨st₀, h₀, e ▸ owner⟩
    · simp at mild
  · rintro ⟨st, found, owner⟩
    obtain ⟨st', h', e⟩ := t.change.stays mild found
    exact ⟨st', h', e ▸ owner⟩

theorem idText_idText_ne (p : String) (m n j : Nat) : idText (idText p m) n ≠ idText p j := by
  intro h
  simp only [idText, String.append_assoc] at h
  have h := (String.append_right_inj _).1 ((String.append_right_inj _).1 h)
  have colon : ':' ∈ (toString j).toList := by simp [← h]
  have digit := Nat.isDigit_of_mem_toDigits (b := 10) (by decide) (by decide) (by simpa [Nat.toString_eq_repr] using colon)
  exact absurd digit (by decide)

/-- The router's own identifiers are not the guard's. -/
theorem Named.free (named : Named w) (sane : w.Sane) (born : k < w.born) :
    (w.routers k).guards (w.routers k).nextStream = false := by
  obtain ⟨m, -, own⟩ := named.issued k born
  simp only [SessionRouter.guards, Option.any_eq_false]
  intro p found
  by_contra guarded
  obtain ⟨n, -, e⟩ := sane.guarded k _ p found (by simpa using guarded)
  rw [SessionRouter.nextStream, own] at e
  exact idText_idText_ne _ _ _ _ e

/-- Another router's session. -/
theorem Named.other (named : Named w) {j : Nat} (hj : j < w.born) (hk : k < w.born) (ne : j ≠ k) :
    (w.routers k).sessionId ≠ (w.routers j).sessionId := fun e => ne (named.distinct j k hj hk e.symm)

/-! ## Listeners -/

theorem count_filter_ne (listeners : List (Nat × String)) (l l' : Nat × String) :
    (listeners.filter (· ≠ l')).count l = if l = l' then 0 else listeners.count l := by
  split
  · next e => exact List.count_eq_zero.2 (by simp [e])
  · next ne => exact List.count_filter (by simp [ne])

theorem count_unheard (listeners : List (Nat × String)) (k : Nat) (gone : List String) (l : Nat × String) :
    (unheard k gone listeners).count l = if l.1 = k ∧ l.2 ∈ gone then 0 else listeners.count l := by
  unfold unheard
  split
  · next e => exact List.count_eq_zero.2 (by simp [e])
  · next ne => exact List.count_filter (by simp only [ne, not_false_eq_true, decide_true])

/-! ## Handles of the guard -/

theorem owned_set (g : CommandGuard) {identity : CommandIdentity} (leaseMs : Nat)
    (absent : g.handles.get? identity.handle = none) (sessionId handle : String) :
    Owned { g with handles := g.handles.set identity.handle ⟨identity, leaseMs, none, -1, -1⟩ } sessionId handle ↔
      Owned g sessionId handle ∨ handle = identity.handle ∧ identity.sessionId = sessionId := by
  unfold Owned
  dsimp only
  rw [Table.get?_set]
  by_cases e : handle = identity.handle <;> simp [e, absent]

theorem owned_erase (g : CommandGuard) (gone sessionId handle : String) :
    Owned { g with handles := g.handles.erase gone } sessionId handle ↔ Owned g sessionId handle ∧ handle ≠ gone := by
  unfold Owned
  dsimp only
  rw [Table.get?_erase]
  by_cases e : handle = gone <;> simp [e]

theorem owned_revoked (g : CommandGuard) (gone sessionId handle : String) :
    Owned ((revokeSession gone).after g) sessionId handle ↔ Owned g sessionId handle ∧ sessionId ≠ gone := by
  unfold Owned
  rw [revokeSession_after, Table.get?_filter]
  simp only [Option.filter_eq_some_iff, ne_eq, decide_eq_true_eq]
  constructor
  · rintro ⟨st, ⟨found, ne⟩, own⟩
    exact ⟨⟨st, found, own⟩, own ▸ ne⟩
  · rintro ⟨⟨st, found, own⟩, ne⟩
    exact ⟨st, ⟨found, own ▸ ne⟩, own⟩

/-! ## Every step -/

/-- Router `k` opens and keeps going. -/
theorem Accounted.still (closed : (w'.routers k).closed = false)
    (balanced : Balanced (w'.routers k) (w'.heard k) (Owned w'.guard (w'.routers k).sessionId))
    (session : w'.guard.sessions.has (w'.routers k).sessionId = true) : Accounted w' k :=
  ⟨fun _ => ⟨balanced, session⟩, fun e => by rw [closed] at e; cases e⟩

/-- A subscription goes, with its stream and its listener. -/
theorem Accounted.removed {j : Nat} {r : SessionRouter η} {stream : String} {sub : Subscription η} {q : DeliveryQueue Bytes}
    (h : Accounted w k) (sane : w.Sane) (even : (w.routers j).Even r) (same : (w.routers j).Same r)
    (found : (w.routers j).subscriptions.get? stream = some sub) (streams : q.streams = r.queue.streams.erase stream)
    (notes : List Note) : Accounted { w.setRouter j (r.unsubscribe stream q) with
      listeners := w.listeners.filter (· ≠ (j, stream)), history := w.history ++ notes } k := by
  by_cases e : j = k
  · subst e
    have isOpen : (w.routers j).closed = false := by
      by_contra closed
      have none := (h.ended (by simpa using closed)).1.subscriptions
      simp [none] at found
    obtain ⟨balanced, has⟩ := h.live isOpen
    apply Accounted.still
    · rw [World.setRouter_self]
      exact same.closed.trans isOpen
    · rw [World.setRouter_self]
      refine ((balanced.even even).unsubscribe streams ((sane.routers j).ne_control found)).congr (fun other => ?_) fun handle => ?_
      · dsimp only [World.heard]
        rw [count_filter_ne]
        simp
      · simp [SessionRouter.unsubscribe, same.sessionId]
    · rw [World.setRouter_self]
      exact (congrArg _ same.sessionId).trans has
  · refine h.frame (World.setRouter_ne w _ (Ne.symm e)) (fun other => ?_) (fun _ => Iff.rfl) rfl
    dsimp only [World.heard]
    rw [count_filter_ne]
    simp [Ne.symm e]

/-- The head of a stream is given to `send`. -/
theorem Accounted.sent {j : Nat} {stream : String} {next : Bytes} {accepted : Bool} {q : DeliveryQueue Bytes}
    (h : Accounted w k) (sent : Sent (w.routers j).queue stream next accepted q) (channel : Channel) (notes : List Note) :
    Accounted { w.setRouter j ({ w.routers j with queue := q }.marked (.handed channel next.envelope accepted)) with
      history := w.history ++ notes } k := by
  by_cases e : j = k
  · subst e
    apply h.kept
    · rw [World.setRouter_self]
      rfl
    · rw [World.setRouter_self]
      rfl
    · exact fun _ => rfl
    · exact fun _ => Iff.rfl
    · rfl
    · intro _ _ _ balanced
      rw [World.setRouter_self]
      exact balanced.even (sent.even channel)
    · intro _ _ _ emptied
      cases sent with
      | refused s rest found => simp [emptied.streams] at found
      | accepted s rest _ found => simp [emptied.streams] at found
  · exact h.frame (World.setRouter_ne w _ (Ne.symm e)) (fun _ => rfl) (fun _ => Iff.rfl) rfl

theorem Step.accounted (s : Step allow w w') (mild : ¬allow.wild) (unstuck : ¬allow.stuck) (sane : w.Sane) (named : Named w)
    (born : k < w.born) (whole : (w.routers k).closed = true ∨ (w.routers k).video = none ∨ ¬(allow.torn ∨ w.media.closed = true))
    (h : Accounted w k) : Accounted w' k := by
  cases s with
  | outside | mediaClosed | asked | answered | flushing | refused => exact ⟨h.live, h.ended⟩
  | handleTaken sessionId handle st wild => exact absurd wild mild
  | sessionTaken sessionId wild => exact absurd wild mild
  | tended cause g notes tended =>
    exact h.kept rfl rfl (fun _ => rfl) (tended.owned _) (by rw [tended.sessions]) (fun _ b => b) fun _ e => e
  | router j r move =>
    by_cases e : j = k
    · subst e
      apply h.kept
      · rw [World.setRouter_self, move.same.closed]
      · rw [World.setRouter_self, move.same.sessionId]
      · exact fun _ => rfl
      · exact fun _ => Iff.rfl
      · rfl
      · intro _ _ _ balanced
        rw [World.setRouter_self]
        exact balanced.even (move.even (named.free sane born))
      · intro _ _ closed emptied
        rw [World.setRouter_self]
        exact move.emptied closed emptied
    · exact h.frame (World.setRouter_ne w r (Ne.symm e)) (fun _ => rfl) (fun _ => Iff.rfl) rfl
  | handleOpened j entry identity leaseMs n found direction guarded owner topic issued bound absent session capacity room =>
    by_cases e : j = k
    · subst e
      have isOpen : (w.routers j).closed = false := by
        by_contra closed
        have := (h.ended (by simpa using closed)).2
        rw [owner, this] at session
        cases session
      obtain ⟨balanced, has⟩ := h.live isOpen
      apply Accounted.still
      · rw [World.setRouter_self]
        exact isOpen
      · rw [World.setRouter_self]
        refine (balanced.advertise identity.handle guarded (room isOpen)).congr (fun _ => rfl) fun other => ?_
        rw [owned_set _ _ absent]
        simp [owner, SessionRouter.advertise]
      · rw [World.setRouter_self]
        exact has
    · have other := named.other (sane.born_of_entry found) born e
      refine h.frame (World.setRouter_ne w _ (Ne.symm e)) (fun _ => rfl) (fun handle => ?_) rfl
      rw [owned_set _ _ absent]
      simp [owner, other.symm]
  | handleClosed j handle p st found guarded own owner =>
    have hj : j < w.born := sane.born_of_entry ((sane.routers j).advertised handle p found).1
    by_cases e : j = k
    · subst e
      have isOpen : (w.routers j).closed = false := by
        by_contra closed
        have none := (h.ended (by simpa using closed)).1.publishers
        simp [none] at found
      obtain ⟨balanced, has⟩ := h.live isOpen
      apply Accounted.still
      · rw [World.setRouter_self]
        exact isOpen
      · rw [World.setRouter_self]
        exact (balanced.unadvertise handle).congr (fun _ => rfl) (owned_erase _ _ _)
      · rw [World.setRouter_self]
        exact has
    · have other := named.other hj born e
      refine h.frame (World.setRouter_ne w _ (Ne.symm e)) (fun _ => rfl) (fun gone => ?_) rfl
      rw [owned_erase]
      constructor
      · exact And.left
      · rintro mine
        refine ⟨mine, ?_⟩
        rintro rfl
        obtain ⟨st', found', owner'⟩ := mine
        obtain rfl := Option.some.inj (own.symm.trans found')
        exact other (owner'.symm.trans owner)
  | subscribed j entry requestId r isOpen found free room announced =>
    by_cases e : j = k
    · subst e
      obtain ⟨balanced, has⟩ := h.live isOpen
      have same := announced.same.1
      apply Accounted.still
      · rw [World.setRouter_self, same.closed]
        exact isOpen
      · rw [World.setRouter_self, same.sessionId]
        refine ((balanced.subscribe entry room).even announced.even).congr (fun stream => ?_) fun _ => Iff.rfl
        have absent : (w.routers j).subscriptions.has (w.routers j).nextStream = false := by
          have := balanced.streams (w.routers j).nextStream
          rw [Table.has, free] at this
          exact (Bool.or_eq_false_iff.1 this.symm).2
        have unheard := balanced.heard (w.routers j).nextStream
        rw [absent] at unheard
        by_cases e : stream = (w.routers j).nextStream
        · subst e
          simpa [World.heard] using unheard
        · simp [World.heard, e, Ne.symm e]
      · rw [World.setRouter_self, same.sessionId]
        exact has
    · refine h.frame (World.setRouter_ne w _ (Ne.symm e)) (fun stream => ?_) (fun _ => Iff.rfl) rfl
      simp [World.heard, e]
  | removed j stream sub q listeners notes found options streams left recorded =>
    obtain rfl : listeners = w.listeners.filter (· ≠ (j, stream)) := left.resolve_right fun l => unstuck l.1
    exact h.removed sane ⟨fun _ => rfl, fun _ => rfl, fun _ => rfl, rfl, id⟩ ⟨rfl, rfl, rfl, rfl, rfl, rfl⟩ found streams notes
  | spoiled j stream sub native q listeners found ready fits options streams left =>
    obtain rfl : listeners = w.listeners.filter (· ≠ (j, stream)) := left.resolve_right fun l => unstuck l.1
    exact h.removed sane (.number _ _ _ _) ⟨rfl, rfl, rfl, rfl, rfl, rfl⟩ found streams _
  | handedControl j next accepted q sent => exact h.sent sent _ _
  | handedData j stream sub next accepted q found isOpen idle sent rechecked => exact h.sent sent _ _
  | published j handle p t request isOpen found last answered guarded =>
    by_cases e : j = k
    · subst e
      obtain ⟨balanced, has⟩ := h.live isOpen
      apply Accounted.still
      · rw [World.setRouter_self]
        exact isOpen
      · rw [World.setRouter_self]
        exact balanced.even ⟨fun _ => rfl, fun _ => rfl, fun _ => rfl, notices_append _ _ (by simp [Mark.isNotified]), fun room => room⟩
      · rw [World.setRouter_self]
        exact has
    · exact h.frame (World.setRouter_ne w _ (Ne.symm e)) (fun _ => rfl) (fun _ => Iff.rfl) rfl
  | closed j gone isOpen only all =>
    by_cases e : j = k
    · subst e
      obtain ⟨balanced, has⟩ := h.live isOpen
      refine ⟨fun open_ => ?_, fun _ => ⟨?_, ?_⟩⟩
      · rw [World.finish, World.setRouter_self] at open_
        cases open_
      · rw [World.finish, World.setRouter_self]
        refine balanced.finished.congr (fun stream => ?_) fun handle => ?_
        · dsimp only [World.heard]
          rw [count_unheard]
          split
          · rfl
          · next kept =>
            have absent : (w.routers j).subscriptions.has stream = false := by
              by_contra has
              obtain ⟨sub, found⟩ := Table.has_iff.1 (by simpa using has)
              exact kept ⟨rfl, all.resolve_left unstuck stream (Table.mem_keys_iff.2 ⟨sub, found⟩)⟩
            have := balanced.heard stream
            simpa [absent, World.heard] using this
        · dsimp only
          rw [owned_revoked]
          simp [SessionRouter.finished]
      · rw [World.finish, World.setRouter_self]
        simp [Table.has_erase, SessionRouter.finished]
    · have other := named.other (sane.born isOpen) born e
      refine h.frame (World.setRouter_ne w _ (Ne.symm e)) (fun stream => ?_) (fun handle => ?_) ?_
      · dsimp only [World.heard, World.finish]
        rw [count_unheard]
        simp [Ne.symm e]
      · dsimp only [World.finish]
        rw [owned_revoked]
        simp [other]
      · simp [World.finish, Table.has_erase, other]
  | torn j v f marks isOpen here torn less marked =>
    by_cases e : j = k
    · subst e
      rcases whole with closed | none | whole
      · rw [isOpen] at closed
        cases closed
      · rw [none] at here
        cases here
      · exact absurd torn whole
    · exact h.frame (World.setRouter_ne w _ (Ne.symm e)) (fun _ => rfl) (fun _ => Iff.rfl) rfl
  | constructed r fresh isOpen capacity own =>
    refine h.frame (World.setRouter_ne w r (Nat.ne_of_lt born)) (fun _ => rfl) (fun _ => Iff.rfl) ?_
    have ne : (w.routers k).sessionId ≠ r.sessionId := by
      obtain ⟨n, bound, e⟩ := named.issued k born
      rw [e, own]
      intro e
      have := idText_inj e
      omega
    simp [Table.has_set, ne]

/-- A router that was just constructed. -/
theorem Step.accounted_born (s : Step allow w w') (named : Named w) (born : Born w w' k) : Accounted w' k := by
  obtain ⟨rfl, next, fresh, own⟩ := born
  have name := own
  cases s with
  | constructed r _ isOpen capacity _ =>
    dsimp only at fresh own
    rw [World.setRouter_self] at fresh own
    have unused : ∀ handle, ¬Owned w.guard r.sessionId handle := by
      rintro handle ⟨st, found, owner⟩
      obtain ⟨j, hj, e⟩ := named.owners handle st found
      obtain ⟨n, bound, name⟩ := named.issued j hj
      rw [name, owner, own] at e
      have := idText_inj e
      omega
    have unheard : ∀ stream, w.heard w.born stream = 0 := fun stream =>
      List.count_eq_zero.2 fun h => Nat.lt_irrefl _ (named.listeners _ h)
    apply Accounted.still
    · rw [World.setRouter_self]
      exact fresh.isOpen
    · rw [World.setRouter_self]
      refine ⟨fun id => ?_, fun stream => ?_, fun handle => ?_, ?_, ?_⟩
      · simp [fresh.streams, fresh.subscriptions, Table.has_set]
      · rw [fresh.subscriptions]
        exact unheard stream
      · simp only [SessionRouter.guards, fresh.publishers, Table.get?_empty, Option.any_none, Bool.false_eq_true, iff_false]
        exact unused handle
      · simp [SessionRouter.handles, fresh.subscriptions, fresh.publishers, Table.size, Table.empty]
      · simp [SessionRouter.notices, fresh.trace]
    · rw [World.setRouter_self]
      simp [Table.has_set]
  | _ => exact absurd next (Nat.ne_of_lt (Nat.lt_succ_self _))

/-- A router has media or it has none. -/
theorem Turn.video (t : Turn allow w k r) : r.video = none ↔ (w.routers k).video = none := by
  cases t with
  | move _ move =>
    cases move with
    | control bytes _ control => rw [control.same.2.2]
    | flagged track f slot known => simp [SessionRouter.flag]
    | bound v track i slot video new free fits => simp [video]
    | _ => exact Iff.rfl
  | subscribed entry requestId _ isOpen found free room announced => rw [announced.same.2.2]; rfl
  | finished => simp [SessionRouter.finished]
  | torn v f marks isOpen video torn less marked => simp [video]
  | _ => exact Iff.rfl

/-- The accounts of every router without media. -/
structure Audited (w : World η) : Prop where
  named : Named w
  accounted : ∀ k, k < w.born → (w.routers k).video = none → Accounted w k

/-- A router that was not there before a step is constructed by it. -/
theorem Step.new (s : Step allow w w') (old : ¬k < w.born) (born : k < w'.born) : Born w w' k := by
  cases s with
  | constructed r fresh isOpen capacity named =>
    obtain rfl : k = w.born := by dsimp only at born; omega
    refine ⟨rfl, rfl, ?_, ?_⟩
    · rw [World.setRouter_self]
      exact fresh
    · rw [World.setRouter_self]
      exact named
  | _ => exact absurd born old

theorem Step.audited (s : Step allow w w') (mild : ¬allow.wild) (unstuck : ¬allow.stuck) (sane : w.Sane) (h : Audited w) :
    Audited w' := by
  refine ⟨s.named sane h.named, fun k born video => ?_⟩
  by_cases old : k < w.born
  · have without : (w.routers k).video = none := by
      rcases s.turn_of_born old with same | turn
      · exact same ▸ video
      · exact turn.video.1 video
    exact s.accounted mild unstuck sane h.named old (.inr (.inl without)) (h.accounted k old without)
  · exact s.accounted_born h.named (s.new old born)

/-- Hooks only answer and close routers, and ROS takes every listener back. -/
structure Orderly (i : Env η × Input η) : Prop where
  hooks : i.1.Hooks Reaction.Mild
  outside : ∀ reaction, i.2 = .outside reaction → reaction.Mild
  unsubscribe : ∀ n, i.1.unsubscribe n = true

/-- What orderly inputs may do. -/
def Allow.orderly : Allow := ⟨True, False, False, True, True, True⟩

theorem Orderly.permitted {i : Env η × Input η} (h : Orderly i) : Permitted .orderly i :=
  ⟨⟨.inr h.hooks, .inr h.unsubscribe, .inl trivial⟩, fun reaction e => .inr (h.outside reaction e), trivial⟩

theorem run_audited {prefixId : String} {maxSessions maxHandles leaseMs clock : Session.Num} {guard : CommandGuard}
    (created : create prefixId maxSessions maxHandles leaseMs clock = .ok guard) (numbers : NumberText) (media : MediaService)
    {inputs : List (Env η × Input η)} (orderly : ∀ i ∈ inputs, Orderly i) :
    Audited ((World.start numbers guard media).run inputs) := by
  have sane : (World.start numbers guard media : World η).Sane := start_sane numbers media (create_handles created)
  have goes : Goes .orderly (World.start numbers guard media) ((World.start numbers guard media).run inputs) :=
    run_goes trivial sane (fun i hi => (orderly i hi).permitted) (.inl trivial)
  refine goes.inv (fun w w' sane h s => s.audited id id sane h) sane ⟨?_, ?_⟩
  · exact start_named numbers media (create_spec created).2.1 (create_handles created)
  · exact fun k born => absurd born (Nat.not_lt_zero k)

/-- In every run of orderly inputs, for every router without media. -/
theorem resources_accounted {prefixId : String} {maxSessions maxHandles leaseMs clock : Session.Num} {guard : CommandGuard}
    (created : create prefixId maxSessions maxHandles leaseMs clock = .ok guard) (numbers : NumberText) (media : MediaService)
    {inputs : List (Env η × Input η)} (orderly : ∀ i ∈ inputs, Orderly i) {k : Nat}
    (born : k < ((World.start numbers guard media).run inputs).born)
    (video : (((World.start numbers guard media).run inputs).routers k).video = none) :
    Accounted ((World.start numbers guard media).run inputs) k :=
  (run_audited created numbers media orderly).accounted k born video

theorem calm_orderly (t : ℚ) {i : Input Json} (inside : ∀ reaction, i ≠ .outside reaction) : Orderly (.calm t, i) :=
  ⟨fun _ => ⟨trivial, trivial, trivial⟩, fun reaction e => absurd e (inside reaction), fun _ => rfl⟩

theorem smallVisit_orderly : ∀ i ∈ smallVisit, Orderly i := by
  simp only [smallVisit, List.forall_mem_cons, List.not_mem_nil, false_implies, implies_true, and_true]
  refine ⟨?_, ?_, ?_, ?_, ?_, ?_, ?_⟩ <;> exact calm_orderly _ (by simp)

theorem resources_accounted_small :
    create "g" (some 2) (some 8) (some 250) (some 0) = .ok smallGuard ∧ (∀ i ∈ smallVisit, Orderly i) ∧
      0 < (smallBridge.run smallVisit).born ∧ ((smallBridge.run smallVisit).routers 0).video = none ∧
      Accounted (smallBridge.run smallVisit) 0 :=
  have created : create "g" (some 2) (some 8) (some 250) (some 0) = .ok smallGuard := rfl
  have born : 0 < (smallBridge.run smallVisit).born := by decide +kernel
  have video : ((smallBridge.run smallVisit).routers 0).video = none :=
    Option.isNone_iff_eq_none.1 (by decide +kernel)
  ⟨created, smallVisit_orderly, born, video, resources_accounted created plainNumbers noMedia smallVisit_orderly born video⟩

end RosBridge.Router
