import RosBridge.Router.Nesting
/-!
# Flushes with room

A flush that takes watched tracks back from a peer neither throws nor closes the router
when the hooks leave the router alone and the control queue has room for what a flush may
still say: one state for each watched track and one error for each subscription. Flushes
nest, so the room that is left is an invariant of all the code of a flush (`Roomy`).
-/

namespace RosBridge.Router

open Lib Prog Session Config

variable {η : Type} {env : Env η} {numbers : NumberText} {k size n : Nat} {w w' : World η} {r r' : SessionRouter η}

/-! ## What a hook answers -/

/-- What a reaction answers in the end. -/
def Reaction.result : Reaction → Except String Bool
  | .answer result => result
  | .arm _ _ _ _ rest => rest.result
  | .closeHandle _ _ rest => rest.result
  | .revokeSession _ rest => rest.result
  | .closeRouter _ rest => rest.result

/-- A reaction that closes other routers at most. -/
def Reaction.Spares (k : Nat) : Reaction → Prop
  | .answer _ => True
  | .arm _ _ hook _ rest => hook.Spares k ∧ rest.Spares k
  | .closeHandle _ _ rest => rest.Spares k
  | .revokeSession _ rest => rest.Spares k
  | .closeRouter j rest => j ≠ k ∧ rest.Spares k

/-- Closing another router leaves this one alone. -/
theorem close_other {j : Nat} (other : k ≠ j) (w : World η) :
    wp (close env j) (fun _ w' => w'.routers k = w.routers k) (fun _ w' => w'.routers k = w.routers k) w := by
  have finished : ∀ {gone w'}, Finished j gone w w' → w'.routers k = w.routers k := by
    rintro gone _ ⟨-, tick, sources, rfl⟩
    exact World.setRouter_ne w _ other
  have torn : ∀ {w'}, Torn j w w' → w'.routers k = w.routers k := by
    rintro _ ⟨v, n, tick, sources, -, rfl⟩
    exact World.setRouter_ne w _ other
  cases isOpen : (w.routers j).closed with
  | true =>
    rw [close, wp_bind, wp_router, wp_when]
    exact ⟨fun h => absurd isOpen (by simpa using h), fun _ => rfl⟩
  | false =>
    refine wp_mono (close_spec env j w isOpen) (fun _ _ h => ?_) fun _ _ h => ?_
    · obtain ⟨-, gone, h, -⟩ := h
      exact finished h
    · rcases h with ⟨-, -, gone, h⟩ | ⟨-, h⟩
      · exact finished h
      · exact torn h

/-- The answer of a reaction does not depend on the world. -/
theorem react_answers (reaction : Reaction) (w : World η) :
    wp (react env reaction) (fun ok _ => reaction.result = .ok ok) (fun e _ => reaction.result = .error e) w := by
  induction reaction generalizing w with
  | answer result =>
    rw [react, wp_ofExcept]
    exact ⟨fun _ => id, fun _ => id⟩
  | arm sessionId handle hook clock rest _ ih =>
    rw [react, wp_bind, wp_tryCatch]
    exact wp_mono (wp_trivial _ _) (fun _ w₁ _ => ih w₁) fun _ w₁ _ => ih w₁
  | closeHandle sessionId handle rest ih =>
    rw [react, wp_bind, wp_tryCatch]
    exact wp_mono (wp_trivial _ _) (fun _ w₁ _ => ih w₁) fun _ w₁ _ => ih w₁
  | revokeSession sessionId rest ih =>
    rw [react, wp_bind, wp_onGuard, wp_revokeSession, wp_bind, wp_note]
    exact ih _
  | closeRouter j rest ih =>
    rw [react, wp_bind, wp_tryCatch]
    exact wp_mono (wp_trivial _ _) (fun _ w₁ _ => ih w₁) fun _ w₁ _ => ih w₁

/-- A router that a reaction spares is left alone. -/
theorem react_spares (reaction : Reaction) (spares : reaction.Spares k) (w : World η) (here : w.routers k = r) :
    wp (react env reaction) (fun _ w' => w'.routers k = r) (fun _ w' => w'.routers k = r) w := by
  induction reaction generalizing w with
  | answer result =>
    rw [react, wp_ofExcept]
    exact ⟨fun _ _ => here, fun _ _ => here⟩
  | arm sessionId handle hook clock rest ihHook ihRest =>
    rw [react, wp_bind, wp_tryCatch, wp_bind, wp_onGuard]
    refine wp_mono (wp_trivial _ _) (fun _ g _ => ?_) fun _ g _ => ihRest spares.2 _ here
    rw [wp_bind, wp_note, wp_bind]
    refine wp_mono (ihHook spares.1 _ here) (fun ok w₁ same => ?_) fun _ w₁ same => ihRest spares.2 w₁ same
    rw [wp_bind, wp_throwIf]
    refine ⟨fun _ => ihRest spares.2 w₁ same, fun _ => ?_⟩
    have finished : wp (armFinish sessionId handle clock) (fun _ w' => Hooked .any w₁ w' ∧ w'.routers = w₁.routers)
        (fun _ w' => Hooked .any w₁ w' ∧ w'.routers = w₁.routers) w₁ := armFinish_hooked sessionId handle clock w₁
    rw [wp_bind]
    refine wp_mono finished (fun _ w₂ h => ?_) fun _ w₂ h => ?_
    · exact ihRest spares.2 w₂ ((congrFun h.2 k).trans same)
    · exact ihRest spares.2 w₂ ((congrFun h.2 k).trans same)
  | closeHandle sessionId handle rest ih =>
    rw [react, wp_bind, wp_tryCatch, guardCloseHandle, wp_bind, wp_onGuard]
    exact wp_mono (wp_trivial _ _) (fun _ g _ => ih spares _ here) fun _ g _ => ih spares _ here
  | revokeSession sessionId rest ih =>
    rw [react, wp_bind, wp_onGuard, wp_revokeSession, wp_bind, wp_note]
    exact ih spares _ here
  | closeRouter j rest ih =>
    rw [react, wp_bind, wp_tryCatch]
    refine wp_mono (close_other (Ne.symm spares.1) w) (fun _ w₁ same => ?_) fun _ w₁ same => ?_
    · exact ih spares.2 w₁ (same.trans here)
    · exact ih spares.2 w₁ (same.trans here)

theorem hook_spares {reactions : Nat → Reaction} (spares : ∀ n, (reactions n).Spares k) (w : World η) :
    wp (hook env reactions) (fun ok w' => (reactions w.tick).result = .ok ok ∧ w'.routers k = w.routers k)
      (fun e w' => (reactions w.tick).result = .error e ∧ w'.routers k = w.routers k) w := by
  rw [hook, wp_bind, wp_note, wp_bind, wp_ask]
  exact wp_and (react_answers _ _) (react_spares _ (spares _) _ rfl)

/-! ## Room -/

/-- How many envelopes a flush may still queue. -/
def SessionRouter.owed (r : SessionRouter η) : Nat := r.watched + r.subscriptions.size

theorem SessionRouter.owed_of_depth {m : Nat} (h : r'.depth + n ≤ r.depth + m) : r'.owed + n ≤ r.owed + m := by
  rw [r.depth_eq, r'.depth_eq] at h
  rw [SessionRouter.owed, SessionRouter.owed]
  omega

/-- The control queue has room for `n` envelopes of at most `size` bytes, which is enough for
what a flush may have to say. -/
structure SessionRouter.Room (numbers : NumberText) (size n : Nat) (r : SessionRouter η) : Prop where
  count : ∃ s, r.queue.streams.get? "control" = some s ∧ s.stopped = false ∧ s.messages.length + n ≤ s.maxMessages
  budget : r.queue.bytes + (n * size : Nat) ≤ r.queue.options.maxBytes
  limit : size ≤ r.queue.options.maxMessageBytes
  error : (encode numbers (.error none)).byteLength ≤ size
  state : ∀ track b, (r.video.bind fun v => v.bound.get? track) = some b →
    (encode numbers (.videoState track b.slot.mid .failed)).byteLength ≤ size

/-- Messages were released only, as far as the control stream can tell. -/
structure Eased (q q' : DeliveryQueue Bytes) : Prop where
  options : q'.options = q.options
  bytes : q'.bytes ≤ q.bytes
  control : ∀ s, q.streams.get? "control" = some s → ∃ s', q'.streams.get? "control" = some s' ∧ s'.stopped = s.stopped ∧
    s'.maxMessages = s.maxMessages ∧ s'.messages.length ≤ s.messages.length

theorem Eased.refl (q : DeliveryQueue Bytes) : Eased q q :=
  ⟨rfl, le_refl _, fun s found => ⟨s, found, rfl, rfl, le_refl _⟩⟩

theorem Eased.trans {q q' q'' : DeliveryQueue Bytes} (h : Eased q q') (h' : Eased q' q'') : Eased q q'' := by
  refine ⟨h'.options.trans h.options, h'.bytes.trans h.bytes, fun s found => ?_⟩
  obtain ⟨s', found', stopped, maxMessages, length⟩ := h.control s found
  obtain ⟨s'', found'', stopped', maxMessages', length'⟩ := h'.control s' found'
  exact ⟨s'', found'', stopped'.trans stopped, maxMessages'.trans maxMessages, length'.trans length⟩

/-- A flush that has released messages has as much room, for the same tracks. -/
theorem SessionRouter.Room.eased (h : r.Room numbers size n) (eased : Eased r.queue r'.queue)
    (tracks : ∀ track b', (r'.video.bind fun v => v.bound.get? track) = some b' →
      ∃ b, (r.video.bind fun v => v.bound.get? track) = some b ∧ b'.slot = b.slot) : r'.Room numbers size n where
  count := by
    obtain ⟨s, found, live, room⟩ := h.count
    obtain ⟨s', found', stopped, maxMessages, length⟩ := eased.control s found
    exact ⟨s', found', stopped.trans live, by omega⟩
  budget := by
    have := h.budget
    have := eased.bytes
    rw [eased.options]
    omega
  limit := eased.options ▸ h.limit
  error := h.error
  state track b' bound' := by
    obtain ⟨b, bound, slot⟩ := tracks track b' bound'
    exact slot ▸ h.state track b bound

theorem SessionRouter.Room.less {m : Nat} (h : r.Room numbers size n) (le : m ≤ n) : r.Room numbers size m where
  count := by
    obtain ⟨s, found, live, room⟩ := h.count
    exact ⟨s, found, live, by omega⟩
  budget := by
    have := h.budget
    have : m * size ≤ n * size := Nat.mul_le_mul_right size le
    omega
  limit := h.limit
  error := h.error
  state := h.state

/-- Flags do not matter. -/
theorem flag_slot {track t : String} {f : Binding → Binding} {b' : Binding}
    (bound' : ((r.flag track f).video.bind fun v => v.bound.get? t) = some b') (slot : ∀ b, (f b).slot = b.slot) :
    ∃ b, (r.video.bind fun v => v.bound.get? t) = some b ∧ b'.slot = b.slot := by
  obtain ⟨v', hv', hb'⟩ := Option.bind_eq_some_iff.1 bound'
  obtain ⟨v, hv, rfl⟩ := Option.map_eq_some_iff.1 hv'
  rw [Table.get?_modify] at hb'
  split at hb'
  · obtain ⟨b, hb, rfl⟩ := Option.map_eq_some_iff.1 hb'
    exact ⟨b, Option.bind_eq_some_iff.2 ⟨v, hv, hb⟩, slot b⟩
  · exact ⟨b', Option.bind_eq_some_iff.2 ⟨v, hv, hb'⟩, rfl⟩

theorem occupied_nonneg (messages : List Bytes) : 0 ≤ DeliveryQueue.occupied messages := by
  refine List.sum_nonneg fun b hb => ?_
  obtain ⟨m, -, rfl⟩ := List.mem_map.1 hb
  exact Int.natCast_nonneg _

theorem dequeue_eased (id : String) (q : DeliveryQueue Bytes) :
    wp (DeliveryQueue.dequeue id) (fun _ q' => Eased q q') (fun _ q' => Eased q q') q := by
  rw [DeliveryQueue.dequeue, wp_bind]
  refine wp_mono (DeliveryQueue.stream_spec id q) ?_ ?_
  · rintro s _ ⟨rfl, found⟩
    rw [wp_bind, wp_throwIf]
    refine ⟨fun _ => .refl _, fun _ => ?_⟩
    split
    · exact .refl _
    · next message messages split =>
      rw [wp_bind, wp_modify]
      refine ⟨rfl, Int.sub_le_self _ (Int.natCast_nonneg _), fun t foundControl => ?_⟩
      by_cases own : "control" = id
      · subst own
        obtain rfl : s = t := Option.some.inj (found.symm.trans foundControl)
        refine ⟨_, Table.get?_set_self _ _ _, rfl, rfl, ?_⟩
        rw [split]
        exact Nat.le_succ _
      · exact ⟨t, (Table.get?_set_ne _ _ own).trans foundControl, rfl, rfl, le_refl _⟩
  · rintro _ _ ⟨rfl, -⟩
    exact .refl _

theorem closeStream_eased {id : String} (other : "control" ≠ id) (q : DeliveryQueue Bytes) :
    wp (DeliveryQueue.closeStream id) (fun _ q' => Eased q q') (fun _ q' => Eased q q') q := by
  rw [DeliveryQueue.closeStream, wp_bind]
  refine wp_mono (DeliveryQueue.stream_spec id q) ?_ ?_
  · rintro s _ ⟨rfl, -⟩
    refine ⟨rfl, Int.sub_le_self _ (occupied_nonneg _), fun t found => ?_⟩
    exact ⟨t, (Table.get?_erase_ne _ other).trans found, rfl, rfl, le_refl _⟩
  · rintro _ _ ⟨rfl, -⟩
    exact .refl _

/-! ## The invariant of a flush -/

/-- Router `k` is open and has room for what it owes and for `n` envelopes more. -/
structure Roomy (numbers : NumberText) (k size n : Nat) (w : World η) : Prop where
  sane : w.Sane
  serving : w.media.closed = false
  written : w.numbers = numbers
  isOpen : (w.routers k).closed = false
  room : (w.routers k).Room numbers size ((w.routers k).owed + n)

/-- The code returns, and router `k` is open and has room for what it owes. -/
def Stays (numbers : NumberText) (k size : Nat) {α : Type} (m : Code η α) (w : World η) : Prop :=
  wp m (fun _ => Roomy numbers k size 0) (fun _ _ => False) w

/-- No hook closes router `k`, and the one of the tracks does not throw. -/
structure Env.Gentle (env : Env η) (k : Nat) : Prop where
  authorize : ∀ n, (env.authorize n).Spares k
  videoAuthorize : ∀ n, (env.videoAuthorize n).Spares k
  answers : ∀ n, ∃ ok, (env.videoAuthorize n).result = .ok ok

theorem Roomy.less (h : Roomy numbers k size n w) : Roomy numbers k size 0 w :=
  ⟨h.sane, h.serving, h.written, h.isOpen, h.room.less (Nat.le_add_right _ n)⟩

/-- A hook has left the router alone. -/
theorem Roomy.same (h : Roomy numbers k size n w) (trip : Trip .steady none w w') (same : w'.routers k = w.routers k) :
    Roomy numbers k size n w' :=
  ⟨trip.sane h.sane, trip.media.trans h.serving, trip.goes.numbers.trans h.written, same ▸ h.isOpen, same ▸ h.room⟩

theorem Roomy.noted (h : Roomy numbers k size n w) (notes : List Note) : Roomy numbers k size n { w with history := notes } :=
  ⟨h.sane.noted notes, h.serving, h.written, h.isOpen, h.room⟩

/-- An envelope that there is room for is queued. -/
theorem respond_roomy {envelope : Envelope} (plain : envelope.stream = none)
    (fits : (encode numbers envelope).byteLength ≤ size) (h : Roomy numbers k size (n + 1) w) :
    wp (respond k envelope) (fun _ => Roomy numbers k size n) (fun _ _ => False) w := by
  obtain rfl := h.written
  obtain ⟨s, found, live, room⟩ := h.room.count
  have budget := h.room.budget
  have limit := h.room.limit
  rw [show (w.routers k).owed + (n + 1) = (w.routers k).owed + n + 1 from rfl] at room budget
  rw [Nat.succ_mul] at budget
  have written : encodeWire w.numbers envelope (w.routers k).maxBytes = .ok (encode w.numbers envelope) :=
    if_neg (not_lt.2 ((fits.trans limit).trans (le_of_eq (h.sane.routers k).limit)))
  have keeps : s.policy = .latest → s.messages = [] := by
    rw [(h.sane.routers k).control s found]
    exact Policy.noConfusion
  have small : (w.routers k).queue.bytes + (byteLength (encode w.numbers envelope) : Int) ≤ (w.routers k).queue.options.maxBytes := by
    show (w.routers k).queue.bytes + ((encode w.numbers envelope).byteLength : Int) ≤ _
    omega
  have stored := DeliveryQueue.enqueue_fits found live keeps (by omega) (encode_pos w.numbers envelope) (fits.trans limit) small
  have walks : Walks .steady (some k) (respond k envelope) w _ := respond_walks k envelope plain w h.sane
  have queued : wp (respond k envelope) (fun _ w' => ∃ q,
      w' = w.setRouter k ({ w.routers k with queue := q }.marked (.queued envelope)) ∧ q.options = (w.routers k).queue.options ∧
      q.streams = (w.routers k).queue.streams.set "control" { s with messages := s.messages ++ [encode w.numbers envelope] } ∧
      q.bytes = (w.routers k).queue.bytes + (encode w.numbers envelope).byteLength) (fun _ _ => False) w := by
    simp only [respond, queueControl, encoded, wp_bind, wp_router, wp_throwIf, wp_get, wp_ofExcept, wp_onQueue, wp_mark, written]
    refine ⟨fun closed => by simp [h.isOpen] at closed, fun _ => ⟨fun bytes same => ?_, fun e h => by cases h⟩⟩
    obtain rfl := Except.ok.inj same
    rw [wp_of_exec stored, World.setRouter_self, World.setRouter_setRouter]
    exact ⟨_, rfl, rfl, rfl, rfl⟩
  refine wp_mono (wp_and walks queued) ?_ fun _ _ h => h.2
  rintro _ _ ⟨⟨trip, -⟩, q, rfl, options, streams, bytes⟩
  refine ⟨trip.sane h.sane, h.serving, rfl, ?_, ?_⟩
  · rw [World.setRouter_self]
    exact h.isOpen
  · rw [World.setRouter_self]
    have here : q.streams.get? "control" = some { s with messages := s.messages ++ [encode w.numbers envelope] } := by
      rw [streams, Table.get?_set_self]
    refine ⟨⟨_, here, live, ?_⟩, ?_, ?_, h.room.error, h.room.state⟩
    · show (s.messages ++ [encode w.numbers envelope]).length + ((w.routers k).owed + n) ≤ s.maxMessages
      rw [List.length_append, List.length_singleton]
      omega
    · show q.bytes + (((w.routers k).owed + n) * size : Nat) ≤ q.options.maxBytes
      rw [bytes, options]
      omega
    · show size ≤ q.options.maxMessageBytes
      rwa [options]

/-! ## The code of a flush -/

section Nested

variable {again : Code η Unit} (nested : ∀ w, Roomy numbers k size 0 w → Stays numbers k size again w)

include nested

theorem errorWith_roomy (h : Roomy numbers k size 1 w) : Stays numbers k size (errorWith env again k none) w := by
  unfold Stays
  rw [errorWith, wp_bind, wp_router, wp_when]
  refine ⟨fun _ => ?_, fun _ => h.less⟩
  rw [wp_tryCatch, wp_bind]
  refine wp_mono (respond_roomy (n := 0) rfl h.room.error h) (fun _ w₁ h₁ => ?_) fun _ _ impossible => impossible.elim
  exact wp_mono (nested w₁ h₁) (fun _ _ h => h) fun _ _ impossible => impossible.elim

theorem eventWith_roomy {envelope : Envelope} (plain : envelope.stream = none)
    (fits : (encode numbers envelope).byteLength ≤ size) (h : Roomy numbers k size 1 w) :
    Stays numbers k size (eventWith env again k envelope) w := by
  unfold Stays
  rw [eventWith, wp_tryCatch, wp_bind]
  refine wp_mono (respond_roomy (n := 0) plain fits h) (fun _ w₁ h₁ => ?_) fun _ _ impossible => impossible.elim
  exact wp_mono (nested w₁ h₁) (fun _ _ h => h) fun _ _ impossible => impossible.elim

/-- The peer is told that a track has failed. -/
theorem viewerStateWith_roomy (track : String) (h : Roomy numbers k size 1 w) :
    Stays numbers k size (viewerStateWith env again k track .failed) w := by
  unfold Stays
  rw [viewerStateWith, wp_bind, wp_bindingOf]
  split
  · exact h.less
  next entry bound =>
  rw [wp_bind, wp_when]
  refine ⟨fun _ => ?_, fun absurd => (absurd rfl).elim⟩
  rw [wp_setBinding]
  have trip : Trip .steady none w (w.setRouter k ((w.routers k).flag track fun b =>
      { b with watching := false, attached := false })) := .flag w k track _ (by intro _; rfl) (by simp)
  refine eventWith_roomy nested rfl (h.room.state track entry bound)
    ⟨trip.sane h.sane, h.serving, h.written, ?_, ?_⟩
  · rw [World.setRouter_self]
    exact h.isOpen
  · rw [World.setRouter_self]
    have fewer : ((w.routers k).flag track fun b => { b with watching := false, attached := false }).watched ≤
        (w.routers k).watched := by
      refine watched_mapValues rfl fun t b hb => ?_
      split at hb
      · cases hb
      · exact hb
    have room := h.room.less (Nat.add_le_add_right (Nat.add_le_add_right fewer _) 1)
    exact room.eased (.refl _) fun t b' bound' => flag_slot bound' fun _ => rfl

end Nested

/-- A watched track is released, and there is room for what is to be said about it. -/
theorem release_roomy (permits : Permits .steady env) {track : String} {b : Binding}
    (bound : ((w.routers k).video.bind fun v => v.bound.get? track) = some b) (watching : b.watching = true)
    (h : Roomy numbers k size 0 w) :
    wp (release env k track) (fun _ => Roomy numbers k size 1) (fun _ _ => False) w := by
  have less : wp (release env k track) _ _ w := release_within track ⟨h.sane, le_refl (w.routers k).depth⟩
  refine wp_mono (wp_and less (release_spec env k track w)) ?_ ?_
  · rintro _ _ ⟨⟨within, closed, less⟩, -, sources, rfl⟩
    have own : (((w.setRouter k ((w.routers k).release track)).elapsed
        (if track ∈ (w.routers k).attached then w.tick + 1 else w.tick) sources).routers k) = (w.routers k).release track :=
      World.setRouter_self _ _ _
    rw [own] at closed less
    refine ⟨within.sane, h.serving, h.written, ?_, ?_⟩
    · rw [own]
      exact closed.trans h.isOpen
    · rw [own]
      have room := h.room.less (SessionRouter.owed_of_depth (n := 1) (m := 0) (less b bound watching))
      refine room.eased (.refl _) fun t b' bound' => ?_
      have flagged : (((w.routers k).flag track Binding.released).video.bind fun v => v.bound.get? t) = some b' := bound'
      exact flag_slot flagged fun _ => rfl
  · rintro _ _ ⟨-, ⟨attached, thrown⟩, -⟩
    -- A viewer is attached to a track of the service only.
    obtain ⟨v, b', video, bound', held⟩ := mem_attached.1 attached
    have known := h.sane.attached k v track b' video bound' held
    exact thrown ⟨permits.detach.resolve_left id _, known, h.serving⟩

section Nested

variable {again : Code η Unit} (nested : ∀ w, Roomy numbers k size 0 w → Stays numbers k size again w)
  (permits : Permits .steady env) (gentle : env.Gentle k)

include nested permits gentle

theorem revalidateTrackWith_roomy (track : String) (h : Roomy numbers k size 0 w) :
    Stays numbers k size (revalidateTrackWith env again k track) w := by
  unfold Stays
  rw [revalidateTrackWith, wp_bind, wp_bindingOf]
  split
  · exact h
  next entry bound =>
  rw [wp_when]
  refine ⟨fun watching => ?_, fun _ => h⟩
  have asked := hook_asked permits env.videoAuthorize permits.videoAuthorize w h.sane
  rw [wp_bind]
  refine wp_mono (wp_and asked (hook_spares gentle.videoAuthorize w)) ?_ ?_
  · rintro ok w₁ ⟨asked, -, same⟩
    have h₁ := h.same asked.trip same
    rw [wp_when]
    refine ⟨fun _ => ?_, fun _ => h₁⟩
    rw [wp_bind]
    refine wp_mono (release_roomy permits (same ▸ bound) watching h₁) (fun _ w₂ h₂ => ?_) fun _ _ impossible => impossible
    exact viewerStateWith_roomy nested track h₂
  · rintro e w₁ ⟨-, thrown, -⟩
    obtain ⟨ok, answer⟩ := gentle.answers w.tick
    rw [answer] at thrown
    cases thrown

theorem revalidateWith_roomy (tracks : List String) (h : Roomy numbers k size 0 w) :
    Stays numbers k size (revalidateWith env again k tracks) w := by
  induction tracks generalizing w with
  | nil => exact h
  | cons track tracks ih =>
    unfold Stays
    rw [revalidateWith, wp_bind]
    exact wp_mono (revalidateTrackWith_roomy nested permits gentle track h) (fun _ w₁ h₁ => ih h₁) fun _ _ impossible => impossible

end Nested

/-! ## Draining -/

/-- A live stream can be drained. -/
theorem drain_returns (stream : String) (channel : Channel) (w : World η) (live : (w.routers k).Live stream) :
    wp (drain env k stream channel) (fun _ _ => True) (fun _ _ => False) w := by
  rw [drain, wp_bind, wp_router]
  dsimp only
  generalize (Option.map _ _).getD 0 + 1 = fuel
  induction fuel generalizing w with
  | zero => trivial
  | succ fuel ih =>
    have rest : ∀ w₁ : World η, (w₁.routers k).Live stream → wp (do
        let _ ← onQueue k (DeliveryQueue.dequeue stream)
        drainLoop env k stream channel fuel) (fun _ _ => True) (fun _ _ => False) w₁ := by
      rintro w₁ ⟨s, found, running⟩
      rw [wp_bind, wp_onQueue]
      refine wp_mono (DeliveryQueue.dequeue_spec stream (w₁.routers k).queue) ?_ ?_
      · rintro _ q ⟨-, s', found', streams⟩
        obtain rfl := Option.some.inj (found.symm.trans found')
        refine ih _ ?_
        rw [World.setRouter_self]
        exact SessionRouter.live_set streams running ⟨s, found, running⟩
      · rintro _ _ ⟨rfl, stopped⟩
        rw [stopped s found] at running
        cases running
    rw [drainLoop, wp_bind, wp_onQueue]
    refine wp_mono (DeliveryQueue.peek_spec stream (w.routers k).queue) ?_ ?_
    · rintro next _ ⟨rfl, -⟩
      cases next with
      | none => trivial
      | some next =>
        rw [World.setRouter_same, wp_bind, wp_ask, wp_bind, wp_mark, wp_bind, wp_note]
        generalize env.send _ = accepted
        cases accepted with
        | false => trivial
        | true =>
          rw [if_pos rfl]
          refine rest _ ?_
          dsimp only
          rw [World.setRouter_self]
          exact live
    · rintro _ _ ⟨rfl, stopped⟩
      obtain ⟨s, found, running⟩ := live
      rw [stopped s found] at running
      cases running

theorem drain_eased (stream : String) (channel : Channel) (w : World η) :
    wp (drain env k stream channel) (fun _ w' => Eased (w.routers k).queue (w'.routers k).queue)
      (fun _ w' => Eased (w.routers k).queue (w'.routers k).queue) w := by
  rw [drain, wp_bind, wp_router]
  dsimp only
  generalize (Option.map _ _).getD 0 + 1 = fuel
  suffices loop : ∀ w', Eased (w.routers k).queue (w'.routers k).queue →
      wp (drainLoop env k stream channel fuel) (fun _ w' => Eased (w.routers k).queue (w'.routers k).queue)
        (fun _ w' => Eased (w.routers k).queue (w'.routers k).queue) w' from loop w (.refl _)
  induction fuel with
  | zero => exact fun w' h => h
  | succ fuel ih =>
    intro w' h
    have queue : ∀ (w₁ : World η) q, Eased (w.routers k).queue q →
        Eased (w.routers k).queue ((w₁.setRouter k { w₁.routers k with queue := q }).routers k).queue := by
      intro w₁ q h
      rwa [World.setRouter_self]
    rw [drainLoop, wp_bind, wp_onQueue]
    refine wp_mono (DeliveryQueue.peek_spec stream (w'.routers k).queue) ?_ ?_
    · rintro next _ ⟨rfl, -⟩
      rw [World.setRouter_same]
      cases next with
      | none => exact h
      | some next =>
        rw [wp_bind, wp_ask, wp_bind, wp_mark, wp_bind, wp_note]
        have marked : ∀ m, Eased (w.routers k).queue ((w'.setRouter k ((w'.routers k).marked m)).routers k).queue := by
          intro m
          rw [World.setRouter_self]
          exact h
        generalize env.send _ = accepted
        cases accepted with
        | false => exact marked _
        | true =>
          rw [if_pos rfl, wp_bind, wp_onQueue]
          refine wp_mono (dequeue_eased stream _) (fun _ q eased => ih _ ?_) fun _ q eased => ?_
          · exact queue _ q ((marked _).trans eased)
          · exact queue _ q ((marked _).trans eased)
    · rintro _ _ ⟨rfl, -⟩
      rw [World.setRouter_same]
      exact h

/-- Draining a live stream releases messages only. -/
theorem drain_roomy {stream : String} {channel : Channel} (live : (w.routers k).Live stream) (h : Roomy numbers k size 0 w)
    (walks : Walks .steady none (drain env k stream channel) w fun _ _ => True) :
    Stays numbers k size (drain env k stream channel) w := by
  refine wp_mono (wp_and (wp_and walks (drain_returns stream channel w live))
    (wp_and (drain_drained stream channel w) (drain_eased stream channel w))) ?_ fun _ _ h => h.1.2
  rintro _ w' ⟨⟨⟨trip, -⟩, -⟩, drained, eased⟩
  refine ⟨trip.sane h.sane, trip.media.trans h.serving, trip.goes.numbers.trans h.written, drained.closed.trans h.isOpen, ?_⟩
  have owed : (w'.routers k).owed = (w.routers k).owed := by
    rw [SessionRouter.owed, SessionRouter.owed, SessionRouter.watched, SessionRouter.watched, drained.video, drained.subscriptions]
  rw [owed]
  exact h.room.eased eased fun t b' bound' => ⟨b', drained.video ▸ bound', rfl⟩

/-! ## Removing a stream -/

theorem removeSubscription_eased {stream : String} (other : "control" ≠ stream) (w : World η) :
    wp (removeSubscription env k stream) (fun _ w' => Eased (w.routers k).queue (w'.routers k).queue) (fun _ _ => True) w := by
  simp only [removeSubscription, subscription, wp_bind, wp_router]
  split
  · trivial
  simp only [wp_pure, wp_update, wp_onQueue, unsubscribe, wp_bind, wp_mark, wp_ask, wp_throwIf, wp_modify, World.setRouter_self]
  refine wp_mono (closeStream_eased other (w.routers k).queue) (fun _ q eased => ?_) fun _ _ _ => trivial
  exact ⟨fun _ => trivial, fun _ => eased⟩

/-- A stream is removed, and there is room for what is to be said about it. -/
theorem removeSubscription_roomy (permits : Permits .steady env) {stream : String} {sub : Subscription η}
    (found : (w.routers k).subscriptions.get? stream = some sub) (h : Roomy numbers k size 0 w) :
    wp (removeSubscription env k stream) (fun _ => Roomy numbers k size 1) (fun _ _ => False) w := by
  obtain ⟨n, deep⟩ : ∃ n, (w.routers k).depth = n + 1 := ⟨_, SessionRouter.depth_eq _⟩
  have within : wp (removeSubscription env k stream) _ _ w := removeSubscription_within ⟨h.sane, le_of_eq deep⟩ found
  have eased : wp (removeSubscription env k stream) _ _ w :=
    removeSubscription_eased ((h.sane.routers k).ne_control found).symm w
  refine wp_mono (wp_and (wp_and within eased) (removeSubscription_spec permits k stream w h.sane.registered)) ?_ ?_
  · rintro _ w' ⟨⟨within, eased⟩, -, q, listeners, tick, -, -, -, -, rfl⟩
    have own : ∀ r : SessionRouter η, (({ w.setRouter k r with listeners := listeners, tick := tick } : World η).routers k) = r :=
      fun r => World.setRouter_self _ _ _
    have depth := within.depth
    rw [own] at eased depth
    refine ⟨within.sane, h.serving, h.written, ?_, ?_⟩
    · rw [own]
      exact h.isOpen
    · rw [own]
      have less : ((w.routers k).unsubscribe stream q).depth + 1 ≤ (w.routers k).depth + 0 := by omega
      have room := h.room.less (SessionRouter.owed_of_depth less)
      exact room.eased eased fun t b' bound' => ⟨b', bound', rfl⟩
  · rintro _ _ ⟨-, ⟨-, stuck⟩ | ⟨-, absent⟩⟩
    · exact stuck
    · rw [absent] at found
      cases found

/-! ## Flushes -/

theorem entry_spares (spares : ∀ n, (env.authorize n).Spares k) (name : String) (operation : Operation) (w : World η) :
    wp (entry env k name operation) (fun _ w' => w'.routers k = w.routers k) (fun _ w' => w'.routers k = w.routers k) w := by
  rw [entry, wp_bind, wp_router]
  split
  · rw [wp_throw]
  simp only [allowed, wp_bind, wp_ite, wp_pure, wp_throwIf, wp_router, wp_note]
  refine ⟨fun _ => ?_, fun _ => ⟨fun _ => trivial, fun h => absurd rfl h⟩⟩
  exact wp_mono (hook_spares spares w) (fun ok w₁ h => ⟨fun _ => h.2, fun _ => ⟨fun _ => h.2, fun _ => h.2⟩⟩) fun _ _ h => h.2

section Nested

variable {again : Code η Unit} (nested : ∀ w, Roomy numbers k size 0 w → Stays numbers k size again w)
  (permits : Permits .steady env) (gentle : env.Gentle k) (roams : Roams .steady again)

include nested permits gentle

theorem recheckWith_roomy {stream : String} {sub : Subscription η} (name : String)
    (found : (w.routers k).subscriptions.get? stream = some sub) (h : Roomy numbers k size 0 w) :
    Stays numbers k size (recheckWith env again k stream name) w := by
  unfold Stays
  rw [recheckWith, wp_tryCatch, wp_bind]
  refine wp_mono (wp_and (entry_entered permits k name .subscribe w h.sane) (entry_spares gentle.authorize name .subscribe w)) ?_ ?_
  · rintro e w₁ ⟨entered, same⟩
    exact h.same entered.trip same
  · rintro e w₁ ⟨hooked, same⟩
    have h₁ : Roomy numbers k size 0 { w₁ with history := w₁.history ++ [.refused k stream] } := (h.same hooked.trip same).noted _
    simp only [wp_bind, wp_note, wp_router, wp_when]
    have here : (w₁.routers k).subscriptions.get? stream = some sub := same ▸ found
    refine ⟨fun _ => ?_, fun absent => absurd (Table.has_iff.2 ⟨sub, here⟩) absent⟩
    refine wp_mono (removeSubscription_roomy permits here h₁) (fun _ w₂ h₂ => ?_) fun _ _ impossible => impossible
    exact wp_mono (errorWith_roomy nested h₂) (fun _ _ h => h) fun _ _ impossible => impossible

include roams

theorem flushStreamsWith_roomy (subs : List (String × Subscription η)) (flushing : .flushing k ∈ w.history)
    (idle : (w.routers k).Idle "control") (here : ∀ p ∈ subs, (w.routers k).subscriptions.get? p.1 = some p.2)
    (h : Roomy numbers k size 0 w) : Stays numbers k size (flushStreamsWith env again k subs) w := by
  induction subs generalizing w with
  | nil => exact h
  | cons p rest ih =>
    obtain ⟨stream, sub⟩ := p
    have found := here _ List.mem_cons_self
    have walks := recheckWith_walks permits roams k stream sub.entry.binding.publicName w h.sane flushing
      ((h.sane.routers k).issued stream sub found) (h.sane.born_of_subscription found)
    unfold Stays
    rw [flushStreamsWith, wp_bind]
    refine wp_mono (wp_and walks (recheckWith_roomy nested permits gentle _ found h)) ?_ fun _ _ h => h.2
    rintro ok w₁ ⟨⟨trip, checked⟩, h₁⟩
    rw [wp_when]
    refine ⟨fun hok => ?_, fun _ => h₁⟩
    obtain ⟨same, live, rechecked⟩ := checked hok
    have drains : Walks .steady none (drain env k stream (dataChannel sub.entry.binding.delivery)) w₁ _ :=
      drain_data k stream sub w₁ h₁.sane (same ▸ found) (same ▸ live) (same ▸ idle) rechecked
    have streamLive : (w₁.routers k).Live stream := same ▸ (h.sane.routers k).live stream sub found
    rw [wp_bind]
    refine wp_mono (wp_and drains (drain_roomy streamLive h₁ (drains.mono fun _ _ _ _ => trivial))) ?_ fun _ _ h => h.2
    rintro done w₂ ⟨⟨trip₂, drained⟩, h₂⟩
    rw [wp_when]
    refine ⟨fun hdone => ?_, fun _ => h₂⟩
    obtain ⟨idle₂, subs₂⟩ := drained hdone
    refine ih ((trip.goes.history.trans trip₂.goes.history).subset flushing) idle₂ (fun p hp => ?_) h₂
    rw [subs₂, same]
    exact here p (List.mem_cons_of_mem _ hp)

theorem flushWith_roomy (h : Roomy numbers k size 0 w) : Stays numbers k size (flushWith env again k) w := by
  unfold Stays
  rw [flushWith, wp_bind, wp_router, wp_when]
  refine ⟨fun _ => ?_, fun _ => h⟩
  rw [wp_bind, wp_note, wp_bind]
  have h₁ : Roomy numbers k size 0 { w with history := w.history ++ [.flushing k] } := h.noted _
  have walks := revalidateWith_walks permits roams k (((w.routers k).video.map (·.bound.keys)).getD []) _ h₁.sane
  refine wp_mono (wp_and walks (revalidateWith_roomy nested permits gentle _ h₁)) ?_ fun _ _ h => h.2
  rintro _ w₂ ⟨⟨trip, -⟩, h₂⟩
  obtain ⟨s, found, live, -⟩ := h₂.room.count
  have control : (w₂.routers k).Live "control" := ⟨s, found, live⟩
  have drains : Walks .steady none (drain env k "control" .control) w₂ _ := drain_control k w₂
  rw [wp_bind]
  refine wp_mono (wp_and drains (drain_roomy control h₂ (drains.mono fun _ _ _ _ => trivial))) ?_ fun _ _ h => h.2
  rintro done w₃ ⟨⟨trip₃, idle⟩, h₃⟩
  rw [wp_when]
  refine ⟨fun hdone => ?_, fun _ => h₃⟩
  rw [wp_bind, wp_router]
  have flushing : .flushing k ∈ w₃.history := (trip.goes.history.trans trip₃.goes.history).subset (by simp)
  exact flushStreamsWith_roomy nested permits gentle roams _ flushing (idle hdone) (fun p hp => Table.mem_entries_iff.1 hp) h₃

end Nested

/-- A flush with room for what it may say returns, and leaves the router open. -/
theorem flush_roomy (permits : Permits .steady env) (gentle : env.Gentle k) (h : Roomy numbers k size 0 w) :
    Stays numbers k size (flush env k) w := by
  unfold Stays
  rw [flush, wp_bind, wp_router]
  generalize (w.routers k).depth = depth
  suffices deep : ∀ w, Roomy numbers k size 0 w → Stays numbers k size (flushDepth env k depth) w from deep w h
  induction depth with
  | zero => exact fun w h => h
  | succ depth ih => exact fun w h => flushWith_roomy ih permits gentle (flushDepth_walks permits k depth) h

end RosBridge.Router
