import RosBridge.Media.Preserved
import RosBridge.Router.Hooks
/-!
# The code takes steps only

`Walks allow loose m w Q`: run from `w`, the code `m` takes steps of `Step`, however it
ends, and satisfies `Q` when it returns; when it throws, the router that is `loose` may
have a control stream that is stuck. Everything a flush can run, and every sample, takes
steps only.
-/

namespace RosBridge.Router

open Lib Prog Session Config Relation CommandGuard

variable {η α β : Type}

def Walks (allow : Allow) (loose : Option Nat) (m : Code η α) (w : World η) (Q : α → World η → Prop) : Prop :=
  wp m (fun a w' => Trip allow none w w' ∧ Q a w') (fun _ w' => Trip allow loose w w') w

/-- Code that takes steps only from every sane world, and leaves every router settled. -/
def Roams (allow : Allow) (m : Code η α) : Prop := ∀ w, w.Sane → Walks allow none m w fun _ _ => True

/-- Code that moreover throws only when a `close` does. -/
def Ends (allow : Allow) (m : Code η α) : Prop :=
  ∀ w, w.Sane → wp m (fun _ w' => Trip allow none w w') (fun _ w' => Trip allow none w w' ∧ Breaks allow w) w

namespace Walks

variable {allow : Allow} {loose : Option Nat} {m : Code η α} {f : α → Code η β} {w : World η} {Q : α → World η → Prop}
  {R : β → World η → Prop}

theorem bind (hm : Walks allow loose m w Q) (hf : ∀ a w', Trip allow none w w' → Q a w' → Walks allow loose (f a) w' R) :
    Walks allow loose (m >>= f) w R := by
  unfold Walks
  rw [wp_bind]
  exact wp_mono hm (fun a w' h => wp_mono (hf a w' h.1 h.2) (fun _ _ h' => ⟨h.1.trans h'.1, h'.2⟩)
    (fun _ _ h' => h.1.loosen.trans h')) (fun _ _ h => h)

theorem pure (a : α) (h : Q a w) : Walks allow loose (pure a) w Q := ⟨.refl w, h⟩

theorem throw (e : String) : Walks allow loose (throw e : Code η α) w Q := Trip.refl w

theorem loosen (h : Walks allow none m w Q) : Walks allow loose m w Q :=
  wp_mono h (fun _ _ h => h) (fun _ _ h => h.loosen)

theorem mono {Q' : α → World η → Prop} (hm : Walks allow loose m w Q)
    (h : ∀ a w', Trip allow none w w' → Q a w' → Q' a w') : Walks allow loose m w Q' :=
  wp_mono hm (fun a w' h' => ⟨h'.1, h a w' h'.1 h'.2⟩) (fun _ _ h' => h')

theorem throwIf {Q : Unit → World η → Prop} (c : Prop) [Decidable c] (e : String) (h : ¬c → Q () w) :
    Walks allow loose (throwIf c e) w Q := by
  unfold Walks
  rw [wp_throwIf]
  exact ⟨fun _ => .refl w, fun hc => ⟨.refl w, h hc⟩⟩

theorem when {Q : Unit → World η → Prop} {c : Prop} [Decidable c] {m : Code η Unit} (hm : c → Walks allow loose m w Q)
    (h : ¬c → Q () w) : Walks allow loose (when c m) w Q := by
  unfold Walks
  rw [wp_when]
  exact ⟨hm, fun hc => ⟨.refl w, h hc⟩⟩

theorem ite {c : Prop} [Decidable c] {n : Code η α} (hm : c → Walks allow loose m w Q)
    (hn : ¬c → Walks allow loose n w Q) : Walks allow loose (if c then m else n) w Q := by
  unfold Walks
  rw [wp_ite]
  exact ⟨hm, hn⟩

theorem ofExcept (r : Except String α) (h : ∀ a, r = .ok a → Q a w) : Walks allow loose (Prog.ofExcept r) w Q := by
  unfold Walks
  rw [wp_ofExcept]
  exact ⟨fun a ha => ⟨.refl w, h a ha⟩, fun _ _ => .refl w⟩

theorem get {Q : World η → World η → Prop} (h : Q w w) : Walks allow loose MonadState.get w Q := ⟨.refl w, h⟩

theorem router {Q : SessionRouter η → World η → Prop} (k : Nat) (h : Q (w.routers k) w) :
    Walks allow loose (router k) w Q := ⟨.refl w, h⟩

theorem ask {answers : Nat → α} (h : ∀ a, Q a { w with tick := w.tick + 1 }) : Walks allow loose (ask answers) w Q :=
  ⟨.ticked w _, h _⟩

/-- What a hook does is a walk. -/
theorem of_hooked (h : wp m (fun a w' => Hooked allow w w' ∧ Q a w') (fun _ w' => Hooked allow w w') w) :
    Walks allow loose m w Q := wp_mono h (fun _ _ h => ⟨h.1.trip, h.2⟩) (fun _ _ h => h.trip.loosen)

end Walks

theorem Roams.walks {allow : Allow} {loose : Option Nat} {m : Code η α} (h : Roams allow m) {w : World η} (sane : w.Sane) :
    Walks allow loose m w fun _ _ => True := (h w sane).loosen

theorem Ends.roams {allow : Allow} {m : Code η α} (h : Ends allow m) : Roams allow m :=
  fun w sane => wp_mono (h w sane) (fun _ _ h => ⟨h, trivial⟩) (fun _ _ h => h.1)

theorem Step.history {allow : Allow} {w w' : World η} (s : Step allow w w') : w.history <+: w'.history := by
  cases s with
  | outside | mediaClosed | router | subscribed | constructed => exact List.prefix_rfl
  | _ => exact List.prefix_append _ _

theorem Goes.history {allow : Allow} {w w' : World η} (g : Goes allow w w') : w.history <+: w'.history := by
  induction g with
  | refl => exact List.prefix_rfl
  | tail _ s ih => exact ih.trans s.history

/-! ## Small helpers -/

section Helpers

variable {allow : Allow} {env : Env η}

theorem now_walks (loose : Option Nat) (k : Nat) (w : World η) :
    Walks allow loose (now env k) w fun t w' => (w.routers k).lastTime ≤ t ∧ w'.history = w.history ∧
      w'.guard = w.guard ∧ w'.routers k = { w.routers k with lastTime := t } := by
  simp only [Walks, now, wp_bind, wp_router, wp_ask]
  split
  · exact Trip.ticked w _
  · next value _ =>
    simp only [wp_bind, wp_throwIf, wp_update, wp_pure, not_or, not_lt]
    have asked : Trip allow none w { w with tick := w.tick + 1 } := .ticked w _
    refine ⟨fun _ => asked.loosen, fun h => ⟨asked.trans (.move (.ticked value h.1) fun _ s => ?_), h.1, rfl, rfl, ?_⟩⟩
    · exact s.of_streams rfl rfl
    · rw [World.setRouter_self]

theorem encoded_spec (k : Nat) (envelope : Envelope) (w : World η) :
    wp (encoded k envelope)
      (fun bytes w' => w = w' ∧ bytes = encode w.numbers envelope ∧ bytes.byteLength ≤ (w.routers k).maxBytes)
      (fun _ w' => w = w' ∧ (w.routers k).maxBytes < (encode w.numbers envelope).byteLength) w := by
  simp only [encoded, wp_bind, wp_get, wp_router, wp_ofExcept, encodeWire]
  split
  · next h => exact ⟨fun _ e => (by cases e), fun _ _ => ⟨trivial, h⟩⟩
  · next h =>
    refine ⟨fun _ e => ?_, fun _ e => (by cases e)⟩
    obtain rfl := Except.ok.inj e
    exact ⟨trivial, rfl, not_lt.1 h⟩

theorem controlRate_walks (loose : Option Nat) (k : Nat) (w : World η) :
    Walks allow loose (controlRate env k) w fun _ w' => ∃ t window count,
      w'.routers k = { w.routers k with lastTime := t, controlWindow := window, controlCount := count } := by
  refine (now_walks loose k w).bind fun t w₁ _ ticking => ?_
  obtain ⟨-, -, -, ticked⟩ := ticking
  unfold Walks
  simp only [wp_bind, wp_update, wp_router, wp_throwIf]
  have counted : ∀ window count, Trip allow none w₁ (w₁.setRouter k { w₁.routers k with
      controlWindow := window, controlCount := count }) := fun window count =>
    .move (.counted window count (w₁.routers k).welcomed id) fun _ s => s.of_streams rfl rfl
  have kept : ∀ window count, ∃ t' window' count', (w₁.setRouter k { w₁.routers k with
      controlWindow := window, controlCount := count }).routers k =
        { w.routers k with lastTime := t', controlWindow := window', controlCount := count' } := by
    intro window count
    exact ⟨t, window, count, by rw [World.setRouter_self, ticked]⟩
  exact ⟨fun _ => (counted _ _).loosen, fun _ => ⟨counted _ _, kept _ _⟩⟩

/-- The outcome of `removeSubscription` for a stream that is there. -/
def Removed (allow : Allow) (k : Nat) (stream : String) (w w' : World η) : Prop :=
  ∃ sub q listeners tick, (w.routers k).subscriptions.get? stream = some sub ∧
    q.options = (w.routers k).queue.options ∧ q.streams = (w.routers k).queue.streams.erase stream ∧
    (listeners = w.listeners.filter (· ≠ (k, stream)) ∨ allow.stuck ∧ listeners = w.listeners) ∧
    w' = { w.setRouter k ((w.routers k).unsubscribe stream q) with listeners := listeners, tick := tick }

theorem removeSubscription_spec (permits : Permits allow env) (k : Nat) (stream : String) (w : World η)
    (registered : ∀ sub, (w.routers k).subscriptions.get? stream = some sub →
      ∃ s, (w.routers k).queue.streams.get? stream = some s) :
    wp (removeSubscription env k stream) (fun _ => Removed allow k stream w)
      (fun _ w' => Removed allow k stream w w' ∧ allow.stuck ∨
        w' = w ∧ (w.routers k).subscriptions.get? stream = none) w := by
  simp only [removeSubscription, subscription, wp_bind, wp_router]
  split
  · next absent => exact .inr ⟨rfl, absent⟩
  · next sub found =>
    simp only [wp_pure, wp_update, wp_onQueue, World.setRouter_self]
    obtain ⟨s, registered⟩ := registered sub found
    refine wp_mono (DeliveryQueue.closeStream_spec stream _) ?_ ?_
    · rintro _ q ⟨options, streams⟩
      simp only [unsubscribe, wp_bind, wp_mark, wp_ask, wp_throwIf, wp_modify, World.setRouter_self, World.setRouter_setRouter]
      have removed : ∀ listeners, (listeners = w.listeners.filter (· ≠ (k, stream)) ∨ allow.stuck ∧ listeners = w.listeners) →
          Removed allow k stream w { w.setRouter k ((w.routers k).unsubscribe stream q) with
            listeners := listeners, tick := w.tick + 1 } :=
        fun listeners left => ⟨sub, q, listeners, w.tick + 1, found, options, streams, left, rfl⟩
      have marked : ({ w.routers k with
          subscriptions := (w.routers k).subscriptions.erase stream
          trace := (w.routers k).trace ++ [.lost stream]
          queue := q } : SessionRouter η).marked (.unsubscribing stream) = (w.routers k).unsubscribe stream q := by
        simp [SessionRouter.marked, SessionRouter.unsubscribe]
      rw [marked]
      refine ⟨fun thrown => .inl ?_, fun _ => removed _ (.inl rfl)⟩
      have stuck : allow.stuck := permits.unsubscribe.resolve_right fun h => by simp [h] at thrown
      exact ⟨removed w.listeners (.inr ⟨stuck, rfl⟩), stuck⟩
    · rintro _ _ ⟨-, absent⟩
      exact absurd (registered.symm.trans absent) (by simp)

theorem World.Sane.registered {w : World η} (sane : w.Sane) {k : Nat} {stream : String} (sub : Subscription η)
    (found : (w.routers k).subscriptions.get? stream = some sub) : ∃ s, (w.routers k).queue.streams.get? stream = some s := by
  obtain ⟨s, registered, -⟩ := (sane.routers k).live stream sub found
  exact ⟨s, registered⟩

/-- Removing a subscription is a step, with the refusal that led to it. -/
theorem Removed.trip {k : Nat} {stream : String} {w w' : World η} {notes : List Note} (sane : w.Sane)
    (recorded : notes = [] ∨ notes = [.refused k stream])
    (h : Removed allow k stream { w with history := w.history ++ notes } w') : Trip allow none w w' := by
  obtain ⟨sub, q, listeners, tick, found, options, streams, left, rfl⟩ := h
  have step : Step allow w _ := .removed k stream sub q listeners notes found options streams left recorded
  refine Trip.trans (.step step (fun _ h => World.setRouter_ne w _ h) (fun _ s => ?_) rfl) (.ticked _ tick)
  dsimp only
  rw [World.setRouter_self]
  rcases s with closed | live
  · exact .inl closed
  · exact .inr (SessionRouter.live_erase streams ((sane.routers k).ne_control found).symm live)

/-! ## The control stream -/

theorem encode_pos (numbers : NumberText) (envelope : Envelope) : 0 < (encode numbers envelope).byteLength := by
  obtain ⟨fields, h⟩ : ∃ fields, envelope.json = .object fields := by cases envelope <;> exact ⟨_, rfl⟩
  have brace : ("\x7b" : String).utf8ByteSize = 1 := rfl
  simp only [encode, h, Json.stringify, String.utf8ByteSize_append, brace]
  omega

theorem queueControl_spec (k : Nat) (bytes : Bytes) (w : World η) (sane : (w.routers k).Sane) :
    wp (queueControl k bytes)
      (fun _ w' => ∃ r, Control (w.routers k) bytes r ∧ r.Live "control" ∧ w' = w.setRouter k r)
      (fun _ w' => (∃ r, Control (w.routers k) bytes r ∧ w' = w.setRouter k r) ∨
        w' = w ∧ (bytes.byteLength = 0 ∨ bytes.byteLength > (w.routers k).maxBytes)) w := by
  have policy := sane.control
  simp only [queueControl, wp_bind, wp_onQueue, wp_mark, World.setRouter_self, World.setRouter_setRouter]
  refine wp_mono (DeliveryQueue.enqueue_spec "control" bytes (w.routers k).queue) ?_ ?_
  · rintro ok q ⟨stored, options⟩
    cases stored with
    | stored s _ found live streams fits =>
      have kept : DeliveryQueue.kept s = s.messages := by simp [DeliveryQueue.kept, policy s found]
      rw [kept] at streams
      refine ⟨_, .queued s q found live options streams fits, ⟨{ s with messages := s.messages ++ [bytes] }, ?_, live⟩, rfl⟩
      simp [SessionRouter.marked, streams]
    | dropped s _ found live latest _ =>
      rw [policy s found] at latest
      cases latest
  · rintro _ q ⟨refused, options⟩
    cases refused with
    | dead dead =>
      refine .inl ⟨w.routers k, .dead fun ⟨s, found, live⟩ => ?_, rfl⟩
      rw [dead s found] at live
      cases live
    | size size => exact .inr ⟨World.setRouter_same w k, sane.limit ▸ size⟩
    | overflow s _ found live reliable streams => exact .inl ⟨_, .jammed s q found live options streams, rfl⟩

/-- A control envelope is a move, and may leave the control stream stuck. -/
theorem Control.trip {k : Nat} {bytes : Bytes} {r : SessionRouter η} {w : World η} (c : Control (w.routers k) bytes r)
    (plain : bytes.envelope.stream = none) : Trip allow (some k) w (w.setRouter k r) :=
  .move (.control bytes r c plain) fun h => absurd rfl h

theorem queueControl_walks (k : Nat) (bytes : Bytes) (plain : bytes.envelope.stream = none) (w : World η) (sane : w.Sane) :
    Walks allow (some k) (queueControl k bytes) w fun _ w' => (w'.routers k).Live "control" := by
  refine wp_mono (queueControl_spec k bytes w (sane.routers k)) ?_ ?_
  · rintro _ _ ⟨r, control, live, rfl⟩
    have live : ((w.setRouter k r).routers k).Live "control" := by rwa [World.setRouter_self]
    exact ⟨(control.trip plain).tighten (.inr live), live⟩
  · rintro _ _ (⟨r, control, rfl⟩ | ⟨rfl, -⟩)
    · exact control.trip plain
    · exact .refl _

theorem respond_walks (k : Nat) (envelope : Envelope) (plain : envelope.stream = none) (w : World η) (sane : w.Sane) :
    Walks allow (some k) (respond k envelope) w fun _ w' => (w'.routers k).Live "control" := by
  refine (Walks.router (Q := fun _ w' => w = w') k rfl).bind ?_
  rintro r _ _ rfl
  refine (Walks.throwIf (Q := fun _ w' => w = w') _ _ fun _ => rfl).bind ?_
  rintro _ _ _ rfl
  refine Walks.bind (Q := fun bytes w' => w = w' ∧ bytes = encode w.numbers envelope) ?_ ?_
  · exact wp_mono (encoded_spec k envelope w) (fun _ w' h => ⟨.of_eq h.1.symm, h.1, h.2.1⟩) (fun _ w' h => .of_eq h.1.symm)
  · rintro _ _ _ ⟨rfl, rfl⟩
    exact queueControl_walks k _ plain w sane

/-! ## Draining -/

/-- The head of a stream has been given to `send`. -/
def World.hand (w : World η) (k : Nat) (stream : String) (channel : Channel) (next : Bytes) (accepted : Bool)
    (q : DeliveryQueue Bytes) : World η :=
  { w.setRouter k ({ w.routers k with queue := q }.marked (.handed channel next.envelope accepted)) with
    history := w.history ++ [.handed k stream accepted] }

/-- Sending leaves the streams registered and live. -/
theorem Sent.live {r : SessionRouter η} {stream : String} {next : Bytes} {accepted : Bool} {q : DeliveryQueue Bytes}
    (s : Sent r.queue stream next accepted q) {id : String} (h : r.Live id) :
    ({ r with queue := q } : SessionRouter η).Live id := by
  cases s with
  | refused => exact h
  | accepted s rest _ found live head options streams => exact SessionRouter.live_set streams (by exact live) h

theorem Trip.hand {loose : Option Nat} {w : World η} {k : Nat} {stream : String} {channel : Channel} {next : Bytes}
    {accepted : Bool} {q : DeliveryQueue Bytes} (s : Step allow w (w.hand k stream channel next accepted q))
    (sent : Sent (w.routers k).queue stream next accepted q) : Trip allow loose w (w.hand k stream channel next accepted q) := by
  refine .step s (fun _ h => World.setRouter_ne w _ h) (fun _ h => ?_) rfl
  simp only [World.hand, World.setRouter_self]
  exact h.imp id sent.live

/-- The loop takes the step `hand` for each message it gives to `send`; what these
steps keep holds after it, if it sent everything. -/
theorem drainLoop_walks (k : Nat) (stream : String) (channel : Channel) {J : SessionRouter η → List Note → Prop}
    (hand : ∀ (w : World η) next accepted q, J (w.routers k) w.history → Sent (w.routers k).queue stream next accepted q →
      Step allow w (w.hand k stream channel next accepted q) ∧ (accepted = true →
        J ((w.hand k stream channel next accepted q).routers k) (w.hand k stream channel next accepted q).history))
    (fuel : Nat) (w : World η) (start : J (w.routers k) w.history) (pos : 0 < fuel)
    (enough : ∀ s, (w.routers k).queue.streams.get? stream = some s → s.messages.length < fuel) :
    Walks allow none (drainLoop env k stream channel fuel) w fun done w' =>
      done = true → J (w'.routers k) w'.history ∧ (w'.routers k).Idle stream := by
  induction fuel generalizing w with
  | zero => cases pos
  | succ fuel ih =>
    rw [drainLoop]
    refine Walks.bind (Q := fun m w' => w = w' ∧ ∃ s, (w.routers k).queue.streams.get? stream = some s ∧
      s.stopped = false ∧ s.messages.head? = m) ?_ ?_
    · unfold Walks
      rw [wp_onQueue]
      refine wp_mono (DeliveryQueue.peek_spec stream (w.routers k).queue) ?_ ?_
      · rintro m _ ⟨rfl, peeked⟩
        have same := World.setRouter_same w k
        exact ⟨.of_eq same, same.symm, peeked⟩
      · rintro _ _ ⟨rfl, -⟩
        exact .of_eq (World.setRouter_same w k)
    rintro m _ _ ⟨rfl, s, found, live, head⟩
    cases m with
    | none => exact .pure true fun _ => ⟨start, s, found, live, List.head?_eq_none_iff.1 head⟩
    | some next =>
      obtain ⟨rest, messages⟩ := List.head?_eq_some_iff.1 head
      refine (Walks.ask (Q := fun _ w' => w' = { w with tick := w.tick + 1 }) fun _ => rfl).bind ?_
      rintro accepted _ asked rfl
      set w₁ : World η := { w with tick := w.tick + 1 } with hw₁
      simp only [Walks, wp_bind, wp_mark, wp_note]
      cases accepted with
      | false =>
        have sent : Sent (w₁.routers k).queue stream next false (w₁.routers k).queue := .refused s rest found live messages
        obtain ⟨step, -⟩ := hand w₁ next false (w₁.routers k).queue start sent
        refine ⟨.hand step sent, by simp⟩
      | true =>
        -- The mark, the note and the removal of the head are one step.
        simp only [if_true, wp_bind, wp_onQueue, World.setRouter_self]
        refine wp_mono (DeliveryQueue.dequeue_spec stream _) ?_ ?_
        · rintro _ q ⟨options, s', found', streams⟩
          obtain rfl : s = s' := Option.some.inj (found.symm.trans found')
          rw [messages, List.tail_cons] at streams
          have sent : Sent (w₁.routers k).queue stream next true q :=
            .accepted s rest q found live messages options streams
          obtain ⟨step, keep⟩ := hand w₁ next true q start sent
          have trip : Trip allow none w₁ (w₁.hand k stream channel next true q) := .hand step sent
          have shorter : ∀ s', q.streams.get? stream = some s' → s'.messages.length < fuel := by
            intro s' here
            rw [streams, Table.get?_set_self] at here
            obtain rfl := Option.some.inj here
            have := enough s found
            rw [messages, List.length_cons] at this
            dsimp only
            omega
          have own : ((w₁.hand k stream channel next true q).routers k).queue = q := by simp [World.hand, SessionRouter.marked]
          have rest := ih (w₁.hand k stream channel next true q) (keep rfl) ?_ (by rw [own]; exact shorter)
          · refine (congrArg (wp _ _ _) (World.eq_of (fun j => ?_) rfl : _ = w₁.hand k stream channel next true q)).mpr
              (wp_mono rest (fun _ _ h => ⟨trip.trans h.1, h.2⟩) fun _ _ h => trip.trans h)
            by_cases h : j = k <;> simp [World.hand, World.setRouter, SessionRouter.marked, h]
          · have := shorter { s with messages := rest } (by simp [streams])
            omega
        · rintro _ _ ⟨rfl, stopped⟩
          exact absurd (live.symm.trans (stopped s found)) (by simp)

theorem drain_walks (k : Nat) (stream : String) (channel : Channel) {J : SessionRouter η → List Note → Prop}
    (hand : ∀ (w : World η) next accepted q, J (w.routers k) w.history → Sent (w.routers k).queue stream next accepted q →
      Step allow w (w.hand k stream channel next accepted q) ∧ (accepted = true →
        J ((w.hand k stream channel next accepted q).routers k) (w.hand k stream channel next accepted q).history))
    (w : World η) (start : J (w.routers k) w.history) :
    Walks allow none (drain env k stream channel) w fun done w' =>
      done = true → J (w'.routers k) w'.history ∧ (w'.routers k).Idle stream := by
  refine (Walks.router (Q := fun r w' => w = w' ∧ r = w.routers k) k ⟨rfl, rfl⟩).bind ?_
  rintro r _ _ ⟨rfl, rfl⟩
  refine drainLoop_walks k stream channel hand _ w start (Nat.succ_pos _) fun s found => ?_
  simp [found]

theorem drain_control (k : Nat) (w : World η) :
    Walks allow none (drain env k "control" .control) w fun done w' => done = true → (w'.routers k).Idle "control" := by
  refine (drain_walks k "control" .control (J := fun _ _ => True) ?_ w trivial).mono fun _ _ _ h done => (h done).2
  exact fun w next accepted q _ sent => ⟨.handedControl k next accepted q sent, fun _ => trivial⟩

/-- Draining a data stream that was rechecked just now neither changes the
subscriptions nor queues control. -/
theorem drain_data (k : Nat) (stream : String) (sub : Subscription η) (w : World η) (sane : w.Sane)
    (found : (w.routers k).subscriptions.get? stream = some sub) (isOpen : (w.routers k).closed = false)
    (idle : (w.routers k).Idle "control") (rechecked : Rechecked w.history k stream sub.entry.binding.publicName) :
    Walks allow none (drain env k stream (dataChannel sub.entry.binding.delivery)) w fun done w' =>
      done = true → (w'.routers k).Idle "control" ∧ (w'.routers k).subscriptions = (w.routers k).subscriptions := by
  have other : "control" ≠ stream := ((sane.routers k).ne_control found).symm
  refine (drain_walks k stream _ (J := fun r history => (r.Idle "control" ∧ r.subscriptions = (w.routers k).subscriptions) ∧
    r.closed = false ∧ Rechecked history k stream sub.entry.binding.publicName) ?_ w
    ⟨⟨idle, rfl⟩, isOpen, rechecked⟩).mono fun _ _ _ h done => (h done).1.1
  rintro w₁ next accepted q ⟨⟨idle, subs⟩, isOpen, rechecked⟩ sent
  refine ⟨.handedData k stream sub next accepted q (subs ▸ found) isOpen idle sent rechecked, ?_⟩
  rintro rfl
  cases sent with
  | accepted s rest _ here live head options streams =>
    obtain ⟨t, ht, h⟩ := idle
    obtain ⟨before, after, history, flushing, mine⟩ := rechecked
    simp only [World.hand, World.setRouter_self, SessionRouter.marked]
    refine ⟨⟨⟨t, ?_, h⟩, subs⟩, isOpen, before, after ++ [.handed k stream true], by simp [history], flushing, ?_⟩
    · rw [streams, Table.get?_set_ne _ _ other, ht]
    · simpa [or_imp, forall_and] using mine

/-! ## Flushing -/

section Nested

variable {again : Code η Unit} (permits : Permits allow env) (roams : Roams allow again)

theorem Breaks.of_trip {loose : Option Nat} {w w' : World η} (h : Breaks allow w') (trip : Trip allow loose w w') :
    Breaks allow w := by
  unfold Breaks at *
  rwa [trip.media] at h

include permits roams

theorem errorWith_settles (k : Nat) (id : Option String) (w : World η) (sane : w.Sane) :
    wp (errorWith env again k id) (fun _ w' => Trip allow none w w' ∧ (w'.routers k).Settled)
      (fun _ w' => (Trip allow none w w' ∧ (w'.routers k).Settled) ∧ Breaks allow w) w := by
  rw [errorWith, wp_bind, wp_router, wp_when]
  refine ⟨fun _ => ?_, fun closed => ⟨.refl w, .inl (by simpa using closed)⟩⟩
  have tried : Walks allow (some k) (do respond k (.error id); again) w fun _ w' => (w'.routers k).Settled := by
    refine (respond_walks k _ rfl w sane).bind fun _ w₁ trip live => ?_
    exact (roams.walks (trip.sane sane)).mono fun _ w₂ trip₂ _ => trip₂.settled k nofun (.inr live)
  rw [wp_tryCatch]
  refine wp_mono tried (fun _ _ h => h) fun _ w₁ trip => ?_
  refine wp_mono (close_hooked permits k w₁ (trip.sane sane)) (fun _ w₂ h => ?_) (fun _ w₂ h => ?_)
  · exact ⟨(trip.trans h.1.trip.loosen).tighten (.inl h.2), .inl h.2⟩
  · exact ⟨⟨(trip.trans h.1.1.trip.loosen).tighten (.inl h.1.2), .inl h.1.2⟩, h.2.of_trip trip⟩

theorem errorWith_ends (k : Nat) (id : Option String) : Ends allow (errorWith env again k id) :=
  fun w sane => wp_mono (errorWith_settles permits roams k id w sane) (fun _ _ h => h.1) (fun _ _ h => ⟨h.1.1, h.2⟩)

/-- What an error handler starting with `errorWith` makes of a throw. -/
theorem errorWith_after {k : Nat} {w w₁ : World η} (trip : Trip allow (some k) w w₁) (sane : w.Sane) (id : Option String) :
    wp (errorWith env again k id) (fun _ w' => Trip allow none w w')
      (fun _ w' => Trip allow none w w' ∧ Breaks allow w) w₁ :=
  wp_mono (errorWith_settles permits roams k id w₁ (trip.sane sane)) (fun _ _ h => (trip.trans h.1.loosen).tighten h.2)
    (fun _ _ h => ⟨(trip.trans h.1.1.loosen).tighten h.1.2, h.2.of_trip trip⟩)

theorem eventWith_ends (k : Nat) (envelope : Envelope) (plain : envelope.stream = none) :
    Ends allow (eventWith env again k envelope) := by
  intro w sane
  have tried : Walks allow (some k) (do respond k envelope; again) w fun _ _ => True :=
    (respond_walks k _ plain w sane).bind fun _ w₁ trip _ => roams.walks (trip.sane sane)
  rw [eventWith, wp_tryCatch]
  exact wp_mono tried (fun _ _ h => h.1) fun _ w₁ trip => errorWith_after permits roams trip sane none

omit permits roams in
theorem Ends.after {m : Code η α} (h : Ends allow m) {w w₁ : World η} (trip : Trip allow none w w₁) (sane : w.Sane) :
    wp m (fun _ w' => Trip allow none w w') (fun _ w' => Trip allow none w w' ∧ Breaks allow w) w₁ :=
  wp_mono (h w₁ (trip.sane sane)) (fun _ _ h => trip.trans h) (fun _ _ h => ⟨trip.trans h.1, h.2.of_trip trip⟩)

omit permits roams in
theorem Trip.flag {loose : Option Nat} (w : World η) (k : Nat) (track : String) (f : Binding → Binding)
    (slot : ∀ b, (f b).slot = b.slot) (known : ∀ b, (f b).attached = true → b.attached = true ∨ track ∈ w.media.tracks) :
    Trip allow loose w (w.setRouter k ((w.routers k).flag track f)) :=
  .move (.flagged track f slot known) fun _ s => s.of_streams rfl rfl

theorem viewerStateWith_ends (k : Nat) (track : String) (state : Media.VideoState) :
    Ends allow (viewerStateWith env again k track state) := by
  intro w sane
  rw [viewerStateWith, wp_bind, wp_bindingOf]
  split
  · exact .refl w
  · rw [wp_bind, wp_when]
    refine ⟨fun _ => ?_, fun _ => eventWith_ends permits roams k _ rfl w sane⟩
    rw [wp_setBinding]
    have flagged : Trip allow none w (w.setRouter k ((w.routers k).flag track fun b =>
        { b with watching := false, attached := false })) := .flag w k track _ (by intro _; rfl) (by simp)
    exact (eventWith_ends permits roams k _ rfl).after flagged sane

omit permits roams in
/-- Releasing a track is a walk, whether or not the `detach` throws. -/
theorem release_walks (k : Nat) (track : String) : Roams allow (release env k track) := by
  intro w sane
  have released : Trip allow none w (w.setRouter k ((w.routers k).release track)) := by
    have flagged : Trip allow none w (w.setRouter k ((w.routers k).flag track Binding.released)) :=
      .flag w k track _ (by intro _; rfl) (by simp [Binding.released])
    by_cases held : track ∈ (w.routers k).attached
    · have both : Trip allow none w (w.setRouter k (((w.routers k).flag track Binding.released).marked (.detaching track))) :=
        flagged.next (.detaching track) fun _ s => s.of_streams rfl rfl
      rwa [SessionRouter.release, if_pos held]
    · rwa [SessionRouter.release, if_neg held, List.append_nil]
  refine wp_mono (release_spec env k track w) ?_ ?_
  · rintro _ _ ⟨-, sources, rfl⟩
    exact ⟨released.trans (.elapsed _ _ _), trivial⟩
  · rintro _ _ ⟨-, rfl⟩
    exact released.trans (.elapsed _ _ _)

theorem revalidateTrackWith_walks (k : Nat) (track : String) : Roams allow (revalidateTrackWith env again k track) := by
  intro w sane
  refine Walks.bind (Q := fun _ _ => True) ?_ fun entry w₁ trip _ => ?_
  · rw [Walks, wp_bindingOf]
    exact ⟨.refl w, trivial⟩
  have sane := trip.sane sane
  split
  · exact .pure () trivial
  refine Walks.when (fun _ => ?_) fun _ => trivial
  refine Walks.bind (Q := fun _ _ => True) ?_ fun ok w₂ trip₂ _ => ?_
  · exact Walks.of_hooked (wp_mono (hook_asked permits env.videoAuthorize permits.videoAuthorize w₁ sane)
      (fun _ _ h => ⟨h.toHooked, trivial⟩) (fun _ _ h => h.toHooked))
  have sane := trip₂.sane sane
  refine Walks.when (fun _ => ?_) fun _ => trivial
  refine ((release_walks k track).walks sane).bind fun _ w₃ trip₃ _ => ?_
  exact (viewerStateWith_ends permits roams k track .failed).roams.walks (trip₃.sane sane)

theorem revalidateWith_walks (k : Nat) (tracks : List String) : Roams allow (revalidateWith env again k tracks) := by
  induction tracks with
  | nil => exact fun w _ => .pure () trivial
  | cons track tracks ih =>
    intro w sane
    exact (revalidateTrackWith_walks permits roams k track w sane).bind fun _ w₁ trip _ => ih w₁ (trip.sane sane)

omit roams in
/-- The refusal of a stream, with which it is removed if it is there. -/
theorem refuse_walks (k : Nat) (stream : String) (w : World η) (sane : w.Sane) (issued : (w.routers k).Issued stream)
    (born : k < w.born) : Walks allow none (do
      note (.refused k stream)
      when ((← router k).subscriptions.has stream) <| removeSubscription env k stream) w fun _ _ => True := by
  simp only [Walks, wp_bind, wp_note, wp_router, wp_when]
  refine ⟨fun _ => ?_, fun absent => ⟨.single (.refused k stream ?_ issued born) rfl rfl, trivial⟩⟩
  · refine wp_mono (removeSubscription_spec permits k stream _ sane.registered)
      (fun _ _ h => ⟨h.trip sane (.inr rfl), trivial⟩) ?_
    rintro _ _ (⟨h, -⟩ | ⟨rfl, absent⟩)
    · exact h.trip sane (.inr rfl)
    · exact .single (.refused k stream absent issued born) rfl rfl
  · simpa [Table.has] using absent

/-- A subscription that passes the recheck is still there, nothing was queued, and the
recheck is the last thing that happened. -/
theorem recheckWith_walks (k : Nat) (stream name : String) (w : World η) (sane : w.Sane)
    (flushing : .flushing k ∈ w.history) (issued : (w.routers k).Issued stream) (born : k < w.born) :
    Walks allow none (recheckWith env again k stream name) w fun ok w' =>
      ok = true → w'.routers k = w.routers k ∧ (w.routers k).closed = false ∧ Rechecked w'.history k stream name := by
  unfold Walks
  rw [recheckWith, wp_tryCatch, wp_bind]
  refine wp_mono (entry_entered permits k name .subscribe w sane) (fun e w₁ entered => ?_) (fun _ w₁ h => ?_)
  · refine ⟨entered.trip, fun _ => ⟨entered.same, entered.isOpen, ?_⟩⟩
    obtain ⟨before, history, grown⟩ := entered.answered
    rw [(sane.routers k).named name e entered.found] at history
    exact ⟨before, [], history, grown.subset flushing, by simp⟩
  · have handler : Walks allow none (do
        (do note (.refused k stream); when ((← router k).subscriptions.has stream) <| removeSubscription env k stream)
        errorWith env again k none
        return false) w₁ fun ok _ => ok = false := by
      refine (refuse_walks permits k stream w₁ (h.trip.sane sane) (h.issued issued) (born.trans_le (Goes.born h.trip.goes))).bind fun _ w₂ trip _ => ?_
      exact ((errorWith_ends permits roams k none).roams.walks (trip.sane (h.trip.sane sane))).bind fun _ _ _ _ =>
        .pure false rfl
    rw [bind_assoc] at handler
    refine wp_mono handler (fun ok w₂ h₂ => ⟨h.trip.trans h₂.1, fun e => ?_⟩) (fun _ w₂ h₂ => h.trip.trans h₂)
    rw [h₂.2] at e
    cases e

theorem flushStreamsWith_walks (k : Nat) (subs : List (String × Subscription η)) (w : World η) (sane : w.Sane)
    (flushing : .flushing k ∈ w.history) (idle : (w.routers k).Idle "control")
    (here : ∀ p ∈ subs, (w.routers k).subscriptions.get? p.1 = some p.2) :
    Walks allow none (flushStreamsWith env again k subs) w fun _ _ => True := by
  induction subs generalizing w with
  | nil => exact .pure () trivial
  | cons p rest ih =>
    obtain ⟨stream, sub⟩ := p
    have issued := (sane.routers k).issued stream sub (here _ List.mem_cons_self)
    have born := sane.born_of_subscription (here _ List.mem_cons_self)
    refine (recheckWith_walks permits roams k stream _ w sane flushing issued born).bind fun ok w₁ trip checked => ?_
    refine Walks.when (fun hok => ?_) fun _ => trivial
    obtain ⟨same, isOpen, rechecked⟩ := checked hok
    have sane := trip.sane sane
    refine (drain_data k stream sub w₁ sane (same ▸ here _ List.mem_cons_self) (same ▸ isOpen) (same ▸ idle) rechecked).bind ?_
    rintro done w₂ trip₂ drained
    refine Walks.when (fun hdone => ?_) fun _ => trivial
    obtain ⟨idle₂, subs₂⟩ := drained hdone
    refine ih w₂ (trip₂.sane sane) ((trip.goes.history.trans trip₂.goes.history).subset flushing) idle₂ fun p hp => ?_
    rw [subs₂, same]
    exact here p (List.mem_cons_of_mem _ hp)

theorem flushWith_walks (k : Nat) : Roams allow (flushWith env again k) := by
  intro w sane
  refine (Walks.router (Q := fun r w' => w = w' ∧ r = w.routers k) k ⟨rfl, rfl⟩).bind ?_
  rintro r _ _ ⟨rfl, rfl⟩
  refine Walks.when (fun isOpen => ?_) fun _ => trivial
  have isOpen : (w.routers k).closed = false := by simpa using isOpen
  refine Walks.bind (Q := fun _ w' => .flushing k ∈ w'.history) ?_ fun _ w₁ trip₁ flushing => ?_
  · exact ⟨.single (.flushing k isOpen) rfl rfl, by simp⟩
  have sane := trip₁.sane sane
  refine (revalidateWith_walks permits roams k _ w₁ sane).bind fun _ w₂ trip₂ _ => ?_
  have sane := trip₂.sane sane
  refine (drain_control k w₂).bind fun done w₃ trip₃ idle => ?_
  refine Walks.when (fun hdone => ?_) fun _ => trivial
  refine (Walks.router (Q := fun r w' => w₃ = w' ∧ r = w₃.routers k) k ⟨rfl, rfl⟩).bind ?_
  rintro r _ _ ⟨rfl, rfl⟩
  refine flushStreamsWith_walks permits roams k _ w₃ (trip₃.sane sane)
    ((trip₂.goes.history.trans trip₃.goes.history).subset flushing) (idle hdone) fun p hp => Table.mem_entries_iff.1 hp

end Nested

theorem flushDepth_walks (permits : Permits allow env) (k depth : Nat) : Roams allow (flushDepth env k depth) := by
  induction depth with
  | zero => exact fun w _ => .pure () trivial
  | succ depth ih => exact flushWith_walks permits ih k

theorem flush_walks (permits : Permits allow env) (k : Nat) : Roams allow (flush env k) := by
  intro w sane
  refine (Walks.router (Q := fun _ w' => w = w') k rfl).bind ?_
  rintro r _ _ rfl
  exact flushDepth_walks permits k _ w sane

theorem error_ends (permits : Permits allow env) (k : Nat) (id : Option String) : Ends allow (error env k id) :=
  errorWith_ends permits (flush_walks permits k) k id

theorem viewerState_ends (permits : Permits allow env) (k : Nat) (track : String) (state : Media.VideoState) :
    Ends allow (viewerState env k track state) := viewerStateWith_ends permits (flush_walks permits k) k track state

/-! ## Samples -/

/-- A sample was numbered and then not queued. -/
structure Spoiled (k : Nat) (stream : String) (w w' : World η) : Prop where
  spoiled : ∃ sub native q, (w.routers k).subscriptions.get? stream = some sub ∧ sub.ready = true ∧ sub.seq ≤ maxSequence ∧
    q.options = (w.routers k).queue.options ∧ q.streams.erase stream = (w.routers k).queue.streams.erase stream ∧
    (∃ s, q.streams.get? stream = some s) ∧
    w' = w.setRouter k { (w.routers k).number stream sub.seq native with queue := q }

/-- With the refusal and removal of its stream a numbered sample is lost. -/
theorem Spoiled.removed {k : Nat} {stream : String} {w w' w'' : World η} (sane : w.Sane) (h : Spoiled k stream w w')
    (r : Removed allow k stream { w' with history := w'.history ++ [.refused k stream] } w'') : Trip allow none w w'' := by
  obtain ⟨sub, native, q, found, ready, fits, options, erased, -, rfl⟩ := h.spoiled
  obtain ⟨sub', q', listeners, tick, -, options', streams', left, rfl⟩ := r
  dsimp only at options' streams' left ⊢
  rw [World.setRouter_self] at options' streams' ⊢
  have step : Step allow w _ := .spoiled k stream sub native q' listeners found ready fits (options'.trans options)
    (streams'.trans erased) left
  refine Trip.trans (.step step (fun _ h => World.setRouter_ne w _ h) (fun _ s => ?_) rfl)
    ((Trip.ticked _ tick).trans (.of_eq (World.eq_of (fun j => ?_) rfl)))
  · dsimp only
    rw [World.setRouter_self]
    rcases s with closed | live
    · exact .inl closed
    · exact .inr (SessionRouter.live_erase (streams'.trans erased) ((sane.routers k).ne_control found).symm live)
  · by_cases e : j = k <;> simp [World.setRouter, SessionRouter.unsubscribe, SessionRouter.number, e]

theorem Spoiled.registered {k : Nat} {stream : String} {w w' : World η} (h : Spoiled k stream w w') :
    (∃ sub, (w'.routers k).subscriptions.get? stream = some sub) ∧ ∃ s, (w'.routers k).queue.streams.get? stream = some s := by
  obtain ⟨sub, native, q, found, -, -, -, -, registered, rfl⟩ := h.spoiled
  rw [World.setRouter_self]
  refine ⟨⟨{ sub with seq := sub.seq + 1 }, ?_⟩, registered⟩
  simp [SessionRouter.number, Table.get?_modify, found]

theorem deliver_spec (k : Nat) (stream : String) (sub : Subscription η) (native : η) (w : World η) (sane : w.Sane)
    (found : (w.routers k).subscriptions.get? stream = some sub) (ready : sub.ready = true) :
    wp (deliver k stream sub.entry native) (fun _ w' => Trip allow none w w')
      (fun _ w' => w' = w ∨ Spoiled k stream w w') w := by
  simp only [deliver, subscription, wp_bind, wp_router, found, wp_pure, wp_throwIf, wp_ofExcept, wp_update]
  refine ⟨fun _ => .inl trivial, fun fits => ⟨fun data encodes => ?_, fun _ _ => .inl trivial⟩⟩
  have fits : sub.seq ≤ maxSequence := by
    obtain ⟨m, hm⟩ := Option.ne_none_iff_exists'.1 (by simpa using fits)
    exact le_maxSequence hm
  obtain ⟨s₀, registered, -⟩ := (sane.routers k).live stream sub found
  have own : (w.setRouter k ((w.routers k).number stream sub.seq native)).routers k = (w.routers k).number stream sub.seq native :=
    World.setRouter_self _ _ _
  -- Wherever it stops from here on, the number is used up.
  have spoiled : ∀ q : DeliveryQueue Bytes, q.options = (w.routers k).queue.options →
      q.streams.erase stream = (w.routers k).queue.streams.erase stream → (∃ s, q.streams.get? stream = some s) →
      ∀ w', w' = w.setRouter k { (w.routers k).number stream sub.seq native with queue := q } →
      w' = w ∨ Spoiled k stream w w' := by
    rintro q options erased here _ rfl
    exact .inr ⟨sub, native, q, found, ready, fits, options, erased, here, rfl⟩
  have same := spoiled (w.routers k).queue rfl rfl ⟨s₀, registered⟩
  refine wp_mono (encoded_spec k _ (w.setRouter k ((w.routers k).number stream sub.seq native))) ?_ ?_
  · rintro bytes _ ⟨rfl, rfl, -⟩
    rw [wp_onQueue, own]
    refine wp_mono (DeliveryQueue.enqueue_spec stream _ (w.routers k).queue) ?_ ?_
    · rintro ok q ⟨stored, options⟩
      rw [World.setRouter_self] at stored
      rw [World.setRouter_setRouter]
      refine .move (.sampled stream sub native data ok q found ready fits encodes stored options) fun _ h => ?_
      rcases h with closed | live
      · exact .inl closed
      · refine .inr ?_
        cases stored with
        | stored s _ here running streams => exact SessionRouter.live_set streams (by exact running) live
        | dropped s _ here running policy streams => exact SessionRouter.live_set streams (by exact running) live
    · rintro _ q ⟨refused, options⟩
      rw [World.setRouter_setRouter]
      cases refused with
      | dead | size => exact same _ rfl
      | overflow s _ here live policy streams =>
        exact spoiled q options (by rw [streams, Table.erase_set]) ⟨_, by rw [streams]; exact Table.get?_set_self _ _ _⟩ _ rfl
  · rintro _ _ ⟨rfl, -⟩
    exact same _ rfl

/-- A sample that is not queued after it was numbered ends its stream. -/
theorem sample_ends (permits : Permits allow env) (k : Nat) (stream : String) (native : η) :
    Ends allow (sample env k stream native) := by
  intro w sane
  rw [sample, wp_bind, wp_router]
  split
  · exact .refl w
  next sub found =>
  rw [wp_when]
  refine ⟨fun ready => ?_, fun _ => .refl w⟩
  rw [wp_tryCatch]
  refine wp_mono (Q := fun _ w' => Trip allow none w w')
    (E := fun _ w' => Trip allow none w w' ∨ ∃ w₁, Trip allow none w w₁ ∧ Spoiled k stream w₁ w') ?_ (fun _ _ h => h) ?_
  · rw [wp_bind]
    refine wp_mono (entry_entered permits k sub.entry.binding.publicName .subscribe w sane) ?_ fun _ _ h => .inl h.trip
    intro e w₁ entered
    obtain rfl : e = sub.entry :=
      Option.some.inj (entered.found.symm.trans ((sane.routers k).subscribed stream sub found))
    rw [wp_bind]
    refine wp_mono (now_walks none k w₁) ?_ fun _ _ h => .inl (entered.trip.trans h)
    rintro t w₂ ⟨trip₂, -, -, -, same₂⟩
    have trip₂ := entered.trip.trans trip₂
    rw [wp_when]
    refine ⟨fun _ => ?_, fun _ => trip₂⟩
    have found₂ : (w₂.routers k).subscriptions.get? stream = some sub := by rw [same₂, entered.same]; exact found
    rw [wp_bind, wp_update]
    set next := t + 1000 / sub.entry.binding.maxRateHz with hnext
    set w₃ := w₂.setRouter k { w₂.routers k with
      subscriptions := (w₂.routers k).subscriptions.modify stream fun s => { s with nextAt := next } } with hw₃
    have paced : Trip allow none w₂ w₃ := .move (.paced stream next) fun _ s => s.of_streams rfl rfl
    have trip₃ := trip₂.trans paced
    have found₃ : (w₃.routers k).subscriptions.get? stream = some { sub with nextAt := next } := by
      rw [hw₃, World.setRouter_self]
      simp [Table.get?_modify, found₂]
    rw [wp_bind]
    refine wp_mono (deliver_spec k stream { sub with nextAt := next } native w₃ (trip₃.sane sane) found₃ ready)
      (fun _ w₄ (trip₄ : Trip allow none w₃ w₄) => ?_) ?_
    · have trip₄ := trip₃.trans trip₄
      exact wp_mono (flush_walks permits k w₄ (trip₄.sane sane)) (fun _ _ h => trip₄.trans h.1)
        (fun _ _ h => .inl (trip₄.trans h))
    · rintro _ w₄ (rfl | spoiled)
      · exact .inl trip₃
      · exact .inr ⟨w₃, trip₃, spoiled⟩
  · -- The handler, wherever the sample stopped.
    have rest : ∀ w₁, Trip allow none w w₁ → wp (error env k none) (fun _ w' => Trip allow none w w')
        (fun _ w' => Trip allow none w w' ∧ Breaks allow w) w₁ := fun w₁ trip => (error_ends permits k none).after trip sane
    have broken : ∀ w' : World η, allow.stuck → Breaks allow w' := fun _ h => .inl h
    rintro _ w₁ stopped
    simp only [wp_bind, wp_note, wp_router, wp_when]
    rcases stopped with trip | ⟨w₀, trip, spoiled⟩
    · have sane₁ := trip.sane sane
      refine ⟨fun here => ?_, fun absent => rest _ (trip.trans (.single (.refused k stream ?_ ?_ ?_) rfl rfl))⟩
      · refine wp_mono (removeSubscription_spec permits k stream _ sane₁.registered)
          (fun _ w₂ h => rest w₂ (trip.trans (h.trip sane₁ (.inr rfl)))) ?_
        rintro _ _ (⟨h, stuck⟩ | ⟨rfl, absent⟩)
        · exact ⟨trip.trans (h.trip sane₁ (.inr rfl)), broken _ stuck⟩
        · exact absurd here (by simp [Table.has, absent])
      · simpa [Table.has] using absent
      · exact ((sane.routers k).issued stream sub found).kept (trip.goes.kept (sane.born_of_subscription found))
      · exact (sane.born_of_subscription found).trans_le (Goes.born trip.goes)
    · obtain ⟨⟨sub', here⟩, s, registered⟩ := spoiled.registered
      refine ⟨fun _ => ?_, fun absent => absurd ?_ absent⟩
      · refine wp_mono (removeSubscription_spec permits k stream _ fun _ _ => ⟨s, registered⟩)
          (fun _ w₂ removed => rest w₂ (trip.trans (spoiled.removed (trip.sane sane) removed))) ?_
        rintro _ w₂ (⟨removed, stuck⟩ | ⟨-, absent⟩)
        · exact ⟨trip.trans (spoiled.removed (trip.sane sane) removed), broken _ stuck⟩
        · exact absurd (here.symm.trans absent) (by simp)
      · simp [Table.has, here]

/-- Nothing happens to samples of a stream that is not there yet. -/
theorem samples_absent (k : Nat) (stream : String) (natives : List η) (w : World η)
    (absent : (w.routers k).subscriptions.get? stream = none) :
    wp (samples env k stream natives) (fun _ w' => w' = w) (fun _ _ => False) w := by
  induction natives with
  | nil => exact rfl
  | cons native natives ih =>
    simp only [samples, sample, wp_bind, wp_router, absent, wp_pure]
    exact ih

end Helpers

end RosBridge.Router
