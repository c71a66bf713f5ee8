import RosBridge.Transport.EndpointSafety
/-!
# The message limit of an endpoint

The limit is the smallest of 16384, the configured one and the one that the accepted
offer advertises. Nothing else changes it, so what `send` is given under that limit is
neither too large nor refused by an empty channel.
-/

namespace RosBridge.Transport

open Lib Prog Session Endpoint

variable {α β : Type} {e e' : Endpoint}

/-- The limit that an offer leaves: nothing advertised and zero leave the configured one. -/
def limitOf (configured : Nat) (shape : OfferShape) : Nat :=
  match shape.maxMessageBytes with
  | none | some 0 => min 16384 configured
  | some advertised => min (min 16384 configured) advertised

theorem limitOf_le (configured : Nat) (shape : OfferShape) : limitOf configured shape ≤ min 16384 configured := by
  unfold limitOf
  split
  · exact le_refl _
  · exact le_refl _
  · exact Nat.min_le_left _ _

theorem limitOf_pos {configured : Nat} (pos : 0 < configured) (shape : OfferShape) : 0 < limitOf configured shape := by
  unfold limitOf
  split
  · omega
  · omega
  · next advertised nonzero _ =>
    have apart : advertised ≠ 0 := nonzero
    omega

/-- The endpoint takes 65536 for nothing advertised. -/
theorem limitOf_eq (configured : Nat) (shape : OfferShape) : limitOf configured shape =
    if shape.maxMessageBytes.getD 65536 ≠ 0 then min (min 16384 configured) (shape.maxMessageBytes.getD 65536)
    else min 16384 configured := by
  unfold limitOf
  split
  · next absent =>
    rw [absent, Option.getD_none, if_pos (by decide)]
    omega
  · next zero => rw [zero, Option.getD_some, if_neg (by simp)]
  · next advertised nonzero given =>
    have apart : advertised ≠ 0 := nonzero
    rw [given, Option.getD_some, if_pos apart]

/-! ## What leaves the limit alone -/

/-- Neither the limit nor what it depends on has changed, and no router was made. -/
structure Unmoved (e e' : Endpoint) : Prop where
  options : e'.options = e.options
  limit : e'.maxMessageBytes = e.maxMessageBytes
  used : e'.used = e.used
  routed : ∀ n, .routed n ∈ e'.trace → .routed n ∈ e.trace

theorem Unmoved.refl (e : Endpoint) : Unmoved e e := ⟨rfl, rfl, rfl, fun _ h => h⟩

theorem Unmoved.trans {e'' : Endpoint} (h : Unmoved e e') (h' : Unmoved e' e'') : Unmoved e e'' :=
  ⟨h'.1.trans h.1, h'.2.trans h.2, h'.3.trans h.3, fun n mem => h.4 n (h'.4 n mem)⟩

/-- Code that leaves the limit alone. -/
def Unmoving (m : EndpointM α) : Prop := ∀ e, wp m (fun _ => Unmoved e) (fun _ => Unmoved e) e

namespace Unmoving

variable {m : EndpointM α} {f : α → EndpointM β}

theorem pure (a : α) : Unmoving (Pure.pure a : EndpointM α) := fun e => .refl e

theorem get : Unmoving (get : EndpointM Endpoint) := fun e => .refl e

theorem modify {f : Endpoint → Endpoint} (h : ∀ e, Unmoved e (f e)) : Unmoving (modify f : EndpointM Unit) := h

theorem bind (h : Unmoving m) (hf : ∀ a, Unmoving (f a)) : Unmoving (m >>= f) := by
  intro e
  rw [wp_bind]
  refine wp_mono (h e) (fun a e' same => ?_) fun _ _ same => same
  exact wp_mono (hf a e') (fun _ _ => same.trans) fun _ _ => same.trans

theorem tryCatch {handler : String → EndpointM α} (h : Unmoving m) (hh : ∀ error, Unmoving (handler error)) :
    Unmoving (tryCatch m handler) := by
  intro e
  rw [wp_tryCatch]
  refine wp_mono (h e) (fun _ _ same => same) fun error e' same => ?_
  exact wp_mono (hh error e') (fun _ _ => same.trans) fun _ _ => same.trans

theorem throwIf (c : Prop) [Decidable c] (error : String) : Unmoving (throwIf c error : EndpointM Unit) := by
  intro e
  rw [wp_throwIf]
  exact ⟨fun _ => .refl e, fun _ => .refl e⟩

theorem when {c : Prop} [Decidable c] {m : EndpointM Unit} (h : Unmoving m) : Unmoving (when c m) := by
  intro e
  rw [wp_when]
  exact ⟨fun _ => h e, fun _ => .refl e⟩

theorem ite {c : Prop} [Decidable c] {m' : EndpointM α} (h : Unmoving m) (h' : Unmoving m') : Unmoving (if c then m else m') := by
  split
  · exact h
  · exact h'

end Unmoving

/-- Any mark but the one for the making of a router. -/
theorem mark_unmoving {m : Mark} (other : ∀ n, m ≠ .routed n) : Unmoving (mark m) := by
  apply Unmoving.modify
  refine fun _ => ⟨rfl, rfl, rfl, fun n mem => ?_⟩
  rcases List.mem_append.1 mem with mem | mem
  · exact mem
  · exact absurd (List.mem_singleton.1 mem).symm (other n)

theorem send_unmoving (label : String) (bytes : List UInt8) : Unmoving (send label bytes) := by
  apply Unmoving.bind .get
  refine fun e => .ite (.pure _) ?_
  split
  · exact .pure _
  · apply Unmoving.ite (.pure _)
    apply Unmoving.bind (.throwIf _ _)
    refine fun _ => .ite (.pure _) ?_
    exact .bind (mark_unmoving (by simp)) fun _ => .pure _

theorem sendAll_unmoving (messages : List (String × List UInt8)) : Unmoving (sendAll messages) := by
  induction messages with
  | nil => exact .pure ()
  | cons message messages ih =>
    refine .bind (.tryCatch ?_ fun _ => .pure ()) fun _ => ih
    exact .bind (send_unmoving _ _) fun _ => .pure ()

theorem invoke_unmoving (call : Call) : Unmoving (invoke call) := by
  apply Unmoving.bind (sendAll_unmoving _)
  intro _
  apply Unmoving.bind
  · exact .modify fun _ => ⟨rfl, rfl, rfl, fun _ h => h⟩
  · exact fun _ => .throwIf _ _

theorem close_unmoving (ends : Ends) : Unmoving (close ends) := by
  intro e
  by_cases first : e.closing = .never
  · rw [wp_of_exec (close_exec first ends)]
    refine ⟨rfl, rfl, rfl, fun n mem => ?_⟩
    rcases List.mem_append.1 mem with mem | mem
    · exact mem
    · rcases mem_closeMarks mem with same | same | same | ⟨_, _, same⟩ <;> cases same
  · rw [wp_of_exec (close_again first ends)]
    exact .refl e

section Events

variable {call : Call} {ends : Ends}

theorem closeIfClosed_unmoving : Unmoving (do when (← get).routerClosed <| close ends) :=
  .bind .get fun _ => .when (close_unmoving ends)

theorem flush_unmoving : Unmoving (flush call ends) :=
  .bind .get fun _ => .when (.bind (invoke_unmoving call) fun _ => closeIfClosed_unmoving)

theorem opened_unmoving : Unmoving (opened call ends) := by
  refine .bind .get fun _ => .when ?_
  apply Unmoving.bind
  · exact .modify fun _ => ⟨rfl, rfl, rfl, fun _ h => h⟩
  · exact fun _ => flush_unmoving

theorem channel_unmoving (c : DataChannel) : Unmoving (channel c call ends) := by
  refine .bind .get fun _ => .ite (close_unmoving ends) (.bind (mark_unmoving (by simp)) fun _ => ?_)
  apply Unmoving.bind
  · exact .modify fun _ => ⟨rfl, rfl, rfl, fun _ h => h⟩
  · exact fun _ => opened_unmoving

theorem message_unmoving (c : DataChannel) (value : Message) : Unmoving (message c value call ends) := by
  refine .bind .get fun _ => .ite (close_unmoving ends) (.ite (close_unmoving ends) ?_)
  apply Unmoving.bind (mark_unmoving (by simp))
  exact fun _ => .bind (invoke_unmoving call) fun _ => closeIfClosed_unmoving

theorem stateChanged_unmoving (state : ReadyState) : Unmoving (Endpoint.stateChanged state call ends) :=
  .ite (close_unmoving ends) opened_unmoving

theorem negotiated_unmoving (description : Option Nat) : Unmoving (negotiated description ends) := by
  refine .bind .get fun _ => .when ?_
  apply Unmoving.bind
  · exact .modify fun _ => ⟨rfl, rfl, rfl, fun _ h => h⟩
  · exact fun _ => .when (close_unmoving ends)

end Events

/-- Events other than an answer. -/
theorem code_unmoving (event : Event) (other : ∀ offer setup ends, event ≠ .answer offer setup ends) : Unmoving event.code := by
  cases event with
  | announced c call ends => exact channel_unmoving c
  | stateChanged c state call ends => exact .bind .get fun _ => .when (stateChanged_unmoving state)
  | message c value call ends => exact .bind .get fun _ => .when (message_unmoving c value)
  | bufferedAmountLow c call ends => exact .bind .get fun _ => .when flush_unmoving
  | connectionStateChange state ends => exact .when (close_unmoving ends)
  | answer offer setup ends => exact absurd rfl (other offer setup ends)
  | negotiated description ends => exact negotiated_unmoving description
  | timeout ends => exact .bind .get fun _ => .when (close_unmoving ends)
  | close ends => exact close_unmoving ends
  | send label bytes => exact .bind (send_unmoving label bytes) fun _ => .pure ()
  | became id state =>
    apply Unmoving.bind (mark_unmoving (by simp))
    exact fun _ => .modify fun _ => ⟨rfl, rfl, rfl, fun _ h => h⟩
  | buffered id bytes => exact .modify fun _ => ⟨rfl, rfl, rfl, fun _ h => h⟩
  | ended error =>
    refine .bind .get fun _ => .when (.bind (.when (mark_unmoving (by simp))) fun _ => ?_)
    exact .modify fun _ => ⟨rfl, rfl, rfl, fun _ h => h⟩
  | notified | settled =>
    refine .bind .get fun _ => .when (.bind (mark_unmoving (by simp)) fun _ => ?_)
    exact .modify fun _ => ⟨rfl, rfl, rfl, fun _ h => h⟩

/-! ## The answer -/

/-- An offer that the endpoint was asked to answer, as it is read. -/
def Offered (events : List Event) (maxSlots : Option ℚ) (shape : OfferShape) : Prop :=
  ∃ offer setup ends sdp, .answer offer setup ends ∈ events ∧ offer.sdp = some sdp ∧ parseOffer sdp (maxSlots.getD 0) = .ok shape

/-- An endpoint after these events: its limit is the configured one until it answers, and
a router is made with the limit that an accepted offer leaves. -/
structure Limited (configured : Nat) (options : EndpointOptions) (events : List Event) (e : Endpoint) : Prop where
  same : e.options = options
  unused : e.used = false → e.maxMessageBytes = min 16384 configured
  routed : ∀ n, .routed n ∈ e.trace → ∃ shape, Offered events options.maxSlots shape ∧ n = limitOf configured shape

theorem addSlots_unmoving (adds : Nat → Bool) (offered : List OfferedVideo) : Unmoving (addSlots adds offered) := by
  induction offered with
  | nil => exact .pure ()
  | cons video offered ih =>
    intro e
    simp only [addSlots, wp_bind, wp_get, wp_throwIf, wp_set]
    refine ⟨fun _ => .refl e, fun _ => ?_⟩
    have added : Unmoved e { e with slots := e.slots ++ [e.nextSlot], nextSlot := e.nextSlot + 1 } := ⟨rfl, rfl, rfl, fun _ h => h⟩
    exact wp_mono (ih _) (fun _ _ => added.trans) fun _ _ => added.trans

/-- The router is made with the limit that is left. -/
theorem route_spec (setup : Setup) (video : List OfferedVideo) (e : Endpoint) :
    wp (do
      when (e.options.maxSlots.isSome = true) (addSlots setup.adds video)
      invoke setup.makeRouter
      mark (.routed (← get).maxMessageBytes)
      modify fun e => { e with router := true, timer := true, answering := true })
      (fun _ e' => e'.options = e.options ∧ e'.used = e.used ∧ ∀ n, .routed n ∈ e'.trace → .routed n ∈ e.trace ∨ n = e.maxMessageBytes)
      (fun _ => Unmoved e) e := by
  have before : Unmoving (do when (e.options.maxSlots.isSome = true) (addSlots setup.adds video); invoke setup.makeRouter) :=
    .bind (.when (addSlots_unmoving _ _)) fun _ => invoke_unmoving _
  rw [← bind_assoc, wp_bind]
  refine wp_mono (before e) (fun _ e₁ same => ?_) fun _ _ same => same
  simp only [wp_bind, wp_get, mark, wp_modify]
  refine ⟨same.options, same.used, fun n mem => ?_⟩
  rcases List.mem_append.1 mem with mem | mem
  · exact .inl (same.routed n mem)
  · exact .inr ((Mark.routed.inj (List.mem_singleton.1 mem)).trans same.limit)

section Runs

variable {configured : Nat} {options : EndpointOptions} {events : List Event}

theorem Limited.more (h : Limited configured options events e) (event : Event) : Limited configured options (events ++ [event]) e := by
  refine ⟨h.same, h.unused, fun n mem => ?_⟩
  obtain ⟨shape, ⟨offer, setup, ends, sdp, asked, text, read⟩, limit⟩ := h.routed n mem
  exact ⟨shape, ⟨offer, setup, ends, sdp, List.mem_append_left _ asked, text, read⟩, limit⟩

theorem Limited.unmoved (h : Limited configured options events e) (same : Unmoved e e') : Limited configured options events e' :=
  ⟨same.options.trans h.same, fun unused => same.limit.trans (h.unused (same.used.symm.trans unused)),
    fun n mem => h.routed n (same.routed n mem)⟩

/-- The router gets the limit that the offer leaves. -/
theorem negotiate_limited {offer : Offer} {setup : Setup} {ends : Ends} (asked : .answer offer setup ends ∈ events)
    (h : Limited configured options events e) (limit : e.maxMessageBytes = min 16384 configured) (used : e.used = true) :
    wp (negotiate offer setup) (fun _ => Limited configured options events) (fun _ => Limited configured options events) e := by
  unfold negotiate
  rw [wp_bind, wp_get]
  cases text : offer.sdp with
  | none => exact h
  | some sdp =>
    simp only []
    rw [wp_bind, wp_throwIf]
    refine ⟨fun _ => h, fun _ => ?_⟩
    rw [wp_bind, wp_ofExcept]
    refine ⟨fun shape read => ?_, fun _ _ => h⟩
    rw [h.same] at read
    have routed : ∀ e₁ : Endpoint, e₁.options = e.options → e₁.used = e.used → e₁.trace = e.trace →
        e₁.maxMessageBytes = limitOf configured shape → wp (do
          when (e.options.maxSlots.isSome = true) (addSlots setup.adds shape.video)
          invoke setup.makeRouter
          mark (.routed (← get).maxMessageBytes)
          modify fun e => { e with router := true, timer := true, answering := true })
          (fun _ => Limited configured options events) (fun _ => Limited configured options events) e₁ := by
      intro e₁ options₁ used₁ trace₁ limit₁
      have fresh : ∀ e' : Endpoint, e'.used = e₁.used → e'.used ≠ false := fun e' same unused => by
        rw [same, used₁, used] at unused
        cases unused
      rw [← options₁]
      refine wp_mono (route_spec setup shape.video e₁) ?_ ?_
      · rintro _ e' ⟨options', used', made⟩
        refine ⟨options'.trans (options₁.trans h.same), fun unused => absurd unused (fresh e' used'), fun n mem => ?_⟩
        rcases made n mem with old | new
        · exact h.routed n (trace₁ ▸ old)
        · exact ⟨shape, ⟨offer, setup, ends, sdp, asked, text, read⟩, new.trans limit₁⟩
      · intro _ e' same
        refine ⟨same.options.trans (options₁.trans h.same), fun unused => absurd unused (fresh e' same.used), fun n mem => ?_⟩
        exact h.routed n (trace₁ ▸ same.routed n mem)
    rw [wp_bind, wp_when, wp_modify]
    refine ⟨fun some => routed _ rfl rfl rfl ?_, fun none => routed e rfl rfl rfl ?_⟩
    · rw [limitOf_eq, if_pos some, limit]
    · rw [limitOf_eq, if_neg none, limit]

theorem answer_limited (offer : Offer) (setup : Setup) (ends : Ends) (h : Limited configured options events e) :
    Limited configured options (events ++ [.answer offer setup ends]) (step e (.answer offer setup ends)) := by
  have h := h.more (.answer offer setup ends)
  generalize more : events ++ [Event.answer offer setup ends] = events at h
  have asked : .answer offer setup ends ∈ events := by
    rw [← more]
    exact List.mem_append_right _ List.mem_cons_self
  apply after_of_wp (P := Limited configured options events) (m := Event.code _)
  simp only [Event.code, answer, wp_bind, wp_get, wp_throwIf, wp_modify, wp_tryCatch, wp_throw]
  refine ⟨fun _ => h, fun free => ?_⟩
  simp only [not_or, Bool.not_eq_true] at free
  have started : Limited configured options events { e with used := true } := ⟨h.same, by simp, h.routed⟩
  refine wp_mono (negotiate_limited asked started (h.unused free.1) rfl) (fun _ _ h => h) fun _ e' h' => ?_
  exact wp_mono (close_unmoving ends e') (fun _ _ same => h'.unmoved same) fun _ _ same => h'.unmoved same

theorem step_limited (event : Event) (h : Limited configured options events e) :
    Limited configured options (events ++ [event]) (step e event) := by
  by_cases other : ∃ offer setup ends, event = .answer offer setup ends
  · obtain ⟨offer, setup, ends, rfl⟩ := other
    exact answer_limited offer setup ends h
  · push Not at other
    exact (h.more event).unmoved (after_of_wp (code_unmoving event other e))

theorem create_limited {configured buffered : Nat} {maxSdpBytes timeoutMs : Session.Num} {maxSlots : Option ℚ}
    (made : create (some (configured : ℚ)) (some (buffered : ℚ)) maxSdpBytes timeoutMs maxSlots = .ok e) :
    Limited configured e.options [] e ∧ e.options.maxBufferedBytes = buffered ∧ e.options.maxSlots = maxSlots := by
  unfold create at made
  split at made
  · next messageBytes bufferedBytes sdpBytes _ message channel _ _ =>
    split at made
    · cases made
    · obtain rfl := Except.ok.inj made
      rw [← eq_of_positiveLimit message, ← eq_of_positiveLimit channel]
      exact ⟨⟨rfl, fun _ => rfl, by simp⟩, rfl, rfl⟩
  · cases made

theorem run_limited (h : Limited configured options [] e) (events : List Event) : Limited configured options events (run e events) := by
  induction events using List.reverseRecOn with
  | nil => exact h
  | append_singleton events event ih =>
    have last : run e (events ++ [event]) = step (run e events) event := List.foldl_append
    rw [last]
    exact step_limited event ih

end Runs

/-! ## Sending -/

/-- `send` does not throw for a buffer within the limit, and an open and empty channel
takes it. -/
theorem send_fits (label : String) {bytes : List UInt8} (fits : bytes.length ≤ e.maxMessageBytes)
    (room : e.maxMessageBytes ≤ e.options.maxBufferedBytes) :
    wp (send label bytes) (fun ok _ => ∀ c, e.closed = false → e.channels.get? label = some c → e.ready c.id = .opened →
      e.bufferedAmount c.id = 0 → ok = true) (fun _ _ => False) e := by
  simp only [send, wp_bind, wp_get, wp_ite, wp_pure]
  refine ⟨fun closed c isOpen => absurd (isOpen.symm.trans closed) (by simp), fun _ => ?_⟩
  split
  · next absent =>
    intro c _ found
    cases absent.symm.trans found
  · next c found =>
    simp only [wp_ite, wp_pure, wp_bind, wp_throwIf, mark, wp_modify]
    refine ⟨fun unready c' _ found' ready => ?_, fun _ => ⟨fun large => absurd fits large.not_ge, fun _ => ⟨fun full c' _ found' _ empty => ?_, ?_⟩⟩⟩
    · obtain rfl := Option.some.inj (found.symm.trans found')
      exact absurd ready unready
    · obtain rfl := Option.some.inj (found.symm.trans found')
      rw [empty] at full
      omega
    · exact fun _ _ _ _ _ _ => trivial

end RosBridge.Transport
