import RosBridge.Lib.Upholding
import RosBridge.Transport.EndpointSafety
/-!
# How endpoints end

Every piece of an endpoint's code touches `closed` and `closing` through `close` alone, up
to the three events that follow the closing of the peer. So what `close` upholds of these
two fields every other event upholds (`code_upholds`): a closed endpoint stays closed, and
one whose `onClosed` was called stays so.
-/

namespace RosBridge.Transport

open Lib Prog Endpoint

variable {P : Endpoint → Prop} {call : Call} {ends : Ends}

/-- `onClosed` was called. -/
def Endpoint.told (e : Endpoint) : Bool := e.closing = .notified ∨ e.closing = .settled

/-- A property of how far an endpoint is closed that `close` upholds. -/
structure Final (P : Endpoint → Prop) : Prop where
  blind : ∀ e e' : Endpoint, e'.closed = e.closed → e'.closing = e.closing → P e → P e'
  close : ∀ ends, Upholds P (close ends)

/-- `close` has one effect only, and that once. -/
theorem close_upholds (shuts : ∀ e ends, e.closing = .never → P e → P (shutDown e ends)) (ends : Ends) : Upholds P (close ends) := by
  intro e h
  unfold after
  by_cases first : e.closing = .never
  · rw [close_exec first]
    exact shuts e ends first h
  · rw [close_again first]
    exact h

theorem mark_upholds (final : Final P) (m : Mark) : Upholds P (mark m) := .modify fun _ => final.blind _ _ rfl rfl

theorem send_upholds (final : Final P) (label : String) (bytes : List UInt8) : Upholds P (send label bytes) := by
  refine .bind .get fun e => .ite (.pure _) ?_
  split
  · exact .pure _
  · refine .ite (.pure _) (.bind (.throwIf _ _) fun _ => .ite (.pure _) ?_)
    exact .bind (mark_upholds final _) fun _ => .pure _

theorem sendAll_upholds (final : Final P) (messages : List (String × List UInt8)) : Upholds P (sendAll messages) := by
  induction messages with
  | nil => exact .pure ()
  | cons message messages ih =>
    apply Upholds.bind _ fun _ => ih
    exact .tryCatch (.bind (send_upholds final _ _) fun _ => .pure ()) fun _ => .pure ()

theorem invoke_upholds (final : Final P) (call : Call) : Upholds P (invoke call) := by
  apply Upholds.bind (sendAll_upholds final _)
  intro _
  apply Upholds.bind
  · exact .modify fun _ => final.blind _ _ rfl rfl
  · exact fun _ => .throwIf _ _

theorem closeIfClosed_upholds (final : Final P) : Upholds P (do when (← get).routerClosed <| close ends) :=
  .bind .get fun _ => .when (final.close ends)

theorem flush_upholds (final : Final P) : Upholds P (flush call ends) :=
  .bind .get fun _ => .when (.bind (invoke_upholds final call) fun _ => closeIfClosed_upholds final)

theorem opened_upholds (final : Final P) : Upholds P (opened call ends) := by
  refine .bind .get fun _ => .when ?_
  apply Upholds.bind
  · exact .modify fun _ => final.blind _ _ rfl rfl
  · exact fun _ => flush_upholds final

theorem channel_upholds (final : Final P) (c : DataChannel) : Upholds P (channel c call ends) := by
  refine .bind .get fun _ => .ite (final.close ends) (.bind (mark_upholds final _) fun _ => ?_)
  apply Upholds.bind
  · exact .modify fun _ => final.blind _ _ rfl rfl
  · exact fun _ => opened_upholds final

theorem message_upholds (final : Final P) (c : DataChannel) (value : Message) : Upholds P (message c value call ends) := by
  refine .bind .get fun _ => .ite (final.close ends) (.ite (final.close ends) ?_)
  apply Upholds.bind (mark_upholds final _)
  exact fun _ => .bind (invoke_upholds final call) fun _ => closeIfClosed_upholds final

theorem addSlots_upholds (final : Final P) (adds : Nat → Bool) (offered : List OfferedVideo) : Upholds P (addSlots adds offered) := by
  induction offered with
  | nil => exact .pure ()
  | cons video offered ih =>
    refine .getBind fun e h => ?_
    have added : P { e with slots := e.slots ++ [e.nextSlot], nextSlot := e.nextSlot + 1 } := final.blind e _ rfl rfl h
    apply after_of_wp
    simp only [wp_bind, wp_throwIf, wp_set]
    exact ⟨fun _ => h, fun _ => ih.spec added⟩

theorem negotiate_upholds (final : Final P) (offer : Offer) (setup : Setup) : Upholds P (negotiate offer setup) := by
  refine .bind .get fun e => ?_
  split
  · exact .throw _
  refine .bind (.throwIf _ _) fun _ => .bind (.ofExcept _) fun shape => .bind (.when ?_) fun _ => ?_
  · exact .modify fun _ => final.blind _ _ rfl rfl
  refine .bind (.when (addSlots_upholds final _ _)) fun _ => .bind (invoke_upholds final _) fun _ => .bind .get fun _ => ?_
  apply Upholds.bind (mark_upholds final _)
  exact fun _ => .modify fun _ => final.blind _ _ rfl rfl

theorem answer_upholds (final : Final P) (offer : Offer) (setup : Setup) : Upholds P (answer offer setup ends) := by
  refine .bind .get fun _ => .bind (.throwIf _ _) fun _ => .bind ?_ fun _ => ?_
  · exact .modify fun _ => final.blind _ _ rfl rfl
  · exact .tryCatch (negotiate_upholds final offer setup) fun _ => .bind (final.close ends) fun _ => .throw _

theorem negotiated_upholds (final : Final P) (description : Option Nat) : Upholds P (negotiated description ends) := by
  refine .bind .get fun _ => .when ?_
  apply Upholds.bind
  · exact .modify fun _ => final.blind _ _ rfl rfl
  · exact fun _ => .when (final.close ends)

/-- An event of what follows once the peer is closing. -/
def Endpoint.Event.late : Event → Bool
  | .ended _ | .notified | .settled => true
  | _ => false

theorem code_upholds (final : Final P) (event : Event) (early : event.late = false) : Upholds P event.code := by
  cases event with
  | announced c call ends => exact channel_upholds final c
  | stateChanged c state call ends =>
    exact .bind .get fun _ => .when (.ite (final.close ends) (opened_upholds final))
  | message c value call ends => exact .bind .get fun _ => .when (message_upholds final c value)
  | bufferedAmountLow c call ends => exact .bind .get fun _ => .when (flush_upholds final)
  | connectionStateChange state ends => exact .when (final.close ends)
  | answer offer setup ends => exact answer_upholds final offer setup
  | negotiated description ends => exact negotiated_upholds final description
  | timeout ends => exact .bind .get fun _ => .when (final.close ends)
  | close ends => exact final.close ends
  | send label bytes => exact .bind (send_upholds final label bytes) fun _ => .pure ()
  | became id state =>
    apply Upholds.bind (mark_upholds final _)
    exact fun _ => .modify fun _ => final.blind _ _ rfl rfl
  | buffered id bytes => exact .modify fun _ => final.blind _ _ rfl rfl
  | ended | notified | settled => cases early

/-! ## What lasts -/

variable {e : Endpoint}

theorem final_closed : Final fun e => e.closed = true :=
  ⟨fun _ _ closed _ h => closed.trans h, close_upholds fun _ _ _ _ => rfl⟩

theorem final_told : Final fun e => e.told = true := by
  refine ⟨fun e e' _ closing h => ?_, close_upholds fun e _ first h => ?_⟩
  · rwa [told, closing]
  · simp [told, first] at h

theorem final_untold : Final fun e => e.told = false := by
  refine ⟨fun e e' _ closing h => ?_, close_upholds fun e _ _ _ => ?_⟩
  · rwa [told, closing]
  · simp [told, shutDown]

theorem closed_lasts (event : Event) (closed : e.closed = true) : (e.step event).closed = true := by
  cases late : event.late with
  | false => exact code_upholds final_closed event late e closed
  | true =>
    have same : Upholds (fun e => e.closed = true) event.code := by
      cases event with
      | ended error =>
        refine .bind .get fun _ => .when (.bind (.when (mark_upholds final_closed _)) fun _ => ?_)
        exact .modify fun _ h => h
      | notified | settled => exact .bind .get fun _ => .when (.bind (mark_upholds final_closed _) fun _ => .modify fun _ h => h)
      | _ => cases late
    exact same e closed

theorem told_lasts (event : Event) (h : e.told = true) : (e.step event).told = true := by
  cases late : event.late with
  | false => exact code_upholds final_told event late e h
  | true =>
    simp only [told, decide_eq_true_eq] at h ⊢
    apply after_of_wp (P := fun e' : Endpoint => e'.closing = .notified ∨ e'.closing = .settled)
    cases event with
    | ended error =>
      simp only [Event.code, mark, wp_bind, wp_get, wp_when, wp_modify]
      exact ⟨fun racing => by simp [racing] at h, fun _ => h⟩
    | notified | settled =>
      simp only [Event.code, mark, wp_bind, wp_get, wp_when, wp_modify]
      exact ⟨fun _ => by simp, fun _ => h⟩
    | _ => cases late

end RosBridge.Transport
