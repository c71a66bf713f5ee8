import RosBridge.Router.Inputs
/-!
# How large messages are

Nothing is queued that is empty or larger than the limit of its router, and only the head
of a stream is given to `send`.
-/

namespace RosBridge.Router

open Lib Session Config Relation

variable {η : Type} {allow : Allow} {w w' : World η} {k : Nat} {r r' : SessionRouter η}

/-- Everything queued can be sent under the limit. -/
def SessionRouter.Sized (r : SessionRouter η) : Prop :=
  ∀ stream s, r.queue.streams.get? stream = some s → ∀ m ∈ s.messages, 0 < m.byteLength ∧ m.byteLength ≤ r.maxBytes

namespace SessionRouter.Sized

theorem of_streams (h : r.Sized) (maxBytes : r'.maxBytes = r.maxBytes) (streams : r'.queue.streams = r.queue.streams) : r'.Sized := by
  intro stream s found
  rw [maxBytes]
  exact h stream s (streams ▸ found)

/-- A stream is replaced. -/
theorem set (h : r.Sized) {stream : String} {s' : Stream Bytes} (maxBytes : r'.maxBytes = r.maxBytes)
    (streams : r'.queue.streams = r.queue.streams.set stream s')
    (fits : ∀ m ∈ s'.messages, 0 < m.byteLength ∧ m.byteLength ≤ r.maxBytes) : r'.Sized := by
  intro other s found
  rw [maxBytes]
  rw [streams, Table.get?_set] at found
  split at found
  · obtain rfl := Option.some.inj found
    exact fits
  · exact h other s found

theorem erase (h : r.Sized) {stream : String} (maxBytes : r'.maxBytes = r.maxBytes)
    (streams : r'.queue.streams = r.queue.streams.erase stream) : r'.Sized := by
  intro other s found
  rw [maxBytes]
  rw [streams, Table.get?_erase] at found
  split at found
  · cases found
  · exact h other s found

end SessionRouter.Sized

theorem Control.sized {bytes : Bytes} (c : Control r bytes r') (sane : r.Sane) (h : r.Sized) : r'.Sized := by
  cases c with
  | queued s q found live options streams fits =>
    rw [sane.limit] at fits
    refine h.set (by rfl) streams fun m mem => ?_
    rcases List.mem_append.1 mem with mem | mem
    · exact h _ s found m mem
    · exact List.mem_singleton.1 mem ▸ fits
  | jammed s q found live options streams => exact h.set (by rfl) streams (by simp)
  | dead => exact h

theorem Announced.sized {numbers : NumberText} {envelope : Envelope} (a : Announced numbers allow r envelope r') (sane : r.Sane)
    (h : r.Sized) : r'.Sized := by
  cases a with
  | announced id input t _ cached storable now control => exact control.sized (sane.store t storable) (h.of_streams rfl rfl)
  | large => exact h

theorem Sent.sized {q : DeliveryQueue Bytes} {stream : String} {next : Bytes} {accepted : Bool}
    (s : Sent r.queue stream next accepted q) (h : r.Sized) (m : Mark η) : ({ r with queue := q }.marked m).Sized := by
  cases s with
  | refused => exact h.of_streams rfl rfl
  | accepted s rest _ found live head options streams =>
    exact h.set (by rfl) streams fun m mem => h _ s found m (head ▸ List.mem_cons_of_mem _ mem)

theorem Move.sized {numbers : NumberText} {media : MediaService} (m : Move numbers allow media r r') (sane : r.Sane)
    (h : r.Sized) : r'.Sized := by
  cases m with
  | control bytes _ control => exact control.sized sane h
  | sampled stream sub native data ok q found ready fits encoded stored options =>
    cases stored with
    | stored s _ here live streams fits =>
      rw [sane.limit] at fits
      refine h.set (by rfl) streams fun m mem => ?_
      rcases List.mem_append.1 mem with mem | mem
      · unfold DeliveryQueue.kept at mem
        split at mem
        · cases mem
        · exact h _ s here m mem
      · exact List.mem_singleton.1 mem ▸ fits
    | dropped s _ here live policy streams => exact h.set (by rfl) streams (by simp)
  | _ => exact h.of_streams rfl rfl

theorem Turn.sized (t : Turn allow w k r) (sane : (w.routers k).Sane) (h : (w.routers k).Sized) : r.Sized := by
  cases t with
  | move _ move => exact move.sized sane h
  | subscribed entry requestId _ isOpen found free room announced =>
    exact announced.sized (sane.subscribe found) (h.set (by rfl) (by rfl) (by simp))
  | removed stream sub q found options streams => exact h.erase (by rfl) streams
  | spoiled stream sub native q found ready fits options streams => exact h.erase (by rfl) streams
  | handedControl next accepted q sent => exact sent.sized h _
  | handedData stream sub next accepted q found isOpen idle sent => exact sent.sized h _
  | finished =>
    intro stream s found
    cases found
  | _ => exact h.of_streams rfl rfl

theorem Goes.sized (g : Goes allow w w') (sane : w.Sane) (h : ∀ k, (w.routers k).Sized) : ∀ k, (w'.routers k).Sized := by
  induction g with
  | refl => exact h
  | tail before s ih =>
    intro k
    rcases s.turn k with same | turn | born
    · exact same ▸ ih k
    · exact turn.sized ((Goes.sane before sane).routers k) (ih k)
    · intro stream s found
      rw [born.fresh.streams, Table.get?_set] at found
      split at found
      · obtain rfl := Option.some.inj found
        simp
      · cases found

/-- The buffer that `send` was given, when a step notes that it was. -/
theorem Step.handed (s : Step allow w w') {stream : String} {ok : Bool} (noted : w'.history = w.history ++ [.handed k stream ok]) :
    ∃ next q, Sent (w.routers k).queue stream next ok q := by
  have other : ∀ notes, w.history ++ notes = w.history ++ [.handed k stream ok] → notes = [.handed k stream ok] :=
    fun notes same => List.append_cancel_left same
  cases s with
  | handedControl k' next accepted q sent =>
    cases other _ noted
    exact ⟨next, q, sent⟩
  | handedData k' stream' sub next accepted q found isOpen idle sent =>
    cases other _ noted
    exact ⟨next, q, sent⟩
  | tended cause g notes tended =>
    have same := other _ noted
    have recorded := tended.recorded
    rw [same] at recorded
    cases recorded
  | removed k' stream' sub q listeners notes found options streams left recorded =>
    have same := other _ noted
    rcases recorded with rfl | rfl <;> cases same
  | _ => first
    | cases other _ noted
    | exact absurd (List.self_eq_append_right.1 noted) (by simp)

end RosBridge.Router
