import RosBridge.Router.Sane
/-!
# What a router's turns have in common

A router's trace only grows, and everything in it that says something about a stream or
a handle was true when it was written.
-/

namespace RosBridge.Router

open Lib Session Config Relation CommandGuard

variable {η : Type} {allow : Allow} {w w' : World η} {k : Nat} {r : SessionRouter η}

theorem Control.trace {bytes : Bytes} {r r' : SessionRouter η} (c : Control r bytes r') : r.trace <+: r'.trace := by
  cases c with
  | queued => exact List.prefix_append _ _
  | jammed | dead => exact List.prefix_rfl

theorem Announced.trace {numbers : NumberText} {envelope : Envelope} {r r' : SessionRouter η}
    (a : Announced numbers allow r envelope r') : r.trace <+: r'.trace := by
  cases a with
  | announced id input t _ cached storable now control => exact (List.prefix_append _ _).trans control.trace
  | large => exact List.prefix_rfl

theorem Move.trace {numbers : NumberText} {media : MediaService} {r r' : SessionRouter η}
    (m : Move numbers allow media r r') : r.trace <+: r'.trace := by
  cases m with
  | control bytes _ control => exact control.trace
  | readied | sampled | unsubscribed | admitted | stored | detaching => exact List.prefix_append _ _
  | _ => exact List.prefix_rfl

theorem Turn.trace (t : Turn allow w k r) : (w.routers k).trace <+: r.trace := by
  cases t with
  | move _ move => exact move.trace
  | advertised | unadvertised => exact List.prefix_rfl
  | subscribed entry requestId _ isOpen found free room announced => exact (List.prefix_append _ _).trans announced.trace
  | spoiled stream sub native q found ready fits options streams =>
    simp only [SessionRouter.unsubscribe, SessionRouter.number, List.append_assoc]
    exact List.prefix_append _ _
  | _ => exact List.prefix_append _ _

/-! ## Streams -/

/-- The next stream is not in use. -/
theorem SessionRouter.not_issued_nextStream (r : SessionRouter η) : ¬r.Issued r.nextStream := by
  rintro ⟨n, bound, e⟩
  have := idText_inj e
  omega

/-- What the trace says about the streams of a router. -/
structure SessionRouter.Traced (r : SessionRouter η) : Prop where
  opened : ∀ stream sub, r.subscriptions.get? stream = some sub → .opened stream sub.entry ∈ r.trace

theorem Turn.traced (t : Turn allow w k r) (h : (w.routers k).Traced) : r.Traced := by
  refine ⟨fun stream sub found => ?_⟩
  rcases t.subscription found with ⟨sub₀, h₀, e⟩ | ⟨-, rfl, entry, requestId, rfl, announced⟩
  · rw [e]
    exact t.trace.subset (h.opened stream sub₀ h₀)
  · exact announced.trace.subset (by simp [SessionRouter.subscribe])

end RosBridge.Router
