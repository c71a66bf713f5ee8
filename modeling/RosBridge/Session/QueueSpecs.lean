import RosBridge.Session.DeliveryQueue
/-!
# What the queue's methods do to its streams

One lemma for each method, about the registered streams alone.
-/

namespace RosBridge.Session.DeliveryQueue

open Lib Prog

variable {β : Type}

/-- What a new message is queued behind: the latest policy keeps nothing. -/
def kept (s : Stream β) : List β := if s.policy = .latest then [] else s.messages

theorem stream_spec (id : String) (q : DeliveryQueue β) :
    wp (stream id) (fun s q' => q' = q ∧ q.streams.get? id = some s)
      (fun _ q' => q' = q ∧ q.streams.get? id = none) q := by
  unfold stream
  rw [wp_bind, wp_get]
  split
  · next h => exact ⟨rfl, h⟩
  · next s h => exact ⟨rfl, h⟩

theorem register_spec (id : String) (policy : Policy) (maxMessages : Nat) (q : DeliveryQueue β) :
    wp (register id policy maxMessages)
      (fun _ q' => q.streams.get? id = none ∧ q' = { q with streams := q.streams.set id ⟨policy, maxMessages, [], false⟩ })
      (fun _ q' => q' = q) q := by
  simp only [register, wp_bind, wp_throwIf, wp_get, wp_set, implies_true, true_and]
  intro _ _ _ absent _
  refine ⟨?_, trivial⟩
  simpa [Table.has] using absent

section Sized

variable [Sized β]

/-- The outcomes of `enqueue` that return. -/
inductive Stored (q : DeliveryQueue β) (id : String) (message : β) : Bool → DeliveryQueue β → Prop where
  | stored (s : Stream β) (q' : DeliveryQueue β) (found : q.streams.get? id = some s) (live : s.stopped = false)
      (streams : q'.streams = q.streams.set id { s with messages := kept s ++ [message] })
      (fits : 0 < byteLength message ∧ byteLength message ≤ q.options.maxMessageBytes) : Stored q id message true q'
  | dropped (s : Stream β) (q' : DeliveryQueue β) (found : q.streams.get? id = some s) (live : s.stopped = false)
      (policy : s.policy = .latest) (streams : q'.streams = q.streams.set id { s with messages := [] }) :
      Stored q id message false q'

/-- The outcomes of `enqueue` that throw. -/
inductive Refused (q : DeliveryQueue β) (id : String) (message : β) : DeliveryQueue β → Prop where
  | dead (dead : ∀ s, q.streams.get? id = some s → s.stopped = true) : Refused q id message q
  | size (size : byteLength message = 0 ∨ byteLength message > q.options.maxMessageBytes) : Refused q id message q
  | overflow (s : Stream β) (q' : DeliveryQueue β) (found : q.streams.get? id = some s) (live : s.stopped = false)
      (policy : s.policy = .reliable)
      (streams : q'.streams = q.streams.set id { s with messages := [], stopped := true }) : Refused q id message q'

omit [Sized β] in
theorem kept_of_nil {s : Stream β} (h : s.messages = []) : kept s = [] := by simp [kept, h]

theorem discard_spec (id : String) (s : Stream β) (live : s.stopped = false) (q : DeliveryQueue β) :
    wp (discard id s)
      (fun s' q' => s' = { s with messages := kept s } ∧ q'.options = q.options ∧
        (q'.streams = q.streams ∧ (s.policy = .latest → s.messages = []) ∨
          s.policy = .latest ∧ q'.streams = q.streams.set id { s with messages := [] }))
      (fun _ _ => False) q := by
  unfold discard
  split
  · next h =>
    simp only [wp_bind, wp_modify, release, wp_pure]
    refine ⟨by simp [kept, h.1], trivial, .inr ⟨h.1, by simp [live]⟩⟩
  · next h =>
    rw [not_and, not_not] at h
    refine ⟨?_, rfl, .inl ⟨rfl, h⟩⟩
    by_cases hp : s.policy = .latest
    · rw [kept_of_nil (h hp), ← h hp]
    · simp [kept, hp]

theorem push_spec (id : String) (s : Stream β) (message : β) (q : DeliveryQueue β) :
    wp (push id s message)
      (fun ok q' => q'.options = q.options ∧
        (ok = true ∧ q'.streams = q.streams.set id { s with messages := s.messages ++ [message] } ∨
          ok = false ∧ s.policy = .latest ∧ q'.streams = q.streams))
      (fun _ q' => q'.options = q.options ∧ s.policy = .reliable ∧
        q'.streams = q.streams.set id { s with messages := [], stopped := true }) q := by
  rw [push, wp_bind, wp_get]
  split
  · split
    · next hp => simp [release, hp]
    · next hp =>
      have hp : s.policy = .latest := by cases h : s.policy <;> simp_all
      simp [hp]
  · simp

theorem enqueue_spec (id : String) (message : β) (q : DeliveryQueue β) :
    wp (enqueue id message) (fun ok q' => Stored q id message ok q' ∧ q'.options = q.options)
      (fun _ q' => Refused q id message q' ∧ q'.options = q.options) q := by
  rw [enqueue, wp_bind]
  refine wp_mono (stream_spec id q) ?_ ?_
  · rintro s _ ⟨rfl, hs⟩
    simp only [wp_bind, wp_throwIf, wp_get]
    refine ⟨fun stopped => ⟨.dead fun s' hs' => ?_, trivial⟩, fun live => ⟨fun size => ⟨.size size, trivial⟩, fun sized => ?_⟩⟩
    · rw [hs] at hs'
      exact Option.some.inj hs' ▸ stopped
    have live : s.stopped = false := by simpa using live
    refine wp_mono (discard_spec id s live _) ?_ (fun _ _ h => h.elim)
    rintro _ q₁ ⟨rfl, ho, hq₁⟩
    refine wp_mono (push_spec id _ message q₁) ?_ ?_
    · rintro ok q₂ ⟨ho', ⟨rfl, hq₂⟩ | ⟨rfl, hp, hq₂⟩⟩
      · refine ⟨.stored s q₂ hs live ?_ ⟨by omega, by omega⟩, ho'.trans ho⟩
        rcases hq₁ with ⟨hq₁, -⟩ | ⟨-, hq₁⟩ <;> simp [hq₂, hq₁]
      · refine ⟨.dropped s q₂ hs live hp ?_, ho'.trans ho⟩
        rcases hq₁ with ⟨hq₁, hnil⟩ | ⟨-, hq₁⟩
        · -- Nothing was queued, so nothing was discarded.
          have : { s with messages := [] } = s := by rw [← hnil hp]
          rw [hq₂, hq₁, this, Table.set_eq_self hs]
        · rw [hq₂, hq₁]
    · rintro _ q₂ ⟨ho', hp, hq₂⟩
      refine ⟨.overflow s q₂ hs live hp ?_, ho'.trans ho⟩
      rcases hq₁ with ⟨hq₁, -⟩ | ⟨-, hq₁⟩ <;> simp [hq₂, hq₁]
  · rintro _ _ ⟨rfl, hs⟩
    exact ⟨.dead fun s hs' => (by rw [hs] at hs'; cases hs'), rfl⟩

/-- A message that fits is queued behind what the stream keeps. -/
theorem enqueue_fits {id : String} {q : DeliveryQueue β} {s : Stream β} {message : β} (found : q.streams.get? id = some s)
    (live : s.stopped = false) (keeps : s.policy = .latest → s.messages = []) (room : s.messages.length < s.maxMessages)
    (positive : 0 < byteLength message) (fits : byteLength message ≤ q.options.maxMessageBytes)
    (budget : q.bytes + byteLength message ≤ q.options.maxBytes) :
    (enqueue id message).exec q = (.ok true, { q with
      streams := q.streams.set id { s with messages := s.messages ++ [message] }
      bytes := q.bytes + byteLength message }) := by
  have here : (stream id).exec q = (.ok s, q) := by
    rw [stream, exec_bind_ok (exec_get q), found]
    rfl
  have kept : (discard id s).exec q = (.ok s, q) := by
    rw [discard, if_neg fun h => h.2 (keeps h.1)]
    rfl
  have legal : ¬(byteLength message = 0 ∨ byteLength message > q.options.maxMessageBytes) := by omega
  have small : ¬(s.messages.length ≥ s.maxMessages ∨ (byteLength message : Int) > q.options.maxBytes - q.bytes) := by omega
  have running : ¬s.stopped = true := by simp [live]
  rw [enqueue, exec_bind_ok here, throwIf, if_neg running, exec_bind_ok (exec_pure () q), exec_bind_ok (exec_get q),
    throwIf, if_neg legal, exec_bind_ok (exec_pure () q), exec_bind_ok kept, push, exec_bind_ok (exec_get q), if_neg small,
    exec_bind_ok (exec_set _ q)]
  rfl

theorem dequeue_spec (id : String) (q : DeliveryQueue β) :
    wp (dequeue id)
      (fun _ q' => q'.options = q.options ∧ ∃ s, q.streams.get? id = some s ∧
        q'.streams = q.streams.set id { s with messages := s.messages.tail })
      (fun _ q' => q' = q ∧ ∀ s, q.streams.get? id = some s → s.stopped = true) q := by
  rw [dequeue, wp_bind]
  refine wp_mono (stream_spec id q) ?_ ?_
  · rintro s _ ⟨rfl, hs⟩
    simp only [wp_bind, wp_throwIf, true_and]
    refine ⟨fun stopped s' hs' => ?_, fun _ => ?_⟩
    · rw [hs] at hs'
      exact Option.some.inj hs' ▸ stopped
    · split
      · next h =>
        refine ⟨rfl, s, hs, ?_⟩
        have : { s with messages := s.messages.tail } = s := by rw [h, List.tail_nil, ← h]
        rw [this, Table.set_eq_self hs]
      · next message messages h => exact ⟨rfl, s, hs, by simp [h]⟩
  · rintro _ _ ⟨rfl, hs⟩
    exact ⟨rfl, fun s hs' => by rw [hs] at hs'; cases hs'⟩

end Sized

theorem peek_spec (id : String) (q : DeliveryQueue β) :
    wp (peek id)
      (fun m q' => q' = q ∧ ∃ s, q.streams.get? id = some s ∧ s.stopped = false ∧ s.messages.head? = m)
      (fun _ q' => q' = q ∧ ∀ s, q.streams.get? id = some s → s.stopped = true) q := by
  rw [peek, wp_bind]
  refine wp_mono (stream_spec id q) ?_ ?_
  · rintro s _ ⟨rfl, hs⟩
    simp only [wp_bind, wp_throwIf, wp_pure, true_and]
    refine ⟨fun stopped s' hs' => ?_, fun live => ⟨s, hs, by simpa using live, rfl⟩⟩
    rw [hs] at hs'
    exact Option.some.inj hs' ▸ stopped
  · rintro _ _ ⟨rfl, absent⟩
    exact ⟨rfl, fun s hs => by rw [absent] at hs; cases hs⟩

theorem closeStream_spec [Sized β] (id : String) (q : DeliveryQueue β) :
    wp (closeStream id) (fun _ q' => q'.options = q.options ∧ q'.streams = q.streams.erase id)
      (fun _ q' => q' = q ∧ q.streams.get? id = none) q := by
  rw [closeStream, wp_bind]
  refine wp_mono (stream_spec id q) ?_ (fun _ _ h => h)
  rintro s _ ⟨rfl, -⟩
  exact ⟨rfl, rfl⟩

/-- Closing a stream that was registered just now undoes the registration. -/
theorem closeStream_register [Sized β] {id : String} {q : DeliveryQueue β} (absent : q.streams.get? id = none)
    (policy : Policy) (maxMessages : Nat) :
    wp (closeStream id) (fun _ q' => q' = q) (fun _ _ => False)
      { q with streams := q.streams.set id ⟨policy, maxMessages, [], false⟩ } := by
  simp only [closeStream, stream, wp_bind, wp_get, Table.get?_set_self, wp_pure, wp_modify]
  rw [Table.erase_set_of_get?_none _ absent]
  simp [occupied]

end RosBridge.Session.DeliveryQueue
