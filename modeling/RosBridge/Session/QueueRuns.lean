import RosBridge.Lib.Runs
import RosBridge.Session.QueueSpecs
/-!
# The accounts of the queue

Runs of a `DeliveryQueue` under calls with any arguments. The byte counter is the sum
of what is pending, every bound of the constructor holds, and a call that throws changes
nothing unless it overflows a reliable stream, which it empties and stops.
-/

namespace RosBridge.Session.DeliveryQueue

open Lib Prog

/-- What a call returns. -/
inductive Answer (β : Type) where
  | done
  | stored (ok : Bool)
  | message (message : Option β)
  deriving DecidableEq

/-- A call. An identifier that is no string is like the empty one, which no stream
has, and a message that is no `Uint8Array` is `none`. -/
inductive Call (β : Type) where
  | register (id policy : String) (maxMessages : Num)
  | enqueue (id : String) (message : Option β)
  | dequeue (id : String)
  | peek (id : String)
  | closeStream (id : String)
  | clear

/-- The policies of the source. -/
def policyNamed (policy : String) : Option Policy :=
  if policy = "latest" then some .latest else if policy = "reliable" then some .reliable else none

variable {β : Type}

/-- The streams' methods that send or read. -/
inductive Call.Uses (id : String) : Call β → Prop where
  | enqueue (message : Option β) : Uses id (.enqueue id message)
  | dequeue : Uses id (.dequeue id)
  | peek : Uses id (.peek id)

theorem reliable_or_latest (policy : Policy) : policy = .reliable ∨ policy = .latest := by
  cases policy
  · exact .inr rfl
  · exact .inl rfl

/-- What the latest policy throws away for a new message. -/
def gone (s : Stream β) : List β := if s.policy = .latest then s.messages else []

/-- A stream keeps what it does not throw away. -/
theorem gone_or_kept (s : Stream β) : gone s = s.messages ∧ kept s = [] ∨ gone s = [] ∧ kept s = s.messages := by
  unfold gone kept
  split
  · exact .inl ⟨rfl, rfl⟩
  · exact .inr ⟨rfl, rfl⟩

/-- A stream within its bounds. -/
structure Bounded (s : Stream β) : Prop where
  count : s.messages.length ≤ s.maxMessages
  one : s.policy = .latest → s.maxMessages = 1
  silent : s.stopped = true → s.messages = []

theorem Bounded.empty {s : Stream β} (h : Bounded s) (stopped : Bool) : Bounded ({ s with messages := [], stopped := stopped } : Stream β) :=
  ⟨Nat.zero_le _, h.one, fun _ => rfl⟩

variable [Sized β]

/-- `register` with any arguments. -/
def registerAny (id policy : String) (maxMessages : Num) : QueueM β Unit := do
  throwIf (!identifier id) "invalid_identifier"
  match positiveLimit maxMessages, policyNamed policy with
  | none, _ => throw "invalid_limit"
  | some _, none => throw "invalid_policy"
  | some maxMessages, some policy => register id policy maxMessages

/-- `enqueue` with any arguments. -/
def enqueueAny (id : String) (message : Option β) : QueueM β Bool :=
  match message with
  | some message => enqueue id message
  | none => do
    let stream ← stream id
    throwIf stream.stopped "slow_consumer"
    throw "message_size"

def Call.run : Call β → QueueM β (Answer β)
  | .register id policy maxMessages => do
    registerAny id policy maxMessages
    return .done
  | .enqueue id message => return .stored (← enqueueAny id message)
  | .dequeue id => return .message (← DeliveryQueue.dequeue id)
  | .peek id => return .message (← DeliveryQueue.peek id)
  | .closeStream id => do
    DeliveryQueue.closeStream id
    return .done
  | .clear => do
    DeliveryQueue.clear
    return .done

/-- The queue after a call. -/
def step (q : DeliveryQueue β) (call : Call β) : DeliveryQueue β := call.run.after q

/-! ## What a call does, exactly -/

/-- A message of a size that the queue takes. -/
def WellSized (q : DeliveryQueue β) (message : β) : Prop :=
  byteLength message ≠ 0 ∧ byteLength message ≤ q.options.maxMessageBytes

/-- There is no room for a message, once the stream has thrown away what it does. -/
def Full (q : DeliveryQueue β) (s : Stream β) (message : β) : Prop :=
  (kept s).length ≥ s.maxMessages ∨ (byteLength message : Int) > q.options.maxBytes - (q.bytes - occupied (gone s))

/-- The outcomes of `enqueue`. -/
inductive Enqueued (q : DeliveryQueue β) (id : String) (message : β) : Except String Bool → DeliveryQueue β → Prop where
  | unknown (absent : q.streams.get? id = none) : Enqueued q id message (.error "unknown_stream") q
  | dead (s : Stream β) (found : q.streams.get? id = some s) (stopped : s.stopped = true) :
      Enqueued q id message (.error "slow_consumer") q
  | size (s : Stream β) (found : q.streams.get? id = some s) (live : s.stopped = false) (bad : ¬WellSized q message) :
      Enqueued q id message (.error "message_size") q
  | stored (s : Stream β) (found : q.streams.get? id = some s) (live : s.stopped = false) (sized : WellSized q message)
      (room : ¬Full q s message) : Enqueued q id message (.ok true) { q with
        streams := q.streams.set id { s with messages := kept s ++ [message] }
        bytes := q.bytes - occupied (gone s) + byteLength message
        dropped := q.dropped + (gone s).length }
  | dropped (s : Stream β) (found : q.streams.get? id = some s) (live : s.stopped = false) (sized : WellSized q message)
      (full : Full q s message) (latest : s.policy = .latest) : Enqueued q id message (.ok false) { q with
        streams := q.streams.set id { s with messages := [] }
        bytes := q.bytes - occupied s.messages
        dropped := q.dropped + s.messages.length + 1 }
  | overflow (s : Stream β) (found : q.streams.get? id = some s) (live : s.stopped = false) (sized : WellSized q message)
      (full : Full q s message) (reliable : s.policy = .reliable) :
      Enqueued q id message (.error "slow_consumer") { q with
        streams := q.streams.set id { s with messages := [], stopped := true }
        bytes := q.bytes - occupied s.messages }

/-- `discard` changes nothing where there is nothing to throw away. -/
theorem discard_exec (id : String) {s : Stream β} {q : DeliveryQueue β} (found : q.streams.get? id = some s)
    (live : s.stopped = false) : (discard id s).exec q = (.ok { s with messages := kept s }, { q with
      streams := q.streams.set id { s with messages := kept s }
      bytes := q.bytes - occupied (gone s)
      dropped := q.dropped + (gone s).length }) := by
  have same : q.streams.set id s = q.streams := Table.set_eq_self found
  unfold discard
  by_cases latest : s.policy = .latest
  · by_cases empty : s.messages = []
    · rw [if_neg (by simp [empty])]
      have whole : ({ s with messages := kept s } : Stream β) = s := by
        rw [kept, if_pos latest, ← empty]
      rw [whole, same, gone, if_pos latest, empty]
      simp [occupied]
    · rw [if_pos ⟨latest, empty⟩, kept, if_pos latest, gone, if_pos latest]
      simp only [exec_bind, exec_modify, release, exec_pure, ← live]
  · have whole : ({ s with messages := kept s } : Stream β) = s := by rw [kept, if_neg latest]
    rw [if_neg fun h => latest h.1, whole, same, gone, if_neg latest]
    simp [occupied]

theorem enqueue_cases (id : String) (message : β) (q : DeliveryQueue β) :
    Enqueued q id message ((enqueue id message).exec q).1 ((enqueue id message).after q) := by
  unfold after enqueue
  cases found : q.streams.get? id with
  | none =>
    have looked : (stream id).exec q = (.error "unknown_stream", q) := by
      simp only [stream, exec_bind, exec_get, found, exec_throw]
    rw [exec_bind_error looked]
    exact .unknown found
  | some s =>
    have looked : (stream id).exec q = (.ok s, q) := by
      simp only [stream, exec_bind, exec_get, found, exec_pure]
    rw [exec_bind_ok looked]
    cases live : s.stopped with
    | true => exact .dead s found live
    | false =>
      by_cases sized : WellSized q message
      · have fits : ¬(byteLength message = 0 ∨ byteLength message > q.options.maxMessageBytes) := by
          rintro (zero | large)
          · exact sized.1 zero
          · exact absurd sized.2 (Nat.not_le.2 large)
        simp only [throwIf, exec_bind, Bool.false_eq_true, if_false, exec_pure, exec_get, if_neg fits, discard_exec id found live, push]
        -- The bytes of what is discarded are given back before the new message is counted.
        by_cases full : Full q s message
        · have full' : (kept s).length ≥ s.maxMessages ∨
              (byteLength message : Int) > q.options.maxBytes - (q.bytes - occupied (gone s)) := full
          rw [if_pos full']
          rcases reliable_or_latest s.policy with policy | policy
          · have rest : kept s = s.messages := by simp [kept, policy]
            have none : gone s = [] := by simp [gone, policy]
            rw [if_pos policy, none]
            simp only [release, exec_bind, exec_modify, exec_throw, rest, Table.set_set]
            have overflow := Enqueued.overflow s found live sized full policy
            simpa [occupied] using overflow
          · have rest : kept s = [] := by simp [kept, policy]
            have all : gone s = s.messages := by simp [gone, policy]
            rw [if_neg (by simp [policy])]
            simp only [exec_bind, exec_set, exec_pure, rest, all]
            exact .dropped s found live sized full policy
        · have room : ¬((kept s).length ≥ s.maxMessages ∨
              (byteLength message : Int) > q.options.maxBytes - (q.bytes - occupied (gone s))) := full
          rw [if_neg room]
          simp only [exec_bind, exec_set, exec_pure, Table.set_set]
          exact .stored s found live sized full
      · have bad : byteLength message = 0 ∨ byteLength message > q.options.maxMessageBytes := by
          by_cases zero : byteLength message = 0
          · exact .inl zero
          · exact .inr (Nat.lt_of_not_le fun small => sized ⟨zero, small⟩)
        simp only [throwIf, exec_bind, Bool.false_eq_true, if_false, exec_pure, exec_get, if_pos bad, exec_throw]
        exact .size s found live sized

/-- The outcomes of a call. -/
inductive Ran (q : DeliveryQueue β) : Call β → Except String (Answer β) → DeliveryQueue β → Prop where
  | unregistered (id policy : String) (maxMessages : Num) (e : String) (other : e ≠ "slow_consumer") :
      Ran q (.register id policy maxMessages) (.error e) q
  | registered (id policy : String) (maxMessages : Num) (p : Policy) (n : Nat) (named : policyNamed policy = some p)
      (one : p = .latest → n = 1) (absent : q.streams.get? id = none) (room : q.streams.size < q.options.maxStreams) :
      Ran q (.register id policy maxMessages) (.ok .done) { q with streams := q.streams.set id ⟨p, n, [], false⟩ }
  | unknown (id : String) (call : Call β) (about : call.Uses id ∨ call = .closeStream id) (absent : q.streams.get? id = none) :
      Ran q call (.error "unknown_stream") q
  | dead (id : String) (call : Call β) (uses : call.Uses id) (s : Stream β) (found : q.streams.get? id = some s)
      (stopped : s.stopped = true) : Ran q call (.error "slow_consumer") q
  | size (id : String) (message : Option β) (s : Stream β) (found : q.streams.get? id = some s) (live : s.stopped = false)
      (bad : ∀ m, message = some m → ¬WellSized q m) : Ran q (.enqueue id message) (.error "message_size") q
  | stored (id : String) (message : β) (s : Stream β) (found : q.streams.get? id = some s) (live : s.stopped = false)
      (sized : WellSized q message) (room : ¬Full q s message) : Ran q (.enqueue id (some message)) (.ok (.stored true)) { q with
        streams := q.streams.set id { s with messages := kept s ++ [message] }
        bytes := q.bytes - occupied (gone s) + byteLength message
        dropped := q.dropped + (gone s).length }
  | dropped (id : String) (message : β) (s : Stream β) (found : q.streams.get? id = some s) (live : s.stopped = false)
      (sized : WellSized q message) (full : Full q s message) (latest : s.policy = .latest) :
      Ran q (.enqueue id (some message)) (.ok (.stored false)) { q with
        streams := q.streams.set id { s with messages := [] }
        bytes := q.bytes - occupied s.messages
        dropped := q.dropped + s.messages.length + 1 }
  | overflow (id : String) (message : β) (s : Stream β) (found : q.streams.get? id = some s) (live : s.stopped = false)
      (sized : WellSized q message) (full : Full q s message) (reliable : s.policy = .reliable) :
      Ran q (.enqueue id (some message)) (.error "slow_consumer") { q with
        streams := q.streams.set id { s with messages := [], stopped := true }
        bytes := q.bytes - occupied s.messages }
  | nothing (id : String) (s : Stream β) (found : q.streams.get? id = some s) (live : s.stopped = false)
      (empty : s.messages = []) : Ran q (.dequeue id) (.ok (.message none)) q
  | dequeued (id : String) (s : Stream β) (message : β) (messages : List β) (found : q.streams.get? id = some s)
      (live : s.stopped = false) (head : s.messages = message :: messages) :
      Ran q (.dequeue id) (.ok (.message (some message))) { q with
        streams := q.streams.set id { s with messages := messages }
        bytes := q.bytes - byteLength message }
  | peeked (id : String) (s : Stream β) (found : q.streams.get? id = some s) (live : s.stopped = false) :
      Ran q (.peek id) (.ok (.message s.messages.head?)) q
  | closed (id : String) (s : Stream β) (found : q.streams.get? id = some s) : Ran q (.closeStream id) (.ok .done) { q with
        streams := q.streams.erase id
        bytes := q.bytes - occupied s.messages }
  | cleared : Ran q .clear (.ok .done) { q with streams := .empty, bytes := 0 }

omit [Sized β] in
/-- What a method on a stream does: nothing where the stream is unknown. -/
theorem stream_exec (id : String) (q : DeliveryQueue β) :
    (q.streams.get? id = none ∧ (stream id).exec q = (.error "unknown_stream", q)) ∨
      ∃ s, q.streams.get? id = some s ∧ (stream id).exec q = (.ok s, q) := by
  cases found : q.streams.get? id with
  | none =>
    refine .inl ⟨rfl, ?_⟩
    simp only [stream, exec_bind, exec_get, found, exec_throw]
  | some s =>
    refine .inr ⟨s, rfl, ?_⟩
    simp only [stream, exec_bind, exec_get, found, exec_pure]

omit [Sized β] in
theorem registerAny_spec (id policy : String) (maxMessages : Num) (q : DeliveryQueue β) :
    wp (registerAny id policy maxMessages)
      (fun _ q' => ∃ p n, policyNamed policy = some p ∧ (p = .latest → n = 1) ∧ q.streams.get? id = none ∧
        q.streams.size < q.options.maxStreams ∧ q' = { q with streams := q.streams.set id ⟨p, n, [], false⟩ })
      (fun e q' => e ≠ "slow_consumer" ∧ q' = q) q := by
  simp only [registerAny, wp_bind, wp_throwIf]
  refine ⟨fun _ => ⟨by decide, trivial⟩, fun _ => ?_⟩
  split
  · exact ⟨by decide, rfl⟩
  · exact ⟨by decide, rfl⟩
  · next n p _ named =>
    simp only [register, wp_bind, wp_throwIf, wp_get, wp_set]
    refine ⟨fun _ => ⟨by decide, trivial⟩, fun _ => ⟨fun _ => ⟨by decide, trivial⟩, fun _ => ⟨fun _ => ⟨by decide, trivial⟩, fun one => ?_⟩⟩⟩
    refine ⟨fun _ => ⟨by decide, trivial⟩, fun absent => ⟨fun _ => ⟨by decide, trivial⟩, fun room => ?_⟩⟩
    refine ⟨p, n, named, fun latest => ?_, ?_, Nat.lt_of_not_le room, rfl⟩
    · by_contra several
      exact one ⟨latest, several⟩
    · simpa [Table.has] using absent

theorem enqueue_ran (id : String) (message : Option β) (q : DeliveryQueue β) :
    Ran q (.enqueue id message) (((Call.enqueue id message).run).exec q).1 (step q (.enqueue id message)) := by
  unfold step after Call.run enqueueAny
  cases message with
  | none =>
    rcases stream_exec id q with ⟨absent, looked⟩ | ⟨s, found, looked⟩
    · rw [exec_bind, exec_bind_error looked]
      exact .unknown id _ (.inl (.enqueue none)) absent
    · rw [exec_bind, exec_bind_ok looked]
      cases live : s.stopped with
      | true => exact .dead id _ (.enqueue none) s found live
      | false => exact .size id none s found live fun m same => by cases same
  | some message =>
    have outcome := enqueue_cases id message q
    unfold after at outcome
    show Ran q _ ((enqueue id message >>= fun ok => pure (.stored ok) : QueueM β (Answer β)).exec q).1
      ((enqueue id message >>= fun ok => pure (.stored ok) : QueueM β (Answer β)).exec q).2
    rw [exec_bind]
    obtain ⟨r, q', run⟩ : ∃ r q', (enqueue id message).exec q = (r, q') := ⟨_, _, rfl⟩
    rw [run] at outcome ⊢
    cases outcome with
    | unknown absent => exact .unknown id _ (.inl (.enqueue _)) absent
    | dead s found stopped => exact .dead id _ (.enqueue _) s found stopped
    | size s found live bad => exact .size id _ s found live fun m same => Option.some.inj same ▸ bad
    | stored s found live sized room => exact .stored id message s found live sized room
    | dropped s found live sized full latest => exact .dropped id message s found live sized full latest
    | overflow s found live sized full reliable => exact .overflow id message s found live sized full reliable

theorem dequeue_ran (id : String) (q : DeliveryQueue β) :
    Ran q (.dequeue id) (((Call.dequeue id).run).exec q).1 (step q (.dequeue id)) := by
  unfold step after Call.run DeliveryQueue.dequeue
  rcases stream_exec id q with ⟨absent, looked⟩ | ⟨s, found, looked⟩
  · rw [exec_bind, exec_bind_error looked]
    exact .unknown id _ (.inl .dequeue) absent
  · rw [exec_bind, exec_bind_ok looked]
    cases live : s.stopped with
    | true => exact .dead id _ .dequeue s found live
    | false =>
      cases messages : s.messages with
      | nil => exact .nothing id s found live messages
      | cons message rest =>
        have dequeued := Ran.dequeued id s message rest found live messages
        rw [live] at dequeued
        exact dequeued

theorem peek_ran (id : String) (q : DeliveryQueue β) :
    Ran q (.peek id) (((Call.peek id).run).exec q).1 (step q (.peek id)) := by
  unfold step after Call.run DeliveryQueue.peek
  rcases stream_exec id q with ⟨absent, looked⟩ | ⟨s, found, looked⟩
  · rw [exec_bind, exec_bind_error looked]
    exact .unknown id _ (.inl .peek) absent
  · rw [exec_bind, exec_bind_ok looked]
    cases live : s.stopped with
    | true => exact .dead id _ .peek s found live
    | false => exact .peeked id s found live

theorem closeStream_ran (id : String) (q : DeliveryQueue β) :
    Ran q (.closeStream id) (((Call.closeStream id).run).exec q).1 (step q (.closeStream id)) := by
  unfold step after Call.run DeliveryQueue.closeStream
  rcases stream_exec id q with ⟨absent, looked⟩ | ⟨s, found, looked⟩
  · rw [exec_bind, exec_bind_error looked]
    exact .unknown id _ (.inr rfl) absent
  · rw [exec_bind, exec_bind_ok looked]
    exact .closed id s found

/-- Every call ends in one of these ways. -/
theorem ran (call : Call β) (q : DeliveryQueue β) : Ran q call (call.run.exec q).1 (step q call) := by
  cases call with
  | register id policy maxMessages =>
    unfold step after Call.run
    rw [exec_bind]
    rcases exec_cases (registerAny_spec id policy maxMessages q) with
      ⟨_, _, ⟨p, n, named, one, absent, room, rfl⟩, done⟩ | ⟨e, _, ⟨other, rfl⟩, thrown⟩
    · rw [done]
      exact .registered id policy maxMessages p n named one absent room
    · rw [thrown]
      exact .unregistered id policy maxMessages e other
  | enqueue id message => exact enqueue_ran id message q
  | dequeue id => exact dequeue_ran id q
  | peek id => exact peek_ran id q
  | closeStream id => exact closeStream_ran id q
  | clear => exact .cleared

/-! ## The accounts -/

/-- A queue whose counter is right and whose bounds hold. -/
structure Accounted (q : DeliveryQueue β) : Prop where
  bytes : q.bytes = q.streams.total fun s : Stream β => occupied s.messages
  budget : q.bytes ≤ q.options.maxBytes
  streams : q.streams.size ≤ q.options.maxStreams
  stream : ∀ id s, q.streams.get? id = some s → Bounded s

@[simp] theorem occupied_nil : occupied ([] : List β) = 0 := rfl

@[simp] theorem occupied_cons (message : β) (messages : List β) :
    occupied (message :: messages) = byteLength message + occupied messages := rfl

@[simp] theorem occupied_append (messages more : List β) : occupied (messages ++ more) = occupied messages + occupied more := by
  unfold occupied
  rw [List.map_append, List.sum_append]

theorem occupied_nonneg (messages : List β) : 0 ≤ occupied messages := by
  apply List.sum_nonneg
  intro n mem
  obtain ⟨m, -, rfl⟩ := List.mem_map.1 mem
  exact Int.natCast_nonneg _

theorem Accounted.nonneg {q : DeliveryQueue β} (h : Accounted q) : 0 ≤ q.bytes := by
  rw [h.bytes]
  exact Table.total_nonneg (fun s : Stream β => occupied_nonneg s.messages) _

/-- A stream is exchanged for one within its bounds. -/
theorem Accounted.exchange {q : DeliveryQueue β} (h : Accounted q) {id : String} {s s' : Stream β}
    (found : q.streams.get? id = some s) (bounded : Bounded s') {bytes : Int}
    (counted : bytes = q.bytes - occupied s.messages + occupied s'.messages) (budget : bytes ≤ q.options.maxBytes) (dropped : Nat) :
    Accounted { q with streams := q.streams.set id s', bytes := bytes, dropped := dropped } := by
  constructor
  · show bytes = (q.streams.set id s').total _
    rw [Table.total_set _ s' found, counted, h.bytes]
  · exact budget
  · show (q.streams.set id s').size ≤ _
    have here : id ∈ q.streams.keys := Table.mem_keys_iff.2 ⟨s, found⟩
    rw [Table.set, dif_pos here, Table.size_modify]
    exact h.streams
  · intro id' t
    show (q.streams.set id s').get? id' = some t → _
    rw [Table.get?_set]
    split
    · intro same
      exact Option.some.inj same ▸ bounded
    · exact h.stream id' t

/-- A new stream is empty. -/
theorem Accounted.add {q : DeliveryQueue β} (h : Accounted q) {id : String} {s : Stream β} (absent : q.streams.get? id = none)
    (room : q.streams.size < q.options.maxStreams) (bounded : Bounded s) (empty : s.messages = []) :
    Accounted { q with streams := q.streams.set id s } := by
  constructor
  · show q.bytes = (q.streams.set id s).total _
    rw [Table.total_set_of_get?_none _ _ absent, ← h.bytes, empty, occupied_nil, add_zero]
  · exact h.budget
  · show (q.streams.set id s).size ≤ _
    rw [Table.size_set_of_get?_none _ absent]
    exact room
  · intro id' t
    show (q.streams.set id s).get? id' = some t → _
    rw [Table.get?_set]
    split
    · intro same
      exact Option.some.inj same ▸ bounded
    · exact h.stream id' t

/-- A stream goes with its bytes. -/
theorem Accounted.remove {q : DeliveryQueue β} (h : Accounted q) {id : String} {s : Stream β} (found : q.streams.get? id = some s) :
    Accounted { q with streams := q.streams.erase id, bytes := q.bytes - occupied s.messages } := by
  have less := occupied_nonneg s.messages
  have budget := h.budget
  constructor
  · show q.bytes - _ = (q.streams.erase id).total _
    rw [Table.total_erase _ found, h.bytes]
  · show q.bytes - _ ≤ (q.options.maxBytes : Int)
    omega
  · exact Nat.le_trans (Table.size_erase_le _ _) h.streams
  · intro id' t
    show (q.streams.erase id).get? id' = some t → _
    rw [Table.get?_erase]
    split
    · intro same
      cases same
    · exact h.stream id' t

theorem ran_accounted {q q' : DeliveryQueue β} {call : Call β} {r : Except String (Answer β)} (outcome : Ran q call r q')
    (h : Accounted q) : Accounted q' := by
  cases outcome with
  | unregistered | unknown | dead | size | nothing | peeked => exact h
  | registered id policy maxMessages p n named one absent room =>
    exact h.add absent room ⟨Nat.zero_le _, one, fun _ => rfl⟩ rfl
  | stored id message s found live sized room =>
    obtain ⟨short, fits⟩ := not_or.1 room
    have bounded := h.stream id s found
    have still : Bounded ({ s with messages := kept s ++ [message] } : Stream β) := by
      refine ⟨?_, bounded.one, fun stopped => ?_⟩
      · rw [List.length_append]
        exact Nat.lt_of_not_le short
      · exact Bool.noConfusion (live.symm.trans stopped)
    refine h.exchange found still ?_ ?_ _
    -- A `latest` stream discards what it holds, a reliable one nothing.
    · rcases gone_or_kept s with ⟨all, none⟩ | ⟨none, all⟩
      · rw [all, none, occupied_append, occupied_cons, occupied_nil]
        omega
      · rw [all, none, occupied_append, occupied_cons, occupied_nil]
        omega
    · have fits := Int.not_lt.1 fits
      omega
  | dropped id message s found live sized full latest =>
    have less := occupied_nonneg s.messages
    have budget := h.budget
    refine h.exchange found ?_ (by simp [occupied]) (by omega) _
    have bounded := (h.stream id s found).empty s.stopped
    exact bounded
  | overflow id message s found live sized full reliable =>
    have less := occupied_nonneg s.messages
    have budget := h.budget
    exact h.exchange found ((h.stream id s found).empty true) (by simp [occupied]) (by omega) _
  | dequeued id s message messages found live head =>
    have bounded := h.stream id s found
    have budget := h.budget
    have still : Bounded ({ s with messages := messages } : Stream β) := by
      refine ⟨?_, bounded.one, fun stopped => ?_⟩
      · have count := bounded.count
        rw [head, List.length_cons] at count
        exact Nat.le_of_succ_le count
      · exact Bool.noConfusion (live.symm.trans stopped)
    refine h.exchange found still ?_ (by omega) _
    rw [head, occupied_cons]
    show q.bytes - _ = q.bytes - _ + occupied messages
    omega
  | closed id s found => exact h.remove found
  | cleared =>
    exact ⟨rfl, Int.natCast_nonneg _, Nat.zero_le _, fun id s found => by cases found⟩

theorem ran_options {q q' : DeliveryQueue β} {call : Call β} {r : Except String (Answer β)} (outcome : Ran q call r q') :
    q'.options = q.options := by cases outcome <;> rfl

/-- The constructor's queue. -/
theorem create_accounted {maxStreams maxBytes maxMessageBytes : Num} {q : DeliveryQueue β}
    (made : create maxStreams maxBytes maxMessageBytes = .ok q) : Accounted q := by
  unfold create at made
  split at made
  · split at made
    · cases made
    · obtain rfl := Except.ok.inj made
      exact ⟨rfl, Int.natCast_nonneg _, Nat.zero_le _, fun id s found => by cases found⟩
  · cases made

/-- A call that overflows a reliable stream: that stream is emptied and stopped, its
bytes are given back, and nothing else changes. -/
def Overflows (q : DeliveryQueue β) (call : Call β) (q' : DeliveryQueue β) : Prop :=
  ∃ id message s, call = .enqueue id (some message) ∧ q.streams.get? id = some s ∧ s.policy = .reliable ∧
    s.stopped = false ∧ WellSized q message ∧ Full q s message ∧ q' = { q with
      streams := q.streams.set id { s with messages := [], stopped := true }
      bytes := q.bytes - occupied s.messages }

/-- A call that throws changes nothing, or overflows a reliable stream. -/
theorem thrown_cases {q q' : DeliveryQueue β} {call : Call β} {e : String} (outcome : Ran q call (.error e) q') :
    q' = q ∨ e = "slow_consumer" ∧ Overflows q call q' := by
  cases outcome with
  | unregistered | unknown | dead | size => exact .inl rfl
  | overflow id message s found live sized full reliable =>
    exact .inr ⟨rfl, id, message, s, rfl, found, reliable, live, sized, full, rfl⟩

/-- A call that would overflow a reliable stream does overflow it, and throws. -/
theorem overflow_forced {q q' : DeliveryQueue β} {call : Call β} (overflows : Overflows q call q') :
    (call.run.exec q).1 = .error "slow_consumer" ∧ step q call = q' := by
  obtain ⟨id, message, s, rfl, found, reliable, live, sized, full, rfl⟩ := overflows
  have outcome := ran (.enqueue id (some message)) q
  -- Of all that `enqueue` can do only the overflow is left.
  generalize ((Call.enqueue id (some message)).run.exec q).1 = r at outcome ⊢
  generalize step q (.enqueue id (some message)) = q' at outcome ⊢
  cases outcome with
  | unknown _ _ about absent =>
    rcases about with uses | closes
    · cases uses
      cases absent.symm.trans found
    · cases closes
  | dead _ _ uses t there stopped =>
    cases uses
    cases there.symm.trans found
    exact Bool.noConfusion (stopped.symm.trans live)
  | size _ _ t there _ bad => exact absurd sized (bad message rfl)
  | stored _ _ t there _ _ room =>
    cases there.symm.trans found
    exact absurd full room
  | dropped _ _ t there _ _ _ latest =>
    cases there.symm.trans found
    exact Policy.noConfusion (latest.symm.trans reliable)
  | overflow _ _ t there =>
    cases there.symm.trans found
    exact ⟨rfl, rfl⟩

/-- Along every run of calls with any arguments the counter is right, all bounds hold,
calls that throw are harmless, and a reliable stream that overflows is emptied and stopped. -/
theorem queue_accounted {maxStreams maxBytes maxMessageBytes : Num} {q₀ : DeliveryQueue β}
    (made : create maxStreams maxBytes maxMessageBytes = .ok q₀) (calls : List (Call β)) :
    let q := calls.foldl step q₀
    q.options = q₀.options ∧ q.bytes = (q.streams.values.map fun s => occupied s.messages).sum ∧
      0 ≤ q.bytes ∧ q.bytes ≤ q.options.maxBytes ∧ q.streams.size ≤ q.options.maxStreams ∧
      (∀ id s, q.streams.get? id = some s → s.messages.length ≤ s.maxMessages ∧
        (s.policy = .latest → s.messages.length ≤ 1) ∧ (s.stopped = true → s.messages = [])) ∧
      (∀ (call : Call β) (e : String), (call.run.exec q).1 = .error e →
        step q call = q ∨ e = "slow_consumer" ∧ Overflows q call (step q call)) ∧
      ∀ (call : Call β) (q' : DeliveryQueue β), Overflows q call q' →
        (call.run.exec q).1 = .error "slow_consumer" ∧ step q call = q' := by
  intro q
  have options : q.options = q₀.options := by
    refine foldl_inv (I := fun q : DeliveryQueue β => q.options = q₀.options) (fun q call same => ?_) rfl calls
    exact (ran_options (ran call q)).trans same
  have h : Accounted q := by
    exact foldl_inv (fun q call h => ran_accounted (ran call q) h) (create_accounted made) calls
  refine ⟨options, h.bytes, h.nonneg, h.budget, h.streams, fun id s found => ?_, fun call e thrown => ?_,
    fun call q' => overflow_forced⟩
  · have bounded := h.stream id s found
    refine ⟨bounded.count, fun latest => ?_, bounded.silent⟩
    have count := bounded.count
    rwa [bounded.one latest] at count
  · have outcome := ran call q
    rw [thrown] at outcome
    exact thrown_cases outcome

instance : Sized (List UInt8) := ⟨List.length⟩

/-- Room for three streams and four bytes. -/
def smallQueue : DeliveryQueue (List UInt8) := ⟨⟨3, 4, 4⟩, .empty, 0, 0⟩

theorem create_small : create (some 3) (some 4) (some 4) = .ok smallQueue := rfl

/-- A latest stream sent to twice and a reliable stream for one message that holds one. -/
def smallCalls : List (Call (List UInt8)) :=
  [.register "odom" "latest" (some 1), .register "map" "reliable" (some 1), .enqueue "odom" (some [1, 2]), .enqueue "map" (some [8]),
    .enqueue "odom" (some [3, 4, 5])]

/-- One more message overflows the reliable stream: its byte is given back, it is left
empty and stopped, and the latest stream keeps its value. -/
theorem queue_accounted_small :
    let q := smallCalls.foldl step smallQueue
    let overflowing : Call (List UInt8) := .enqueue "map" (some [9])
    q.bytes = 4 ∧ q.bytes = (q.streams.values.map fun s => occupied s.messages).sum ∧ 0 ≤ q.bytes ∧ q.bytes ≤ 4 ∧
      (overflowing.run.exec q).1 = .error "slow_consumer" ∧ (step q overflowing).bytes = 3 ∧
      (step q overflowing).streams.get? "map" = some ⟨.reliable, 1, [], true⟩ ∧
      (step q overflowing).streams.get? "odom" = q.streams.get? "odom" := by
  intro q overflowing
  obtain ⟨options, counted, nonneg, budget, -, -, -, overflow⟩ := queue_accounted create_small smallCalls
  rw [options] at budget
  have held : q.streams.get? "map" = some ⟨.reliable, 1, [[8]], false⟩ := by decide +kernel
  have sized : WellSized q [9] := ⟨by decide, by decide +kernel⟩
  have full : Full q ⟨.reliable, 1, [[8]], false⟩ [9] := .inl (by decide)
  obtain ⟨thrown, left⟩ := overflow overflowing _ ⟨"map", [9], _, rfl, held, rfl, rfl, sized, full, rfl⟩
  refine ⟨by decide +kernel, counted, nonneg, budget, thrown, ?_, ?_, ?_⟩
  · rw [left]
    decide +kernel
  · rw [left, Table.get?_set, if_pos rfl]
  · rw [left, Table.get?_set, if_neg (by decide)]

end RosBridge.Session.DeliveryQueue
