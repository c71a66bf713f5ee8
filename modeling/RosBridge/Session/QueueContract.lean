import RosBridge.Session.QueueBuffers
/-!
# The contract of the queue

What `session/README.md` says of `DeliveryQueue`, for a user that may write to its own
buffers at any time: the streams' promises, and the count of dropped values.
-/

namespace RosBridge.Session.DeliveryQueue

open Lib Prog

/-! ## Dropped values -/

/-- What a latest stream holds counts, what a reliable one holds does not. -/
def latestLength {β : Type} (s : Stream β) : Int := if s.policy = .latest then s.messages.length else 0

/-- The latest values that wait. -/
def pendingLatest (q : DeliveryQueue Buffer) : Int := q.streams.total latestLength

/-- A measure of the stream of an identifier. -/
def ofStream (q : DeliveryQueue Buffer) (id : String) (f : Stream Buffer → Int) : Int :=
  match q.streams.get? id with
  | some s => f s
  | none => 0

/-- The messages of a size that is taken that an act sends to a latest stream. -/
def offers (c : Client) : Act → Int
  | .enqueue id (some b) => ofStream c.queue id fun s =>
    if b ∈ c.held ∧ s.policy = .latest ∧ byteLength b ≠ 0 ∧ byteLength b ≤ c.max then 1 else 0
  | _ => 0

/-- The values that an act takes out of a latest stream. -/
def takes (c : Client) : Act → Int
  | .dequeue id => ofStream c.queue id fun s => latestLength { s with messages := s.messages.take 1 }
  | _ => 0

/-- The latest values that an act releases with their streams. -/
def releases (c : Client) : Act → Int
  | .closeStream id => ofStream c.queue id latestLength
  | .clear => pendingLatest c.queue
  | _ => 0

/-- The sum of a measure along a run. -/
def along (f : Client → Act → Int) : Client → List Act → Int
  | _, [] => 0
  | c, a :: acts => f c a + along f (c.act a) acts

section Counting

variable {q : DeliveryQueue Buffer} {id : String} {s : Stream Buffer}

theorem ofStream_found (found : q.streams.get? id = some s) (f : Stream Buffer → Int) : ofStream q id f = f s := by
  rw [ofStream, found]

theorem ofStream_absent (absent : q.streams.get? id = none) (f : Stream Buffer → Int) : ofStream q id f = 0 := by
  rw [ofStream, absent]

theorem pending_set (found : q.streams.get? id = some s) (s' : Stream Buffer) (bytes : Int) (dropped : Nat) :
    pendingLatest { q with streams := q.streams.set id s', bytes := bytes, dropped := dropped } =
      pendingLatest q - latestLength s + latestLength s' := Table.total_set latestLength s' found

theorem latestLength_reliable {policy : Policy} (reliable : policy = .reliable) (maxMessages : Nat) (messages : List Buffer)
    (stopped : Bool) : latestLength ⟨policy, maxMessages, messages, stopped⟩ = 0 :=
  if_neg fun latest => by cases reliable.symm.trans latest

theorem latestLength_latest {policy : Policy} (latest : policy = .latest) (maxMessages : Nat) (messages : List Buffer)
    (stopped : Bool) : latestLength ⟨policy, maxMessages, messages, stopped⟩ = messages.length := if_pos latest

/-- The drops and the pending values, after an `enqueue`. -/
theorem enqueue_counts {b : Buffer} {r : Except String (Answer Buffer)} {q' : DeliveryQueue Buffer}
    (outcome : Ran q (.enqueue id (some b)) r q') (live : ∀ s, q.streams.get? id = some s → s.policy = .latest → s.stopped = false) :
    (q'.dropped : Int) + pendingLatest q' = q.dropped + pendingLatest q + ofStream q id fun s =>
      if s.policy = .latest ∧ byteLength b ≠ 0 ∧ byteLength b ≤ q.options.maxMessageBytes then 1 else 0 := by
  cases outcome with
  | unknown _ _ about absent =>
    have target : (Call.enqueue id (some b)).target = some id := rfl
    rcases about with uses | same
    · obtain rfl := Option.some.inj (uses.target.symm.trans target)
      rw [ofStream_absent absent]
      omega
    · cases same
  | dead _ _ uses s found stopped =>
    obtain rfl := Option.some.inj uses.target
    have reliable : ¬s.policy = .latest := fun latest => by cases (live s found latest).symm.trans stopped
    rw [ofStream_found found, if_neg fun h => reliable h.1]
    omega
  | size _ _ s found _ bad =>
    rw [ofStream_found found, if_neg fun h => bad b rfl h.2]
    omega
  | stored _ _ s found _ sized _ =>
    rw [ofStream_found found, pending_set found]
    rcases reliable_or_latest s.policy with reliable | latest
    · have none : gone s = [] := if_neg fun latest => by cases reliable.symm.trans latest
      rw [if_neg (fun h => by cases reliable.symm.trans h.1), latestLength_reliable reliable, latestLength_reliable reliable, none]
      show ((q.dropped + 0 : Nat) : Int) + _ = _
      omega
    · have all : gone s = s.messages := if_pos latest
      have none : kept s = [] := if_pos latest
      rw [if_pos ⟨latest, sized⟩, latestLength_latest latest, latestLength_latest latest, all, none]
      show ((q.dropped + s.messages.length : Nat) : Int) + (_ - _ + ((1 : Nat) : Int)) = _
      omega
  | dropped _ _ s found _ sized _ latest =>
    rw [ofStream_found found, pending_set found, if_pos ⟨latest, sized⟩, latestLength_latest latest, latestLength_latest latest]
    show ((q.dropped + s.messages.length + 1 : Nat) : Int) + (_ - _ + ((0 : Nat) : Int)) = _
    omega
  | overflow _ _ s found _ sized _ reliable =>
    rw [ofStream_found found, pending_set found, if_neg (fun h => by cases reliable.symm.trans h.1),
      latestLength_reliable reliable, latestLength_reliable reliable]
    show (q.dropped : Int) + _ = _
    omega

theorem dequeue_counts {r : Except String (Answer Buffer)} {q' : DeliveryQueue Buffer} (outcome : Ran q (.dequeue id) r q')
    (live : ∀ s, q.streams.get? id = some s → s.policy = .latest → s.stopped = false) :
    (q'.dropped : Int) + pendingLatest q' =
      q.dropped + pendingLatest q - ofStream q id fun s => latestLength { s with messages := s.messages.take 1 } := by
  cases outcome with
  | unknown _ _ about absent =>
    have target : (Call.dequeue id : Call Buffer).target = some id := rfl
    rcases about with uses | same
    · obtain rfl := Option.some.inj (uses.target.symm.trans target)
      rw [ofStream_absent absent]
      omega
    · cases same
  | dead _ _ uses s found stopped =>
    obtain rfl := Option.some.inj uses.target
    rcases reliable_or_latest s.policy with reliable | latest
    · rw [ofStream_found found, latestLength_reliable reliable]
      omega
    · cases (live s found latest).symm.trans stopped
  | nothing _ s found _ empty =>
    rw [ofStream_found found, empty]
    unfold latestLength
    split <;> simp
  | dequeued _ s message messages found _ head =>
    rw [ofStream_found found, pending_set found, head]
    show (q.dropped : Int) + _ = _
    rcases reliable_or_latest s.policy with reliable | latest
    · rw [latestLength_reliable reliable, latestLength_reliable reliable, latestLength_reliable reliable]
      omega
    · rw [latestLength_latest latest, latestLength_latest latest, latestLength_latest latest, head]
      show (q.dropped : Int) + (_ - ((messages.length + 1 : Nat) : Int) + (messages.length : Int)) = _ - ((1 : Nat) : Int)
      omega

theorem closeStream_counts {r : Except String (Answer Buffer)} {q' : DeliveryQueue Buffer}
    (outcome : Ran q (.closeStream id) r q') :
    (q'.dropped : Int) + pendingLatest q' = q.dropped + pendingLatest q - ofStream q id latestLength := by
  cases outcome with
  | unknown id' _ about absent =>
    have same : id' = id := by
      rcases about with uses | same
      · cases uses
      · exact (Call.closeStream.inj same).symm
    rw [same] at absent
    rw [ofStream_absent absent]
    omega
  | dead _ _ uses => cases uses
  | closed _ s found =>
    have erased : pendingLatest { q with streams := q.streams.erase id, bytes := q.bytes - occupied s.messages } =
        pendingLatest q - latestLength s := Table.total_erase latestLength found
    rw [ofStream_found found, erased]
    show (q.dropped : Int) + _ = _
    omega

/-- The calls that count nothing. -/
theorem silent_counts {call : Call Buffer} {r : Except String (Answer Buffer)} {q' : DeliveryQueue Buffer} (outcome : Ran q call r q')
    (silent : (∃ id policy maxMessages, call = .register id policy maxMessages) ∨ (∃ id, call = .enqueue id none) ∨
      ∃ id, call = .peek id) : (q'.dropped : Int) + pendingLatest q' = q.dropped + pendingLatest q := by
  cases outcome with
  | unregistered | unknown | dead | size | nothing | peeked => rfl
  | registered id policy maxMessages p n _ _ absent =>
    have set : pendingLatest { q with streams := q.streams.set id ⟨p, n, [], false⟩ } = pendingLatest q + latestLength ⟨p, n, [], false⟩ :=
      Table.total_set_of_get?_none latestLength _ absent
    rw [set]
    have zero : latestLength (⟨p, n, [], false⟩ : Stream Buffer) = 0 := by
      unfold latestLength
      split <;> rfl
    rw [zero]
    show (q.dropped : Int) + _ = _
    omega
  | stored | dropped | overflow | dequeued | closed | cleared =>
    rcases silent with ⟨_, _, _, same⟩ | ⟨_, same⟩ | ⟨_, same⟩ <;> cases same

theorem ofStream_zero (q : DeliveryQueue Buffer) (id : String) {f : Stream Buffer → Int} (zero : ∀ s, f s = 0) : ofStream q id f = 0 := by
  unfold ofStream
  split
  · exact zero _
  · rfl

/-- What an act changes of the drops and of what is pending. -/
theorem act_counts {c : Client} {max : Nat} (h : c.Sound max) (a : Act) :
    ((c.act a).queue.dropped : Int) + pendingLatest (c.act a).queue =
      c.queue.dropped + pendingLatest c.queue + offers c a - takes c a - releases c a := by
  have live : ∀ id s, c.queue.streams.get? id = some s → s.policy = .latest → s.stopped = false := fun id s found =>
    (h.promise.keeps id _ (view_found found)).live
  have silent : ∀ call : Call Buffer, ((∃ id policy maxMessages, call = .register id policy maxMessages) ∨
      (∃ id, call = .enqueue id none) ∨ ∃ id, call = .peek id) →
      ((step c.queue call).dropped : Int) + pendingLatest (step c.queue call) = c.queue.dropped + pendingLatest c.queue + 0 - 0 - 0 := by
    intro call which
    rw [silent_counts (ran call c.queue) which]
    omega
  cases a with
  | make bytes =>
    show (c.queue.dropped : Int) + pendingLatest c.queue = _ + 0 - 0 - 0
    omega
  | write b bytes =>
    have same : (c.act (.write b bytes)).queue = c.queue := by
      rw [Client.act_write]
      split <;> rfl
    rw [same]
    show _ = _ + 0 - 0 - 0
    omega
  | register id policy maxMessages => exact silent _ (.inl ⟨id, policy, maxMessages, rfl⟩)
  | enqueue id message =>
    cases message with
    | none => exact silent _ (.inr (.inl ⟨id, rfl⟩))
    | some b =>
      rw [Client.act_enqueue]
      show _ = _ + _ - (0 : Int) - 0
      split
      · next given =>
        have counts := enqueue_counts (ran (.enqueue id (some ⟨c.next, b.byteLength⟩)) c.queue) (live id)
        have offered : offers c (.enqueue id (some b)) = ofStream c.queue id fun s => if s.policy = .latest ∧
            b.byteLength ≠ 0 ∧ b.byteLength ≤ c.queue.options.maxMessageBytes then 1 else 0 := by
          show ofStream c.queue id _ = _
          congr 1
          funext s
          simp only [given, true_and]
          rfl
        rw [offered, sub_zero, sub_zero]
        exact counts
      · next other =>
        have none : offers c (.enqueue id (some b)) = 0 := ofStream_zero _ _ fun s => if_neg fun h => other h.1
        rw [none]
        omega
  | dequeue id =>
    have counts := dequeue_counts (ran (.dequeue id) c.queue) (live id)
    show ((step c.queue (.dequeue id)).dropped : Int) + pendingLatest (step c.queue (.dequeue id)) =
      _ + 0 - (ofStream c.queue id fun s => latestLength { s with messages := s.messages.take 1 }) - 0
    omega
  | peek id =>
    have same : (c.act (.peek id)).queue = step c.queue (.peek id) := by
      rw [Client.act_peek]
      split <;> rfl
    rw [same]
    exact silent _ (.inr (.inr ⟨id, rfl⟩))
  | closeStream id =>
    have counts := closeStream_counts (ran (.closeStream id) c.queue)
    show ((step c.queue (.closeStream id)).dropped : Int) + pendingLatest (step c.queue (.closeStream id)) =
      _ + 0 - 0 - ofStream c.queue id latestLength
    omega
  | clear =>
    show (c.queue.dropped : Int) + 0 = _ + pendingLatest c.queue + 0 - 0 - pendingLatest c.queue
    omega

theorem run_counts {c : Client} {max : Nat} (h : c.Sound max) (acts : List Act) :
    ((acts.foldl Client.act c).queue.dropped : Int) + pendingLatest (acts.foldl Client.act c).queue =
      c.queue.dropped + pendingLatest c.queue + along offers c acts - along takes c acts - along releases c acts := by
  induction acts generalizing c with
  | nil =>
    show _ = _ + 0 - 0 - 0
    rw [add_zero, sub_zero, sub_zero]
    rfl
  | cons a acts ih =>
    have rest := ih (h.act a)
    have first := act_counts h a
    show ((acts.foldl Client.act (c.act a)).queue.dropped : Int) + _ =
      _ + (offers c a + along offers (c.act a) acts) - (takes c a + along takes (c.act a) acts) -
        (releases c a + along releases (c.act a) acts)
    rw [List.foldl_cons]
    omega

end Counting

/-! ## The promises to a user -/

/-- The acts of a user on its own buffers. -/
def Act.Own (a : Act) : Prop := (∃ bytes, a = .make bytes) ∨ ∃ b bytes, a = .write b bytes

/-- The queue does not notice what its user does with its own buffers. -/
theorem Client.Sound.own {c : Client} {max : Nat} (h : c.Sound max) {a : Act} (own : a.Own) :
    (c.act a).trace = c.trace ∧ (c.act a).view = c.view := by
  rcases own with ⟨bytes, rfl⟩ | ⟨b, bytes, rfl⟩
  · exact ⟨rfl, Client.view_make h.secret _⟩
  · rw [Client.act_write]
    split
    · next given => exact ⟨rfl, Client.view_write b bytes fun id s found mem => h.secret.own id s found b mem given⟩
    · exact ⟨rfl, rfl⟩

theorem Client.Sound.owns {c : Client} {max : Nat} (h : c.Sound max) {acts : List Act} (own : ∀ a ∈ acts, a.Own) :
    (acts.foldl Client.act c).trace = c.trace ∧ (acts.foldl Client.act c).view = c.view := by
  induction acts generalizing c with
  | nil => exact ⟨rfl, rfl⟩
  | cons a acts ih =>
    obtain ⟨trace, view⟩ := h.own (own a List.mem_cons_self)
    obtain ⟨traces, views⟩ := ih (h.act a) fun a' mem => own a' (List.mem_cons_of_mem _ mem)
    exact ⟨traces.trans trace, views.trans view⟩

/-- What `peek` shows is what `dequeue` returns, whatever the user does with its buffers in between. -/
theorem peek_dequeue {c : Client} {max : Nat} (h : c.Sound max) {id : String} {r : Option (List UInt8)}
    (peeked : (c.act (.peek id)).trace = c.trace ++ [(.peek id, .ok (.message r))]) {acts : List Act} (own : ∀ a ∈ acts, a.Own) :
    ((acts.foldl Client.act (c.act (.peek id))).act (.dequeue id)).trace =
      c.trace ++ [(.peek id, .ok (.message r)), (.dequeue id, .ok (.message r))] := by
  obtain ⟨trace, view⟩ := (h.act (.peek id)).owns own
  have seen := Client.does_of_trace h peeked
  rw [← view] at seen
  have does := (acts.foldl Client.act (c.act (.peek id))).call_does (.dequeue id)
  rw [(Client.run_sound (h.act (.peek id)) acts).limit] at does
  have same := seen.peek_dequeue does
  show (acts.foldl Client.act (c.act (.peek id))).trace ++ [(Call.dequeue id, _)] = _
  rw [same, trace, peeked, List.append_assoc]
  rfl

/-- Every reliable stream is a FIFO until it overflows and fails from then on, what is
read of a latest stream is the last value accepted with none of a size that is taken
offered since, every other latest value is counted as dropped, streams do not disturb each
other, and `peek` tells what `dequeue` returns. The bytes are those at the calls. -/
theorem queue_promises {maxStreams maxBytes maxMessageBytes : Num} {q₀ : DeliveryQueue Buffer}
    (made : create maxStreams maxBytes maxMessageBytes = .ok q₀) (acts : List Act) :
    let c := acts.foldl Client.act (.start q₀)
    (∀ id, policyOf id c.trace = some .reliable →
      dequeued id c.trace <+: accepted id c.trace ∧
      (∀ a e message, (c.act a).trace = c.trace ++ [e] → e.1 = .dequeue id ∨ e.1 = .peek id → e.2 = .ok (.message message) →
        message = ((accepted id c.trace).drop (dequeued id c.trace).length).head?) ∧
      (Overflowed id c.trace → ∀ a e, (c.act a).trace = c.trace ++ [e] → e.1.Uses id → e.2 = .error "slow_consumer")) ∧
    (∀ id, policyOf id c.trace = some .latest → ∀ a e message, (c.act a).trace = c.trace ++ [e] →
      e.1 = .dequeue id ∨ e.1 = .peek id → e.2 = .ok (.message (some message)) →
      Standing (Takes q₀.options.maxMessageBytes) id message c.trace) ∧
    (c.queue.dropped : Int) = along offers (.start q₀) acts - along takes (.start q₀) acts - pendingLatest c.queue -
      along releases (.start q₀) acts ∧
    (∀ a e id id', (c.act a).trace = c.trace ++ [e] → e.1.target = some id → id' ≠ id → (c.act a).view id' = c.view id') ∧
    ∀ id r, (c.act (.peek id)).trace = c.trace ++ [(.peek id, .ok (.message r))] → ∀ own : List Act, (∀ a ∈ own, a.Own) →
      ((own.foldl Client.act (c.act (.peek id))).act (.dequeue id)).trace =
        c.trace ++ [(.peek id, .ok (.message r)), (.dequeue id, .ok (.message r))] := by
  intro c
  have start := Client.start_sound made
  have h : c.Sound q₀.options.maxMessageBytes := Client.run_sound start acts
  refine ⟨fun id reliable => ⟨?_, fun a e message seen reads ok => ?_, fun overflowed a e seen uses => ?_⟩,
    fun id latest a e message seen reads ok => ?_, ?_, fun a e id id' seen target apart => ?_, fun id r peeked own quiet => ?_⟩
  · cases found : c.view id with
    | none => cases (h.promise.absent id found).symm.trans reliable
    | some s =>
      have keeps := h.promise.keeps id s found
      exact keeps.ordered (Option.some.inj (keeps.policy.symm.trans reliable))
  · exact h.promise.first reliable reads ok (Client.does_of_trace h seen)
  · exact h.promise.slow overflowed reliable uses (Client.does_of_trace h seen)
  · exact h.promise.read latest reads ok (Client.does_of_trace h seen)
  · have counts := run_counts start acts
    have fresh : ((Client.start q₀).queue.dropped : Int) + pendingLatest (Client.start q₀).queue = 0 := by
      unfold create at made
      split at made
      · split at made
        · cases made
        · obtain rfl := Except.ok.inj made
          rfl
      · cases made
    show ((acts.foldl Client.act (.start q₀)).queue.dropped : Int) = _ - _ - pendingLatest (acts.foldl Client.act (.start q₀)).queue - _
    omega
  · exact (Client.does_of_trace h seen).other target apart
  · exact peek_dequeue h peeked quiet

/-- Room for three streams and four bytes, over buffers. -/
def smallBuffers : DeliveryQueue Buffer := ⟨⟨3, 4, 4⟩, .empty, 0, 0⟩

/-- A value that is accepted, and an `enqueue` of no message. -/
def smallActs : List Act :=
  [.make [42], .register "odom" "latest" (some 1), .enqueue "odom" (some ⟨0, 1⟩), .write ⟨0, 1⟩ #v[7], .enqueue "odom" none]

theorem smallActs_trace : (smallActs.foldl Client.act (.start smallBuffers)).trace =
    [(.register "odom" "latest" (some 1), .ok .done), (.enqueue "odom" (some [42]), .ok (.stored true)),
      (.enqueue "odom" none, .error "message_size")] := rfl

theorem smallActs_dequeue : ((smallActs.foldl Client.act (.start smallBuffers)).act (.dequeue "odom")).trace =
    (smallActs.foldl Client.act (.start smallBuffers)).trace ++ [(.dequeue "odom", .ok (.message (some [42])))] := rfl

theorem queue_promises_small : create (some 3) (some 4) (some 4) = .ok smallBuffers ∧
    Standing (Takes 4) "odom" [42] (smallActs.foldl Client.act (.start smallBuffers)).trace := by
  have made : create (some 3) (some 4) (some 4) = .ok smallBuffers := rfl
  refine ⟨made, ?_⟩
  obtain ⟨-, latest, -⟩ := queue_promises made smallActs
  exact latest "odom" rfl (.dequeue "odom") _ [42] smallActs_dequeue (.inl rfl) rfl

/-- A latest value is still returned after a later `enqueue` on its stream that took nothing. -/
theorem latest_offered_since : ¬∀ (maxStreams maxBytes maxMessageBytes : Num) (q₀ : DeliveryQueue Buffer),
    create maxStreams maxBytes maxMessageBytes = .ok q₀ → ∀ (acts : List Act) (id : String),
      policyOf id (acts.foldl Client.act (.start q₀)).trace = some .latest → ∀ a e message,
        ((acts.foldl Client.act (.start q₀)).act a).trace = (acts.foldl Client.act (.start q₀)).trace ++ [e] →
        e.1 = .dequeue id ∨ e.1 = .peek id → e.2 = .ok (.message (some message)) →
        ∃ before after, (acts.foldl Client.act (.start q₀)).trace =
          before ++ (.enqueue id (some message), .ok (.stored true)) :: after ∧ ∀ e ∈ after, ∀ m, e.1 ≠ .enqueue id m := by
  intro claim
  obtain ⟨before, after, split, none⟩ := claim (some 3) (some 4) (some 4) smallBuffers rfl smallActs "odom" rfl (.dequeue "odom") _
    [42] smallActs_dequeue (.inl rfl) rfl
  rw [smallActs_trace] at split
  cases before with
  | nil => cases (List.cons.inj split).1
  | cons first before =>
    have split := (List.cons.inj split).2
    cases before with
    | nil =>
      have rest := (List.cons.inj split).2
      rw [← rest] at none
      exact none _ List.mem_cons_self _ rfl
    | cons second before =>
      have split := (List.cons.inj split).2
      cases before with
      | nil => cases (List.cons.inj split).1
      | cons third before => cases before <;> cases (List.cons.inj split).2

end RosBridge.Session.DeliveryQueue
