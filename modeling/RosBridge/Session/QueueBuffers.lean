import RosBridge.Session.QueuePromises
/-!
# Whose buffers they are

A `Uint8Array` can be written to at any time by whoever holds it. The queue copies what
it is given, gives away what it takes out and shows copies only, so what it holds is what
it was given, whatever its user writes. The queue over buffers does what the queue over
their bytes may do, and with it keeps the promises of its streams.
-/

namespace RosBridge.Session.DeliveryQueue

open Lib Prog

/-! ## A queue and its user -/

/-- A `Uint8Array`. Its length never changes, its bytes may. -/
structure Buffer where
  address : Nat
  byteLength : Nat
  deriving DecidableEq

instance : Sized Buffer := ⟨Buffer.byteLength⟩

/-- The bytes of every buffer. -/
abbrev Memory := (b : Buffer) → Vector UInt8 b.byteLength

/-- A queue, the buffers its user holds, and what the user has seen. -/
structure Client where
  queue : DeliveryQueue Buffer
  memory : Memory
  next : Nat
  held : List Buffer
  trace : List (Event (List UInt8))

/-- What the user does. -/
inductive Act where
  | make (bytes : List UInt8)
  | write (b : Buffer) (bytes : Vector UInt8 b.byteLength)
  | register (id policy : String) (maxMessages : Num)
  | enqueue (id : String) (message : Option Buffer)
  | dequeue (id : String)
  | peek (id : String)
  | closeStream (id : String)
  | clear

section Map

variable {α β : Type} (f : β → α)

def Call.map : Call β → Call α
  | .register id policy maxMessages => .register id policy maxMessages
  | .enqueue id message => .enqueue id (message.map f)
  | .dequeue id => .dequeue id
  | .peek id => .peek id
  | .closeStream id => .closeStream id
  | .clear => .clear

def Answer.map : Answer β → Answer α
  | .done => .done
  | .stored ok => .stored ok
  | .message m => .message (m.map f)

end Map

namespace Client

/-- The bytes of a buffer. -/
def read (c : Client) (b : Buffer) : List UInt8 := (c.memory b).toList

/-- Call the queue. Addresses are used once. -/
def call (c : Client) (call : Call Buffer) : Client :=
  { c with
    queue := step c.queue call
    next := c.next + 1
    trace := c.trace ++ [(call.map c.read, (call.run.exec c.queue).1.map (Answer.map c.read))] }

/-- The buffer that a call returns. -/
def returned (c : Client) (call : Call Buffer) : Option Buffer :=
  match (call.run.exec c.queue).1 with
  | .ok (.message message) => message
  | _ => none

/-- Hold a new buffer of these bytes. -/
def make {n : Nat} (c : Client) (bytes : Vector UInt8 n) : Client :=
  { c with
    memory := Function.update c.memory ⟨c.next, n⟩ bytes
    next := c.next + 1
    held := ⟨c.next, n⟩ :: c.held }

/-- The copy that `enqueue` stores. -/
def copied (c : Client) (b : Buffer) : Client :=
  { c with memory := Function.update c.memory ⟨c.next, b.byteLength⟩ (c.memory b) }

/-- A user can only name the buffers it holds. -/
def act (c : Client) : Act → Client
  | .make bytes => c.make ⟨bytes.toArray, rfl⟩
  | .write b bytes => if b ∈ c.held then { c with memory := Function.update c.memory b bytes } else c
  | .register id policy maxMessages => c.call (.register id policy maxMessages)
  | .enqueue id none => c.call (.enqueue id none)
  | .enqueue id (some b) => if b ∈ c.held then (c.copied b).call (.enqueue id (some ⟨c.next, b.byteLength⟩)) else c
  | .dequeue id =>
    let c' := c.call (.dequeue id)
    { c' with held := (c.returned (.dequeue id)).toList ++ c'.held }
  | .peek id =>
    let c' := c.call (.peek id)
    match c.returned (.peek id) with
    | some b => c'.make (c'.memory b)
    | none => c'
  | .closeStream id => c.call (.closeStream id)
  | .clear => c.call .clear

/-- A user of a new queue. -/
def start (q : DeliveryQueue Buffer) : Client := ⟨q, fun b => .replicate b.byteLength 0, 0, [], []⟩

end Client

/-! ## The queue over the bytes -/

section View

variable {α β : Type}

/-- The streams of a queue, with the values of its messages. -/
def view (f : β → α) (q : DeliveryQueue β) : View α := fun id =>
  (q.streams.get? id).map fun s => ⟨s.policy, s.maxMessages, s.messages.map f, s.stopped⟩

variable {f g : β → α} {q q' : DeliveryQueue β}

theorem view_found {id : String} {s : Stream β} (found : q.streams.get? id = some s) :
    view f q id = some ⟨s.policy, s.maxMessages, s.messages.map f, s.stopped⟩ := by
  rw [view, found]
  rfl

theorem view_absent {id : String} (absent : q.streams.get? id = none) : view f q id = none := by
  rw [view, absent]
  rfl

/-- Only the values of pending messages matter. -/
theorem view_congr (same : ∀ id s, q.streams.get? id = some s → ∀ b ∈ s.messages, f b = g b) : view f q = view g q := by
  funext id
  cases found : q.streams.get? id with
  | none => rw [view_absent found, view_absent found]
  | some s => rw [view_found found, view_found found, List.map_congr_left (same id s found)]

theorem view_set (id : String) (s : Stream β) (bytes : Int) (dropped : Nat) :
    view f { q with streams := q.streams.set id s, bytes := bytes, dropped := dropped } =
      Function.update (view f q) id (some ⟨s.policy, s.maxMessages, s.messages.map f, s.stopped⟩) := by
  funext id'
  by_cases own : id' = id
  · subst own
    rw [Function.update_self, view_found (Table.get?_set_self _ _ _)]
  · rw [Function.update_of_ne own]
    show Option.map _ ((q.streams.set id s).get? id') = _
    rw [Table.get?_set_ne _ _ own]
    rfl

theorem kept_map (s : Stream β) :
    kept (⟨s.policy, s.maxMessages, s.messages.map f, s.stopped⟩ : Stream α) = (kept s).map f := by
  unfold kept
  dsimp only
  split <;> rfl

theorem uses_map {id : String} {call : Call β} (h : call.Uses id) : (call.map f).Uses id := by
  cases h with
  | enqueue message => exact .enqueue _
  | dequeue => exact .dequeue
  | peek => exact .peek

/-- What a queue does, seen through the values of its messages. -/
theorem ran_does [Sized β] {sized : α → Prop} (sizes : ∀ b, WellSized q b ↔ sized (f b)) {call : Call β}
    {r : Except String (Answer β)} (outcome : Ran q call r q') :
    Does sized (view f q) (call.map f, r.map (Answer.map f)) (view f q') := by
  cases outcome with
  | unregistered id policy maxMessages e _ => exact .unregistered id policy maxMessages e
  | registered id policy maxMessages p n named _ absent _ =>
    rw [view_set]
    exact .registered id policy maxMessages p n named (view_absent absent)
  | unknown id call about absent =>
    refine .unknown id (call.map f) ?_ (view_absent absent)
    rcases about with uses | rfl
    · exact .inl (uses_map uses)
    · exact .inr rfl
  | dead id call uses s found stopped => exact .dead id (call.map f) (uses_map uses) _ (view_found found) stopped
  | size id message s found live bad =>
    refine .size id (message.map f) _ (view_found found) live fun m same => ?_
    obtain ⟨b, rfl, rfl⟩ := Option.map_eq_some_iff.1 same
    rw [← sizes]
    exact bad b rfl
  | stored id message s found live fits _ =>
    rw [view_set]
    have stored : Does sized (view f q) _ _ := .stored id (f message) _ (view_found found) live ((sizes message).1 fits)
    rw [kept_map] at stored
    rw [List.map_append]
    exact stored
  | dropped id message s found live fits _ latest =>
    rw [view_set]
    exact .dropped id (f message) _ (view_found found) live ((sizes message).1 fits) latest
  | overflow id message s found live fits _ reliable =>
    rw [view_set]
    exact .overflow id (f message) _ (view_found found) live ((sizes message).1 fits) reliable
  | nothing id s found live empty =>
    refine .nothing id _ (view_found found) live ?_
    rw [empty]
    rfl
  | dequeued id s message messages found live head =>
    rw [view_set]
    refine .dequeued id _ (f message) (messages.map f) (view_found found) live ?_
    rw [head]
    rfl
  | peeked id s found live =>
    have peeked : Does sized (view f q) _ _ := .peeked id _ (view_found found) live
    rw [List.head?_map] at peeked
    exact peeked
  | closed id s found =>
    have erased : view f { q with streams := q.streams.erase id, bytes := q.bytes - occupied s.messages } =
        Function.update (view f q) id none := by
      funext id'
      by_cases own : id' = id
      · subst own
        rw [Function.update_self]
        exact view_absent (Table.get?_erase_self _ _)
      · rw [Function.update_of_ne own]
        show Option.map _ ((q.streams.erase id).get? id') = _
        rw [Table.get?_erase_ne _ own]
        rfl
    rw [erased]
    exact .closed id _ (view_found found)
  | cleared => exact .cleared

end View

/-! ## What the user cannot reach -/

/-- The pending buffers are the queue's own, each in one place. -/
structure Private (q : DeliveryQueue Buffer) (next : Nat) (held : List Buffer) : Prop where
  issued : ∀ b ∈ held, b.address < next
  old : ∀ id s, q.streams.get? id = some s → ∀ b ∈ s.messages, b.address < next
  own : ∀ id s, q.streams.get? id = some s → ∀ b ∈ s.messages, b ∉ held
  nodup : ∀ id s, q.streams.get? id = some s → s.messages.Nodup
  apart : ∀ id id' s s', id ≠ id' → q.streams.get? id = some s → q.streams.get? id' = some s' →
    ∀ b ∈ s.messages, b ∉ s'.messages

variable {q q' : DeliveryQueue Buffer} {next : Nat} {held : List Buffer}

theorem Private.later (h : Private q next held) : Private q (next + 1) held :=
  ⟨fun b mem => Nat.lt_succ_of_lt (h.issued b mem), fun id s found b mem => Nat.lt_succ_of_lt (h.old id s found b mem),
    h.own, h.nodup, h.apart⟩

/-- A queue that holds less. -/
theorem Private.less (h : Private q next held) (less : ∀ id s', q'.streams.get? id = some s' →
    s'.messages = [] ∨ ∃ s, q.streams.get? id = some s ∧ s'.messages.Sublist s.messages) : Private q' next held := by
  have was : ∀ id s', q'.streams.get? id = some s' → ∀ b ∈ s'.messages, ∃ s, q.streams.get? id = some s ∧ b ∈ s.messages := by
    intro id s' found b mem
    rcases less id s' found with empty | ⟨s, before, sublist⟩
    · rw [empty] at mem
      cases mem
    · exact ⟨s, before, sublist.subset mem⟩
  constructor
  · exact h.issued
  · intro id s' found b mem
    obtain ⟨s, before, mem⟩ := was id s' found b mem
    exact h.old id s before b mem
  · intro id s' found b mem
    obtain ⟨s, before, mem⟩ := was id s' found b mem
    exact h.own id s before b mem
  · intro id s' found
    rcases less id s' found with empty | ⟨s, before, sublist⟩
    · rw [empty]
      exact List.nodup_nil
    · exact (h.nodup id s before).sublist sublist
  · intro id id' s' t' differ found found' b mem mem'
    obtain ⟨s, before, mem⟩ := was id s' found b mem
    obtain ⟨t, before', mem'⟩ := was id' t' found' b mem'
    exact h.apart id id' s t differ before before' b mem mem'

/-- One stream holds less. -/
theorem Private.exchange (h : Private q next held) {id : String} {s' : Stream Buffer}
    (less : s'.messages = [] ∨ ∃ s, q.streams.get? id = some s ∧ s'.messages.Sublist s.messages) (bytes : Int) (dropped : Nat) :
    Private { q with streams := q.streams.set id s', bytes := bytes, dropped := dropped } next held := by
  refine h.less fun id' t found => ?_
  have found : (q.streams.set id s').get? id' = some t := found
  rw [Table.get?_set] at found
  split at found
  · next own =>
    rw [← Option.some.inj found, own]
    exact less
  · exact .inr ⟨t, found, .refl _⟩

/-- A stream holds one more buffer, which nobody else has. -/
theorem Private.push (h : Private q next held) {id : String} {s : Stream Buffer} (found : q.streams.get? id = some s) {b : Buffer}
    (fresh : b.address = next) (bytes : Int) (dropped : Nat) :
    Private { q with streams := q.streams.set id { s with messages := kept s ++ [b] }, bytes := bytes, dropped := dropped }
      (next + 1) held := by
  have sublist : (kept s).Sublist s.messages := by
    unfold kept
    split
    · exact List.nil_sublist _
    · exact .refl _
  have unused : ∀ id' t, q.streams.get? id' = some t → b ∉ t.messages := by
    intro id' t there mem
    exact absurd (h.old id' t there b mem) (by omega)
  -- What each stream holds now: the new buffer in one of them, and what was there.
  have cases : ∀ id' t, (q.streams.set id { s with messages := kept s ++ [b] }).get? id' = some t →
      (id' = id ∧ t.messages = kept s ++ [b]) ∨ (id' ≠ id ∧ q.streams.get? id' = some t) := by
    intro id' t there
    rw [Table.get?_set] at there
    split at there
    · next own => exact .inl ⟨own, by rw [← Option.some.inj there]⟩
    · next other => exact .inr ⟨other, there⟩
  have was : ∀ id' t, (q.streams.set id { s with messages := kept s ++ [b] }).get? id' = some t → ∀ b' ∈ t.messages,
      (id' = id ∧ b' = b) ∨ ∃ t', q.streams.get? id' = some t' ∧ b' ∈ t'.messages := by
    intro id' t there b' mem
    rcases cases id' t there with ⟨rfl, messages⟩ | ⟨-, same⟩
    · rw [messages] at mem
      rcases List.mem_append.1 mem with before | new
      · exact .inr ⟨s, found, sublist.subset before⟩
      · exact .inl ⟨rfl, List.mem_singleton.1 new⟩
    · exact .inr ⟨t, same, mem⟩
  constructor
  · intro b' mem
    exact Nat.lt_succ_of_lt (h.issued b' mem)
  · intro id' t there b' mem
    rcases was id' t there b' mem with ⟨-, rfl⟩ | ⟨t', there', mem'⟩
    · omega
    · exact Nat.lt_succ_of_lt (h.old id' t' there' b' mem')
  · intro id' t there b' mem given
    rcases was id' t there b' mem with ⟨-, rfl⟩ | ⟨t', there', mem'⟩
    · exact absurd (h.issued _ given) (by omega)
    · exact h.own id' t' there' b' mem' given
  · intro id' t there
    rcases cases id' t there with ⟨rfl, messages⟩ | ⟨-, same⟩
    · rw [messages, List.nodup_append]
      refine ⟨(h.nodup id' s found).sublist sublist, List.nodup_singleton b, ?_⟩
      rintro b' mem b'' one rfl
      rw [List.mem_singleton.1 one] at mem
      exact unused id' s found (sublist.subset mem)
    · exact h.nodup id' t same
  · intro id' id'' t t'' differ there there' b' mem mem'
    rcases was id' t there b' mem with ⟨rfl, rfl⟩ | ⟨u, before, mem⟩
    · rcases was id'' t'' there' b' mem' with ⟨rfl, -⟩ | ⟨u', before', mem'⟩
      · exact differ rfl
      · exact unused id'' u' before' mem'
    · rcases was id'' t'' there' b' mem' with ⟨rfl, rfl⟩ | ⟨u', before', mem'⟩
      · exact unused id' u before mem
      · exact h.apart id' id'' u u' differ before before' b' mem mem'

/-- A call with a new buffer. -/
theorem Private.ran (h : Private q next held) {call : Call Buffer} {r : Except String (Answer Buffer)} (outcome : Ran q call r q')
    (fresh : ∀ id b, call = .enqueue id (some b) → b.address = next) : Private q' (next + 1) held := by
  cases outcome with
  | unregistered | unknown | dead | size | nothing | peeked => exact h.later
  | registered => exact h.later.exchange (.inl rfl) _ _
  | stored id message s found => exact h.push found (fresh id message rfl) _ _
  | dropped | overflow => exact h.later.exchange (.inl rfl) _ _
  | dequeued id s message messages found live head =>
    refine h.later.exchange (.inr ⟨s, found, ?_⟩) _ _
    rw [head]
    exact List.sublist_cons_self _ _
  | closed id s found =>
    refine h.later.less fun id' t there => ?_
    have there : (q.streams.erase id).get? id' = some t := there
    rw [Table.get?_erase] at there
    split at there
    · cases there
    · exact .inr ⟨t, there, .refl _⟩
  | cleared => exact h.later.less fun id s found => by cases found

/-- The user holds a new buffer. -/
theorem Private.make (h : Private q next held) {b : Buffer} (fresh : b.address = next) : Private q (next + 1) (b :: held) := by
  refine ⟨fun b' mem => ?_, h.later.old, fun id s found b' mem given => ?_, h.nodup, h.apart⟩
  · rcases List.mem_cons.1 mem with rfl | mem
    · omega
    · exact Nat.lt_succ_of_lt (h.issued b' mem)
  · rcases List.mem_cons.1 given with rfl | given
    · exact absurd (h.old id s found _ mem) (by omega)
    · exact h.own id s found b' mem given

/-- What is taken out is the user's. -/
theorem Private.hand (h : Private q next held) {id : String} {b : Buffer}
    (outcome : Ran q (.dequeue id) (.ok (.message (some b))) q') : Private q' (next + 1) (b :: held) := by
  have still := h.ran outcome fun _ _ same => by cases same
  cases outcome with
  | dequeued _ s _ messages found live head =>
    have mem : b ∈ s.messages := head ▸ List.mem_cons_self
    refine ⟨fun b' given => ?_, still.old, fun id' t there b' pending given => ?_, still.nodup, still.apart⟩
    · rcases List.mem_cons.1 given with rfl | given
      · exact Nat.lt_succ_of_lt (h.old id s found _ mem)
      · exact still.issued b' given
    · rcases List.mem_cons.1 given with rfl | given
      · have there : (q.streams.set id { s with messages := messages }).get? id' = some t := there
        rw [Table.get?_set] at there
        split at there
        · rw [← Option.some.inj there] at pending
          have nodup := h.nodup id s found
          rw [head] at nodup
          exact (List.nodup_cons.1 nodup).1 pending
        · next other => exact h.apart id id' s t (fun same => other same.symm) found there _ mem pending
      · exact still.own id' t there b' pending given

/-! ## One act -/

/-- The sizes that are taken. -/
def Takes (max : Nat) (bytes : List UInt8) : Prop := bytes.length ≠ 0 ∧ bytes.length ≤ max

namespace Client

variable {c : Client}

/-- What the streams hold. -/
def view (c : Client) : View (List UInt8) := DeliveryQueue.view c.read c.queue

/-- The largest message that is taken. -/
def max (c : Client) : Nat := c.queue.options.maxMessageBytes

theorem sizes (c : Client) (b : Buffer) : WellSized c.queue b ↔ Takes c.max (c.read b) := by
  unfold WellSized Takes read
  rw [Vector.length_toList]
  rfl

/-- Writing to a buffer that is not pending. -/
theorem view_write (b : Buffer) (bytes : Vector UInt8 b.byteLength)
    (outside : ∀ id s, c.queue.streams.get? id = some s → b ∉ s.messages) :
    view { c with memory := Function.update c.memory b bytes } = c.view := by
  apply view_congr
  intro id s found b' mem
  have other : b' ≠ b := fun same => outside id s found (same ▸ mem)
  show (Function.update c.memory b bytes b').toList = _
  rw [Function.update_of_ne other]
  rfl

theorem act_write (c : Client) (b : Buffer) (bytes : Vector UInt8 b.byteLength) :
    c.act (.write b bytes) = if b ∈ c.held then { c with memory := Function.update c.memory b bytes } else c := rfl

theorem act_enqueue (c : Client) (id : String) (b : Buffer) : c.act (.enqueue id (some b)) =
    if b ∈ c.held then (c.copied b).call (.enqueue id (some ⟨c.next, b.byteLength⟩)) else c := rfl

theorem act_peek (c : Client) (id : String) : c.act (.peek id) = match c.returned (.peek id) with
    | some b => (c.call (.peek id)).make ((c.call (.peek id)).memory b)
    | none => c.call (.peek id) := rfl

/-- One act of the user: nothing that the queue sees, or an event. -/
inductive Acts (c c' : Client) : Prop where
  | quiet (trace : c'.trace = c.trace) (view : c'.view = c.view)
  | event (e : Event (List UInt8)) (trace : c'.trace = c.trace ++ [e]) (does : Does (Takes c.max) c.view e c'.view)

theorem call_does (c : Client) (call : Call Buffer) :
    Does (Takes c.max) c.view (call.map c.read, (call.run.exec c.queue).1.map (Answer.map c.read)) (c.call call).view :=
  ran_does c.sizes (ran call c.queue)

theorem call_acts (c : Client) (call : Call Buffer) : Acts c (c.call call) := .event _ rfl (c.call_does call)

/-- The user's new buffers are nobody else's. -/
theorem fresh_outside (h : Private c.queue c.next c.held) (n : Nat) (id : String) (s : Stream Buffer)
    (found : c.queue.streams.get? id = some s) : (⟨c.next, n⟩ : Buffer) ∉ s.messages := fun mem =>
  Nat.lt_irrefl _ (h.old id s found _ mem)

theorem view_make (h : Private c.queue c.next c.held) {n : Nat} (bytes : Vector UInt8 n) : (c.make bytes).view = c.view :=
  view_write ⟨c.next, n⟩ bytes (fresh_outside h n)

theorem view_copied (h : Private c.queue c.next c.held) (b : Buffer) : (c.copied b).view = c.view :=
  view_write ⟨c.next, b.byteLength⟩ (c.memory b) (fresh_outside h b.byteLength)

theorem act_acts (h : Private c.queue c.next c.held) (a : Act) : Acts c (c.act a) := by
  cases a with
  | make bytes => exact .quiet rfl (view_make h _)
  | write b bytes =>
    rw [act_write]
    split
    · next given => exact .quiet rfl (view_write b bytes fun id s found mem => h.own id s found b mem given)
    · exact .quiet rfl rfl
  | register id policy maxMessages => exact c.call_acts _
  | enqueue id message =>
    cases message with
    | none => exact c.call_acts _
    | some b =>
      rw [act_enqueue]
      split
      · have does := (c.copied b).call_does (.enqueue id (some ⟨c.next, b.byteLength⟩))
        rw [view_copied h] at does
        exact .event _ rfl does
      · exact .quiet rfl rfl
  | dequeue id => exact .event _ rfl (c.call_does (.dequeue id))
  | peek id =>
    rw [act_peek]
    split
    · have still : Private (c.call (.peek id)).queue (c.call (.peek id)).next (c.call (.peek id)).held :=
        h.ran (ran (.peek id) c.queue) fun _ _ same => by cases same
      have does := c.call_does (.peek id)
      rw [← view_make still] at does
      exact .event _ rfl does
    · exact c.call_acts _
  | closeStream id => exact c.call_acts _
  | clear => exact c.call_acts _

theorem call_private (h : Private c.queue c.next c.held) {call : Call Buffer}
    (fresh : ∀ id b, call = .enqueue id (some b) → b.address = c.next) :
    Private (c.call call).queue (c.call call).next (c.call call).held := h.ran (ran call c.queue) fresh

theorem act_private (h : Private c.queue c.next c.held) (a : Act) : Private (c.act a).queue (c.act a).next (c.act a).held := by
  cases a with
  | make bytes => exact h.make rfl
  | write b bytes =>
    rw [act_write]
    split
    · exact h
    · exact h
  | register id policy maxMessages => exact call_private h fun _ _ same => by cases same
  | enqueue id message =>
    cases message with
    | none => exact call_private h fun _ _ same => by cases same
    | some b =>
      rw [act_enqueue]
      split
      · have copied : Private (c.copied b).queue (c.copied b).next (c.copied b).held := h
        refine call_private copied fun id' b' same => ?_
        obtain ⟨-, same⟩ := Call.enqueue.inj same
        rw [← Option.some.inj same]
        rfl
      · exact h
  | dequeue id =>
    have outcome := ran (.dequeue id) c.queue
    show Private (step c.queue (.dequeue id)) (c.next + 1) ((c.returned (.dequeue id)).toList ++ c.held)
    unfold returned
    split
    · next message taken =>
      rw [taken] at outcome
      cases message with
      | none => exact h.ran outcome fun _ _ same => by cases same
      | some b => exact h.hand outcome
    · exact h.ran outcome fun _ _ same => by cases same
  | peek id =>
    have still : Private (c.call (.peek id)).queue (c.call (.peek id)).next (c.call (.peek id)).held :=
      call_private h fun _ _ same => by cases same
    rw [act_peek]
    split
    · exact still.make rfl
    · exact still
  | closeStream id => exact call_private h fun _ _ same => by cases same
  | clear => exact call_private h fun _ _ same => by cases same

/-- The limits stay. -/
theorem act_options (c : Client) (a : Act) : (c.act a).queue.options = c.queue.options := by
  have call : ∀ (c : Client) (call : Call Buffer), (c.call call).queue.options = c.queue.options := fun c call =>
    ran_options (ran call c.queue)
  cases a with
  | make => rfl
  | write b bytes =>
    rw [act_write]
    split <;> rfl
  | enqueue id message =>
    cases message with
    | none => exact call _ _
    | some b =>
      rw [act_enqueue]
      split
      · exact call _ _
      · rfl
  | peek id =>
    rw [act_peek]
    split
    · exact call _ _
    · exact call _ _
  | register | dequeue | closeStream | clear => exact call _ _

/-- What holds between acts. -/
structure Sound (max : Nat) (c : Client) : Prop where
  limit : c.max = max
  secret : Private c.queue c.next c.held
  promise : Promise (Takes max) c.trace c.view

theorem Sound.act {max : Nat} (h : Sound max c) (a : Act) : Sound max (c.act a) := by
  refine ⟨?_, act_private h.secret a, ?_⟩
  · unfold Client.max
    rw [act_options]
    exact h.limit
  · cases act_acts h.secret a with
    | quiet trace view =>
      rw [trace, view]
      exact h.promise
    | event e trace does =>
      rw [h.limit] at does
      rw [trace]
      exact h.promise.step does

theorem start_sound {maxStreams maxBytes maxMessageBytes : Num} {q : DeliveryQueue Buffer}
    (made : create maxStreams maxBytes maxMessageBytes = .ok q) : Sound q.options.maxMessageBytes (start q) := by
  have empty : q.streams = .empty := by
    unfold create at made
    split at made
    · split at made
      · cases made
      · obtain rfl := Except.ok.inj made
        rfl
    · cases made
  have none : ∀ id s, q.streams.get? id = some s → False := by
    intro id s found
    rw [empty] at found
    cases found
  refine ⟨rfl, ⟨fun b mem => (by cases mem), fun id s found => (none id s found).elim, fun id s found => (none id s found).elim,
    fun id s found => (none id s found).elim, fun id id' s s' _ found => (none id s found).elim⟩, ?_⟩
  have nothing : (start q).view = fun _ => Option.none := by
    funext id
    unfold view DeliveryQueue.view start
    rw [empty]
    rfl
  rw [nothing]
  exact promise_nil

theorem run_sound {max : Nat} (h : Sound max c) (acts : List Act) : Sound max (acts.foldl act c) :=
  foldl_inv (fun _ a h => h.act a) h acts

/-- An event that was seen is one the streams may do. -/
theorem does_of_trace {max : Nat} (h : Sound max c) {a : Act} {e : Event (List UInt8)} (seen : (c.act a).trace = c.trace ++ [e]) :
    Does (Takes max) c.view e (c.act a).view := by
  cases act_acts h.secret a with
  | quiet trace =>
    have lengths := congrArg List.length (trace.symm.trans seen)
    rw [List.length_append] at lengths
    exact absurd lengths (by simp)
  | event e' trace does =>
    obtain rfl := List.singleton_injective (List.append_cancel_left (trace.symm.trans seen))
    rwa [← h.limit]

end Client

end RosBridge.Session.DeliveryQueue
