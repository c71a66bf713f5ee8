import RosBridge.Session.QueueRuns
/-!
# What the streams of a queue promise

A queue as its user sees it: what each stream holds, with the room that is left for it
open. From the calls and their outcomes alone, a reliable stream is a FIFO until it
overflows, and a latest stream is a place for one value.
-/

namespace RosBridge.Session.DeliveryQueue

open Lib

variable {α : Type}

/-- A call and its outcome. -/
abbrev Event (α : Type) := Call α × Except String (Answer α)

/-- What every stream holds. -/
abbrev View (α : Type) := String → Option (Stream α)

/-! ## The abstract queue -/

/-- One event. Whether there is room for a message is left open. -/
inductive Does (sized : α → Prop) (v : View α) : Event α → View α → Prop where
  | unregistered (id policy : String) (maxMessages : Num) (e : String) : Does sized v (.register id policy maxMessages, .error e) v
  | registered (id policy : String) (maxMessages : Num) (p : Policy) (n : Nat) (named : policyNamed policy = some p)
      (absent : v id = none) :
      Does sized v (.register id policy maxMessages, .ok .done) (Function.update v id (some ⟨p, n, [], false⟩))
  | unknown (id : String) (call : Call α) (about : call.Uses id ∨ call = .closeStream id) (absent : v id = none) :
      Does sized v (call, .error "unknown_stream") v
  | dead (id : String) (call : Call α) (uses : call.Uses id) (s : Stream α) (found : v id = some s) (stopped : s.stopped = true) :
      Does sized v (call, .error "slow_consumer") v
  | size (id : String) (message : Option α) (s : Stream α) (found : v id = some s) (live : s.stopped = false)
      (bad : ∀ m, message = some m → ¬sized m) : Does sized v (.enqueue id message, .error "message_size") v
  | stored (id : String) (message : α) (s : Stream α) (found : v id = some s) (live : s.stopped = false)
      (fits : sized message) : Does sized v (.enqueue id (some message), .ok (.stored true))
        (Function.update v id (some { s with messages := kept s ++ [message] }))
  | dropped (id : String) (message : α) (s : Stream α) (found : v id = some s) (live : s.stopped = false)
      (fits : sized message) (latest : s.policy = .latest) : Does sized v (.enqueue id (some message), .ok (.stored false))
        (Function.update v id (some { s with messages := [] }))
  | overflow (id : String) (message : α) (s : Stream α) (found : v id = some s) (live : s.stopped = false)
      (fits : sized message) (reliable : s.policy = .reliable) :
      Does sized v (.enqueue id (some message), .error "slow_consumer")
        (Function.update v id (some { s with messages := [], stopped := true }))
  | nothing (id : String) (s : Stream α) (found : v id = some s) (live : s.stopped = false) (empty : s.messages = []) :
      Does sized v (.dequeue id, .ok (.message none)) v
  | dequeued (id : String) (s : Stream α) (message : α) (messages : List α) (found : v id = some s) (live : s.stopped = false)
      (head : s.messages = message :: messages) : Does sized v (.dequeue id, .ok (.message (some message)))
        (Function.update v id (some { s with messages := messages }))
  | peeked (id : String) (s : Stream α) (found : v id = some s) (live : s.stopped = false) :
      Does sized v (.peek id, .ok (.message s.messages.head?)) v
  | closed (id : String) (s : Stream α) (found : v id = some s) :
      Does sized v (.closeStream id, .ok .done) (Function.update v id none)
  | cleared : Does sized v (.clear, .ok .done) fun _ => none

/-- The stream that a call is about. -/
def Call.target : Call α → Option String
  | .register id _ _ | .enqueue id _ | .dequeue id | .peek id | .closeStream id => some id
  | .clear => none

theorem Call.Uses.target {call : Call α} {id : String} (h : call.Uses id) : call.target = some id := by
  cases h <;> rfl

variable {sized : α → Prop} {v v' : View α} {e : Event α}

/-- A call on one stream leaves the others alone. -/
theorem Does.other (h : Does sized v e v') {id id' : String} (target : e.1.target = some id) (apart : id' ≠ id) : v' id' = v id' := by
  cases h with
  | unregistered | unknown | dead | size | nothing | peeked => rfl
  | registered | stored | dropped | overflow | dequeued | closed =>
    obtain rfl := Option.some.inj target
    exact Function.update_of_ne apart _ _
  | cleared => cases target

/-- Peeking changes nothing, and taking out returns what was seen. -/
theorem Does.peek_dequeue {id : String} {r : Option α} (peeked : Does sized v (.peek id, .ok (.message r)) v')
    {r' : Except String (Answer α)} {v'' : View α} (dequeued : Does sized v' (.dequeue id, r') v'') : r' = .ok (.message r) := by
  cases peeked with
  | peeked _ s found live =>
    cases dequeued with
    | unknown _ _ about absent =>
      rcases about with uses | same
      · have target := uses.target
        obtain rfl := Option.some.inj target
        rw [found] at absent
        cases absent
      · cases same
    | dead _ _ uses s' found' stopped =>
      obtain rfl := Option.some.inj uses.target
      obtain rfl := Option.some.inj (found.symm.trans found')
      exact Bool.noConfusion (live.symm.trans stopped)
    | nothing _ s' found' _ empty =>
      obtain rfl := Option.some.inj (found.symm.trans found')
      rw [empty]
      rfl
    | dequeued _ s' message messages found' _ head =>
      obtain rfl := Option.some.inj (found.symm.trans found')
      rw [head]
      rfl

/-! ## What a user sees -/

/-- A successful registration or the end of a stream. -/
def renews (id : String) : Event α → Bool
  | (.register id' _ _, .ok _) => id' = id
  | (.closeStream id', .ok _) => id' = id
  | (.clear, _) => true
  | _ => false

/-- The policy of a stream, as it was registered. -/
def policyOf (id : String) (trace : List (Event α)) : Option Policy :=
  trace.foldl (fun p e => if renews id e then (match e.1 with | .register _ policy _ => policyNamed policy | _ => none) else p) none

/-- The events since a stream was registered. -/
def since (id : String) (trace : List (Event α)) : List (Event α) :=
  trace.foldl (fun es e => if renews id e then [] else es ++ [e]) []

/-- The value that `enqueue` accepted. -/
def accepts (id : String) : Event α → Option α
  | (.enqueue id' (some message), .ok (.stored true)) => if id' = id then some message else none
  | _ => none

/-- The value that `dequeue` returned. -/
def returns (id : String) : Event α → Option α
  | (.dequeue id', .ok (.message message)) => if id' = id then message else none
  | _ => none

/-- The values accepted for a stream since it was registered. -/
def accepted (id : String) (trace : List (Event α)) : List α := (since id trace).filterMap (accepts id)

/-- The values taken out of a stream since it was registered. -/
def dequeued (id : String) (trace : List (Event α)) : List α := (since id trace).filterMap (returns id)

/-- An `enqueue` that failed because the stream is too slow. -/
def Overflow (id : String) (e : Event α) : Prop := ∃ message, e = (.enqueue id message, .error "slow_consumer")

/-- The stream has overflowed since it was registered. -/
def Overflowed (id : String) (trace : List (Event α)) : Prop := ∃ e ∈ since id trace, Overflow id e

/-- An `enqueue` of a message of a size that is taken. -/
def Offer (sized : α → Prop) (id : String) (e : Event α) : Prop := ∃ message, e.1 = .enqueue id (some message) ∧ sized message

/-- The value was accepted, and none has been offered since. -/
def Standing (sized : α → Prop) (id : String) (message : α) (trace : List (Event α)) : Prop :=
  ∃ before after, trace = before ++ (.enqueue id (some message), .ok (.stored true)) :: after ∧ ∀ e ∈ after, ¬Offer sized id e

section Snoc

variable (id : String) (trace : List (Event α)) (e : Event α)

theorem policyOf_snoc : policyOf id (trace ++ [e]) =
    if renews id e then (match e.1 with | .register _ policy _ => policyNamed policy | _ => none) else policyOf id trace := by
  unfold policyOf
  rw [List.foldl_append]
  rfl

theorem since_snoc : since id (trace ++ [e]) = if renews id e then [] else since id trace ++ [e] := by
  unfold since
  rw [List.foldl_append]
  rfl

variable {id trace e}

theorem accepted_snoc (still : renews id e = false) : accepted id (trace ++ [e]) = accepted id trace ++ (accepts id e).toList := by
  unfold accepted
  rw [since_snoc, still, if_neg Bool.false_ne_true, List.filterMap_append]
  cases h : accepts id e <;> simp [h]

theorem dequeued_snoc (still : renews id e = false) : dequeued id (trace ++ [e]) = dequeued id trace ++ (returns id e).toList := by
  unfold dequeued
  rw [since_snoc, still, if_neg Bool.false_ne_true, List.filterMap_append]
  cases h : returns id e <;> simp [h]

theorem overflowed_snoc (still : renews id e = false) : Overflowed id (trace ++ [e]) ↔ Overflowed id trace ∨ Overflow id e := by
  unfold Overflowed
  rw [since_snoc, still, if_neg Bool.false_ne_true]
  simp only [List.mem_append, List.mem_singleton]
  constructor
  · rintro ⟨e', mem | rfl, overflow⟩
    · exact .inl ⟨e', mem, overflow⟩
    · exact .inr overflow
  · rintro (⟨e', mem, overflow⟩ | overflow)
    · exact ⟨e', .inl mem, overflow⟩
    · exact ⟨e, .inr rfl, overflow⟩

theorem Standing.snoc {message : α} (h : Standing sized id message trace) (silent : ¬Offer sized id e) :
    Standing sized id message (trace ++ [e]) := by
  obtain ⟨before, after, rfl, none⟩ := h
  refine ⟨before, after ++ [e], by simp, fun e' mem => ?_⟩
  rcases List.mem_append.1 mem with old | new
  · exact none e' old
  · rw [List.mem_singleton.1 new]
    exact silent

end Snoc

/-! ## The promises -/

/-- What a stream holds, against what was seen of it. -/
structure Keeps (sized : α → Prop) (id : String) (trace : List (Event α)) (s : Stream α) : Prop where
  policy : policyOf id trace = some s.policy
  fifo : s.policy = .reliable → s.stopped = false → accepted id trace = dequeued id trace ++ s.messages
  ordered : s.policy = .reliable → dequeued id trace <+: accepted id trace
  silent : Overflowed id trace → s.stopped = true
  live : s.policy = .latest → s.stopped = false
  standing : s.policy = .latest → ∀ message ∈ s.messages, Standing sized id message trace

/-- All streams. -/
structure Promise (sized : α → Prop) (trace : List (Event α)) (v : View α) : Prop where
  keeps : ∀ id s, v id = some s → Keeps sized id trace s
  absent : ∀ id, v id = none → policyOf id trace = none

variable {id : String} {trace : List (Event α)} {s : Stream α}

/-- An event that neither stores nor takes out. -/
theorem Keeps.pass (h : Keeps sized id trace s) (still : renews id e = false) (stores : accepts id e = none)
    (takes : returns id e = none) (overflow : Overflow id e → s.stopped = true) (offer : s.policy = .latest → ¬Offer sized id e) :
    Keeps sized id (trace ++ [e]) s := by
  have here : accepted id (trace ++ [e]) = accepted id trace := by
    rw [accepted_snoc still, stores]
    exact List.append_nil _
  have gone : dequeued id (trace ++ [e]) = dequeued id trace := by
    rw [dequeued_snoc still, takes]
    exact List.append_nil _
  constructor
  · rw [policyOf_snoc, still, if_neg Bool.false_ne_true]
    exact h.policy
  · rw [here, gone]
    exact h.fifo
  · rw [here, gone]
    exact h.ordered
  · rw [overflowed_snoc still]
    rintro (before | now)
    · exact h.silent before
    · exact overflow now
  · exact h.live
  · intro latest message mem
    exact (h.standing latest message mem).snoc (offer latest)

theorem renews_other {id' : String} (target : e.1.target = some id') (apart : id ≠ id') : renews id e = false := by
  have differ : ∀ id'', e.1.target = some id'' → ¬id'' = id := by
    rintro id'' named rfl
    exact apart (Option.some.inj (named.symm.trans target))
  unfold renews
  split
  · exact decide_eq_false (differ _ rfl)
  · exact decide_eq_false (differ _ rfl)
  · cases target
  · rfl

/-- A call on another stream. -/
theorem Keeps.other (h : Keeps sized id trace s) {id' : String} (target : e.1.target = some id') (apart : id ≠ id') :
    Keeps sized id (trace ++ [e]) s := by
  have differ : ∀ id'', e.1.target = some id'' → ¬id'' = id := by
    rintro id'' named rfl
    exact apart (Option.some.inj (named.symm.trans target))
  have offer : ¬Offer sized id e := by
    rintro ⟨message, same, -⟩
    exact differ id (congrArg Call.target same) rfl
  have overflow : ¬Overflow id e := by
    rintro ⟨message, rfl⟩
    exact differ id rfl rfl
  refine h.pass (renews_other target apart) ?_ ?_ (fun now => absurd now overflow) fun _ => offer
  · unfold accepts
    split
    · exact if_neg (differ _ rfl)
    · rfl
  · unfold returns
    split
    · exact if_neg (differ _ rfl)
    · rfl

/-- A new stream. -/
theorem keeps_registered {id policy : String} {p : Policy} (named : policyNamed policy = some p) (maxMessages : Num) (n : Nat)
    (trace : List (Event α)) : Keeps sized id (trace ++ [(.register id policy maxMessages, .ok .done)]) ⟨p, n, [], false⟩ := by
  have renewed : renews id ((.register id policy maxMessages, .ok .done) : Event α) = true := decide_eq_true rfl
  have nothing : since id (trace ++ [(.register id policy maxMessages, .ok .done)]) = [] := by
    rw [since_snoc, renewed, if_pos rfl]
  constructor
  · rw [policyOf_snoc, renewed, if_pos rfl]
    exact named
  · intro _ _
    unfold accepted dequeued
    rw [nothing]
    rfl
  · intro _
    unfold accepted dequeued
    rw [nothing]
    exact List.nil_prefix
  · rintro ⟨e, mem, -⟩
    rw [nothing] at mem
    cases mem
  · intro _
    rfl
  · intro _ message mem
    cases mem

/-- An accepted message. -/
theorem Keeps.stored (h : Keeps sized id trace s) (message : α) :
    Keeps sized id (trace ++ [(.enqueue id (some message), .ok (.stored true))]) { s with messages := kept s ++ [message] } := by
  have one : accepts id ((.enqueue id (some message), .ok (.stored true)) : Event α) = some message := if_pos rfl
  have here : accepted id (trace ++ [(.enqueue id (some message), .ok (.stored true))]) = accepted id trace ++ [message] := by
    rw [accepted_snoc rfl, one]
    rfl
  have gone : dequeued id (trace ++ [(.enqueue id (some message), .ok (.stored true))]) = dequeued id trace := by
    rw [dequeued_snoc rfl]
    exact List.append_nil _
  constructor
  · rw [policyOf_snoc]
    exact h.policy
  · intro reliable still
    have rest : kept s = s.messages := if_neg fun latest => by cases reliable.symm.trans latest
    rw [here, gone, h.fifo reliable still, List.append_assoc, rest]
  · intro reliable
    rw [here, gone]
    exact (h.ordered reliable).trans (List.prefix_append _ _)
  · rw [overflowed_snoc rfl]
    rintro (before | ⟨_, same⟩)
    · exact h.silent before
    · cases same
  · exact h.live
  · intro latest m mem
    have none : kept s = [] := if_pos latest
    rw [none] at mem
    obtain rfl := List.mem_singleton.1 mem
    exact ⟨trace, [], rfl, fun e mem => by cases mem⟩

/-- A latest value without room. -/
theorem Keeps.dropped (h : Keeps sized id trace s) (latest : s.policy = .latest) (message : α) :
    Keeps sized id (trace ++ [(.enqueue id (some message), .ok (.stored false))]) { s with messages := [] } := by
  have empty : Keeps sized id trace { s with messages := [] } := by
    refine ⟨h.policy, fun reliable => ?_, h.ordered, h.silent, h.live, fun _ m mem => by cases mem⟩
    cases reliable.symm.trans latest
  constructor
  · rw [policyOf_snoc]
    exact h.policy
  · intro reliable
    cases reliable.symm.trans latest
  · intro reliable
    cases reliable.symm.trans latest
  · rw [overflowed_snoc rfl]
    rintro (before | ⟨_, same⟩)
    · exact h.silent before
    · cases same
  · exact h.live
  · intro _ m mem
    cases mem

/-- A reliable stream that overflows. -/
theorem Keeps.overflow (h : Keeps sized id trace s) (reliable : s.policy = .reliable) (message : α) :
    Keeps sized id (trace ++ [(.enqueue id (some message), .error "slow_consumer")])
      { s with messages := [], stopped := true } := by
  constructor
  · rw [policyOf_snoc]
    exact h.policy
  · intro _ live
    cases live
  · intro _
    rw [accepted_snoc rfl, dequeued_snoc rfl]
    show DeliveryQueue.dequeued id trace ++ [] <+: accepted id trace ++ []
    rw [List.append_nil, List.append_nil]
    exact h.ordered reliable
  · intro _
    rfl
  · intro latest
    cases reliable.symm.trans latest
  · intro latest
    cases reliable.symm.trans latest

/-- The head is taken out. -/
theorem Keeps.dequeued (h : Keeps sized id trace s) (live : s.stopped = false) {message : α} {messages : List α}
    (head : s.messages = message :: messages) :
    Keeps sized id (trace ++ [(.dequeue id, .ok (.message (some message)))]) { s with messages := messages } := by
  have one : returns id ((.dequeue id, .ok (.message (some message))) : Event α) = some message := if_pos rfl
  have gone : DeliveryQueue.dequeued id (trace ++ [(.dequeue id, .ok (.message (some message)))]) =
      DeliveryQueue.dequeued id trace ++ [message] := by
    rw [dequeued_snoc rfl, one]
    rfl
  have here : accepted id (trace ++ [(.dequeue id, .ok (.message (some message)))]) = accepted id trace := by
    rw [accepted_snoc rfl]
    exact List.append_nil _
  have split : s.policy = .reliable → accepted id trace = DeliveryQueue.dequeued id trace ++ [message] ++ messages := by
    intro reliable
    rw [h.fifo reliable live, head, List.append_assoc]
    rfl
  constructor
  · rw [policyOf_snoc]
    exact h.policy
  · intro reliable _
    rw [here, gone]
    exact split reliable
  · intro reliable
    rw [here, gone, split reliable]
    exact List.prefix_append _ _
  · rw [overflowed_snoc rfl]
    rintro (before | ⟨_, same⟩)
    · exact h.silent before
    · cases same
  · exact h.live
  · intro latest m mem
    have before := h.standing latest m (head ▸ List.mem_cons_of_mem _ mem)
    refine before.snoc ?_
    rintro ⟨_, same, -⟩
    cases same

/-- An event on one stream. -/
theorem Promise.update (h : Promise sized trace v) (target : e.1.target = some id) (next : Option (Stream α))
    (keeps : ∀ s, next = some s → Keeps sized id (trace ++ [e]) s)
    (absent : next = none → policyOf id (trace ++ [e]) = none) : Promise sized (trace ++ [e]) (Function.update v id next) := by
  constructor
  · intro id' s found
    by_cases own : id' = id
    · subst own
      rw [Function.update_self] at found
      exact keeps s found
    · rw [Function.update_of_ne own] at found
      exact (h.keeps id' s found).other target own
  · intro id' none
    by_cases own : id' = id
    · subst own
      rw [Function.update_self] at none
      exact absent none
    · rw [Function.update_of_ne own] at none
      rw [policyOf_snoc, renews_other target own, if_neg Bool.false_ne_true]
      exact h.absent id' none

/-- An event that leaves its stream alone. -/
theorem Promise.pass (h : Promise sized trace v) (target : e.1.target = some id) (still : renews id e = false)
    (stores : accepts id e = none) (takes : returns id e = none)
    (overflow : ∀ s, v id = some s → Overflow id e → s.stopped = true)
    (offer : ∀ s, v id = some s → s.policy = .latest → ¬Offer sized id e) : Promise sized (trace ++ [e]) v := by
  have whole := h.update target (v id) (fun s found => (h.keeps id s found).pass still stores takes (overflow s found)
    (offer s found)) ?_
  · rwa [Function.update_eq_self] at whole
  · intro none
    rw [policyOf_snoc, still, if_neg Bool.false_ne_true]
    exact h.absent id none

/-- A call that failed. -/
theorem Promise.failed (h : Promise sized trace v) {call : Call α} {error : String} (target : call.target = some id)
    (overflow : ∀ s, v id = some s → Overflow id (call, .error error) → s.stopped = true)
    (offer : ∀ s, v id = some s → s.policy = .latest → ¬Offer sized id (call, .error error)) :
    Promise sized (trace ++ [(call, .error error)]) v := by
  refine h.pass target ?_ ?_ ?_ overflow offer
  · cases call with
    | clear => cases target
    | _ => rfl
  · unfold accepts
    split
    · next same => cases same
    · rfl
  · unfold returns
    split
    · next same => cases same
    · rfl

/-- Every event keeps the promises. -/
theorem Promise.step (h : Promise sized trace v) (does : Does sized v e v') : Promise sized (trace ++ [e]) v' := by
  cases does with
  | unregistered id policy maxMessages error =>
    refine h.failed rfl (fun s found => ?_) fun s found latest => ?_
    · rintro ⟨message, same⟩
      cases same
    · rintro ⟨message, same, -⟩
      cases same
  | registered id policy maxMessages p n named absent =>
    refine h.update rfl _ (fun s same => ?_) fun none => by cases none
    obtain rfl := Option.some.inj same
    exact keeps_registered named maxMessages n trace
  | unknown id call about absent =>
    have target : call.target = some id := by
      rcases about with uses | rfl
      · exact uses.target
      · rfl
    refine h.failed target (fun s found => ?_) fun s found => ?_
    · cases absent.symm.trans found
    · cases absent.symm.trans found
  | dead id call uses s found stopped =>
    refine h.failed uses.target (fun s' found' _ => ?_) fun s' found' latest => ?_
    · exact Option.some.inj (found.symm.trans found') ▸ stopped
    · have live := (h.keeps id s' found').live latest
      rw [← Option.some.inj (found.symm.trans found'), stopped] at live
      cases live
  | size id message s found live bad =>
    refine h.failed rfl (fun s' found' => ?_) fun s' found' latest => ?_
    · rintro ⟨_, same⟩
      have texts := Except.error.inj (Prod.mk.inj same).2
      exact absurd texts (by decide)
    · rintro ⟨m, same, fits⟩
      obtain ⟨-, rfl⟩ := Call.enqueue.inj same
      exact bad m rfl fits
  | stored id message s found live fits =>
    refine h.update rfl _ (fun s' same => ?_) fun none => by cases none
    obtain rfl := Option.some.inj same
    exact (h.keeps id s found).stored message
  | dropped id message s found live fits latest =>
    refine h.update rfl _ (fun s' same => ?_) fun none => by cases none
    obtain rfl := Option.some.inj same
    exact (h.keeps id s found).dropped latest message
  | overflow id message s found live fits reliable =>
    refine h.update rfl _ (fun s' same => ?_) fun none => by cases none
    obtain rfl := Option.some.inj same
    exact (h.keeps id s found).overflow reliable message
  | nothing id s found live empty =>
    refine h.pass rfl rfl rfl (if_pos rfl) (fun s' found' => ?_) fun s' found' latest => ?_
    · rintro ⟨_, same⟩
      cases same
    · rintro ⟨_, same, -⟩
      cases same
  | dequeued id s message messages found live head =>
    refine h.update rfl _ (fun s' same => ?_) fun none => by cases none
    obtain rfl := Option.some.inj same
    exact (h.keeps id s found).dequeued live head
  | peeked id s found live =>
    refine h.pass rfl rfl rfl rfl (fun s' found' => ?_) fun s' found' latest => ?_
    · rintro ⟨_, same⟩
      cases same
    · rintro ⟨_, same, -⟩
      cases same
  | closed id s found =>
    refine h.update rfl none (fun s' same => by cases same) fun _ => ?_
    have renewed : renews id ((.closeStream id, .ok .done) : Event α) = true := decide_eq_true rfl
    rw [policyOf_snoc, renewed, if_pos rfl]
  | cleared =>
    refine ⟨fun id s (found : none = some s) => (by cases found), fun id _ => ?_⟩
    rw [policyOf_snoc]
    rfl

theorem promise_nil : Promise sized [] (fun _ => none) :=
  ⟨fun _ s (found : none = some s) => (by cases found), fun _ _ => rfl⟩

/-! ## What follows for the next event -/

/-- A stream that overflowed fails until it is registered anew. -/
theorem Promise.slow (h : Promise sized trace v) (overflowed : Overflowed id trace) (reliable : policyOf id trace = some .reliable)
    (uses : e.1.Uses id) (does : Does sized v e v') : e.2 = .error "slow_consumer" := by
  have here : ∃ s, v id = some s ∧ s.stopped = true := by
    cases found : v id with
    | none => cases (h.absent id found).symm.trans reliable
    | some s => exact ⟨s, rfl, (h.keeps id s found).silent overflowed⟩
  obtain ⟨s, found, stopped⟩ := here
  have dead : ∀ {id' : String} {s' : Stream α}, e.1.target = some id' → v id' = some s' → s'.stopped = false → False := by
    intro id' s' target found' live
    obtain rfl := Option.some.inj (uses.target.symm.trans target)
    obtain rfl := Option.some.inj (found.symm.trans found')
    exact Bool.noConfusion (live.symm.trans stopped)
  cases does with
  | dead | overflow => rfl
  | unregistered | registered | closed | cleared => cases uses
  | unknown id' call about absent =>
    have target : call.target = some id' := by
      rcases about with uses | rfl
      · exact uses.target
      · rfl
    obtain rfl := Option.some.inj (uses.target.symm.trans target)
    cases found.symm.trans absent
  | size _ _ _ found' live | stored _ _ _ found' live | dropped _ _ _ found' live | nothing _ _ found' live
  | dequeued _ _ _ _ found' live | peeked _ _ found' live => exact (dead rfl found' live).elim

/-- What is read of a latest stream stands. -/
theorem Promise.read (h : Promise sized trace v) (latest : policyOf id trace = some .latest) {message : α}
    (reads : e.1 = .dequeue id ∨ e.1 = .peek id) (ok : e.2 = .ok (.message (some message))) (does : Does sized v e v') :
    Standing sized id message trace := by
  have standing : ∀ s, v id = some s → message ∈ s.messages → Standing sized id message trace := by
    intro s found mem
    have keeps := h.keeps id s found
    exact keeps.standing (Option.some.inj (keeps.policy.symm.trans latest)) message mem
  cases does with
  | dequeued id' s m messages found live head =>
    obtain rfl : id' = id := by
      rcases reads with same | same
      · exact Call.dequeue.inj same
      · cases same
    obtain rfl : m = message := Option.some.inj (Answer.message.inj (Except.ok.inj ok))
    exact standing s found (head ▸ List.mem_cons_self)
  | peeked id' s found live =>
    obtain rfl : id' = id := by
      rcases reads with same | same
      · cases same
      · exact Call.peek.inj same
    have head := Answer.message.inj (Except.ok.inj ok)
    exact standing s found (List.mem_of_head? head)
  | unregistered | registered | unknown | dead | size | stored | dropped | overflow | nothing | closed | cleared => cases ok

/-- What is read of a reliable stream is the first accepted value that was not taken out. -/
theorem Promise.first (h : Promise sized trace v) (reliable : policyOf id trace = some .reliable) {message : Option α}
    (reads : e.1 = .dequeue id ∨ e.1 = .peek id) (ok : e.2 = .ok (.message message)) (does : Does sized v e v') :
    message = ((accepted id trace).drop (dequeued id trace).length).head? := by
  have first : ∀ s, v id = some s → s.stopped = false →
      s.messages.head? = ((accepted id trace).drop (dequeued id trace).length).head? := by
    intro s found live
    have keeps := h.keeps id s found
    rw [keeps.fifo (Option.some.inj (keeps.policy.symm.trans reliable)) live, List.drop_left]
  cases does with
  | nothing id' s found live empty =>
    obtain rfl : id' = id := by
      rcases reads with same | same
      · exact Call.dequeue.inj same
      · cases same
    rw [← first s found live, empty, ← Answer.message.inj (Except.ok.inj ok)]
    rfl
  | dequeued id' s m messages found live head =>
    obtain rfl : id' = id := by
      rcases reads with same | same
      · exact Call.dequeue.inj same
      · cases same
    rw [← first s found live, head, ← Answer.message.inj (Except.ok.inj ok)]
    rfl
  | peeked id' s found live =>
    obtain rfl : id' = id := by
      rcases reads with same | same
      · cases same
      · exact Call.peek.inj same
    rw [← first s found live]
    exact (Answer.message.inj (Except.ok.inj ok)).symm
  | unregistered | registered | unknown | dead | size | stored | dropped | overflow | closed | cleared => cases ok

end RosBridge.Session.DeliveryQueue
