import RosBridge.Lib.Log
import RosBridge.Router.Streams
/-!
# Announcing

The control channel is a queue of its own. What `send` accepts of it is what was queued,
in that order; and before the first message of a stream goes to the data channels the peer
has been sent all that was queued for it, the response that names the stream included.
-/

namespace RosBridge.Router

open Lib Prog Session Config Relation CommandGuard

variable {η : Type} {allow : Allow} {w w' : World η} {k : Nat} {r r' : SessionRouter η} {stream : String}

/-! ## The control channel -/

/-- A control envelope that was queued. -/
def Mark.queuedOf : Mark η → Option Envelope
  | .queued envelope => some envelope
  | _ => none

/-- A control envelope that `send` accepted. -/
def Mark.sentOf : Mark η → Option Envelope
  | .handed .control envelope true => some envelope
  | _ => none

def queuedIn (trace : List (Mark η)) : List Envelope := trace.filterMap Mark.queuedOf

def sentIn (trace : List (Mark η)) : List Envelope := trace.filterMap Mark.sentOf

/-- What was sent on the control channel is what was queued first, and the rest waits. -/
structure SessionRouter.InOrder (r : SessionRouter η) : Prop where
  first : sentIn r.trace <+: queuedIn r.trace
  rest : ∀ s, r.queue.streams.get? "control" = some s → s.stopped = false →
    queuedIn r.trace = sentIn r.trace ++ s.messages.map (·.envelope)

/-- A mark that says nothing of the control channel. -/
structure Mark.Aside (m : Mark η) : Prop where
  queued : m.queuedOf = none
  sent : m.sentOf = none

theorem queuedIn_append (trace marks : List (Mark η)) : queuedIn (trace ++ marks) = queuedIn trace ++ queuedIn marks :=
  List.filterMap_append

theorem sentIn_append (trace marks : List (Mark η)) : sentIn (trace ++ marks) = sentIn trace ++ sentIn marks :=
  List.filterMap_append

/-- The trace grows by marks of other things, and the control queue is the same or gone. -/
theorem SessionRouter.InOrder.aside (h : r.InOrder) (marks : List (Mark η)) (trace : r'.trace = r.trace ++ marks)
    (aside : ∀ m ∈ marks, m.Aside)
    (streams : ∀ s, r'.queue.streams.get? "control" = some s → r.queue.streams.get? "control" = some s) : r'.InOrder := by
  have queued : queuedIn r'.trace = queuedIn r.trace := by
    rw [trace, queuedIn, filterMap_foreign fun m hm => (aside m hm).queued, queuedIn]
  have sent : sentIn r'.trace = sentIn r.trace := by
    rw [trace, sentIn, filterMap_foreign fun m hm => (aside m hm).sent, sentIn]
  refine ⟨?_, fun s found live => ?_⟩
  · rw [queued, sent]
    exact h.first
  · rw [queued, sent]
    exact h.rest s (streams s found) live

theorem Control.inOrder {bytes : Bytes} (c : Control r bytes r') (h : r.InOrder) : r'.InOrder := by
  cases c with
  | queued s q found live options streams =>
    have queued : queuedIn (r.trace ++ [.queued bytes.envelope]) = queuedIn r.trace ++ [bytes.envelope] := queuedIn_append _ _
    have sent : sentIn (r.trace ++ [Mark.queued bytes.envelope]) = sentIn r.trace := by simp [sentIn, Mark.sentOf]
    refine ⟨?_, fun s' here alive => ?_⟩
    · simp only [SessionRouter.marked, queued, sent]
      exact h.first.trans (List.prefix_append _ _)
    · have here : q.streams.get? "control" = some s' := here
      rw [streams, Table.get?_set_self] at here
      obtain rfl := Option.some.inj here
      simp only [SessionRouter.marked, queued, sent, h.rest s found live, List.map_append, List.append_assoc]
      rfl
  | jammed s q found live options streams =>
    refine ⟨h.first, fun s' here alive => ?_⟩
    have here : q.streams.get? "control" = some s' := here
    rw [streams, Table.get?_set_self] at here
    obtain rfl := Option.some.inj here
    cases alive
  | dead => exact h

theorem Announced.inOrder {numbers : NumberText} {envelope : Envelope} (a : Announced numbers allow r envelope r')
    (h : r.InOrder) : r'.InOrder := by
  cases a with
  | announced id input t _ cached storable now control =>
    exact control.inOrder (h.aside [.stored id input (encode numbers envelope) t] rfl
      (by simpa using ⟨rfl, rfl⟩) fun _ found => found)
  | large => exact h

theorem Move.inOrder {numbers : NumberText} {media : MediaService} (m : Move numbers allow media r r') (sane : r.Sane)
    (h : r.InOrder) : r'.InOrder := by
  cases m with
  | control bytes _ control => exact control.inOrder h
  | counted | ticked | issued | paced | advertised | unadvertised | expired | flagged | bound =>
    exact h.aside [] (List.append_nil _).symm (by simp) fun _ found => found
  | readied | unsubscribed | stored | detaching | admitted =>
    exact h.aside _ rfl (by simpa using ⟨rfl, rfl⟩) fun _ found => found
  | sampled id sub native data ok q found ready fits encoded stored options =>
    have other : "control" ≠ id := (sane.ne_control found).symm
    refine h.aside [.sampled id sub.seq native] rfl (by simpa using ⟨rfl, rfl⟩) fun s here => ?_
    have here : q.streams.get? "control" = some s := here
    cases stored with
    | stored _ _ _ _ streams => rwa [streams, Table.get?_set_ne _ _ other] at here
    | dropped _ _ _ _ _ streams => rwa [streams, Table.get?_set_ne _ _ other] at here

/-- The head of the control queue is given to `send`. -/
theorem SessionRouter.InOrder.handed (h : r.InOrder) {next : Bytes} {accepted : Bool} {q : DeliveryQueue Bytes}
    (sent : Sent r.queue "control" next accepted q) :
    ({ r with queue := q }.marked (.handed .control next.envelope accepted) : SessionRouter η).InOrder := by
  have queued : queuedIn (r.trace ++ [.handed .control next.envelope accepted]) = queuedIn r.trace := by
    simp [queuedIn, Mark.queuedOf]
  cases sent with
  | refused s rest found live head =>
    have sent : sentIn (r.trace ++ [.handed .control next.envelope false]) = sentIn r.trace := by simp [sentIn, Mark.sentOf]
    refine ⟨?_, fun s' here alive => ?_⟩
    · simp only [SessionRouter.marked, queued, sent]
      exact h.first
    · simp only [SessionRouter.marked, queued, sent]
      exact h.rest s' here alive
  | accepted s rest _ found live head options streams =>
    have sent : sentIn (r.trace ++ [.handed .control next.envelope true]) = sentIn r.trace ++ [next.envelope] := sentIn_append _ _
    have whole := h.rest s found live
    rw [head, List.map_cons, List.append_cons] at whole
    refine ⟨?_, fun s' here alive => ?_⟩
    · simp only [SessionRouter.marked, queued, sent, whole]
      exact List.prefix_append _ _
    · have here : q.streams.get? "control" = some s' := here
      rw [streams, Table.get?_set_self] at here
      obtain rfl := Option.some.inj here
      simp only [SessionRouter.marked, queued, sent]
      exact whole

theorem Turn.inOrder (t : Turn allow w k r) (sane : (w.routers k).Sane) (h : (w.routers k).InOrder) : r.InOrder := by
  cases t with
  | move _ move => exact move.inOrder sane h
  | advertised | unadvertised => exact h.aside [] (List.append_nil _).symm (by simp) fun _ found => found
  | published => exact h.aside _ rfl (by simpa using ⟨rfl, rfl⟩) fun _ found => found
  | subscribed entry requestId _ isOpen found free room announced =>
    refine announced.inOrder (h.aside [.opened (w.routers k).nextStream entry] rfl (by simpa using ⟨rfl, rfl⟩) fun s here => ?_)
    have other : "control" ≠ (w.routers k).nextStream := fun e => idText_ne_control _ _ e.symm
    simpa only [SessionRouter.subscribe, Table.get?_set_ne _ _ other] using here
  | removed id sub q found options streams =>
    refine h.aside [.lost id, .unsubscribing id] rfl (by simpa using ⟨⟨rfl, rfl⟩, rfl, rfl⟩) fun s here => ?_
    simpa only [SessionRouter.unsubscribe, streams, Table.get?_erase_ne _ (sane.ne_control found).symm] using here
  | spoiled id sub native q found ready fits options streams =>
    refine h.aside [.sampled id sub.seq native, .lost id, .unsubscribing id] ?_ ?_ fun s here => ?_
    · simp [SessionRouter.unsubscribe, SessionRouter.number]
    · simpa using ⟨⟨rfl, rfl⟩, ⟨rfl, rfl⟩, rfl, rfl⟩
    · simpa only [SessionRouter.unsubscribe, streams, Table.get?_erase_ne _ (sane.ne_control found).symm] using here
  | handedControl next accepted q sent => exact h.handed sent
  | handedData id sub next accepted q found isOpen idle sent =>
    refine h.aside [.handed (dataChannel sub.entry.binding.delivery) next.envelope accepted] rfl ?_ fun s here => ?_
    · intro m hm
      obtain rfl := List.mem_singleton.1 hm
      refine ⟨rfl, ?_⟩
      cases sub.entry.binding.delivery <;> rfl
    · have here : q.streams.get? "control" = some s := here
      rwa [sent.other (sane.ne_control found).symm] at here
  | finished isOpen =>
    refine h.aside _ rfl ?_ fun s here => by simp [SessionRouter.finished, DeliveryQueue.clear, Prog.after, exec_modify] at here
    intro m hm
    simp only [List.mem_append, List.mem_map, List.mem_singleton] at hm
    rcases hm with ((⟨_, -, rfl⟩ | ⟨_, -, rfl⟩) | ⟨_, -, rfl⟩) | rfl <;> exact ⟨rfl, rfl⟩
  | torn v f marks isOpen video torn less marked =>
    refine h.aside marks rfl (fun m hm => ?_) fun _ found => found
    obtain ⟨track, rfl⟩ := marked m hm
    exact ⟨rfl, rfl⟩

/-! ## What a turn does to the subscriptions -/

/-- A control stream that takes messages took them before. -/
theorem Control.live {bytes : Bytes} (c : Control r bytes r') (live : r'.Live "control") : r.Live "control" := by
  cases c with
  | queued s q found alive => exact ⟨s, found, alive⟩
  | jammed s q found alive => exact ⟨s, found, alive⟩
  | dead => exact live

theorem Announced.live {numbers : NumberText} {envelope : Envelope} (a : Announced numbers allow r envelope r')
    (live : r'.Live "control") : r.Live "control" := by
  cases a with
  | announced id input t _ cached storable now control => exact control.live live
  | large => exact live

theorem live_of_get? (same : r'.queue.streams.get? "control" = r.queue.streams.get? "control") (live : r'.Live "control") :
    r.Live "control" := by
  obtain ⟨s, found, alive⟩ := live
  exact ⟨s, same ▸ found, alive⟩

theorem Move.live {numbers : NumberText} {media : MediaService} (m : Move numbers allow media r r') (sane : r.Sane)
    (live : r'.Live "control") : r.Live "control" := by
  cases m with
  | control bytes _ control => exact control.live live
  | sampled id sub native data ok q found ready fits encoded stored options =>
    have other : "control" ≠ id := (sane.ne_control found).symm
    refine live_of_get? ?_ live
    cases stored with
    | stored _ _ _ _ streams => simp only [streams, Table.get?_set_ne _ _ other]
    | dropped _ _ _ _ _ streams => simp only [streams, Table.get?_set_ne _ _ other]
  | _ => exact live

theorem Turn.live (t : Turn allow w k r) (sane : (w.routers k).Sane) (live : r.Live "control") :
    (w.routers k).Live "control" := by
  cases t with
  | move _ move => exact move.live sane live
  | advertised | unadvertised | published | torn => exact live
  | subscribed entry requestId _ isOpen found free room announced =>
    have other : "control" ≠ (w.routers k).nextStream := fun e => idText_ne_control _ _ e.symm
    exact live_of_get? (Table.get?_set_ne _ _ other) (announced.live live)
  | removed id sub q found options streams =>
    refine live_of_get? ?_ live
    simp only [SessionRouter.unsubscribe, streams, Table.get?_erase_ne _ (sane.ne_control found).symm]
  | spoiled id sub native q found ready fits options streams =>
    refine live_of_get? ?_ live
    simp only [SessionRouter.unsubscribe, streams, Table.get?_erase_ne _ (sane.ne_control found).symm]
  | handedControl next accepted q sent =>
    cases sent with
    | refused => exact live
    | accepted s rest _ found alive => exact ⟨s, found, alive⟩
  | handedData id sub next accepted q found isOpen idle sent =>
    exact live_of_get? (sent.other (sane.ne_control found).symm) live
  | finished isOpen =>
    obtain ⟨s, found, -⟩ := live
    simp [SessionRouter.finished, DeliveryQueue.clear, Prog.after, exec_modify] at found

/-- Marks of a response. -/
def Mark.Reply : Mark η → Prop
  | .queued _ | .stored .. => True
  | _ => False

theorem Control.adds {bytes : Bytes} (c : Control r bytes r') : ∃ marks, r'.trace = r.trace ++ marks ∧ ∀ m ∈ marks, m.Reply := by
  cases c with
  | queued => exact ⟨[.queued bytes.envelope], rfl, by simp [Mark.Reply]⟩
  | jammed | dead => exact ⟨[], (List.append_nil _).symm, by simp⟩

theorem Announced.adds {numbers : NumberText} {envelope : Envelope} (a : Announced numbers allow r envelope r') :
    ∃ marks, r'.trace = r.trace ++ marks ∧ ∀ m ∈ marks, m.Reply := by
  cases a with
  | announced id input t _ cached storable now control =>
    obtain ⟨marks, trace, replies⟩ := control.adds
    refine ⟨.stored id input (encode numbers envelope) t :: marks, ?_, ?_⟩
    · rw [trace, SessionRouter.store, List.append_assoc]
      rfl
    · simpa [Mark.Reply] using replies
  | large => exact ⟨[], (List.append_nil _).symm, by simp⟩

/-- A stream that is lost was lost before, or it was in use and is not any more. -/
theorem Turn.lost (t : Turn allow w k r) (sane : (w.routers k).Sane) (lost : .lost stream ∈ r.trace) :
    .lost stream ∈ (w.routers k).trace ∨ (w.routers k).Issued stream ∧ r.subscriptions.get? stream = none := by
  have added : ∀ {before : List (Mark η)} {marks : List (Mark η)}, r.trace = before ++ marks → (∀ m ∈ marks, m.Reply) →
      .lost stream ∈ before := by
    intro before marks trace replies
    rw [trace] at lost
    exact (List.mem_append.1 lost).resolve_right fun new => (replies _ new).elim
  cases t with
  | move _ move =>
    cases move with
    | control bytes _ control =>
      obtain ⟨marks, trace, replies⟩ := control.adds
      exact .inl (added trace replies)
    | readied | sampled | unsubscribed | admitted | stored | detaching =>
      exact .inl (by simpa [SessionRouter.marked, SessionRouter.number, SessionRouter.store] using lost)
    | _ => exact .inl lost
  | advertised | unadvertised => exact .inl lost
  | published => exact .inl (by simpa [SessionRouter.marked] using lost)
  | subscribed entry requestId _ isOpen found free room announced =>
    obtain ⟨marks, trace, replies⟩ := announced.adds
    exact .inl (by simpa [SessionRouter.subscribe] using added trace replies)
  | removed id sub q found options streams =>
    have lost : .lost stream ∈ (w.routers k).trace ∨ stream = id := by simpa [SessionRouter.unsubscribe] using lost
    refine lost.imp_right ?_
    rintro rfl
    exact ⟨sane.issued stream sub found, by simp [SessionRouter.unsubscribe]⟩
  | spoiled id sub native q found ready fits options streams =>
    have lost : .lost stream ∈ (w.routers k).trace ∨ stream = id := by
      simpa [SessionRouter.unsubscribe, SessionRouter.number] using lost
    refine lost.imp_right ?_
    rintro rfl
    exact ⟨sane.issued stream sub found, by simp [SessionRouter.unsubscribe]⟩
  | handedControl | handedData => exact .inl (by simpa [SessionRouter.marked] using lost)
  | finished isOpen =>
    have lost : .lost stream ∈ (w.routers k).trace ∨ stream ∈ (w.routers k).subscriptions.keys := by
      simpa [SessionRouter.finished] using lost
    refine lost.imp_right fun key => ?_
    obtain ⟨sub, found⟩ := Table.mem_keys_iff.1 key
    exact ⟨sane.issued stream sub found, by simp [SessionRouter.finished]⟩
  | torn v f marks isOpen video torn less marked =>
    refine .inl ((List.mem_append.1 lost).resolve_right fun new => ?_)
    obtain ⟨track, e⟩ := marked _ new
    cases e

/-- A subscription that is ready was so before, or a `ready` for it has just been processed. -/
theorem Turn.ready (t : Turn allow w k r) {sub : Subscription η} (found : r.subscriptions.get? stream = some sub)
    (ready : sub.ready = true) :
    .readied stream ∈ r.trace ∨ ∃ sub₀, (w.routers k).subscriptions.get? stream = some sub₀ ∧ sub₀.ready = true := by
  have modified : ∀ {id : String} {f : Subscription η → Subscription η}, (∀ s, (f s).ready = s.ready) →
      ((w.routers k).subscriptions.modify id f).get? stream = some sub →
      ∃ sub₀, (w.routers k).subscriptions.get? stream = some sub₀ ∧ sub₀.ready = true := by
    intro id f same found
    rw [Table.get?_modify] at found
    split at found
    · next e =>
      obtain ⟨sub₀, h₀, rfl⟩ := Option.map_eq_some_iff.1 found
      exact ⟨sub₀, e ▸ h₀, same sub₀ ▸ ready⟩
    · exact ⟨sub, found, ready⟩
  cases t with
  | move _ move =>
    cases move with
    | control bytes _ control => exact .inr ⟨sub, control.subscriptions ▸ found, ready⟩
    | readied id sub' here =>
      have found : ((w.routers k).subscriptions.modify id _).get? stream = some sub := found
      rw [Table.get?_modify] at found
      split at found
      · next e => exact .inl (by simp [e])
      · exact .inr ⟨sub, found, ready⟩
    | paced id t => exact .inr (modified (by intro _; rfl) found)
    | sampled id sub' native data ok q here _ fits encoded stored options => exact .inr (modified (by intro _; rfl) found)
    | _ => exact .inr ⟨sub, found, ready⟩
  | subscribed entry requestId _ isOpen here free room announced =>
    simp only [announced.subscriptions, SessionRouter.subscribe, Table.get?_set] at found
    split at found
    · obtain rfl := Option.some.inj found
      cases ready
    · exact .inr ⟨sub, found, ready⟩
  | removed id sub' q here options streams =>
    simp only [SessionRouter.unsubscribe, Table.get?_erase] at found
    split at found
    · cases found
    · exact .inr ⟨sub, found, ready⟩
  | spoiled id sub' native q here _ fits options streams =>
    simp only [SessionRouter.unsubscribe, SessionRouter.number, Table.get?_erase] at found
    split at found
    · cases found
    · exact .inr (modified (by intro _; rfl) found)
  | finished => simp [SessionRouter.finished] at found
  | _ => exact .inr ⟨sub, found, ready⟩

/-! ## Introductions -/

/-- What precedes a message of a stream on a channel: the stream was opened on that channel,
its `ready` was processed, it was not lost, and all queued control envelopes were sent; if
every response to a subscribe fits, the one that names the stream is among them. -/
structure Introduction (announced : Prop) (epoch : String) (before : List (Mark η)) (channel : Channel) (stream : String) : Prop where
  opened : ∃ entry, .opened stream entry ∈ before ∧ channel = dataChannel entry.binding.delivery
  readied : .readied stream ∈ before
  kept : .lost stream ∉ before
  flushed : sentIn before = queuedIn before
  named : announced → ∃ id schemaId, .subscribed id stream epoch schemaId ∈ sentIn before

/-- What precedes an event of a stream. -/
def Preceded (announced : Prop) (epoch : String) (before : List (Mark η)) : Mark η → Prop
  | .opened stream _ => ∀ entry, .opened stream entry ∉ before
  | .readied stream => (∃ entry, .opened stream entry ∈ before) ∧ .lost stream ∉ before
  | .sampled stream _ _ => .readied stream ∈ before ∧ .lost stream ∉ before
  | .unsubscribed stream => .lost stream ∈ before
  | .handed channel envelope _ => ∀ stream, envelope.stream = some stream → Introduction announced epoch before channel stream
  | _ => True

/-- What is known of a subscription. -/
structure SessionRouter.Known (r : SessionRouter η) (announced : Prop) (stream : String) (sub : Subscription η) : Prop where
  opened : .opened stream sub.entry ∈ r.trace
  kept : .lost stream ∉ r.trace
  ready : sub.ready = true → .readied stream ∈ r.trace
  named : announced → r.Live "control" → ∃ id schemaId, .subscribed id stream r.epoch schemaId ∈ queuedIn r.trace

structure SessionRouter.Introduced (r : SessionRouter η) (announced : Prop) : Prop where
  preceded : Logged (Preceded announced r.epoch) r.trace
  lost : ∀ stream, .lost stream ∈ r.trace → r.Issued stream
  known : ∀ stream sub, r.subscriptions.get? stream = some sub → r.Known announced stream sub

theorem queuedIn_initial {trace trace' : List (Mark η)} (h : trace <+: trace') : queuedIn trace <+: queuedIn trace' := h.filterMap _

/-- A router remains introduced if its new marks are preceded by what they need. -/
theorem Turn.introduced {announced : Prop} (t : Turn allow w k r) (sane : (w.routers k).Sane) (fits : announced → ¬allow.large)
    (h : (w.routers k).Introduced announced) (preceded : Logged (Preceded announced r.epoch) r.trace) : r.Introduced announced := by
  have kept := t.kept
  refine ⟨preceded, fun stream lost => ?_, fun stream sub found => ?_⟩
  · rcases t.lost sane lost with old | ⟨issued, -⟩
    · exact (h.lost stream old).kept kept
    · exact issued.kept kept
  have kept' : (w.routers k).subscriptions.get? stream ≠ none ∨ stream = (w.routers k).nextStream → .lost stream ∉ r.trace := by
    intro known lost
    rcases t.lost sane lost with old | ⟨-, gone⟩
    · rcases known with old' | rfl
      · obtain ⟨sub₀, h₀⟩ := Option.ne_none_iff_exists'.1 old'
        exact (h.known stream sub₀ h₀).kept old
      · exact (w.routers k).not_issued_nextStream (h.lost _ old)
    · rw [gone] at found
      cases found
  rcases t.subscription found with ⟨sub₀, h₀, entry⟩ | ⟨isOpen, rfl, entry, requestId, rfl, announcing⟩
  · have known := h.known stream sub₀ h₀
    refine ⟨?_, kept' (.inl (by simp [h₀])), fun ready => ?_, fun all live => ?_⟩
    · rw [entry]
      exact t.trace.subset known.opened
    · rcases t.ready found ready with new | ⟨sub₁, h₁, old⟩
      · exact new
      · exact t.trace.subset ((h.known stream sub₁ h₁).ready old)
    · obtain ⟨id, schemaId, named⟩ := known.named all (t.live sane live)
      exact ⟨id, schemaId, kept.epoch ▸ (queuedIn_initial t.trace).subset named⟩
  · refine ⟨announcing.trace.subset (by simp [SessionRouter.subscribe]), kept' (.inr rfl), by simp, fun all live => ?_⟩
    cases announcing with
    | announced id input t _ cached storable now control =>
      refine ⟨requestId, entry.schemaId, ?_⟩
      cases control with
      | queued s q here alive => simp [queuedIn, SessionRouter.marked, SessionRouter.store, SessionRouter.subscribe, Mark.queuedOf, encode]
      | jammed s q here alive options streams =>
        obtain ⟨s', here', alive'⟩ := live
        simp [streams] at here'
        cases here' ▸ alive'
      | dead dead => exact absurd live dead
    | large large => exact absurd large (fits all)

theorem SessionRouter.Introduced.grows {announced : Prop} (h : r.Introduced announced) (epoch : r'.epoch = r.epoch)
    (marks : List (Mark η)) (trace : r'.trace = r.trace ++ marks)
    (new : Logged (fun before => Preceded announced r.epoch (r.trace ++ before)) marks) :
    Logged (Preceded announced r'.epoch) r'.trace := by
  rw [epoch, trace]
  exact h.preceded.append new

/-- Marks that need nothing before them. -/
def Mark.Free : Mark η → Prop
  | .opened .. | .readied .. | .sampled .. | .unsubscribed .. | .handed .. => False
  | _ => True

theorem Mark.Free.preceded {m : Mark η} (free : m.Free) (announced : Prop) (epoch : String) (before : List (Mark η)) :
    Preceded announced epoch before m := by
  cases m with
  | opened | readied | sampled | unsubscribed | handed => exact free.elim
  | _ => trivial

theorem Mark.Reply.free {m : Mark η} (reply : m.Reply) : m.Free := by
  cases m with
  | queued | stored => trivial
  | _ => exact reply.elim

theorem SessionRouter.Introduced.free {announced : Prop} (h : r.Introduced announced) (epoch : r'.epoch = r.epoch)
    (marks : List (Mark η)) (trace : r'.trace = r.trace ++ marks) (free : ∀ m ∈ marks, m.Free) :
    Logged (Preceded announced r'.epoch) r'.trace :=
  h.grows epoch marks trace (logged_of_forall fun _ m hm => (free m hm).preceded announced _ _)

/-- One mark that needs something before it. -/
theorem SessionRouter.Introduced.one {announced : Prop} (h : r.Introduced announced) (epoch : r'.epoch = r.epoch) (m : Mark η)
    (trace : r'.trace = r.trace ++ [m]) (new : Preceded announced r.epoch r.trace m) :
    Logged (Preceded announced r'.epoch) r'.trace := by
  refine h.grows epoch [m] trace (logged_singleton ?_)
  rwa [List.append_nil]

theorem Move.preceded {announced : Prop} {numbers : NumberText} {media : MediaService} (m : Move numbers allow media r r')
    (h : r.Introduced announced) : Logged (Preceded announced r'.epoch) r'.trace := by
  have epoch := m.kept.epoch
  cases m with
  | control bytes _ control =>
    obtain ⟨marks, trace, replies⟩ := control.adds
    exact h.free epoch marks trace fun m hm => (replies m hm).free
  | counted | ticked | issued | paced | advertised | unadvertised | expired | flagged | bound =>
    exact h.free epoch [] (List.append_nil _).symm (by simp)
  | stored | detaching | admitted => exact h.free epoch _ rfl (by simp [Mark.Free])
  | readied id sub found =>
    have known := h.known id sub found
    exact h.one epoch (.readied id) rfl ⟨⟨sub.entry, known.opened⟩, known.kept⟩
  | sampled id sub native data ok q found ready fits encoded stored options =>
    have known := h.known id sub found
    exact h.one epoch (.sampled id sub.seq native) rfl ⟨known.ready ready, known.kept⟩
  | unsubscribed id gone => exact h.one epoch (.unsubscribed id) rfl gone

/-- A message of a stream is introduced when it is given to `send`. -/
theorem SessionRouter.Introduced.handed {announced : Prop} (h : r.Introduced announced) (flows : r.Flows stream) (inOrder : r.InOrder)
    {sub : Subscription η} {next : Bytes} {accepted : Bool} {q : DeliveryQueue Bytes}
    (found : r.subscriptions.get? stream = some sub) (idle : r.Idle "control") (sent : Sent r.queue stream next accepted q) :
    Introduction announced r.epoch r.trace (dataChannel sub.entry.binding.delivery) stream := by
  have known := h.known stream sub found
  obtain ⟨s, control, live, empty⟩ := idle
  have flushed : queuedIn r.trace = sentIn r.trace := by
    rw [inOrder.rest s control live, empty, List.map_nil, List.append_nil]
  refine ⟨⟨sub.entry, known.opened, rfl⟩, ?_, known.kept, flushed.symm, fun all => ?_⟩
  · -- Only samples after a `ready` are queued.
    obtain ⟨seq, native, sampled⟩ := (flows.head found sent).2
    obtain ⟨before, first, ready, -⟩ := h.preceded.mem sampled
    exact first.subset ready
  · rw [← flushed]
    exact known.named all ⟨s, control, live⟩

theorem Turn.preceded {announced : Prop} (t : Turn allow w k r) (h : (w.routers k).Introduced announced)
    (flows : ∀ stream, (w.routers k).Flows stream) (unmixed : (w.routers k).Unmixed) (inOrder : (w.routers k).InOrder) :
    Logged (Preceded announced r.epoch) r.trace := by
  have epoch := t.kept.epoch
  cases t with
  | move _ move => exact move.preceded h
  | advertised | unadvertised => exact h.free epoch [] (List.append_nil _).symm (by simp)
  | published => exact h.free epoch _ rfl (by simp [Mark.Free])
  | subscribed entry requestId _ isOpen found free room announcing =>
    have unissued := (w.routers k).not_issued_nextStream
    obtain ⟨marks, trace, replies⟩ := announcing.adds
    refine h.grows epoch (.opened (w.routers k).nextStream entry :: marks) ?_ ?_
    · simp [trace, SessionRouter.subscribe]
    · rintro before m after e
      cases before with
      | nil =>
        obtain ⟨rfl, -⟩ := List.cons.inj e
        rw [List.append_nil]
        exact fun entry' old => unissued ((flows _).opened entry' old).1
      | cons m' before =>
        obtain ⟨-, rfl⟩ := List.cons.inj e
        exact (replies m (by simp)).free.preceded announced _ _
  | removed id sub q found options streams => exact h.free epoch [.lost id, .unsubscribing id] rfl (by simp [Mark.Free])
  | spoiled id sub native q found ready fits options streams =>
    have known := h.known id sub found
    refine h.grows epoch [.sampled id sub.seq native, .lost id, .unsubscribing id] ?_ ?_
    · simp [SessionRouter.unsubscribe, SessionRouter.number]
    · change Logged _ ([_] ++ [Mark.lost id, .unsubscribing id])
      refine (logged_singleton ?_).append (logged_of_forall fun before m hm => ?_)
      · rw [List.append_nil]
        exact ⟨known.ready ready, known.kept⟩
      · exact Mark.Free.preceded (by simp at hm; rcases hm with rfl | rfl <;> trivial) announced _ _
  | handedControl next accepted q sent =>
    refine h.one epoch (.handed .control next.envelope accepted) rfl fun stream named => ?_
    have plain : next.envelope.stream = none := by
      cases sent with
      | refused s rest found live head => exact unmixed s found next (by simp [head])
      | accepted s rest _ found live head => exact unmixed s found next (by simp [head])
    rw [plain] at named
    cases named
  | handedData id sub next accepted q found isOpen idle sent =>
    refine h.one epoch (.handed (dataChannel sub.entry.binding.delivery) next.envelope accepted) rfl fun stream named => ?_
    rw [((flows id).head found sent).1] at named
    obtain rfl := Option.some.inj named
    exact h.handed (flows id) inOrder found idle sent
  | finished isOpen =>
    refine h.free epoch _ rfl fun m hm => ?_
    simp only [List.mem_append, List.mem_map, List.mem_singleton] at hm
    rcases hm with ((⟨_, -, rfl⟩ | ⟨_, -, rfl⟩) | ⟨_, -, rfl⟩) | rfl <;> trivial
  | torn v f marks isOpen video torn less marked =>
    refine h.free epoch marks rfl fun m hm => ?_
    obtain ⟨track, rfl⟩ := marked m hm
    trivial

/-! ## Runs -/

/-- Router `k` announces its streams before it sends them. -/
structure Announcing (announced : Prop) (w : World η) (k : Nat) : Prop where
  flowing : Flowing w k
  traced : (w.routers k).Traced
  inOrder : (w.routers k).InOrder
  introduced : (w.routers k).Introduced announced

theorem Step.announcing {announced : Prop} (s : Step allow w w') (sane : w.Sane) (fits : announced → ¬allow.large)
    (h : Announcing announced w k) : Announcing announced w' k := by
  refine ⟨s.flowing sane h.flowing, ?_, ?_, ?_⟩ <;> rcases s.turn k with same | turn | born
  · exact same ▸ h.traced
  · exact turn.traced h.traced
  · exact ⟨by simp [born.fresh.subscriptions]⟩
  · exact same ▸ h.inOrder
  · exact turn.inOrder (sane.routers k) h.inOrder
  · refine ⟨by simp [born.fresh.trace, sentIn, queuedIn], fun s found _ => ?_⟩
    rw [born.fresh.streams, Table.get?_set_self] at found
    obtain rfl := Option.some.inj found
    simp [born.fresh.trace, sentIn, queuedIn]
  · exact same ▸ h.introduced
  · exact turn.introduced (sane.routers k) fits h.introduced
      (turn.preceded h.introduced h.flowing.flows h.flowing.unmixed h.inOrder)
  · refine ⟨?_, ?_, ?_⟩ <;> simp [born.fresh.trace, born.fresh.subscriptions, logged_nil]

theorem start_announcing (announced : Prop) (numbers : NumberText) (guard : CommandGuard) (media : MediaService) (k : Nat) :
    Announcing announced (World.start numbers guard media : World η) k := by
  refine ⟨start_flowing numbers guard media k, ⟨?_⟩, ⟨?_, ?_⟩, ⟨logged_nil, ?_, ?_⟩⟩ <;>
    simp [World.start, SessionRouter.vacant, sentIn, queuedIn]

theorem Preceded.mono {announced announced' : Prop} {epoch : String} {before : List (Mark η)} {m : Mark η}
    (h : Preceded announced epoch before m) (imp : announced' → announced) : Preceded announced' epoch before m := by
  cases m with
  | handed channel envelope accepted =>
    intro stream named
    obtain ⟨opened, readied, kept, flushed, named⟩ := h stream named
    exact ⟨opened, readied, kept, flushed, fun all => named (imp all)⟩
  | _ => exact h

/-- Every response to a subscribe fits all along a run. -/
abbrev WellFitting (w : World η) (inputs : List (Env η × Input η)) : Prop := Along World.step (fun w i => i.2.Fits w) w inputs

/-- In every run the control envelopes that `send` accepts are the ones queued first, in
order; samples are numbered only after the `ready` of their stream; and before a message of
a stream is given to `send` its stream was opened and readied, was not lost, and everything
queued for control was accepted, the response that names the stream among it unless a
response to a subscribe did not fit. -/
theorem streams_announced {prefixId : String} {maxSessions maxHandles leaseMs clock : Session.Num} {guard : CommandGuard}
    (created : create prefixId maxSessions maxHandles leaseMs clock = .ok guard) (numbers : NumberText) (media : MediaService)
    (inputs : List (Env η × Input η)) (k : Nat) :
    sentIn (((World.start numbers guard media).run inputs).routers k).trace <+:
        queuedIn (((World.start numbers guard media).run inputs).routers k).trace ∧
      Logged (Preceded (WellFitting (World.start numbers guard media) inputs)
          (((World.start numbers guard media).run inputs).routers k).epoch)
        (((World.start numbers guard media).run inputs).routers k).trace := by
  have sane : (World.start numbers guard media : World η).Sane := start_sane numbers media (create_handles created)
  have start := fun announced => start_announcing (η := η) announced numbers guard media k
  by_cases fitting : WellFitting (World.start numbers guard media) inputs
  · -- No response to a subscribe is too large.
    have goes : Goes ⟨False, True, True, True, True, True⟩ (World.start numbers guard media) _ :=
      run_goes trivial sane (fun i (_ : i ∈ inputs) => ⟨⟨.inl trivial, .inl trivial, .inl trivial⟩, fun _ _ => .inl trivial, trivial⟩)
        (.inr fitting)
    have announcing := goes.inv (P := fun w => Announcing True w k) (fun w w' sane h s => s.announcing sane (fun _ h => h) h) sane (start True)
    exact ⟨announcing.inOrder.first, announcing.introduced.preceded.mono fun _ _ _ h => h.mono fun _ => trivial⟩
  · have announcing := (run_goes_any sane inputs).inv (P := fun w => Announcing False w k)
      (fun w w' sane h s => s.announcing sane (fun h => h.elim) h) sane (start False)
    exact ⟨announcing.inOrder.first, announcing.introduced.preceded.mono fun _ _ _ h => h.mono fun all => fitting all⟩

/-- The responses to a subscribe to any topic of a router fit, as can be computed. -/
def Input.fitting (w : World η) : Input η → Bool
  | .receive k _ raw =>
    match parseWire raw (w.routers k).maxBytes with
    | .ok wire =>
      match requestId wire with
      | .ok (some id) => (w.routers k).entries.values.all fun entry => decide ((encode w.numbers
          (.subscribed id (w.routers k).nextStream (w.routers k).epoch entry.schemaId)).byteLength ≤ (w.routers k).maxBytes)
      | _ => true
    | .error _ => true
  | _ => true

theorem Input.fits_of_fitting {i : Input η} (h : i.fitting w = true) : i.Fits w := by
  cases i with
  | receive k label raw =>
    intro _ wire id parsed named _ entry _ found
    simp only [Input.fitting, parsed, named, List.all_eq_true, decide_eq_true_eq] at h
    exact h entry (Table.mem_values_iff.2 ⟨_, found⟩)
  | _ => trivial

def fittingRun : World η → List (Env η × Input η) → Bool
  | _, [] => true
  | w, i :: inputs => i.2.fitting w && fittingRun (w.step i) inputs

theorem wellFitting_of_fittingRun {inputs : List (Env η × Input η)} (h : fittingRun w inputs = true) : WellFitting w inputs := by
  induction inputs generalizing w with
  | nil => trivial
  | cons i inputs ih =>
    obtain ⟨first, rest⟩ : i.2.fitting w = true ∧ fittingRun (w.step i) inputs = true := by simpa [fittingRun] using h
    exact ⟨Input.fits_of_fitting first, ih rest⟩

/-- A mark that a message of a stream was accepted. -/
def Mark.sends (stream : String) : Mark η → Bool
  | .handed _ envelope true => envelope.stream == some stream
  | _ => false

theorem streams_announced_small :
    create "g" (some 2) (some 8) (some 250) (some 0) = .ok smallGuard ∧ WellFitting smallBridge smallVisit ∧
      ((smallBridge.run smallVisit).routers 0).trace.any (Mark.sends "g:1:1") = true ∧
      Logged (Preceded (WellFitting smallBridge smallVisit) ((smallBridge.run smallVisit).routers 0).epoch)
        ((smallBridge.run smallVisit).routers 0).trace := by
  have created : create "g" (some 2) (some 8) (some 250) (some 0) = .ok smallGuard := rfl
  have fitting : fittingRun smallBridge smallVisit = true := by decide +kernel
  exact ⟨created, wellFitting_of_fittingRun fitting, by decide +kernel, (streams_announced created plainNumbers noMedia smallVisit 0).2⟩

end RosBridge.Router
