import RosBridge.Lib.Conveyance
import RosBridge.Router.Inputs
import RosBridge.Router.Turns
/-!
# Streams

What a peer gets of a stream: the messages that `send` accepts are those of the stream's
samples, in the order of their numbers. Of a reliable stream they are the first ones, so
that a loss ends the stream and is never a gap in it.
-/

namespace RosBridge.Router

open Lib Prog Session Config Relation CommandGuard

variable {η : Type} {allow : Allow} {w w' : World η} {k : Nat} {r r' : SessionRouter η} {stream : String}

/-- The sample of a stream that a mark numbers. -/
def Mark.sampleOf (stream : String) : Mark η → Option (Nat × η)
  | .sampled s seq native => if s = stream then some (seq, native) else none
  | _ => none

/-- The message of a stream that `send` accepted. -/
def Mark.messageOf (stream : String) : Mark η → Option Envelope
  | .handed _ envelope true => if envelope.stream = some stream then some envelope else none
  | _ => none

/-- The samples of a stream, with their numbers. -/
def SessionRouter.samples (r : SessionRouter η) (stream : String) : List (Nat × η) := r.trace.filterMap (Mark.sampleOf stream)

/-- The messages of a stream that `send` accepted. -/
def SessionRouter.messages (r : SessionRouter η) (stream : String) : List Envelope := r.trace.filterMap (Mark.messageOf stream)

/-- An envelope carries a numbered sample of a stream. -/
def Carries (epoch stream : String) (entry : RouterBinding η) (sample : Nat × η) (envelope : Envelope) : Prop :=
  ∃ data, entry.codec.encode sample.2 = .ok data ∧ envelope = .message stream epoch (toString sample.1) data

/-- The messages `got` carry samples of a stream, the first ones if it is reliable. -/
def SessionRouter.Delivers (r : SessionRouter η) (stream : String) (entry : RouterBinding η) (got : List Envelope) : Prop :=
  Conveys (Carries r.epoch stream entry) (entry.binding.delivery = .reliable) (r.samples stream) got

/-- A subscription has numbered every sample, and what is queued follows what was sent. -/
structure SessionRouter.Flow (r : SessionRouter η) (stream : String) (sub : Subscription η) (s : Stream Bytes) : Prop where
  seq : sub.seq = (r.samples stream).length
  policy : s.policy = streamPolicy sub.entry
  delivers : r.Delivers stream sub.entry (r.messages stream ++ s.messages.map (·.envelope))
  level : sub.entry.binding.delivery = .reliable →
    (r.messages stream ++ s.messages.map (·.envelope)).length = (r.samples stream).length

structure SessionRouter.Flows (r : SessionRouter η) (stream : String) : Prop where
  unissued : ¬r.Issued stream → r.samples stream = [] ∧ r.messages stream = []
  numbered : (r.samples stream).map Prod.fst = List.range (r.samples stream).length
  bounded : ∀ sample ∈ r.samples stream, sample.1 ≤ maxSequence
  opened : ∀ entry, .opened stream entry ∈ r.trace → r.Issued stream ∧ r.Delivers stream entry (r.messages stream) ∧
    ∀ sub, r.subscriptions.get? stream = some sub → sub.entry = entry
  live : ∀ sub, r.subscriptions.get? stream = some sub → ∃ s, r.queue.streams.get? stream = some s ∧ r.Flow stream sub s

/-- Control envelopes carry no samples. -/
def SessionRouter.Unmixed (r : SessionRouter η) : Prop :=
  ∀ s, r.queue.streams.get? "control" = some s → ∀ m ∈ s.messages, m.envelope.stream = none

theorem Carries.names {epoch : String} {entry : RouterBinding η} {sample : Nat × η} {envelope : Envelope}
    (h : Carries epoch stream entry sample envelope) : envelope.stream = some stream := by
  obtain ⟨data, -, rfl⟩ := h
  rfl

/-! ## What does not concern a stream -/

/-- A mark that says nothing of a stream's samples and messages. -/
structure Mark.Foreign (stream : String) (m : Mark η) : Prop where
  sample : m.sampleOf stream = none
  message : m.messageOf stream = none
  opened : ∀ entry, m ≠ .opened stream entry

/-- Marks that say nothing of any stream's samples and messages. -/
def Mark.Plain : Mark η → Prop
  | .sampled .. | .handed .. | .opened .. => False
  | _ => True

theorem Mark.Plain.foreign {m : Mark η} (h : m.Plain) : m.Foreign stream := by
  cases m with
  | sampled | handed | opened => exact h.elim
  | _ => exact ⟨rfl, rfl, by simp⟩

theorem filterMap_foreign {β : Type} {f : Mark η → Option β} {trace marks : List (Mark η)} (none : ∀ m ∈ marks, f m = none) :
    (trace ++ marks).filterMap f = trace.filterMap f := by
  rw [List.filterMap_append, List.filterMap_eq_nil_iff.2 none, List.append_nil]

/-- The subscription and the queue of a stream stay, but for its clock and whether it is ready. -/
def SessionRouter.Beside (r r' : SessionRouter η) (stream : String) : Prop :=
  ∀ sub', r'.subscriptions.get? stream = some sub' → ∃ sub, r.subscriptions.get? stream = some sub ∧
    sub'.entry = sub.entry ∧ sub'.seq = sub.seq ∧ r'.queue.streams.get? stream = r.queue.streams.get? stream

theorem SessionRouter.Beside.of_eq (subscriptions : r'.subscriptions = r.subscriptions)
    (streams : ∀ sub, r.subscriptions.get? stream = some sub → r'.queue.streams.get? stream = r.queue.streams.get? stream) :
    r.Beside r' stream :=
  fun sub h => ⟨sub, subscriptions ▸ h, rfl, rfl, streams sub (subscriptions ▸ h)⟩

/-- Subscriptions change, but not their entries and numbers. -/
theorem SessionRouter.Beside.modify {id : String} {f : Subscription η → Subscription η} (same : ∀ s, (f s).entry = s.entry ∧ (f s).seq = s.seq)
    (subscriptions : r'.subscriptions = r.subscriptions.modify id f) (streams : r'.queue.streams = r.queue.streams) :
    r.Beside r' stream := by
  intro sub' here
  rw [subscriptions, Table.get?_modify] at here
  split at here
  · next e =>
    obtain ⟨sub, found, rfl⟩ := Option.map_eq_some_iff.1 here
    exact ⟨sub, e ▸ found, (same sub).1, (same sub).2, by rw [streams]⟩
  · exact ⟨sub', here, rfl, rfl, by rw [streams]⟩

theorem SessionRouter.Flows.beside (h : r.Flows stream) (kept : r.Kept r') (marks : List (Mark η))
    (trace : r'.trace = r.trace ++ marks) (foreign : ∀ m ∈ marks, m.Foreign stream) (beside : r.Beside r' stream) :
    r'.Flows stream := by
  have samples : r'.samples stream = r.samples stream := by
    rw [SessionRouter.samples, trace, filterMap_foreign fun m hm => (foreign m hm).sample, SessionRouter.samples]
  have messages : r'.messages stream = r.messages stream := by
    rw [SessionRouter.messages, trace, filterMap_foreign fun m hm => (foreign m hm).message, SessionRouter.messages]
  have delivers : ∀ entry got, r.Delivers stream entry got → r'.Delivers stream entry got := by
    intro entry got d
    rwa [SessionRouter.Delivers, samples, kept.epoch]
  refine ⟨fun unissued => ?_, ?_, ?_, fun entry here => ?_, fun sub' here => ?_⟩
  · rw [samples, messages]
    exact h.unissued fun issued => unissued (issued.kept kept)
  · rw [samples]
    exact h.numbered
  · rw [samples]
    exact h.bounded
  · rw [trace] at here
    rcases List.mem_append.1 here with old | new
    · obtain ⟨issued, delivered, same⟩ := h.opened entry old
      refine ⟨issued.kept kept, messages ▸ delivers _ _ delivered, fun sub' hs => ?_⟩
      obtain ⟨sub, found, e, -⟩ := beside sub' hs
      exact e.trans (same sub found)
    · exact absurd rfl ((foreign _ new).opened entry)
  · obtain ⟨sub, found, entry, seq, streams⟩ := beside sub' here
    obtain ⟨s, hs, flow⟩ := h.live sub found
    refine ⟨s, streams.trans hs, ?_, ?_, ?_, ?_⟩
    · rw [samples, seq, flow.seq]
    · rw [entry, flow.policy]
    · rw [messages, entry]
      exact delivers _ _ flow.delivers
    · rw [messages, samples, entry]
      exact flow.level

/-- The same where the marks are plain. -/
theorem SessionRouter.Flows.quiet (h : r.Flows stream) (kept : r.Kept r') (marks : List (Mark η))
    (trace : r'.trace = r.trace ++ marks) (plain : ∀ m ∈ marks, m.Plain) (beside : r.Beside r' stream) : r'.Flows stream :=
  h.beside kept marks trace (fun m hm => (plain m hm).foreign) beside

/-! ## Samples and messages -/

/-- What one mark adds to the samples and the messages of a stream. -/
theorem SessionRouter.samples_marked (stream : String) (m : Mark η) (trace : r'.trace = r.trace ++ [m]) :
    r'.samples stream = r.samples stream ++ (m.sampleOf stream).toList ∧
      r'.messages stream = r.messages stream ++ (m.messageOf stream).toList := by
  rw [SessionRouter.samples, SessionRouter.messages, trace, List.filterMap_append, List.filterMap_append]
  refine ⟨congrArg _ ?_, congrArg _ ?_⟩
  · cases h : m.sampleOf stream <;> simp [h]
  · cases h : m.messageOf stream <;> simp [h]

/-- A sample gets the next number of a stream. -/
theorem numbered_concat {samples : List (Nat × η)} (h : samples.map Prod.fst = List.range samples.length) (native : η) :
    (samples ++ [(samples.length, native)]).map Prod.fst = List.range (samples ++ [(samples.length, native)]).length := by
  rw [List.map_append, h, List.length_append, List.length_singleton, List.range_succ]
  rfl

/-- The queue of a reliable stream keeps what it has. -/
theorem kept_reliable {s : Stream Bytes} {entry : RouterBinding η} (policy : s.policy = streamPolicy entry)
    (reliable : entry.binding.delivery = .reliable) : DeliveryQueue.kept s = s.messages := by
  have fifo := entry.binding.fifo_iff.1 reliable
  have : s.policy ≠ .latest := by
    rw [policy, streamPolicy, fifo]
    simp
  rw [DeliveryQueue.kept, if_neg this]

/-- What is kept of a queue comes first in it. -/
theorem kept_prefix (s : Stream Bytes) : DeliveryQueue.kept s <+: s.messages := by
  unfold DeliveryQueue.kept
  split
  · exact List.nil_prefix
  · exact List.prefix_rfl

/-- A sample is numbered and queued, or dropped with what a realtime stream had queued. -/
theorem SessionRouter.Flows.sampled (h : r.Flows stream) {sub : Subscription η} {native : η} {data : Json} {ok : Bool}
    {q : DeliveryQueue Bytes} {numbers : NumberText} (found : r.subscriptions.get? stream = some sub) (fits : sub.seq ≤ maxSequence)
    (encoded : sub.entry.codec.encode native = .ok data)
    (stored : DeliveryQueue.Stored r.queue stream (encode numbers (.message stream r.epoch (toString sub.seq) data)) ok q)
    (issued : r.Issued stream) : ({ r.number stream sub.seq native with queue := q } : SessionRouter η).Flows stream := by
  obtain ⟨s, hs, flow⟩ := h.live sub found
  set r' : SessionRouter η := { r.number stream sub.seq native with queue := q } with hr
  obtain ⟨samples, messages⟩ : r'.samples stream = r.samples stream ++ [(sub.seq, native)] ∧
      r'.messages stream = r.messages stream := by
    have marked := @SessionRouter.samples_marked η r r' stream (.sampled stream sub.seq native) rfl
    simpa [Mark.sampleOf, Mark.messageOf] using marked
  have delivers : ∀ entry got, r.Delivers stream entry got → r'.Delivers stream entry got := by
    intro entry got d
    rw [SessionRouter.Delivers, samples]
    exact d.offer _
  have own : r'.subscriptions.get? stream = some { sub with seq := sub.seq + 1 } := by
    simp [hr, SessionRouter.number, Table.get?_modify, found]
  refine ⟨fun unissued => absurd issued unissued, ?_, fun sample here => ?_, fun entry here => ?_, fun sub' here => ?_⟩
  · rw [samples, flow.seq]
    exact numbered_concat h.numbered native
  · rw [samples] at here
    rcases List.mem_append.1 here with old | new
    · exact h.bounded sample old
    · rw [List.mem_singleton.1 new]
      exact fits
  · have old : Mark.opened stream entry ∈ r.trace := by
      simpa [hr, SessionRouter.number] using here
    obtain ⟨_, delivered, same⟩ := h.opened entry old
    refine ⟨issued, messages ▸ delivers _ _ delivered, fun sub' hs => ?_⟩
    rw [own] at hs
    obtain rfl := Option.some.inj hs
    exact same sub found
  · rw [own] at here
    obtain rfl := Option.some.inj here
    cases stored with
    | stored s₀ _ here live streams sized =>
      obtain rfl : s = s₀ := Option.some.inj (hs.symm.trans here)
      have first : r.Delivers stream sub.entry (r.messages stream ++ (DeliveryQueue.kept s).map (·.envelope)) := by
        obtain ⟨rest, e⟩ := kept_prefix s
        have all := flow.delivers
        rw [← e, List.map_append, ← List.append_assoc] at all
        exact all.before
      have level : sub.entry.binding.delivery = .reliable →
          (r.messages stream ++ (DeliveryQueue.kept s).map (·.envelope)).length = (r.samples stream).length := by
        intro reliable
        rw [kept_reliable flow.policy reliable]
        exact flow.level reliable
      have queued : q.streams.get? stream = some { s with messages := DeliveryQueue.kept s ++
          [encode numbers (.message stream r.epoch (toString sub.seq) data)] } := by
        rw [streams, Table.get?_set_self]
      refine ⟨_, queued, ?_, flow.policy, ?_, fun reliable => ?_⟩
      · rw [samples, flow.seq]
        simp
      · rw [SessionRouter.Delivers, samples, messages, List.map_append, ← List.append_assoc]
        exact first.concat ⟨data, encoded, rfl⟩ level
      · have := level reliable
        rw [samples, messages, List.map_append, ← List.append_assoc, List.length_append, this]
        simp
    | dropped s₀ _ here live policy streams =>
      obtain rfl : s = s₀ := Option.some.inj (hs.symm.trans here)
      have queued : q.streams.get? stream = some { s with messages := [] } := by
        rw [streams, Table.get?_set_self]
      refine ⟨_, queued, ?_, flow.policy, ?_, fun reliable => ?_⟩
      · rw [samples, flow.seq]
        simp
      · rw [List.map_nil, List.append_nil, messages]
        exact delivers _ _ flow.delivers.before
      · have fifo := sub.entry.binding.fifo_iff.1 reliable
        rw [flow.policy, streamPolicy, fifo] at policy
        cases policy

/-- A sample is numbered that does not reach the queue, which ends its stream. -/
theorem SessionRouter.Flows.spoiled (h : r.Flows stream) {sub : Subscription η} (native : η) (q : DeliveryQueue Bytes)
    (found : r.subscriptions.get? stream = some sub) (fits : sub.seq ≤ maxSequence) (issued : r.Issued stream) :
    ((r.number stream sub.seq native).unsubscribe stream q).Flows stream := by
  obtain ⟨s, hs, flow⟩ := h.live sub found
  set r' := (r.number stream sub.seq native).unsubscribe stream q with hr
  have trace : r'.trace = r.trace ++ [.sampled stream sub.seq native] ++ [.lost stream, .unsubscribing stream] := rfl
  have samples : r'.samples stream = r.samples stream ++ [(sub.seq, native)] := by
    simp [SessionRouter.samples, trace, Mark.sampleOf]
  have messages : r'.messages stream = r.messages stream := by
    simp [SessionRouter.messages, trace, Mark.messageOf]
  have gone : r'.subscriptions.get? stream = none := by simp [hr, SessionRouter.unsubscribe]
  refine ⟨fun unissued => absurd issued unissued, ?_, fun sample here => ?_, fun entry here => ?_, fun sub' here => ?_⟩
  · rw [samples, flow.seq]
    exact numbered_concat h.numbered native
  · rw [samples] at here
    rcases List.mem_append.1 here with old | new
    · exact h.bounded sample old
    · rw [List.mem_singleton.1 new]
      exact fits
  · obtain ⟨_, delivered, -⟩ := h.opened entry (by simpa [trace] using here)
    refine ⟨issued, ?_, fun sub' hs => ?_⟩
    · rw [SessionRouter.Delivers, samples, messages]
      exact delivered.offer _
    · rw [gone] at hs
      cases hs
  · rw [gone] at here
    cases here

/-- The head of a stream's queue is given to `send`. -/
theorem SessionRouter.Flows.handed (h : r.Flows stream) {sub : Subscription η} {next : Bytes} {accepted : Bool}
    {q : DeliveryQueue Bytes} (found : r.subscriptions.get? stream = some sub) (sent : Sent r.queue stream next accepted q)
    (issued : r.Issued stream) (channel : Channel) :
    ({ r with queue := q }.marked (.handed channel next.envelope accepted) : SessionRouter η).Flows stream := by
  obtain ⟨s, hs, flow⟩ := h.live sub found
  set r' : SessionRouter η := { r with queue := q }.marked (.handed channel next.envelope accepted) with hr
  -- What is queued carries samples of the stream.
  have named : next.envelope.stream = some stream := by
    have head : ∃ rest, s.messages = next :: rest := by
      cases sent with
      | refused s₀ rest here live head => exact ⟨rest, Option.some.inj (hs.symm.trans here) ▸ head⟩
      | accepted s₀ rest _ here live head => exact ⟨rest, Option.some.inj (hs.symm.trans here) ▸ head⟩
    obtain ⟨rest, head⟩ := head
    obtain ⟨sample, -, carries⟩ := flow.delivers.mem (b := next.envelope) (by simp [head])
    exact carries.names
  obtain ⟨samples, messages⟩ : r'.samples stream = r.samples stream ∧
      r'.messages stream = r.messages stream ++ if accepted then [next.envelope] else [] := by
    have marked := @SessionRouter.samples_marked η r r' stream (.handed channel next.envelope accepted) rfl
    cases accepted <;> simpa [Mark.sampleOf, Mark.messageOf, named] using marked
  -- A message moves from the queue to what was sent.
  have moved : ∃ s', q.streams.get? stream = some s' ∧ s'.policy = s.policy ∧
      r'.messages stream ++ s'.messages.map (·.envelope) = r.messages stream ++ s.messages.map (·.envelope) := by
    cases sent with
    | refused s₀ rest here live head => exact ⟨s, hs, rfl, by simp [messages]⟩
    | accepted s₀ rest _ here live head options streams =>
      obtain rfl : s = s₀ := Option.some.inj (hs.symm.trans here)
      refine ⟨{ s with messages := rest }, by rw [streams, Table.get?_set_self], rfl, ?_⟩
      simp [messages, head]
  obtain ⟨s', hs', policy, together⟩ := moved
  have delivers : r'.Delivers stream sub.entry (r'.messages stream ++ s'.messages.map (·.envelope)) := by
    rw [together, SessionRouter.Delivers, samples]
    exact flow.delivers
  refine ⟨fun unissued => absurd issued unissued, ?_, ?_, fun entry here => ?_, fun sub' here => ?_⟩
  · rw [samples]
    exact h.numbered
  · rw [samples]
    exact h.bounded
  · obtain ⟨_, -, same⟩ := h.opened entry (by simpa [hr, SessionRouter.marked] using here)
    refine ⟨issued, ?_, same⟩
    rw [← same sub found]
    exact delivers.before
  · obtain rfl : sub = sub' := Option.some.inj (found.symm.trans here)
    refine ⟨s', hs', ?_, policy.trans flow.policy, delivers, fun reliable => ?_⟩
    · rw [samples]
      exact flow.seq
    · rw [together, samples]
      exact flow.level reliable

/-- A new stream has no samples. -/
theorem SessionRouter.Flows.subscribed (h : r.Flows r.nextStream) (entry : RouterBinding η) :
    (r.subscribe entry).Flows r.nextStream := by
  have unissued := r.not_issued_nextStream
  obtain ⟨unsampled, unsent⟩ := h.unissued unissued
  obtain ⟨samples, messages⟩ : (r.subscribe entry).samples r.nextStream = [] ∧ (r.subscribe entry).messages r.nextStream = [] := by
    have marked := @SessionRouter.samples_marked η r (r.subscribe entry) r.nextStream (.opened r.nextStream entry) rfl
    simpa [Mark.sampleOf, Mark.messageOf, unsampled, unsent] using marked
  have issued : (r.subscribe entry).Issued r.nextStream := ⟨r.nextId + 1, le_refl _, rfl⟩
  have own : (r.subscribe entry).subscriptions.get? r.nextStream = some ⟨entry, false, 0, 0⟩ := by
    simp [SessionRouter.subscribe]
  refine ⟨fun _ => ⟨samples, messages⟩, ?_, ?_, fun entry' here => ?_, fun sub here => ?_⟩
  · simp [samples]
  · simp [samples]
  · have same : entry' = entry := by
      have here : Mark.opened r.nextStream entry' ∈ r.trace ∨ entry' = entry := by
        simpa [SessionRouter.subscribe] using here
      exact here.resolve_left fun old => unissued (h.opened entry' old).1
    subst same
    refine ⟨issued, by rw [messages]; exact .nil _, fun sub hs => ?_⟩
    rw [own] at hs
    exact Option.some.inj hs ▸ rfl
  · rw [own] at here
    obtain rfl := Option.some.inj here
    refine ⟨⟨streamPolicy entry, entry.binding.queue.maxMessages, [], false⟩, ?_, ?_, rfl, ?_, fun _ => ?_⟩
    · simp [SessionRouter.subscribe]
    · simp [samples]
    · rw [messages]
      exact .nil _
    · simp [samples, messages]

/-! ## Turns -/

theorem Control.flows {bytes : Bytes} (c : Control r bytes r') (sane : r.Sane) (h : r.Flows stream) : r'.Flows stream := by
  have other : ∀ {q : DeliveryQueue Bytes} {s : Stream Bytes}, q.streams = r.queue.streams.set "control" s →
      ∀ sub, r.subscriptions.get? stream = some sub → q.streams.get? stream = r.queue.streams.get? stream := by
    intro q s streams sub found
    rw [streams, Table.get?_set_ne _ _ (sane.ne_control found)]
  have kept := c.kept
  cases c with
  | queued s q found live options streams =>
    exact h.quiet kept [.queued bytes.envelope] rfl (by simp [Mark.Plain]) (.of_eq rfl (other streams))
  | jammed s q found live options streams => exact h.quiet kept [] (by simp) (by simp) (.of_eq rfl (other streams))
  | dead => exact h

theorem SessionRouter.Flows.store (h : r.Flows stream) (id input : String) (output : Bytes) (t : ℚ) :
    (r.store id input output t).Flows stream :=
  h.quiet ⟨rfl, rfl, rfl, rfl, rfl, fun h => h, le_refl _, le_refl _, fun h => h⟩ [.stored id input output t] rfl
    (by simp [Mark.Plain]) (.of_eq rfl fun _ _ => rfl)

theorem Announced.flows {numbers : NumberText} {envelope : Envelope} (a : Announced numbers allow r envelope r') (sane : r.Sane)
    (h : r.Flows stream) : r'.Flows stream := by
  cases a with
  | announced id input t _ cached storable now control => exact control.flows (sane.store t storable) (h.store _ _ _ _)
  | large => exact h

/-- The sample of another stream. -/
theorem SessionRouter.Flows.sampledBeside (h : r.Flows stream) {id : String} {sub : Subscription η} {native : η} {bytes : Bytes}
    {ok : Bool} {q : DeliveryQueue Bytes} (other : stream ≠ id) (stored : DeliveryQueue.Stored r.queue id bytes ok q) :
    ({ r.number id sub.seq native with queue := q } : SessionRouter η).Flows stream := by
  refine h.beside ⟨rfl, rfl, rfl, rfl, rfl, fun h => h, le_refl _, le_refl _, fun h => h⟩ [.sampled id sub.seq native] rfl ?_ ?_
  · intro m hm
    obtain rfl := List.mem_singleton.1 hm
    exact ⟨by simp [Mark.sampleOf, other.symm], rfl, by simp⟩
  · intro sub' here
    simp only [SessionRouter.number, Table.get?_modify, if_neg other] at here
    refine ⟨sub', here, rfl, rfl, ?_⟩
    cases stored with
    | stored _ _ _ _ streams => simp only [streams, Table.get?_set_ne _ _ other]
    | dropped _ _ _ _ _ streams => simp only [streams, Table.get?_set_ne _ _ other]

theorem Move.flows {numbers : NumberText} {media : MediaService} (m : Move numbers allow media r r') (sane : r.Sane)
    (h : r.Flows stream) : r'.Flows stream := by
  have kept := m.kept
  cases m with
  | counted | ticked | issued | advertised | unadvertised | expired | flagged | bound =>
    exact h.quiet kept [] (List.append_nil _).symm (by simp) (.of_eq rfl fun _ _ => rfl)
  | control bytes _ control => exact control.flows sane h
  | unsubscribed | stored | detaching | admitted => exact h.quiet kept _ rfl (by simp [Mark.Plain]) (.of_eq rfl fun _ _ => rfl)
  | readied id sub found =>
    exact h.quiet kept [.readied id] rfl (by simp [Mark.Plain])
      (.modify (f := fun s => { s with ready := true }) (fun _ => ⟨rfl, rfl⟩) rfl rfl)
  | paced id t =>
    exact h.quiet kept [] (List.append_nil _).symm (by simp)
      (.modify (f := fun s => { s with nextAt := t }) (fun _ => ⟨rfl, rfl⟩) rfl rfl)
  | sampled id sub native data ok q found ready fits encoded stored options =>
    by_cases e : stream = id
    · subst e
      exact h.sampled found fits encoded stored (sane.issued stream sub found)
    · exact h.sampledBeside e stored

/-- The message at the head of a subscription's queue names its stream, which had a sample. -/
theorem SessionRouter.Flows.head (h : r.Flows stream) {sub : Subscription η} {next : Bytes} {accepted : Bool}
    {q : DeliveryQueue Bytes} (found : r.subscriptions.get? stream = some sub) (sent : Sent r.queue stream next accepted q) :
    next.envelope.stream = some stream ∧ ∃ seq native, .sampled stream seq native ∈ r.trace := by
  obtain ⟨s, hs, flow⟩ := h.live sub found
  have head : ∃ rest, s.messages = next :: rest := by
    cases sent with
    | refused s₀ rest here live head => exact ⟨rest, Option.some.inj (hs.symm.trans here) ▸ head⟩
    | accepted s₀ rest _ here live head => exact ⟨rest, Option.some.inj (hs.symm.trans here) ▸ head⟩
  obtain ⟨rest, head⟩ := head
  obtain ⟨sample, there, carries⟩ := flow.delivers.mem (b := next.envelope) (by simp [head])
  obtain ⟨m, hm, numbered⟩ := List.mem_filterMap.1 there
  refine ⟨carries.names, sample.1, sample.2, ?_⟩
  cases m with
  | sampled s seq native =>
    obtain ⟨rfl, rfl⟩ : s = stream ∧ (seq, native) = sample := by simpa [Mark.sampleOf] using numbered
    exact hm
  | _ => simp [Mark.sampleOf] at numbered

/-- A stream whose head is given to `send` keeps the other streams. -/
theorem Sent.other {q q' : DeliveryQueue Bytes} {id : String} {next : Bytes} {accepted : Bool} (sent : Sent q id next accepted q')
    (other : stream ≠ id) : q'.streams.get? stream = q.streams.get? stream := by
  cases sent with
  | refused => rfl
  | accepted s rest _ found live head options streams => rw [streams, Table.get?_set_ne _ _ other]

/-- A message of another stream, or of none, is given to `send`. -/
theorem SessionRouter.Flows.handedBeside (h : r.Flows stream) {id : String} {next : Bytes} {accepted : Bool}
    {q : DeliveryQueue Bytes} (channel : Channel) (other : ∀ sub, r.subscriptions.get? stream = some sub → stream ≠ id)
    (named : next.envelope.stream ≠ some stream) (sent : Sent r.queue id next accepted q) :
    ({ r with queue := q }.marked (.handed channel next.envelope accepted) : SessionRouter η).Flows stream := by
  refine h.beside ⟨rfl, rfl, rfl, rfl, rfl, fun h => h, le_refl _, le_refl _, fun h => h⟩
    [.handed channel next.envelope accepted] rfl ?_ (.of_eq rfl fun sub found => sent.other (other sub found))
  intro m hm
  obtain rfl := List.mem_singleton.1 hm
  refine ⟨rfl, ?_, by simp⟩
  cases accepted <;> simp [Mark.messageOf, named]

/-- A stream that is not the next one when another is subscribed. -/
theorem SessionRouter.Flows.subscribedBeside (h : r.Flows stream) (entry : RouterBinding η) (other : stream ≠ r.nextStream) :
    (r.subscribe entry).Flows stream := by
  refine h.beside ⟨rfl, rfl, rfl, rfl, rfl, fun h => h, le_refl _, Nat.le_succ _, fun h => h⟩ [.opened r.nextStream entry] rfl ?_ ?_
  · intro m hm
    obtain rfl := List.mem_singleton.1 hm
    exact ⟨rfl, rfl, fun entry' e => other (by cases e; rfl)⟩
  · intro sub here
    simp only [SessionRouter.subscribe, Table.get?_set_ne _ _ other] at here
    exact ⟨sub, here, rfl, rfl, by simp only [SessionRouter.subscribe, Table.get?_set_ne _ _ other]⟩

theorem Turn.flows (t : Turn allow w k r) (sane : (w.routers k).Sane) (unmixed : (w.routers k).Unmixed)
    (h : ∀ id, (w.routers k).Flows id) : r.Flows stream := by
  have kept := t.kept
  cases t with
  | move _ move => exact move.flows sane (h stream)
  | advertised | unadvertised => exact (h stream).quiet kept [] (List.append_nil _).symm (by simp) (.of_eq rfl fun _ _ => rfl)
  | subscribed entry requestId _ isOpen found free room announced =>
    refine announced.flows (sane.subscribe found) ?_
    by_cases e : stream = (w.routers k).nextStream
    · exact e ▸ (h _).subscribed entry
    · exact (h stream).subscribedBeside entry e
  | removed id sub q found options streams =>
    refine (h stream).quiet kept [.lost id, .unsubscribing id] rfl (by simp [Mark.Plain]) fun sub' here => ?_
    simp only [SessionRouter.unsubscribe, Table.get?_erase] at here
    split at here
    · cases here
    · next other => exact ⟨sub', here, rfl, rfl, by simp only [SessionRouter.unsubscribe, streams, Table.get?_erase_ne _ other]⟩
  | spoiled id sub native q found ready fits options streams =>
    by_cases e : stream = id
    · subst e
      exact (h stream).spoiled native q found fits (sane.issued stream sub found)
    · refine (h stream).beside kept [.sampled id sub.seq native, .lost id, .unsubscribing id] ?_ ?_ fun sub' here => ?_
      · simp [SessionRouter.unsubscribe, SessionRouter.number]
      · intro m hm
        simp only [List.mem_cons, List.not_mem_nil, or_false] at hm
        rcases hm with rfl | rfl | rfl
        · exact ⟨by simp [Mark.sampleOf, Ne.symm e], rfl, by simp⟩
        · exact ⟨rfl, rfl, by simp⟩
        · exact ⟨rfl, rfl, by simp⟩
      · simp only [SessionRouter.unsubscribe, SessionRouter.number, Table.get?_erase_ne _ e, Table.get?_modify, if_neg e] at here
        exact ⟨sub', here, rfl, rfl, by simp only [SessionRouter.unsubscribe, streams, Table.get?_erase_ne _ e]⟩
  | handedControl next accepted q sent =>
    have plain : next.envelope.stream = none := by
      cases sent with
      | refused s rest found live head => exact unmixed s found next (by simp [head])
      | accepted s rest _ found live head => exact unmixed s found next (by simp [head])
    exact (h stream).handedBeside .control (fun sub found => sane.ne_control found) (by simp [plain]) sent
  | handedData id sub next accepted q found isOpen idle sent =>
    by_cases e : stream = id
    · subst e
      exact (h stream).handed found sent (sane.issued stream sub found) _
    · refine (h stream).handedBeside _ (fun _ _ => e) ?_ sent
      simp [((h id).head found sent).1, Ne.symm e]
  | published => exact (h stream).quiet kept _ rfl (by simp [Mark.Plain]) (.of_eq rfl fun _ _ => rfl)
  | finished isOpen =>
    refine (h stream).quiet kept _ rfl ?_ fun sub here => by simp [SessionRouter.finished] at here
    intro m hm
    simp only [List.mem_append, List.mem_map, List.mem_singleton] at hm
    rcases hm with ((⟨_, -, rfl⟩ | ⟨_, -, rfl⟩) | ⟨_, -, rfl⟩) | rfl <;> trivial
  | torn v f marks isOpen video torn less marked =>
    refine (h stream).quiet kept marks rfl (fun m hm => ?_) (.of_eq rfl fun _ _ => rfl)
    obtain ⟨track, rfl⟩ := marked m hm
    trivial

/-! ## The control queue -/

/-- Another control queue whose messages were there or are plain. -/
theorem SessionRouter.Unmixed.of (h : r.Unmixed)
    (imp : ∀ s', r'.queue.streams.get? "control" = some s' → ∀ m ∈ s'.messages, m.envelope.stream = none ∨
      ∃ s, r.queue.streams.get? "control" = some s ∧ m ∈ s.messages) : r'.Unmixed := by
  intro s' found m hm
  rcases imp s' found m hm with plain | ⟨s, here, mem⟩
  · exact plain
  · exact h s here m mem

theorem SessionRouter.Unmixed.same (h : r.Unmixed)
    (same : r'.queue.streams.get? "control" = r.queue.streams.get? "control") : r'.Unmixed :=
  h.of fun s' found _ hm => .inr ⟨s', same ▸ found, hm⟩

theorem Control.unmixed {bytes : Bytes} (c : Control r bytes r') (plain : bytes.envelope.stream = none) (h : r.Unmixed) :
    r'.Unmixed := by
  cases c with
  | queued s q found live options streams =>
    refine h.of fun s' here m hm => ?_
    have here : q.streams.get? "control" = some s' := here
    rw [streams, Table.get?_set_self] at here
    obtain rfl := Option.some.inj here
    rcases List.mem_append.1 hm with old | new
    · exact .inr ⟨s, found, old⟩
    · exact .inl (List.mem_singleton.1 new ▸ plain)
  | jammed s q found live options streams =>
    refine h.of fun s' here m hm => ?_
    have here : q.streams.get? "control" = some s' := here
    rw [streams, Table.get?_set_self] at here
    obtain rfl := Option.some.inj here
    simp at hm
  | dead => exact h

/-- What `send` takes leaves the rest of a queue. -/
theorem Sent.rest {q q' : DeliveryQueue Bytes} {id : String} {next : Bytes} {accepted : Bool} (sent : Sent q id next accepted q')
    {s' : Stream Bytes} (found : q'.streams.get? id = some s') :
    ∃ s, q.streams.get? id = some s ∧ ∀ m ∈ s'.messages, m ∈ s.messages := by
  cases sent with
  | refused => exact ⟨s', found, fun _ hm => hm⟩
  | accepted s rest _ here live head options streams =>
    rw [streams, Table.get?_set_self] at found
    obtain rfl := Option.some.inj found
    exact ⟨s, here, fun m hm => by simp [head, hm]⟩

theorem Move.unmixed {numbers : NumberText} {media : MediaService} (m : Move numbers allow media r r') (sane : r.Sane)
    (h : r.Unmixed) : r'.Unmixed := by
  cases m with
  | control bytes _ control plain => exact control.unmixed plain h
  | sampled id sub native data ok q found ready fits encoded stored options =>
    have other : "control" ≠ id := (sane.ne_control found).symm
    refine h.same ?_
    cases stored with
    | stored _ _ _ _ streams => simp only [streams, Table.get?_set_ne _ _ other]
    | dropped _ _ _ _ _ streams => simp only [streams, Table.get?_set_ne _ _ other]
  | _ => exact h.same rfl

theorem Turn.unmixed (t : Turn allow w k r) (sane : (w.routers k).Sane) (h : (w.routers k).Unmixed) : r.Unmixed := by
  cases t with
  | move _ move => exact move.unmixed sane h
  | advertised | unadvertised | published | torn => exact h.same rfl
  | subscribed entry requestId _ isOpen found free room announced =>
    have subscribed : ((w.routers k).subscribe entry).Unmixed := by
      refine h.same ?_
      have other : "control" ≠ (w.routers k).nextStream := fun e => idText_ne_control _ _ e.symm
      simp only [SessionRouter.subscribe, Table.get?_set_ne _ _ other]
    cases announced with
    | announced id input t _ cached storable now control => exact control.unmixed storable.plain (subscribed.same rfl)
    | large => exact subscribed
  | removed id sub q found options streams =>
    refine h.same ?_
    simp only [SessionRouter.unsubscribe, streams, Table.get?_erase_ne _ (sane.ne_control found).symm]
  | spoiled id sub native q found ready fits options streams =>
    refine h.same ?_
    simp only [SessionRouter.unsubscribe, streams, Table.get?_erase_ne _ (sane.ne_control found).symm]
  | handedControl next accepted q sent =>
    refine h.of fun s' here m hm => .inr ?_
    obtain ⟨s, found, sub⟩ := sent.rest here
    exact ⟨s, found, sub m hm⟩
  | handedData id sub next accepted q found isOpen idle sent => exact h.same (sent.other (sane.ne_control found).symm)
  | finished isOpen =>
    intro s found
    simp [SessionRouter.finished, DeliveryQueue.clear, Prog.after, exec_modify] at found

/-! ## Runs -/

/-- The streams of router `k` deliver what they promise. -/
structure Flowing (w : World η) (k : Nat) : Prop where
  unmixed : (w.routers k).Unmixed
  flows : ∀ stream, (w.routers k).Flows stream

/-- A new router has no streams. -/
theorem SessionRouter.Fresh.flowing (fresh : r.Fresh) : r.Unmixed ∧ ∀ stream, r.Flows stream := by
  refine ⟨fun s found m hm => ?_, fun stream => ⟨fun _ => ?_, ?_, ?_, ?_, ?_⟩⟩
  · rw [fresh.streams, Table.get?_set_self] at found
    obtain rfl := Option.some.inj found
    simp at hm
  all_goals simp [SessionRouter.samples, SessionRouter.messages, fresh.trace, fresh.subscriptions]

theorem Step.flowing (s : Step allow w w') (sane : w.Sane) (h : Flowing w k) : Flowing w' k := by
  rcases s.turn k with same | turn | born
  · exact ⟨same ▸ h.unmixed, same ▸ h.flows⟩
  · exact ⟨turn.unmixed (sane.routers k) h.unmixed, fun _ => turn.flows (sane.routers k) h.unmixed h.flows⟩
  · exact ⟨born.fresh.flowing.1, born.fresh.flowing.2⟩

theorem start_flowing (numbers : NumberText) (guard : CommandGuard) (media : MediaService) (k : Nat) :
    Flowing (World.start numbers guard media : World η) k := by
  refine ⟨by simp [SessionRouter.Unmixed, World.start, SessionRouter.vacant], fun stream => ⟨fun _ => ?_, ?_, ?_, ?_, ?_⟩⟩ <;>
    simp [SessionRouter.samples, SessionRouter.messages, World.start, SessionRouter.vacant]

/-- The numbers of a reliable stream's messages have no gap. -/
theorem SessionRouter.Delivers.gapless {entry : RouterBinding η} {got : List Envelope} (h : r.Delivers stream entry got)
    (numbered : (r.samples stream).map Prod.fst = List.range (r.samples stream).length)
    (reliable : entry.binding.delivery = .reliable) (i : Nat) (hi : i < got.length) :
    ∃ native data, (r.samples stream)[i]? = some (i, native) ∧ entry.codec.encode native = .ok data ∧
      got[i] = .message stream r.epoch (toString i) data := by
  obtain ⟨bound, data, encoded, e⟩ := h.getElem reliable hi
  have number : ((r.samples stream)[i]).1 = i := by
    have := congrArg (·[i]?) numbered
    simpa [bound] using this
  refine ⟨((r.samples stream)[i]).2, data, ?_, encoded, ?_⟩
  · rw [List.getElem?_eq_getElem bound]
    exact congrArg some (Prod.ext number rfl)
  · rw [e, number]

/-- The numbers of any stream's messages increase. -/
theorem SessionRouter.Delivers.increasing {entry : RouterBinding η} {got : List Envelope} (h : r.Delivers stream entry got)
    (numbered : (r.samples stream).map Prod.fst = List.range (r.samples stream).length) :
    got.Pairwise fun a b => ∃ (n m : Nat) (data data' : Json), n < m ∧ a = .message stream r.epoch (toString n) data ∧
      b = .message stream r.epoch (toString m) data' := by
  have ordered : (r.samples stream).Pairwise fun a b => a.1 < b.1 := by
    rw [← List.pairwise_map, numbered]
    exact List.pairwise_lt_range
  refine h.pairwise ordered ?_
  rintro a a' b b' ⟨data, -, rfl⟩ ⟨data', -, rfl⟩ less
  exact ⟨a.1, a'.1, data, data', less, rfl, rfl⟩

/-- What a peer gets of a stream of a binding. -/
structure SessionRouter.Streamed (r : SessionRouter η) (stream : String) (entry : RouterBinding η) : Prop where
  numbered : (r.samples stream).map Prod.fst = List.range (r.samples stream).length
  bounded : ∀ sample ∈ r.samples stream, sample.1 ≤ maxSequence
  carried : ∀ envelope ∈ r.messages stream, ∃ sample ∈ r.samples stream, Carries r.epoch stream entry sample envelope
  increasing : (r.messages stream).Pairwise fun a b => ∃ (n m : Nat) (data data' : Json), n < m ∧
    a = .message stream r.epoch (toString n) data ∧ b = .message stream r.epoch (toString m) data'
  gapless : entry.binding.delivery = .reliable → ∀ i (hi : i < (r.messages stream).length), ∃ native data,
    (r.samples stream)[i]? = some (i, native) ∧ entry.codec.encode native = .ok data ∧
      (r.messages stream)[i] = .message stream r.epoch (toString i) data

/-- In every run the samples of a stream are numbered 0, 1, 2, .. and never past the
largest sequence number. The messages that `send` accepts of a reliable stream are those of
its first samples, in order and without a gap; those of a realtime stream are of some of
its samples, in order. -/
theorem streams_delivered {prefixId : String} {maxSessions maxHandles leaseMs clock : Session.Num} {guard : CommandGuard}
    (created : create prefixId maxSessions maxHandles leaseMs clock = .ok guard) (numbers : NumberText) (media : MediaService)
    (inputs : List (Env η × Input η)) (k : Nat) (stream : String) (entry : RouterBinding η)
    (opened : .opened stream entry ∈ (((World.start numbers guard media).run inputs).routers k).trace) :
    (((World.start numbers guard media).run inputs).routers k).Streamed stream entry := by
  have sane : (World.start numbers guard media : World η).Sane := start_sane numbers media (create_handles created)
  have flowing := (run_goes_any sane inputs).inv (P := fun w => Flowing w k) (fun w w' sane h s => s.flowing sane h) sane
    (start_flowing numbers guard media k)
  have flows := flowing.flows stream
  obtain ⟨-, delivers, -⟩ := flows.opened entry opened
  exact ⟨flows.numbered, flows.bounded, fun _ => delivers.mem, delivers.increasing flows.numbered,
    fun reliable => delivers.gapless flows.numbered reliable⟩

/-- A mark that a reliable stream was opened. -/
def Mark.opensReliable (stream : String) : Mark η → Bool
  | .opened s entry => s == stream && entry.binding.delivery == .reliable
  | _ => false

theorem exists_opened (h : r.trace.any (Mark.opensReliable stream) = true) :
    ∃ entry, .opened stream entry ∈ r.trace ∧ entry.binding.delivery = .reliable := by
  obtain ⟨m, there, opens⟩ := List.any_eq_true.1 h
  cases m with
  | opened s entry =>
    obtain ⟨rfl, reliable⟩ : s = stream ∧ entry.binding.delivery = .reliable := by simpa [Mark.opensReliable] using opens
    exact ⟨entry, there, reliable⟩
  | _ => simp [Mark.opensReliable] at opens

theorem streams_delivered_small :
    create "g" (some 2) (some 8) (some 250) (some 0) = .ok smallGuard ∧
      (((smallBridge.run smallVisit).routers 0).messages "g:1:1").length = 1 ∧
      ∃ entry, entry.binding.delivery = .reliable ∧ ((smallBridge.run smallVisit).routers 0).Streamed "g:1:1" entry := by
  have created : create "g" (some 2) (some 8) (some 250) (some 0) = .ok smallGuard := rfl
  have found : ((smallBridge.run smallVisit).routers 0).trace.any (Mark.opensReliable "g:1:1") = true := by decide +kernel
  obtain ⟨entry, opened, reliable⟩ := exists_opened found
  exact ⟨created, by decide +kernel, entry, reliable, streams_delivered created plainNumbers noMedia smallVisit 0 _ entry opened⟩

end RosBridge.Router
