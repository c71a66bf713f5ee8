import RosBridge.App.Catalog
import RosBridge.Router.Retransmission
/-!
# The first hello

A welcome lists every topic that the peer may use, in one envelope. The configuration
bounds neither their number nor their names by the message limit, so an accepted
configuration may be too large to greet anybody (`greeted_iff`).
-/

namespace RosBridge.App

open Lib Prog Session Router
open Lib.Json (Verbatim)
open Config hiding string

variable {η : Type} {env : Env η} {k : Nat} {w w' : World η}

/-! ## A router that only greets -/

/-- The streams of a queue with these control messages alone. -/
def pending (r : SessionRouter η) (messages : List Bytes) : Table String (Stream Bytes) :=
  Table.empty.set "control" ⟨.reliable, r.limits.maxRequests, messages, false⟩

/-- Only these control messages are pending. -/
structure Alone (r : SessionRouter η) (messages : List Bytes) : Prop where
  isOpen : r.closed = false
  subscriptions : r.subscriptions = .empty
  video : ∀ v, r.video = some v → v.bound = .empty
  streams : r.queue.streams = pending r messages

/-- Its queue has room for one message. -/
structure Roomy (r : SessionRouter η) : Prop where
  entries : 0 < r.limits.maxRequests
  empty : r.queue.bytes = 0
  limit : r.queue.options.maxMessageBytes = r.maxBytes
  budget : r.maxBytes ≤ r.queue.options.maxBytes

/-- An envelope is an object, so it is never empty. -/
theorem encode_pos (numbers : NumberText) (envelope : Envelope) : 0 < (encode numbers envelope).byteLength := by
  have object : ∃ fields, envelope.json = .object fields := by
    cases envelope <;> exact ⟨_, rfl⟩
  obtain ⟨fields, h⟩ := object
  show 0 < Json.size numbers.text envelope.json
  rw [h, Json.size_object]
  omega

/-- One message is queued in an empty queue. -/
theorem enqueue_exec {q : DeliveryQueue Bytes} {s : Stream Bytes} {id : String} (found : q.streams.get? id = some s)
    (live : s.stopped = false) (idle : s.messages = []) (room : 0 < s.maxMessages) (empty : q.bytes = 0) {message : Bytes}
    (positive : 0 < message.byteLength) (fits : message.byteLength ≤ q.options.maxMessageBytes)
    (budget : q.options.maxMessageBytes ≤ q.options.maxBytes) :
    (DeliveryQueue.enqueue id message).exec q = (.ok true, { q with
      streams := q.streams.set id { s with messages := [message] }
      bytes := message.byteLength }) := by
  have stored := DeliveryQueue.enqueue_fits found live (fun _ => idle) (by rw [idle]; exact room) positive fits
    (by rw [empty]; exact (Int.zero_add _).le.trans (by exact_mod_cast Nat.le_trans fits budget))
  rw [stored, idle, empty, Int.zero_add]
  rfl

/-- A response that fits is queued. -/
theorem respond_alone (alone : Alone (w.routers k) []) (roomy : Roomy (w.routers k)) {envelope : Envelope}
    (fits : (encode w.numbers envelope).byteLength ≤ (w.routers k).maxBytes) :
    wp (respond k envelope) (fun _ w' => ∃ q, q.streams = pending (w.routers k) [encode w.numbers envelope] ∧
        w' = w.setRouter k ({ w.routers k with queue := q }.marked (.queued envelope)))
      (fun _ _ => False) w := by
  have found : (w.routers k).queue.streams.get? "control" = some ⟨.reliable, (w.routers k).limits.maxRequests, [], false⟩ := by
    rw [alone.streams, pending, Table.get?_set_self]
  have stored := enqueue_exec found rfl rfl roomy.entries roomy.empty (encode_pos w.numbers envelope) (roomy.limit ▸ fits)
    (roomy.limit ▸ roomy.budget)
  have written : encodeWire w.numbers envelope (w.routers k).maxBytes = .ok (encode w.numbers envelope) := if_neg (not_lt.2 fits)
  simp only [respond, queueControl, encoded, wp_bind, wp_router, wp_throwIf, wp_get, wp_ofExcept, wp_onQueue, wp_mark, written]
  refine ⟨fun h => by simp [alone.isOpen] at h, fun _ => ⟨?_, fun e h => by cases h⟩⟩
  intro bytes same
  obtain rfl := Except.ok.inj same
  rw [wp_of_exec stored, World.setRouter_self, World.setRouter_setRouter]
  refine ⟨_, ?_, rfl⟩
  show (Table.set _ _ _) = _
  rw [alone.streams, pending, Table.set_set]
  rfl

/-- One that does not fit changes nothing. -/
theorem respond_large {envelope : Envelope} (isOpen : (w.routers k).closed = false)
    (large : (w.routers k).maxBytes < (encode w.numbers envelope).byteLength) :
    (respond k envelope).exec w = (.error "message_size", w) := by
  have here : (router k).exec w = (.ok (w.routers k), w) := rfl
  have refused : (encoded k envelope).exec w = (.error "message_size", w) := by
    rw [encoded, exec_bind_ok (exec_get w), exec_bind_ok here, encodeWire, if_pos large]
    rfl
  have running : ¬(w.routers k).closed = true := by simp [isOpen]
  rw [respond, exec_bind_ok here, throwIf, if_neg running, exec_bind_ok (exec_pure () w), exec_bind_error refused]

/-- The only control message pending is sent. -/
theorem drain_alone {bytes : Bytes} (alone : Alone (w.routers k) [bytes]) (accepts : ∀ n, env.send n = true) :
    wp (drain env k "control" .control) (fun done w' => done = true ∧
        ∃ q, w'.routers k = { w.routers k with queue := q }.marked (.handed .control bytes.envelope true))
      (fun _ _ => False) w := by
  have found : (w.routers k).queue.streams.get? "control" = some ⟨.reliable, (w.routers k).limits.maxRequests, [bytes], false⟩ := by
    rw [alone.streams, pending, Table.get?_set_self]
  have first : (DeliveryQueue.peek "control").exec (w.routers k).queue = (.ok (some bytes), (w.routers k).queue) := by
    rw [DeliveryQueue.peek, DeliveryQueue.stream, bind_assoc, exec_bind_ok (exec_get _), found]
    rfl
  have sent : (DeliveryQueue.dequeue "control").exec (w.routers k).queue = (.ok (some bytes), { (w.routers k).queue with
      streams := (w.routers k).queue.streams.set "control" ⟨.reliable, (w.routers k).limits.maxRequests, [], false⟩
      bytes := (w.routers k).queue.bytes - bytes.byteLength }) := by
    rw [DeliveryQueue.dequeue, DeliveryQueue.stream, bind_assoc, exec_bind_ok (exec_get _), found]
    rfl
  have last : ∀ q : DeliveryQueue Bytes,
      q.streams.get? "control" = some ⟨.reliable, (w.routers k).limits.maxRequests, [], false⟩ →
      (DeliveryQueue.peek "control").exec q = (.ok none, q) := by
    intro q h
    rw [DeliveryQueue.peek, DeliveryQueue.stream, bind_assoc, exec_bind_ok (exec_get _), h]
    rfl
  rw [drain, wp_bind, wp_router, found]
  show wp (drainLoop env k "control" .control 2) _ _ w
  rw [drainLoop, wp_bind, wp_onQueue, wp_of_exec first]
  simp only [wp_bind, wp_ask, wp_mark, wp_note, wp_onQueue, accepts, if_true, World.setRouter_self]
  refine (wp_of_exec sent).2 ?_
  rw [drainLoop, wp_bind, wp_onQueue]
  refine (wp_of_exec (last _ ?_)).2 ⟨rfl, ?_⟩
  · rw [World.setRouter_self, Table.get?_set_self]
  · rw [World.setRouter_self]
    simp only [World.setRouter_self]
    exact ⟨_, rfl⟩

/-- The only control message pending is sent. -/
theorem flush_alone {bytes : Bytes} (alone : Alone (w.routers k) [bytes]) (accepts : ∀ n, env.send n = true) :
    wp (flush env k) (fun _ w' => ∃ q, w'.routers k = { w.routers k with queue := q }.marked (.handed .control bytes.envelope true))
      (fun _ _ => False) w := by
  have depth : (w.routers k).depth = 1 := by
    unfold SessionRouter.depth
    rw [alone.subscriptions]
    cases video : (w.routers k).video with
    | none => rfl
    | some v =>
      rw [Option.map_some, alone.video v video]
      rfl
  have tracks : ((w.routers k).video.map (·.bound.keys)).getD [] = [] := by
    cases video : (w.routers k).video with
    | none => rfl
    | some v =>
      rw [Option.map_some, alone.video v video]
      rfl
  rw [flush, wp_bind, wp_router, depth, flushDepth, flushWith, wp_bind, wp_router, wp_when, wp_bind, wp_note, tracks, revalidateWith,
    wp_bind, wp_pure, wp_bind]
  refine ⟨fun _ => wp_mono (drain_alone alone accepts) ?_ fun _ _ h => h, fun h => by simp [alone.isOpen] at h⟩
  rintro _ w' ⟨rfl, q, same⟩
  rw [wp_when, wp_bind, wp_router, same]
  refine ⟨fun _ => ?_, fun h => absurd rfl h⟩
  show wp (flushStreamsWith _ _ k (w.routers k).subscriptions.entries) _ _ w'
  rw [alone.subscriptions]
  exact ⟨q, same⟩

/-! ## The catalog -/

/-- How an entry is listed. -/
def listing (entry : RouterBinding η) : CatalogEntry :=
  ⟨entry.binding.publicName, entry.binding.rosType, entry.binding.direction, entry.binding.delivery, entry.schemaId⟩

/-- From tick `t` on, the hook answers a question about each of these entries. -/
def Answers (env : Env η) (authorize : TopicBinding → Bool) (t : Nat) (entries : List (RouterBinding η)) : Prop :=
  ∀ i e, entries[i]? = some e → env.authorize (t + i) = .answer (.ok (authorize e.binding))

theorem hook_answer {reactions : Nat → Reaction} {ok : Bool} (answer : reactions w.tick = .answer (.ok ok)) :
    (hook env reactions).exec w = (.ok ok, { w with history := w.history ++ [.asked], tick := w.tick + 1 }) := by
  have asked : (ask reactions : Code η Reaction).exec { w with history := w.history ++ [.asked] } =
      (.ok (.answer (.ok ok)), { w with history := w.history ++ [.asked], tick := w.tick + 1 }) := by
    rw [← answer]
    rfl
  rw [hook, exec_bind_ok (show (note .asked : Code η Unit).exec w = _ from rfl), exec_bind_ok asked, react]
  rfl

/-- The catalog lists what the hook allows. -/
theorem catalog_spec {authorize : TopicBinding → Bool} (entries : List (RouterBinding η)) (w : World η)
    (answers : Answers env authorize w.tick entries) :
    wp (catalog env k entries) (fun shown w' => shown = (entries.filter (authorize ·.binding)).map listing ∧
        w'.routers = w.routers ∧ w'.numbers = w.numbers ∧ w'.tick = w.tick + entries.length)
      (fun _ _ => False) w := by
  induction entries generalizing w with
  | nil => exact ⟨rfl, rfl, rfl, rfl⟩
  | cons entry entries ih =>
    have direction : entry.binding.direction =
        (if entry.binding.direction = .rosToWeb then Operation.subscribe else .publish).direction := by
      cases entry.binding.direction <;> rfl
    rw [catalog, wp_bind, allowed, if_pos direction, wp_bind, wp_of_exec (hook_answer (answers 0 entry rfl))]
    simp only [wp_bind, wp_note, wp_pure]
    refine wp_mono (ih _ fun i e found => ?_) ?_ fun _ _ h => h
    · show env.authorize (w.tick + 1 + i) = _
      rw [Nat.add_assoc, Nat.add_comm 1 i]
      exact answers (i + 1) e found
    · rintro shown w' ⟨rfl, routers, numbers, tick⟩
      refine ⟨?_, routers, numbers, ?_⟩
      · cases h : authorize entry.binding <;> simp [h, listing]
      · rw [tick, List.length_cons]
        show w.tick + 1 + _ = _
        omega

theorem videoCatalog_spec (w : World η) :
    wp (videoCatalog env k) (fun v w' => v = videoField (if (w.routers k).video.isSome then env.videoCatalog w.tick else []) ∧
        w'.routers = w.routers ∧ w'.numbers = w.numbers)
      (fun _ _ => False) w := by
  rw [videoCatalog, wp_bind, wp_router]
  split
  · next none => exact ⟨by rw [none]; rfl, rfl, rfl⟩
  · next v some =>
    rw [wp_bind, wp_ask, some]
    exact ⟨rfl, rfl, rfl⟩

/-! ## The hello -/

/-- The welcome of a router. -/
def welcomeOf (env : Env η) (authorize : TopicBinding → Bool) (r : SessionRouter η) (tick : Nat) : Envelope :=
  .welcome r.epoch ((r.entries.values.filter (authorize ·.binding)).map listing)
    (videoField (if r.video.isSome then env.videoCatalog (tick + r.entries.values.length) else []))

/-- A hello enables the session exactly if the welcome fits. -/
theorem control_hello {authorize : TopicBinding → Bool} {wire : Wire} (hello : operationOf wire = "hello")
    (known : fields wire [] = .ok ()) (alone : Alone (w.routers k) []) (roomy : Roomy (w.routers k))
    (first : (w.routers k).welcomed = false) (answers : Answers env authorize w.tick (w.routers k).entries.values) :
    wp (Router.control env k wire none)
      (fun _ w' => (encode w.numbers (welcomeOf env authorize (w.routers k) w.tick)).byteLength ≤ (w.routers k).maxBytes ∧
        ∃ q, q.streams = pending (w.routers k) [encode w.numbers (welcomeOf env authorize (w.routers k) w.tick)] ∧
          w'.routers k = { ({ w.routers k with queue := q } : SessionRouter η).marked
            (.queued (welcomeOf env authorize (w.routers k) w.tick)) with welcomed := true })
      (fun _ w' => (w.routers k).maxBytes < (encode w.numbers (welcomeOf env authorize (w.routers k) w.tick)).byteLength ∧
        w'.routers k = w.routers k ∧ w'.numbers = w.numbers) w := by
  have unknown : ¬(w.routers k).welcomed = true := by simp [first]
  rw [Router.control, if_pos hello, wp_bind, wp_ofExcept, known]
  refine ⟨fun _ _ => ?_, fun _ h => by cases h⟩
  rw [wp_bind, wp_router, wp_bind, wp_throwIf]
  refine ⟨fun h => absurd h unknown, fun _ => ?_⟩
  rw [wp_bind]
  refine wp_mono (catalog_spec _ w answers) ?_ fun _ _ h => h.elim
  rintro _ w₁ ⟨rfl, routers₁, numbers₁, tick₁⟩
  rw [wp_bind]
  refine wp_mono (videoCatalog_spec w₁) ?_ fun _ _ h => h.elim
  rintro _ w₂ ⟨rfl, routers₂, numbers₂⟩
  rw [routers₁] at routers₂
  rw [routers₁, tick₁, wp_bind]
  show wp (respond k (welcomeOf env authorize (w.routers k) w.tick)) _ _ w₂
  by_cases fits : (encode w.numbers (welcomeOf env authorize (w.routers k) w.tick)).byteLength ≤ (w.routers k).maxBytes
  · have same : w₂.routers k = w.routers k := by rw [routers₂]
    have numbers : w₂.numbers = w.numbers := numbers₂.trans numbers₁
    refine wp_mono (respond_alone (same ▸ alone) (same ▸ roomy) (by rw [numbers, same]; exact fits)) ?_ fun _ _ h => h.elim
    rintro _ w₃ ⟨q, streams, rfl⟩
    rw [wp_update, World.setRouter_self, World.setRouter_self]
    rw [same, numbers] at *
    exact ⟨fits, q, streams, rfl⟩
  · have large := not_le.1 fits
    have thrown : (respond k (welcomeOf env authorize (w.routers k) w.tick)).exec w₂ = (.error "message_size", w₂) := by
      apply respond_large
      · rw [routers₂]
        exact alone.isOpen
      · rw [routers₂, numbers₂, numbers₁]
        exact large
    unfold wp
    rw [thrown]
    exact ⟨large, by rw [routers₂], numbers₂.trans numbers₁⟩

/-- A router that no peer has written to. -/
structure Unused (r : SessionRouter η) : Prop where
  alone : Alone r []
  roomy : Roomy r
  welcomed : r.welcomed = false
  count : r.controlCount = 0
  rate : 0 < r.limits.maxControlRateHz

/-- A clock that runs on. -/
structure Timely (r : SessionRouter η) (t : ℚ) : Prop where
  later : r.lastTime ≤ t
  early : t ≤ maxSafeInteger - (r.limits.requestTtlMs : ℚ)

theorem requestId_hello {wire : Wire} (known : fields wire [] = .ok ()) : requestId wire = .ok none := by
  have absent : Config.Map.field wire "id" = none := by
    unfold fields at known
    split at known
    · cases known
    · next clean =>
      unfold Config.Map.field
      rw [Option.map_eq_none_iff, List.find?_eq_none]
      intro f mem named
      apply clean
      rw [List.any_eq_true]
      exact ⟨f, mem, by simp [of_decide_eq_true named]⟩
  rw [requestId, absent]
  rfl

theorem parse_hello {raw : Raw} {wire : Wire} {t : ℚ} (unused : Unused (w.routers k)) (clock : env.clock w.tick = some t)
    (timely : Timely (w.routers k) t) (parsed : parseWire raw (w.routers k).maxBytes = .ok wire)
    (known : fields wire [] = .ok ()) :
    wp (parse env k "ros.control.v1" raw)
      (fun p w' => p = (.control, wire, none) ∧ w'.numbers = w.numbers ∧ w'.tick = w.tick + 1 ∧ ∃ window count,
        w'.routers k = { w.routers k with lastTime := t, controlWindow := window, controlCount := count })
      (fun _ _ => False) w := by
  have inTime : ¬(t < (w.routers k).lastTime ∨ t > maxSafeInteger - ((w.routers k).limits.requestTtlMs : ℚ)) :=
    fun h => h.elim (not_lt.2 timely.later) (not_lt.2 timely.early)
  have rate : ∀ window, ¬(if window = (w.routers k).controlWindow then (w.routers k).controlCount else 0) + 1 >
      (w.routers k).limits.maxControlRateHz := by
    intro window
    have := unused.rate
    rw [unused.count, ite_self]
    omega
  have control : isChannel "ros.control.v1" = some .control := rfl
  unfold parse
  rw [control]
  dsimp only
  rw [wp_bind, wp_when]
  refine ⟨fun _ => ?_, fun h => absurd rfl h⟩
  rw [controlRate, wp_bind, now, wp_bind, wp_router, wp_bind, wp_ask, clock]
  simp only [wp_bind, wp_throwIf, wp_update, wp_pure, wp_router, wp_ofExcept, World.setRouter_self]
  refine ⟨fun h => absurd h inTime, fun _ => ⟨fun h => absurd h (rate _), fun _ => ⟨fun wire' same => ?_, fun e thrown => ?_⟩⟩⟩
  · obtain rfl := Except.ok.inj (parsed.symm.trans same)
    rw [requestId_hello known]
    refine ⟨fun id same => ?_, fun e thrown => by cases thrown⟩
    obtain rfl := Except.ok.inj same
    exact ⟨rfl, rfl, rfl, _, _, rfl⟩
  · exact absurd (parsed.symm.trans thrown) (by simp)

/-- Router `k` answered with a welcome and its session is enabled. -/
def Greeted (w : World η) (k : Nat) : Prop :=
  (w.routers k).welcomed = true ∧
    ∃ epoch catalog video, .handed .control (.welcome epoch catalog video) true ∈ (w.routers k).trace

/-- After a failure that left nothing behind the peer is told, and nothing else happens. -/
theorem error_alone (alone : Alone (w.routers k) []) (roomy : Roomy (w.routers k)) (accepts : ∀ n, env.send n = true)
    (fits : (encode w.numbers (.error none)).byteLength ≤ (w.routers k).maxBytes) :
    wp (Router.error env k none) (fun _ w' => (w'.routers k).welcomed = (w.routers k).welcomed) (fun _ _ => False) w := by
  rw [Router.error, errorWith, wp_bind, wp_router, wp_when]
  refine ⟨fun _ => ?_, fun _ => rfl⟩
  rw [wp_tryCatch, wp_bind]
  refine wp_mono (respond_alone alone roomy fits) ?_ fun _ _ h => h.elim
  rintro _ w₁ ⟨q, streams, rfl⟩
  have alone₁ : Alone ((w.setRouter k ({ w.routers k with queue := q }.marked (.queued (.error none)))).routers k)
      [encode w.numbers (.error none)] := by
    rw [World.setRouter_self]
    exact ⟨alone.isOpen, alone.subscriptions, alone.video, streams⟩
  refine wp_mono (flush_alone alone₁ accepts) ?_ fun _ _ h => h.elim
  rintro _ w₂ ⟨q', same⟩
  rw [same, World.setRouter_self]
  rfl

/-- The first hello of a router is answered exactly if the welcome fits. -/
theorem receive_hello {authorize : TopicBinding → Bool} {raw : Raw} {wire : Wire} {t : ℚ} (unused : Unused (w.routers k))
    (clock : env.clock w.tick = some t) (timely : Timely (w.routers k) t)
    (parsed : parseWire raw (w.routers k).maxBytes = .ok wire) (hello : operationOf wire = "hello")
    (known : fields wire [] = .ok ()) (answers : Answers env authorize (w.tick + 1) (w.routers k).entries.values)
    (accepts : ∀ n, env.send n = true) (fits : (encode w.numbers (.error none)).byteLength ≤ (w.routers k).maxBytes) :
    Greeted ((receive env k "ros.control.v1" raw).after w) k ↔
      (encode w.numbers (welcomeOf env authorize (w.routers k) (w.tick + 1))).byteLength ≤ (w.routers k).maxBytes := by
  apply after_of_wp (P := fun w' : World η => Greeted w' k ↔
    (encode w.numbers (welcomeOf env authorize (w.routers k) (w.tick + 1))).byteLength ≤ (w.routers k).maxBytes)
  rw [receive, wp_bind, wp_router, wp_when]
  refine ⟨fun _ => ?_, fun h => by simp [unused.alone.isOpen] at h⟩
  rw [wp_bind, wp_tryCatch, wp_bind]
  refine wp_mono (parse_hello unused clock timely parsed known) ?_ fun _ _ h => h.elim
  rintro _ w₁ ⟨rfl, numbers₁, tick₁, window, count, same₁⟩
  rw [wp_pure]
  dsimp only
  rw [wp_tryCatch, wp_bind, dispatch, if_pos rfl]
  have alone₁ : Alone (w₁.routers k) [] := by
    rw [same₁]
    exact ⟨unused.alone.isOpen, unused.alone.subscriptions, unused.alone.video, unused.alone.streams⟩
  have roomy₁ : Roomy (w₁.routers k) := by
    rw [same₁]
    exact ⟨unused.roomy.entries, unused.roomy.empty, unused.roomy.limit, unused.roomy.budget⟩
  have first₁ : (w₁.routers k).welcomed = false := by
    rw [same₁]
    exact unused.welcomed
  have answers₁ : Answers env authorize w₁.tick (w₁.routers k).entries.values := by
    rw [tick₁, same₁]
    exact answers
  have welcome : welcomeOf env authorize (w₁.routers k) w₁.tick = welcomeOf env authorize (w.routers k) (w.tick + 1) := by
    rw [tick₁, same₁]
    rfl
  have maxBytes : (w₁.routers k).maxBytes = (w.routers k).maxBytes := by rw [same₁]
  have handled := control_hello hello known alone₁ roomy₁ first₁ answers₁
  rw [welcome, numbers₁, maxBytes] at handled
  refine wp_mono handled ?_ ?_
  · rintro _ w₂ ⟨small, q, streams, same₂⟩
    have alone₂ : Alone (w₂.routers k) [encode w.numbers (welcomeOf env authorize (w.routers k) (w.tick + 1))] := by
      rw [same₂]
      exact ⟨alone₁.isOpen, alone₁.subscriptions, alone₁.video, streams⟩
    refine wp_mono (flush_alone alone₂ accepts) ?_ fun _ _ h => h.elim
    rintro _ w₃ ⟨q', same₃⟩
    have enabled : (w₃.routers k).welcomed = true := by
      rw [same₃, same₂]
      rfl
    have handed : .handed .control (welcomeOf env authorize (w.routers k) (w.tick + 1)) true ∈ (w₃.routers k).trace := by
      rw [same₃]
      exact List.mem_append_right _ (List.mem_singleton.2 rfl)
    exact iff_of_true ⟨enabled, _, _, _, handed⟩ small
  · rintro _ w₂ ⟨large, same₂, numbers₂⟩
    refine wp_mono (error_alone (same₂ ▸ alone₁) (same₂ ▸ roomy₁) accepts ?_) ?_ fun _ _ h => h.elim
    · rw [numbers₂, same₂, maxBytes]
      exact fits
    · intro _ w₃ same₃
      refine iff_of_false (fun greeted => ?_) (not_le.2 large)
      rw [Greeted, same₃, same₂, first₁] at greeted
      exact Bool.noConfusion greeted.1

/-! ## Accepted configurations -/

theorem addEntries_values {topics : List TopicBinding} {bindings : List (RouterBinding η)}
    {entries entries' : Table String (RouterBinding η)} (added : addEntries topics bindings entries = .ok entries') :
    entries'.values = entries.values ++ bindings := by
  induction bindings generalizing entries with
  | nil =>
    obtain rfl := Except.ok.inj added
    exact (List.append_nil _).symm
  | cons entry bindings ih =>
    rw [addEntries] at added
    split at added
    · cases added
    next fine =>
    split at added
    · cases added
    have absent : entries.get? entry.binding.publicName = none := by
      rw [not_or] at fine
      simpa [Table.has] using fine.2
    rw [ih added, Table.values, Table.entries_set_of_get?_none _ absent, List.map_append, List.append_assoc]
    rfl

/-- A new router, with what it took from its options. -/
theorem unused_of_made {options : RouterOptions η} {r : SessionRouter η} (made : options.router = .ok r) (sessionId : String)
    (t : ℚ) : Unused ({ r with sessionId := sessionId, lastTime := t, closed := false } : SessionRouter η) ∧
      r.entries.values = options.bindings := by
  obtain ⟨limits, entries, hlimits, hentries, budget, rfl⟩ := router_made made
  have rate : 0 < limits.maxControlRateHz := by
    unfold RouterOptions.limits at hlimits
    split at hlimits
    · next rate =>
      obtain rfl := Except.ok.inj hlimits
      exact (positiveLimit_pos rate).1
    · cases hlimits
  have video : ∀ v : VideoRouter, options.slots.map (fun slots => (⟨.empty, slots⟩ : VideoRouter)) = some v → v.bound = .empty := by
    intro v h
    obtain ⟨slots, -, rfl⟩ := Option.map_eq_some_iff.1 h
    rfl
  exact ⟨⟨⟨rfl, rfl, video, rfl⟩, ⟨(limits_pos hlimits).1, rfl, rfl, budget⟩, rfl, rfl, rate⟩, addEntries_values hentries⟩

/-- An entry of the registry is made for its topic. -/
structure Made (entry : RouterBinding η) (t : TopicBinding) : Prop where
  binding : entry.binding = t
  schemaId : Verbatim entry.schemaId ∧ entry.schemaId.length = 71

theorem registry_made {describe : TopicBinding → Except String (Codec η × List UInt8)} {config : BridgeConfig}
    {registry : List (RouterBinding η)} (registered : createRegistry describe config = .ok registry)
    (digests : ∀ t codec digest, describe t = .ok (codec, digest) → digest.length = 32) :
    List.Forall₂ Made registry config.topics := by
  apply List.Forall₂.flip
  refine (forall₂_of_mapM registered).imp fun t entry made => ?_
  obtain ⟨⟨codec, digest⟩, described, made⟩ := exists_of_bind made
  obtain rfl := Except.ok.inj made
  refine ⟨rfl, schemaId_verbatim digest, ?_⟩
  show ("sha256:" ++ hexDigest digest).length = 71
  rw [String.length_append, length_hexDigest, digests t codec digest described]
  rfl

/-- The allowed entries of a registry are listed as their topics. -/
theorem listing_shows {registry : List (RouterBinding η)} {topics : List TopicBinding} (made : List.Forall₂ Made registry topics)
    (authorize : TopicBinding → Bool) :
    List.Forall₂ Shows ((registry.filter (authorize ·.binding)).map listing) (topics.filter authorize) := by
  induction made with
  | nil => exact .nil
  | @cons entry t registry topics first rest ih =>
    rw [List.filter_cons, List.filter_cons, first.binding]
    cases authorize t with
    | false => exact ih
    | true => exact .cons ⟨by rw [listing, first.binding], by rw [listing, first.binding], first.schemaId⟩ ih

/-- A router of a configuration whose names are written as they are. -/
theorem greeted_of_made {config : BridgeConfig} (largest : config.limits.maxMessageBytes = 16384)
    (verbatim : ∀ t ∈ config.topics, Verbatim t.publicName ∧ Verbatim t.rosType) {registry : List (RouterBinding η)}
    (listed : List.Forall₂ Made registry config.topics) {bytes : List UInt8} (sixteen : bytes.length = 16) {limits : RouterLimits}
    {slots : Option (List VideoSlot)} {env₀ : Env η} {w₀ w₁ : World η} (made : (construct env₀ (makeRouter config registry limits
      config.limits.maxMessageBytes (randomUUID bytes) slots)).exec w₀ = (.ok (), w₁))
    {w : World η} (untouched : w.routers w₀.born = w₁.routers w₀.born) (one : w.numbers.text 1 = "1") {env : Env η} {t : ℚ}
    (clock : env.clock w.tick = some t) (timely : Timely (w.routers w₀.born) t) {authorize : TopicBinding → Bool}
    (answers : Answers env authorize (w.tick + 1) registry) (accepts : ∀ n, env.send n = true) {raw : Raw} {wire : Wire}
    (parsed : parseWire raw 16384 = .ok wire) (hello : operationOf wire = "hello") (known : fields wire [] = .ok ()) :
    Greeted ((receive env w₀.born "ros.control.v1" raw).after w) w₀.born ↔
      welcomeBytes (config.topics.filter authorize)
        (if slots.isSome then env.videoCatalog (w.tick + 1 + config.topics.length) else []) ≤ 16384 := by
  obtain ⟨-, r, sessionId, value, router, here⟩ := of_wp_ok (construct_spec _ w₀) made
  obtain ⟨unused, entries⟩ := unused_of_made router sessionId value
  obtain ⟨maxBytes, video, -, -⟩ := router_spec router
  have epoch := (router_fresh router sessionId value).2
  rw [← here, ← untouched] at unused
  have same := untouched.trans here
  have limit : (w.routers w₀.born).maxBytes = 16384 := by
    rw [same]
    show r.maxBytes = _
    rw [maxBytes]
    show min 16384 config.limits.maxMessageBytes = _
    rw [largest]
    rfl
  have values : (w.routers w₀.born).entries.values = registry := by
    rw [same]
    exact entries
  have isSome : (w.routers w₀.born).video.isSome = slots.isSome := by
    rw [same]
    show r.video.isSome = _
    rw [video, Option.isSome_map]
    rfl
  have uuid : (w.routers w₀.born).epoch = randomUUID bytes := by
    rw [same]
    exact epoch
  have refusal : (encode w.numbers (.error none)).byteLength ≤ (w.routers w₀.born).maxBytes := by
    rw [size_error one, limit]
    decide
  rw [receive_hello unused clock timely (limit.symm ▸ parsed) hello known (values.symm ▸ answers) accepts refusal, limit, welcomeOf,
    values, listed.length_eq, isSome, uuid, size_welcome one ⟨randomUUID_verbatim bytes, length_randomUUID sixteen⟩
      (listing_shows listed authorize) fun t mem => verbatim t (List.mem_of_mem_filter mem)]

/-! ## Configurations of the largest message limit -/

theorem addEntries_ok {topics : List TopicBinding} {bindings : List (RouterBinding η)} {entries : Table String (RouterBinding η)}
    (known : ∀ e ∈ bindings, e.binding ∈ topics) (named : ∀ e ∈ bindings, identifier e.schemaId = true)
    (free : ∀ e ∈ bindings, entries.get? e.binding.publicName = none)
    (distinct : (bindings.map fun e => e.binding.publicName).Nodup) : ∃ entries', addEntries topics bindings entries = .ok entries' := by
  induction bindings generalizing entries with
  | nil => exact ⟨entries, rfl⟩
  | cons entry bindings ih =>
    have absent : entries.has entry.binding.publicName = false := by
      rw [Table.has, free entry List.mem_cons_self]
      rfl
    have fine : ¬(entry.binding ∉ topics ∨ entries.has entry.binding.publicName = true) := by
      rw [absent]
      exact fun h => h.elim (fun h => h (known entry List.mem_cons_self)) Bool.noConfusion
    have valid : ¬(!identifier entry.schemaId) = true := by
      rw [named entry List.mem_cons_self]
      exact Bool.noConfusion
    rw [List.map_cons, List.nodup_cons] at distinct
    rw [addEntries, if_neg fine, if_neg valid]
    apply ih (fun e mem => known e (List.mem_cons_of_mem _ mem)) (fun e mem => named e (List.mem_cons_of_mem _ mem)) _ distinct.2
    intro e mem
    have other : e.binding.publicName ≠ entry.binding.publicName :=
      fun same => distinct.1 (same ▸ List.mem_map_of_mem (f := fun e : RouterBinding η => e.binding.publicName) mem)
    rw [Table.get?_set_ne _ _ other]
    exact free e (List.mem_cons_of_mem _ mem)

theorem router_ok {options : RouterOptions η} {limits : Limits} (valid : options.limits = .ok limits)
    (epoch : identifier options.epoch = true) {entries : Table String (RouterBinding η)}
    (added : addEntries options.topics options.bindings .empty = .ok entries) {q q' : DeliveryQueue Bytes}
    (created : DeliveryQueue.create (some ((limits.maxHandles + 1 : Nat) : ℚ)) (some (options.maxPeerQueueBytes : ℚ))
      (some (options.maxBytes : ℚ)) = .ok q)
    (registered : (DeliveryQueue.register "control" .reliable limits.maxRequests).exec q = (.ok (), q')) :
    ∃ r, options.router = .ok r := by
  have go {α β : Type} (a : α) (f : α → Except String β) : ((.ok a : Except String α) >>= f) = f a := rfl
  unfold RouterOptions.router
  rw [valid, go, epoch, added, created]
  simp only [go, registered]
  exact ⟨_, rfl⟩

/-- The name of a topic: two letters, different for the first 676 numbers. -/
def shortName (n : Nat) : String := String.ofList ['/', Char.ofNat (97 + n / 26), Char.ofNat (97 + n % 26)]

theorem names_distinct {n : Nat} (few : n ≤ 676) : ((List.range n).map shortName).Nodup := by
  have letters : ∀ i : Fin 26, (Char.ofNat (97 + i)).toNat = 97 + i := by decide
  have letter : ∀ i, i < 26 → (Char.ofNat (97 + i)).toNat = 97 + i := fun i small => letters ⟨i, small⟩
  apply List.Nodup.map_on _ List.nodup_range
  intro i hi j hj same
  rw [List.mem_range] at hi hj
  have texts := String.ofList_injective same
  rw [List.cons.injEq, List.cons.injEq, List.cons.injEq] at texts
  have high := congrArg Char.toNat texts.2.1
  have low := congrArg Char.toNat texts.2.2.1
  rw [letter _ (by omega), letter _ (by omega)] at high low
  omega

/-- A document of `n` topics. -/
def largeDocument (n : Nat) : Json := .object [
  ("version", .number (some 1)), ("robot_id", .string "r"),
  ("limits", numbersOf [("max_peers", 3), ("max_message_bytes", 16384), ("max_peer_queue_bytes", 65536),
    ("max_channel_buffered_bytes", 16384)]),
  ("topics", .object ((List.range n).map fun i => (shortName i, smallTopic)))]

/-- The configuration of `largeDocument`. -/
def largeConfig (n : Nat) : BridgeConfig :=
  ⟨"r", ⟨3, 16384, 65536, 16384, by decide, by decide, by decide, by decide, by decide⟩,
    (List.range n).map fun i => plainTopic (shortName i) .rosToWeb none⟩

theorem bytes_large (n : Nat) : welcomeBytes ((largeConfig n).topics.filter fun _ => true) [] = 82 + 181 * n + (n - 1) := by
  have each : ∀ i, entryBytes (plainTopic (shortName i) .rosToWeb none) = 181 := by
    intro i
    have name : (shortName i).length = 3 := String.length_ofList
    show 159 + (shortName i).length + "std_msgs/msg/String".length = 181
    rw [name]
    rfl
  have total : ∀ l : List Nat, ((l.map fun i => plainTopic (shortName i) .rosToWeb none).map entryBytes).sum = 181 * l.length := by
    intro l
    induction l with
    | nil => rfl
    | cons i l ih =>
      rw [List.map_cons, List.map_cons, List.sum_cons, ih, each, List.length_cons]
      omega
  rw [List.filter_eq_self.2 fun _ _ => rfl]
  unfold welcomeBytes largeConfig trackBytes
  rw [total, List.length_map, List.length_range, if_pos rfl]
  omega

/-- A schema with a digest of zeros for every topic. -/
def plainDescribe (_ : TopicBinding) : Except String (Codec Json × List UInt8) := .ok (plainCodec, List.replicate 32 0)

def plainEntry (b : TopicBinding) : RouterBinding Json := ⟨b, plainCodec, "sha256:" ++ hexDigest (List.replicate 32 0)⟩

def plainOptions (n : Nat) : RouterOptions Json :=
  makeRouter (largeConfig n) ((largeConfig n).topics.map plainEntry) ⟨some 4, some 8, some 1000, some 100⟩ 16384
    (randomUUID (List.replicate 16 0)) none

/-- A bridge with a router of that configuration. -/
def largeBridge (n : Nat) : World Json := (construct (.calm 0) (plainOptions n)).after smallBridge

theorem registered_large (n : Nat) : createRegistry plainDescribe (largeConfig n) = .ok ((largeConfig n).topics.map plainEntry) := by
  show (largeConfig n).topics.mapM (fun b => Except.ok (plainEntry b)) = _
  exact List.mapM_pure

theorem made_large (n : Nat) (distinct : ((List.range n).map shortName).Nodup) :
    (construct (.calm 0) (plainOptions n)).exec smallBridge = (.ok (), largeBridge n) ∧
      (largeBridge n).numbers.text 1 = "1" ∧ Timely ((largeBridge n).routers 0) 0 := by
  have digest : identifier ("sha256:" ++ hexDigest (List.replicate 32 0)) = true := by decide +kernel
  obtain ⟨entries, added⟩ : ∃ entries, addEntries (plainOptions n).topics (plainOptions n).bindings .empty = .ok entries := by
    have entry : ∀ e ∈ (plainOptions n).bindings, ∃ b ∈ (largeConfig n).topics, plainEntry b = e := fun e mem => List.mem_map.1 mem
    apply addEntries_ok
    · intro e mem
      obtain ⟨b, here, rfl⟩ := entry e mem
      exact here
    · intro e mem
      obtain ⟨b, -, rfl⟩ := entry e mem
      exact digest
    · exact fun e _ => rfl
    · have names : (plainOptions n).bindings.map (fun e => e.binding.publicName) = (List.range n).map shortName := by
        show (((List.range n).map fun i => plainTopic (shortName i) .rosToWeb none).map plainEntry).map _ = _
        rw [List.map_map, List.map_map]
        rfl
      rwa [names]
  have limits : (plainOptions n).limits = .ok ⟨4, 8, 1000, 100⟩ := by
    have checked : positiveLimit (some 4) = some 4 ∧ positiveLimit (some 8) = some 8 ∧ positiveLimit (some 1000) = some 1000 ∧
        positiveLimit (some 100) = some 100 := by decide +kernel
    obtain ⟨handles, requests, ttl, rate⟩ := checked
    unfold RouterOptions.limits plainOptions makeRouter
    rw [handles, requests, ttl, rate]
  have epoch : identifier (randomUUID (List.replicate 16 0)) = true := by decide +kernel
  have created : DeliveryQueue.create (some ((5 : Nat) : ℚ)) (some ((65536 : Nat) : ℚ)) (some ((16384 : Nat) : ℚ)) =
      .ok (⟨⟨5, 65536, 16384⟩, .empty, 0, 0⟩ : DeliveryQueue Bytes) := by
    have checked : positiveLimit (some ((5 : Nat) : ℚ)) = some 5 ∧ positiveLimit (some ((65536 : Nat) : ℚ)) = some 65536 ∧
        positiveLimit (some ((16384 : Nat) : ℚ)) = some 16384 := by decide +kernel
    obtain ⟨streams, bytes, messageBytes⟩ := checked
    unfold DeliveryQueue.create
    rw [streams, bytes, messageBytes]
    rfl
  have registered : (DeliveryQueue.register "control" .reliable 8).exec (⟨⟨5, 65536, 16384⟩, .empty, 0, 0⟩ : DeliveryQueue Bytes) =
      (.ok (), _) := exec_of_fst (by decide +kernel)
  obtain ⟨r, router⟩ := router_ok limits epoch added created registered
  have session : (CommandGuard.openSession (randomUUID (List.replicate 16 0))).exec smallGuard = (.ok "g:1", _) :=
    exec_of_fst (by decide +kernel)
  have ttl : r.limits.requestTtlMs = 1000 := by
    obtain ⟨limits', entries', valid, -, -, rfl⟩ := router_made router
    obtain rfl := Except.ok.inj (limits.symm.trans valid)
    rfl
  have runs : wp (construct (.calm 0) (plainOptions n)) (fun _ w => w.numbers.text 1 = "1" ∧ Timely (w.routers 0) 0)
      (fun _ _ => False) smallBridge := by
    rw [construct, wp_bind, wp_get, wp_bind, router, wp_ofExcept]
    refine ⟨fun r' same => ?_, fun e thrown => by cases thrown⟩
    obtain rfl := Except.ok.inj same
    rw [wp_bind, wp_ask]
    dsimp only [Env.calm]
    rw [wp_bind, wp_throwIf, ttl]
    refine ⟨fun h => absurd h (by decide +kernel), fun _ => ?_⟩
    rw [wp_bind, wp_onGuard]
    have one : plainNumbers.text 1 = "1" := by decide +kernel
    refine (wp_of_exec session).2 ⟨one, ⟨le_refl (0 : ℚ), ?_⟩⟩
    show (0 : ℚ) ≤ maxSafeInteger - (r.limits.requestTtlMs : ℚ)
    rw [ttl]
    decide +kernel
  rcases exec_cases runs with ⟨_, w, kept, returned⟩ | ⟨_, _, never, -⟩
  · have after : largeBridge n = w := congrArg Prod.snd returned
    exact ⟨exec_of_fst (congrArg Prod.fst returned), after ▸ kept⟩
  · exact never.elim

theorem plainDescribe_length (t : TopicBinding) (codec : Codec Json) (digest : List UInt8)
    (h : plainDescribe t = .ok (codec, digest)) : digest.length = 32 := by
  obtain rfl := congrArg Prod.snd (Except.ok.inj h)
  rfl

theorem answers_calm (t : ℚ) (tick : Nat) (entries : List (RouterBinding Json)) : Answers (.calm t) (fun _ => true) tick entries :=
  fun _ _ _ => rfl

theorem parsed_hello : parseWire (envelope "hello" []) 16384 = .ok [("v", .number (some 1)), ("op", .string "hello")] := rfl

/-- The first hello to a router of such a configuration. -/
theorem greeted_large {n : Nat}
    (accepted : parseBridgeConfig (fun _ => some (largeDocument n)) "" smallSettings = .ok (largeConfig n))
    (distinct : ((List.range n).map shortName).Nodup) :
    Greeted ((receive (.calm 0) smallBridge.born "ros.control.v1" (envelope "hello" [])).after (largeBridge n)) smallBridge.born ↔
      welcomeBytes ((largeConfig n).topics.filter fun _ => true) [] ≤ 16384 := by
  obtain ⟨made, one, timely⟩ := made_large n distinct
  have sixteen : (List.replicate 16 (0 : UInt8)).length = 16 := rfl
  have clock : (Env.calm 0 : Env Json).clock (largeBridge n).tick = some 0 := rfl
  exact greeted_of_made rfl (config_verbatim _ _ _ _ accepted) (registry_made (registered_large n) plainDescribe_length) sixteen
    made rfl one clock timely (answers_calm 0 _ _) (fun _ => rfl) parsed_hello rfl rfl

theorem accepted_large : parseBridgeConfig (fun _ => some (largeDocument 90)) "" smallSettings = .ok (largeConfig 90) := by
  decide +kernel

/-- For every accepted configuration with the largest message limit, its registry, its
epoch and every authorization, the first hello of a router is answered with a welcome,
and enables the session, exactly if the topics and tracks that the peer may use take at
most 16384 bytes. -/
theorem greeted_iff {yaml : String → Option Json} {source : String} {options : ConfigOptions} {config : BridgeConfig}
    (accepted : parseBridgeConfig yaml source options = .ok config) (largest : config.limits.maxMessageBytes = 16384)
    {describe : TopicBinding → Except String (Codec η × List UInt8)} {registry : List (RouterBinding η)}
    (registered : createRegistry describe config = .ok registry)
    (digests : ∀ t codec digest, describe t = .ok (codec, digest) → digest.length = 32)
    {bytes : List UInt8} (sixteen : bytes.length = 16) {limits : RouterLimits} {slots : Option (List VideoSlot)}
    {env₀ : Env η} {w₀ w₁ : World η} (made : (construct env₀ (makeRouter config registry limits config.limits.maxMessageBytes
      (randomUUID bytes) slots)).exec w₀ = (.ok (), w₁))
    {w : World η} (untouched : w.routers w₀.born = w₁.routers w₀.born) (one : w.numbers.text 1 = "1") {env : Env η} {t : ℚ}
    (clock : env.clock w.tick = some t) (timely : Timely (w.routers w₀.born) t) {authorize : TopicBinding → Bool}
    (answers : Answers env authorize (w.tick + 1) registry) (accepts : ∀ n, env.send n = true) {raw : Raw} {wire : Wire}
    (parsed : parseWire raw 16384 = .ok wire) (hello : operationOf wire = "hello") (known : fields wire [] = .ok ()) :
    Greeted ((receive env w₀.born "ros.control.v1" raw).after w) w₀.born ↔
      welcomeBytes (config.topics.filter authorize)
        (if slots.isSome then env.videoCatalog (w.tick + 1 + config.topics.length) else []) ≤ 16384 := by
  exact greeted_of_made largest (config_verbatim yaml source options config accepted) (registry_made registered digests) sixteen made
    untouched one clock timely answers accepts parsed hello known

/-- The welcome of a small configuration fits, and its peer is greeted. -/
theorem greeted_small :
    parseBridgeConfig (fun _ => some (largeDocument 1)) "" smallSettings = .ok (largeConfig 1) ∧
      Greeted ((receive (.calm 0) smallBridge.born "ros.control.v1" (envelope "hello" [])).after (largeBridge 1))
        smallBridge.born := by
  have accepted : parseBridgeConfig (fun _ => some (largeDocument 1)) "" smallSettings = .ok (largeConfig 1) := by decide +kernel
  -- For any number of topics, so that nothing of the bridge is evaluated.
  have general : ∀ n, parseBridgeConfig (fun _ => some (largeDocument n)) "" smallSettings = .ok (largeConfig n) →
      ((List.range n).map shortName).Nodup →
      (Greeted ((receive (.calm 0) smallBridge.born "ros.control.v1" (envelope "hello" [])).after (largeBridge n)) smallBridge.born ↔
        welcomeBytes ((largeConfig n).topics.filter fun _ => true)
          (if (none : Option (List VideoSlot)).isSome then [] else []) ≤ 16384) := by
    intro n accepted distinct
    obtain ⟨made, one, timely⟩ := made_large n distinct
    have sixteen : (List.replicate 16 (0 : UInt8)).length = 16 := rfl
    exact greeted_iff accepted rfl (registered_large n) plainDescribe_length sixteen made rfl one rfl timely (answers_calm 0 _ _)
      (fun _ => rfl) parsed_hello rfl rfl
  exact ⟨accepted, (general 1 accepted (names_distinct (by decide))).2 (by decide +kernel)⟩

/-- An accepted configuration whose router greets nobody. -/
theorem greeted_never_large : ¬∀ (yaml : String → Option Json) (source : String) (options : ConfigOptions) (config : BridgeConfig),
    parseBridgeConfig yaml source options = .ok config → config.limits.maxMessageBytes = 16384 → options.maxTopics = none →
    ∀ (describe : TopicBinding → Except String (Codec Json × List UInt8)) (registry : List (RouterBinding Json)),
      createRegistry describe config = .ok registry → (∀ t codec digest, describe t = .ok (codec, digest) → digest.length = 32) →
    ∀ (bytes : List UInt8) (limits : RouterLimits) (slots : Option (List VideoSlot)) (env₀ : Env Json) (w₀ w₁ : World Json),
      bytes.length = 16 → (construct env₀ (makeRouter config registry limits config.limits.maxMessageBytes (randomUUID bytes)
        slots)).exec w₀ = (.ok (), w₁) →
    ∀ (w : World Json) (env : Env Json) (t : ℚ) (authorize : TopicBinding → Bool), w.routers w₀.born = w₁.routers w₀.born →
      w.numbers.text 1 = "1" → env.clock w.tick = some t → Timely (w.routers w₀.born) t →
      Answers env authorize (w.tick + 1) registry → (∀ n, env.send n = true) →
    ∀ (raw : Raw) (wire : Wire), parseWire raw 16384 = .ok wire → operationOf wire = "hello" → fields wire [] = .ok () →
      Greeted ((receive env w₀.born "ros.control.v1" raw).after w) w₀.born := by
  intro claim
  have greeted : ∀ n, parseBridgeConfig (fun _ => some (largeDocument n)) "" smallSettings = .ok (largeConfig n) →
      ((List.range n).map shortName).Nodup →
      Greeted ((receive (.calm 0) smallBridge.born "ros.control.v1" (envelope "hello" [])).after (largeBridge n)) smallBridge.born := by
    intro n accepted distinct
    obtain ⟨made, one, timely⟩ := made_large n distinct
    exact claim _ _ _ _ accepted rfl rfl plainDescribe _ (registered_large n) plainDescribe_length
      (List.replicate 16 0) _ _ _ _ _ rfl made (largeBridge n) (.calm 0) 0 (fun _ => true) rfl one rfl timely (answers_calm 0 _ _)
      (fun _ => rfl) _ _ parsed_hello rfl rfl
  have distinct := names_distinct (show 90 ≤ 676 by decide)
  have fits := (greeted_large accepted_large distinct).1 (greeted 90 accepted_large distinct)
  rw [bytes_large] at fits
  exact absurd fits (by decide)

end RosBridge.App
