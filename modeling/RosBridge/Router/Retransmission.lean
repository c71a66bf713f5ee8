import RosBridge.Router.Inputs
import RosBridge.Router.Turns
/-!
# Retransmissions

For its lifetime the response to a request is in the cache (`Remembered`). A
retransmission is answered with it, and nothing else happens on the way: `receive` is
then the queueing of these bytes and the flush that ends every `receive`.
-/

namespace RosBridge.Router

open Lib Prog Session Config Relation

variable {η : Type} {allow : Allow} {env : Env η} {w w' : World η} {k : Nat} {r r' : SessionRouter η}

/-! ## Responses are remembered -/

/-- The response is cached. -/
def SessionRouter.Caches (r : SessionRouter η) (id input : String) (output : Bytes) (t : ℚ) : Prop :=
  ∃ e, r.cache.entries.get? id = some e ∧ e.input = input ∧ e.output = output ∧ e.expires = t + r.cache.ttlMs

/-- The cache has the limits of the router, and what was stored is in it until it has
expired or the router is closed. -/
structure Remembered (r : SessionRouter η) : Prop where
  maxEntries : r.cache.maxEntries = r.limits.maxRequests
  ttlMs : r.cache.ttlMs = r.limits.requestTtlMs
  welcomed : ∀ id input output t, .stored id input output t ∈ r.trace → r.welcomed = true
  stored : ∀ id input output t, .stored id input output t ∈ r.trace →
    r.closed = true ∨ t + r.cache.ttlMs ≤ r.lastTime ∨ r.Caches id input output t

/-- Nothing is stored, and the cache is as before. -/
theorem Remembered.of_same (h : Remembered r) (kept : r.Kept r') (cache : r'.cache = r.cache)
    (trace : ∀ id input output t, .stored id input output t ∈ r'.trace → .stored id input output t ∈ r.trace) :
    Remembered r' := by
  refine ⟨by rw [cache, kept.limits, h.maxEntries], by rw [cache, kept.limits, h.ttlMs], fun id input output t ht => ?_,
    fun id input output t ht => ?_⟩
  · exact kept.welcomed (h.welcomed id input output t (trace _ _ _ _ ht))
  · rcases h.stored id input output t (trace _ _ _ _ ht) with closed | old | cached
    · exact .inl (kept.closed closed)
    · exact .inr (.inl (by rw [cache]; exact old.trans kept.lastTime))
    · exact .inr (.inr (by rw [SessionRouter.Caches, cache]; exact cached))

theorem Control.cache_trace {bytes : Bytes} (c : Control r bytes r') :
    r'.cache = r.cache ∧ ∀ id input output t, .stored id input output t ∈ r'.trace → .stored id input output t ∈ r.trace := by
  cases c with
  | queued => exact ⟨rfl, by simp [SessionRouter.marked]⟩
  | jammed | dead => exact ⟨rfl, fun _ _ _ _ h => h⟩

/-- Storing under an identifier that is free forgets nothing. -/
theorem Remembered.store (h : Remembered r) {id input : String} {output : Bytes} {t : ℚ} (storable : Storable r.cache id input output)
    (welcomed : r.welcomed = true) : Remembered (r.store id input output t) := by
  refine ⟨h.maxEntries, h.ttlMs, fun _ _ _ _ _ => welcomed, fun id' input' output' t' ht => ?_⟩
  rcases List.mem_append.1 ht with ht | ht
  · refine (h.stored id' input' output' t' ht).imp_right (Or.imp_right ?_)
    rintro ⟨e, found, same⟩
    refine ⟨e, ?_, same⟩
    have ne : id' ≠ id := by
      rintro rfl
      rw [storable.absent] at found
      cases found
    simp only [SessionRouter.store, RequestCache.store_after]
    rw [Table.get?_set_ne _ _ ne, found]
  · obtain ⟨rfl, rfl, rfl, rfl⟩ : id' = id ∧ input' = input ∧ output' = output ∧ t' = t := by simpa using ht
    exact .inr (.inr ⟨_, Table.get?_set_self _ _ _, rfl, rfl, rfl⟩)

theorem Remembered.expire (h : Remembered r) {t : ℚ} (past : t ≤ r.lastTime) :
    Remembered { r with cache := (RequestCache.expire t).after r.cache } := by
  refine ⟨h.maxEntries, h.ttlMs, h.welcomed, fun id input output t' ht => ?_⟩
  rcases h.stored id input output t' ht with closed | old | ⟨e, found, same, out, expires⟩
  · exact .inl closed
  · exact .inr (.inl old)
  · by_cases late : t < e.expires
    · exact .inr (.inr ⟨e, (RequestCache.get?_expire t r.cache id e).2 ⟨found, late⟩, same, out, expires⟩)
    · have expired : t' + (r.cache.ttlMs : ℚ) ≤ r.lastTime := expires ▸ (not_lt.1 late).trans past
      exact .inr (.inl expired)

theorem Move.remembered {numbers : NumberText} {media : MediaService} (m : Move numbers allow media r r') (h : Remembered r) :
    Remembered r' := by
  have kept := m.kept
  cases m with
  | control bytes _ control => exact h.of_same kept control.cache_trace.1 control.cache_trace.2
  | expired t cached past => exact h.expire past
  | stored id input output t cached storable now welcomed => exact h.store storable welcomed
  | counted | ticked | issued | paced | advertised | unadvertised | flagged | bound =>
    exact h.of_same kept rfl fun _ _ _ _ h => h
  | readied | sampled | unsubscribed | admitted | detaching =>
    exact h.of_same kept rfl (by simp [SessionRouter.marked, SessionRouter.number])

theorem Turn.remembered (t : Turn allow w k r) (h : Remembered (w.routers k)) : Remembered r := by
  have kept := t.kept
  cases t with
  | move _ move => exact move.remembered h
  | advertised | unadvertised => exact h.of_same kept rfl fun _ _ _ _ h => h
  | subscribed entry requestId _ isOpen found free room announced =>
    have opened : Remembered ((w.routers k).subscribe entry) :=
      h.of_same ⟨rfl, rfl, rfl, rfl, rfl, id, le_refl _, Nat.le_succ _, id⟩ rfl (by simp [SessionRouter.subscribe])
    cases announced with
    | announced id input t _ cached storable now control welcomed =>
      exact (opened.store storable welcomed).of_same control.kept control.cache_trace.1 control.cache_trace.2
    | large => exact opened
  | finished =>
    refine ⟨h.maxEntries, h.ttlMs, fun id input output t ht => ?_, fun _ _ _ _ _ => .inl rfl⟩
    exact h.welcomed id input output t (by simpa [SessionRouter.finished] using ht)
  | torn v f marks isOpen video torn less marked =>
    refine h.of_same kept rfl fun id input output t ht => ?_
    rcases List.mem_append.1 ht with ht | ht
    · exact ht
    · obtain ⟨track, e⟩ := marked _ ht
      cases e
  | _ => exact h.of_same kept rfl (by simp [SessionRouter.marked, SessionRouter.unsubscribe, SessionRouter.number])

theorem Step.remembered (s : Step allow w w') (h : ∀ k, Remembered (w.routers k)) (k : Nat) : Remembered (w'.routers k) := by
  rcases s.turn k with same | turn | born
  · exact same ▸ h k
  · exact turn.remembered (h k)
  · obtain ⟨maxBytes, cache⟩ := born.fresh.cache
    have trace := born.fresh.trace
    exact ⟨by rw [cache]; rfl, by rw [cache]; rfl, by simp [trace], by simp [trace]⟩

/-! ## A retransmission arrives -/

/-- Only the clock of router `k`, its control rate and its cache have changed. -/
def Unaffected (k : Nat) (w w' : World η) : Prop :=
  ∃ t window count cache tick, w' = { w.setRouter k { w.routers k with
    lastTime := t, controlWindow := window, controlCount := count, cache := cache } with tick := tick }

theorem Unaffected.refl (k : Nat) (w : World η) : Unaffected k w w := by
  refine ⟨(w.routers k).lastTime, (w.routers k).controlWindow, (w.routers k).controlCount, (w.routers k).cache, w.tick, ?_⟩
  exact (World.setRouter_same w k).symm

theorem Unaffected.set {w w' : World η} (h : Unaffected k w w') (t : ℚ) (window : Int) (count : Nat) (cache : RequestCache)
    (tick : Nat) : Unaffected k w { w'.setRouter k { w'.routers k with
      lastTime := t, controlWindow := window, controlCount := count, cache := cache } with tick := tick } := by
  obtain ⟨_, _, _, _, _, rfl⟩ := h
  refine ⟨t, window, count, cache, tick, World.eq_of (fun j => ?_) rfl⟩
  by_cases e : j = k <;> simp [World.setRouter, e]

theorem Unaffected.sane {w w' : World η} (h : Unaffected k w w') (sane : (w.routers k).Sane)
    (sound : (w'.routers k).cache.Sound)
    (plain : ∀ id e, (w'.routers k).cache.entries.get? id = some e → e.output.envelope.stream = none) :
    (w'.routers k).Sane := by
  obtain ⟨_, _, _, _, _, rfl⟩ := h
  dsimp only at sound plain ⊢
  rw [World.setRouter_self] at sound plain ⊢
  exact ⟨sane.control, sane.issued, sane.live, sane.named, sane.subscribed, sane.advertised, sane.limit, sound, plain⟩

theorem now_spec (k : Nat) (w : World η) :
    wp (now env k) (fun t w' => (w.routers k).lastTime ≤ t ∧
      w' = { w.setRouter k { w.routers k with lastTime := t } with tick := w.tick + 1 }) (fun _ _ => True) w := by
  simp only [now, wp_bind, wp_router, wp_ask]
  split
  · trivial
  · next value _ =>
    simp only [wp_bind, wp_throwIf, wp_update, wp_pure, not_or, not_lt]
    exact ⟨fun _ => trivial, fun h => ⟨h.1, rfl⟩⟩

/-- Before a request is known only the clock and the control rate change. -/
theorem parse_spec (k : Nat) (label : String) (raw : Raw) (w : World η) :
    wp (parse env k label raw) (fun _ w' => (w.routers k).lastTime ≤ (w'.routers k).lastTime ∧
      (w'.routers k).cache = (w.routers k).cache ∧ Unaffected k w w') (fun _ _ => True) w := by
  unfold parse
  split
  · trivial
  next channel _ =>
  rw [wp_bind]
  refine wp_mono (Q := fun _ w' => (w.routers k).lastTime ≤ (w'.routers k).lastTime ∧
      (w'.routers k).cache = (w.routers k).cache ∧ Unaffected k w w') (E := fun _ _ => True) ?_ ?_ fun _ _ _ => trivial
  · rw [wp_when]
    refine ⟨fun _ => ?_, fun _ => ⟨le_refl _, rfl, .refl k w⟩⟩
    rw [controlRate, wp_bind]
    refine wp_mono (now_spec k w) ?_ fun _ _ _ => trivial
    rintro t _ ⟨later, rfl⟩
    simp only [wp_bind, wp_update, wp_router, wp_throwIf, World.setRouter_self]
    refine ⟨fun _ => trivial, fun _ => ⟨later, trivial, ?_⟩⟩
    refine ⟨t, (t / 1000).floor, (if (t / 1000).floor = (w.routers k).controlWindow then (w.routers k).controlCount else 0) + 1,
      (w.routers k).cache, w.tick + 1, World.eq_of (fun j => ?_) rfl⟩
    by_cases e : j = k <;> simp [World.setRouter, e]
  · intro _ w' h
    simp only [wp_bind, wp_router, wp_ofExcept, wp_pure]
    exact ⟨fun _ _ => ⟨fun _ _ => h, fun _ _ => trivial⟩, fun _ _ => trivial⟩

/-- The text under which the response to a request is cached. -/
def inputOf (numbers : NumberText) (wire : Wire) : String := (Json.object wire).stringify numbers.text

/-- `hello` and `ready` are not requests. -/
def IsRequest (wire : Wire) : Prop := operationOf wire ≠ "hello" ∧ operationOf wire ≠ "ready"

section Arriving

variable {label : String} {raw : Raw} {wire : Wire} {id : String} {w₁ w₂ : World η} {t : ℚ}

/-- What `receive` does with an envelope that names a request. -/
theorem receive_exec (isOpen : (w.routers k).closed = false)
    (parsed : (parse env k label raw).exec w = (.ok (.control, wire, some id), w₁)) :
    (receive env k label raw).exec w =
      (tryCatch (do control env k wire (some id); flush env k) fun _ => error env k (some id)).exec w₁ := by
  have read : (router k).exec w = (.ok (w.routers k), w) := rfl
  have known : (tryCatch (do return some (← parse env k label raw)) fun _ => do
      error env k none
      return none : Code η (Option (Channel × Wire × Option String))).exec w = (.ok (some (.control, wire, some id)), w₁) := by
    rw [exec_tryCatch, exec_bind_ok parsed]
    rfl
  rw [receive, exec_bind_ok read, Prog.when, if_pos (by simp [isOpen]), exec_bind_ok known]
  rfl

/-- A request that is answered at once. -/
theorem control_exec (isRequest : IsRequest wire) (welcomed : (w.routers k).welcomed = true) :
    (control env k wire (some id)).exec w = (request env k wire id).exec w := by
  have read : (router k).exec w = (.ok (w.routers k), w) := rfl
  have fine : (throwIf (!(w.routers k).welcomed) "hello_required" : Code η Unit).exec w = (.ok (), w) := by
    rw [throwIf, if_neg (by simp [welcomed]), exec_pure]
  rw [control, if_neg isRequest.1, exec_bind_ok read, exec_bind_ok fine, if_neg isRequest.2]

theorem mem_of_requestId (named : requestId wire = .ok (some id)) : ∃ f ∈ wire, f.1 = "id" := by
  unfold requestId at named
  split at named
  · cases named
  · next present =>
    rw [Option.isNone_iff_eq_none, Map.field, Option.map_eq_none_iff, List.find?_eq_none] at present
    push Not at present
    obtain ⟨f, mem, key⟩ := present
    exact ⟨f, mem, by simpa using key⟩

/-- A `hello` or a `ready` that names a request is refused. -/
theorem control_refuses (named : requestId wire = .ok (some id)) (other : ¬IsRequest wire) :
    ∃ e, (control env k wire (some id)).exec w = (.error e, w) := by
  obtain ⟨f, mem, key⟩ := mem_of_requestId named
  have unknown : ∀ allowed, "id" ∉ allowed → fields wire allowed = .error "unknown_field" := by
    intro allowed absent
    have extra : wire.any (fun f => f.1 ∉ "v" :: "op" :: allowed) = true := by
      rw [List.any_eq_true]
      exact ⟨f, mem, by simp [key, absent]⟩
    rw [fields, if_pos extra]
  have read : (router k).exec w = (.ok (w.routers k), w) := rfl
  by_cases hello : operationOf wire = "hello"
  · refine ⟨"unknown_field", ?_⟩
    rw [control, if_pos hello, unknown [] (by simp)]
    rfl
  · have ready : operationOf wire = "ready" := by
      by_contra h
      exact other ⟨hello, h⟩
    rw [control, if_neg hello, exec_bind_ok read]
    cases welcomed : (w.routers k).welcomed with
    | false => exact ⟨"hello_required", rfl⟩
    | true =>
      have fine : (throwIf (!true) "hello_required" : Code η Unit).exec w = (.ok (), w) := rfl
      refine ⟨"unknown_field", ?_⟩
      rw [exec_bind_ok fine, if_pos ready, unknown ["stream_id"] (by simp)]
      rfl

/-- A request whose response is cached is answered with it, or refused. -/
theorem request_exec {e : Cached} (read : (now env k).exec w = (.ok t, w₁))
    (found : (w₁.routers k).cache.entries.get? id = some e) (alive : t < e.expires) :
    (request env k wire id).exec w = (if e.input = inputOf w.numbers wire then queueControl k e.output else throw "request_conflict" :
      Code η Unit).exec (w₁.setRouter k { w₁.routers k with cache := (RequestCache.expire t).after (w₁.routers k).cache }) := by
  have here : (get : Code η (World η)).exec w = (.ok w, w) := rfl
  have looked := RequestCache.lookup_exec found alive (inputOf w.numbers wire)
  have zoomed : ∀ (r : Except String (Option Bytes)) (c : RequestCache),
      (RequestCache.lookup id (inputOf w.numbers wire) t).exec (w₁.routers k).cache = (r, c) →
      (onCache k (RequestCache.lookup id (inputOf w.numbers wire) t)).exec w₁ =
        (r, w₁.setRouter k { w₁.routers k with cache := c }) := by
    intro r c h
    have got : (get : Code η (World η)).exec w₁ = (.ok w₁, w₁) := rfl
    rw [onCache, zoom, exec_bind_ok got, h]
    cases r <;> rfl
  rw [request, exec_bind_ok here, exec_bind_ok read]
  by_cases same : e.input = inputOf w.numbers wire
  · rw [if_pos same] at looked ⊢
    rw [inputOf] at *
    rw [exec_bind_ok (zoomed _ _ looked)]
  · rw [if_neg same] at looked ⊢
    rw [inputOf] at *
    rw [exec_bind_error (zoomed _ _ looked), exec_throw]

end Arriving

/-- `bytes` are queued as a control envelope, and nothing else happens. -/
def Queued (k : Nat) (bytes : Bytes) (w w' : World η) : Prop :=
  ∃ s q, (w.routers k).queue.streams.get? "control" = some s ∧ q.options = (w.routers k).queue.options ∧
    q.streams = (w.routers k).queue.streams.set "control" { s with messages := s.messages ++ [bytes] } ∧
    w' = w.setRouter k ({ w.routers k with queue := q }.marked (.queued bytes.envelope))

theorem queueControl_queued {bytes : Bytes} (sane : (w.routers k).Sane) (queued : (queueControl k bytes).exec w = (.ok (), w')) :
    Queued k bytes w w' := by
  obtain ⟨r, control, live, rfl⟩ := of_wp_ok (queueControl_spec k bytes w sane) queued
  cases control with
  | queued s q found _ options streams => exact ⟨s, q, found, options, streams, rfl⟩
  | jammed s q found _ _ streams =>
    obtain ⟨s', found', running⟩ := live
    rw [streams, Table.get?_set_self] at found'
    obtain rfl := Option.some.inj found'
    cases running
  | dead dead => exact absurd live dead

/-- A control envelope reaches router `k` and names a request. -/
def Arrives (env : Env η) (k : Nat) (raw : Raw) (wire : Wire) (id : String) (w w' : World η) : Prop :=
  (parse env k "ros.control.v1" raw).exec w = (.ok (.control, wire, some id), w')

/-- What it means for later envelopes that the response to a request was cached at `t`. -/
structure Idempotent (env : Env η) (k : Nat) (w : World η) (id input : String) (output : Bytes) (t : ℚ) : Prop where
  /-- The response is queued again, and what follows is the flush that ends every `receive`. -/
  repeats : ∀ raw wire w₁ w₂ t', Arrives env k raw wire id w w₁ → IsRequest wire → (now env k).exec w₁ = (.ok t', w₂) →
    t' < t + (w.routers k).limits.requestTtlMs → inputOf w.numbers wire = input →
    ∃ w₃, Unaffected k w w₃ ∧
      (receive env k "ros.control.v1" raw).exec w =
        (tryCatch (do queueControl k output; flush env k) fun _ => error env k (some id)).exec w₃ ∧
      ∀ w₄, (queueControl k output).exec w₃ = (.ok (), w₄) → Queued k output w₃ w₄ ∧
        (receive env k "ros.control.v1" raw).exec w = (tryCatch (flush env k) fun _ => error env k (some id)).exec w₄
  /-- Another request with the identifier is refused. -/
  conflicts : ∀ raw wire w₁ w₂ t', Arrives env k raw wire id w w₁ → IsRequest wire → (now env k).exec w₁ = (.ok t', w₂) →
    t' < t + (w.routers k).limits.requestTtlMs → inputOf w.numbers wire ≠ input →
    ∃ w₃, Unaffected k w w₃ ∧ (receive env k "ros.control.v1" raw).exec w = (error env k (some id)).exec w₃
  /-- So is what is no request. -/
  refuses : ∀ raw wire w₁, Arrives env k raw wire id w w₁ → ¬IsRequest wire →
    Unaffected k w w₁ ∧ (receive env k "ros.control.v1" raw).exec w = (error env k (some id)).exec w₁

section Answering

variable {raw : Raw} {wire : Wire} {id input : String} {output : Bytes} {w₁ w₂ : World η} {t t' : ℚ}

/-- The cache decides, as it still has the response. -/
theorem control_answers (remembered : Remembered (w.routers k)) (stored : .stored id input output t ∈ (w.routers k).trace)
    (sane : (w.routers k).Sane) (isOpen : (w.routers k).closed = false) (arrives : Arrives env k raw wire id w w₁)
    (isRequest : IsRequest wire) (read : (now env k).exec w₁ = (.ok t', w₂)) (alive : t' < t + (w.routers k).limits.requestTtlMs) :
    ∃ w₃, Unaffected k w w₃ ∧ (w₃.routers k).Sane ∧ (control env k wire (some id)).exec w₁ =
      (if input = inputOf w.numbers wire then queueControl k output else throw "request_conflict" : Code η Unit).exec w₃ := by
  obtain ⟨later, cache, unaffected⟩ := of_wp_ok (parse_spec k _ raw w) arrives
  obtain ⟨later', rfl⟩ := of_wp_ok (now_spec k w₁) read
  have welcomed : (w₁.routers k).welcomed = true := by
    obtain ⟨_, _, _, _, _, rfl⟩ := unaffected
    dsimp only
    rw [World.setRouter_self]
    exact remembered.welcomed id input output t stored
  have numbers : w₁.numbers = w.numbers := by
    obtain ⟨_, _, _, _, _, rfl⟩ := unaffected
    rfl
  rw [← remembered.ttlMs] at alive
  obtain ⟨e, found, rfl, rfl, expires⟩ : (w.routers k).Caches id input output t := by
    rcases remembered.stored id input output t stored with closed | old | cached
    · rw [isOpen] at closed
      cases closed
    · exact absurd (alive.trans_le old) (not_lt.2 (later.trans later'))
    · exact cached
  rw [← cache] at found
  rw [control_exec isRequest welcomed, request_exec read (by rw [World.setRouter_self]; exact found) (expires ▸ alive), numbers]
  have ticked := unaffected.set t' (w₁.routers k).controlWindow (w₁.routers k).controlCount (w₁.routers k).cache (w₁.tick + 1)
  have looked := ticked.set t' (w₁.routers k).controlWindow (w₁.routers k).controlCount
    ((RequestCache.expire t').after (w₁.routers k).cache) (w₁.tick + 1)
  simp only [World.setRouter_self] at looked ⊢
  refine ⟨_, looked, looked.sane sane ?_ fun i e found => ?_, rfl⟩
  · dsimp only
    rw [World.setRouter_self, cache]
    exact sane.cache.expire t'
  · dsimp only at found
    rw [World.setRouter_self, cache] at found
    exact sane.plain i e ((RequestCache.get?_expire t' _ i e).1 found).1

theorem idempotent (env : Env η) (sane : (w.routers k).Sane) (remembered : Remembered (w.routers k))
    (stored : .stored id input output t ∈ (w.routers k).trace) (isOpen : (w.routers k).closed = false) :
    Idempotent env k w id input output t := by
  refine ⟨fun raw wire w₁ w₂ t' arrives isRequest read alive same => ?_,
    fun raw wire w₁ w₂ t' arrives isRequest read alive different => ?_, fun raw wire w₁ arrives other => ?_⟩
  · obtain ⟨w₃, unaffected, sane₃, answers⟩ := control_answers remembered stored sane isOpen arrives isRequest read alive
    rw [if_pos same.symm] at answers
    have whole := (receive_exec isOpen arrives).trans (exec_tryCatch_congr (exec_bind_congr answers _) _)
    refine ⟨w₃, unaffected, whole, fun w₄ queued => ⟨queueControl_queued sane₃ queued, whole.trans ?_⟩⟩
    exact exec_tryCatch_congr (exec_bind_ok queued _) _
  · obtain ⟨w₃, unaffected, sane₃, answers⟩ := control_answers remembered stored sane isOpen arrives isRequest read alive
    rw [if_neg (Ne.symm different), exec_throw] at answers
    refine ⟨w₃, unaffected, (receive_exec isOpen arrives).trans ?_⟩
    rw [exec_tryCatch, exec_bind_error answers]
  · obtain ⟨_, _, unaffected⟩ := of_wp_ok (parse_spec k _ raw w) arrives
    refine ⟨unaffected, (receive_exec isOpen arrives).trans ?_⟩
    have walks : Walks .any none (parse env k "ros.control.v1" raw) w _ := parse_walks k _ raw w
    obtain ⟨-, -, -, -, named⟩ := of_wp_ok walks arrives
    obtain ⟨e, refused⟩ : ∃ e, (control env k wire (some id)).exec w₁ = (.error e, w₁) := control_refuses named other
    rw [exec_tryCatch, exec_bind_error refused]

end Answering

/-! ## Runs -/

theorem Goes.remembered (g : Goes allow w w') (sane : w.Sane) (h : ∀ k, Remembered (w.routers k)) (k : Nat) :
    Remembered (w'.routers k) :=
  g.inv (P := fun w => ∀ k, Remembered (w.routers k)) (fun _ _ _ h s => s.remembered h) sane h k

theorem start_remembered (numbers : NumberText) (guard : CommandGuard) (media : MediaService) (k : Nat) :
    Remembered ((World.start numbers guard media : World η).routers k) := by
  refine ⟨rfl, rfl, ?_, ?_⟩ <;> simp [World.start, SessionRouter.vacant]

/-- The caches of a run stay within their limits, and an open router's responses are
repeated for their lifetime. -/
theorem retransmission_idempotent {prefixId : String} {maxSessions maxHandles leaseMs clock : Session.Num} {guard : CommandGuard}
    (created : CommandGuard.create prefixId maxSessions maxHandles leaseMs clock = .ok guard) (numbers : NumberText)
    (media : MediaService) (inputs : List (Env η × Input η)) (k : Nat) :
    (((World.start numbers guard media).run inputs).routers k).cache.Sound ∧
      (((World.start numbers guard media).run inputs).routers k).cache.maxEntries =
        (((World.start numbers guard media).run inputs).routers k).limits.maxRequests ∧
      ∀ id input output t, .stored id input output t ∈ (((World.start numbers guard media).run inputs).routers k).trace →
        (((World.start numbers guard media).run inputs).routers k).closed = false →
        ∀ env, Idempotent env k ((World.start numbers guard media).run inputs) id input output t := by
  have start : (World.start numbers guard media : World η).Sane := start_sane numbers media (create_handles created)
  have goes := run_goes_any start inputs
  have sane := (goes.sane start).routers k
  have remembered := goes.remembered start (start_remembered numbers guard media) k
  exact ⟨sane.cache, remembered.maxEntries, fun id input output t stored isOpen env =>
    idempotent env sane remembered stored isOpen⟩


def Mark.stores (id : String) : Mark η → Bool
  | .stored id' _ _ _ => id' = id
  | _ => false

theorem Mark.eq_of_stores {m : Mark η} {id : String} (h : m.stores id = true) : ∃ input output t, m = .stored id input output t := by
  cases m with
  | stored id' input output t =>
    obtain rfl : id' = id := by simpa [Mark.stores] using h
    exact ⟨input, output, t, rfl⟩
  | _ => cases h

theorem retransmission_idempotent_small :
    CommandGuard.create "g" (some 2) (some 8) (some 250) (some 0) = .ok smallGuard ∧
      ((smallBridge.run smallVisit).routers 0).closed = false ∧
      ∃ input output t, .stored "1" input output t ∈ ((smallBridge.run smallVisit).routers 0).trace ∧
        Idempotent (.calm 0) 0 (smallBridge.run smallVisit) "1" input output t := by
  have created : CommandGuard.create "g" (some 2) (some 8) (some 250) (some 0) = .ok smallGuard := rfl
  have isOpen : ((smallBridge.run smallVisit).routers 0).closed = false := by decide +kernel
  have stores : ((smallBridge.run smallVisit).routers 0).trace.any (·.stores "1") = true := by decide +kernel
  obtain ⟨m, mem, known⟩ := List.any_eq_true.1 stores
  obtain ⟨input, output, t, rfl⟩ := Mark.eq_of_stores known
  have repeated := (retransmission_idempotent created plainNumbers noMedia smallVisit 0).2.2
  exact ⟨created, isOpen, input, output, t, mem, repeated "1" input output t mem isOpen (.calm 0)⟩

end RosBridge.Router
