import RosBridge.Config.Bridge
import RosBridge.Router.Retransmission
/-!
# Requests and the room in the cache

Before a request runs, the cache must have room for the longest response and for the
text of the request. The configuration compares the message limit with the queue limit
alone, so an empty cache may refuse every request (`request_admitted_iff`).
-/

namespace RosBridge.Router

open Lib Prog Session Config Relation CommandGuard

variable {η : Type} {allow : Allow} {env : Env η} {k : Nat} {w w' : World η}

/-! ## What the cache decides -/

/-- What a request asks of the cache before it runs. -/
def RequestCache.admission (id input : String) (maxBytes : Nat) (now : ℚ) : RequestCache.CacheM (Option Bytes) := do
  match ← lookup id input now with
  | some cached => return some cached
  | none =>
    reserve (maxBytes + utf16Length input * 2)
    return none

/-- The request is refused with this error before it runs. -/
def Refused (env : Env η) (k : Nat) (wire : Wire) (id : String) (w : World η) (e : String) : Prop :=
  ∃ t w', (now env k).exec w = (.ok t, w') ∧
    ((RequestCache.admission id (inputOf w.numbers wire) (w.routers k).maxBytes t).exec (w.routers k).cache).1 = .error e

theorem onCache_exec {α : Type} {m : RequestCache.CacheM α} {r : Except String α} {c : RequestCache}
    (h : m.exec (w.routers k).cache = (r, c)) : (onCache k m).exec w = (r, w.setRouter k { w.routers k with cache := c }) := by
  have got : (get : Code η (World η)).exec w = (.ok w, w) := rfl
  rw [onCache, zoom, exec_bind_ok got, h]
  cases r <;> rfl

/-- Only the clock has moved. -/
theorem now_keeps (k : Nat) (w : World η) :
    wp (now env k) (fun _ w' => (w'.routers k).cache = (w.routers k).cache ∧ (w'.routers k).maxBytes = (w.routers k).maxBytes)
      (fun _ _ => True) w := by
  simp only [now, wp_bind, wp_router, wp_ask]
  split
  · trivial
  · simp only [wp_bind, wp_throwIf, wp_update, wp_pure, World.setRouter_self]
    exact ⟨fun _ => trivial, fun _ => ⟨trivial, trivial⟩⟩

/-- A refused request does not run: its only effect is on the clock and the cache. -/
theorem request_refused {wire : Wire} {id e : String} (h : Refused env k wire id w e) :
    ∃ t w₁ c, (now env k).exec w = (.ok t, w₁) ∧
      (request env k wire id).exec w = (.error e, w₁.setRouter k { w₁.routers k with cache := c }) := by
  obtain ⟨t, w₁, read, refused⟩ := h
  obtain ⟨cache, maxBytes⟩ := of_wp_ok (now_keeps k w) read
  have here : (get : Code η (World η)).exec w = (.ok w, w) := rfl
  have input : (Json.object wire).stringify w.numbers.text = inputOf w.numbers wire := rfl
  rw [← cache, ← maxBytes, RequestCache.admission, exec_bind] at refused
  rw [request, exec_bind_ok here, exec_bind_ok read, input]
  cases looked : (RequestCache.lookup id (inputOf w.numbers wire) t).exec (w₁.routers k).cache with
  | mk found c =>
    rw [looked] at refused
    have first := onCache_exec looked
    cases found with
    | error e' =>
      obtain rfl := Except.error.inj refused
      exact ⟨t, w₁, c, read, exec_bind_error first _⟩
    | ok found =>
      cases found with
      | some cached => cases refused
      | none =>
        rw [exec_bind_ok first]
        dsimp only at refused ⊢
        have again : (router k).exec (w₁.setRouter k { w₁.routers k with cache := c }) =
            (.ok ((w₁.setRouter k { w₁.routers k with cache := c }).routers k), w₁.setRouter k { w₁.routers k with cache := c }) := rfl
        rw [exec_bind_ok again, World.setRouter_self]
        dsimp only
        cases reserved : (RequestCache.reserve ((w₁.routers k).maxBytes + utf16Length (inputOf w.numbers wire) * 2)).exec c with
        | mk outcome c' =>
          rw [exec_bind, reserved] at refused
          cases outcome with
          | ok _ => cases refused
          | error e' =>
            obtain rfl := Except.error.inj refused
            have there : ((w₁.setRouter k { w₁.routers k with cache := c }).routers k).cache = c := by rw [World.setRouter_self]
            have second := onCache_exec (there.symm ▸ reserved)
            rw [World.setRouter_self, World.setRouter_setRouter] at second
            exact ⟨t, w₁, c', read, exec_bind_error second _⟩

/-! ## Expired caches -/

/-- A cache whose entries have all expired admits a request exactly if the longest
response and the text of the request fit into an empty cache. -/
theorem admit_expired {c : RequestCache} (sound : c.Sound) (positive : 0 < c.maxEntries) {t : ℚ}
    (expired : ∀ e ∈ c.entries.values, e.expires ≤ t) (id input : String) (maxBytes : Nat) :
    ((RequestCache.admission id input maxBytes t).exec c).1 =
      if maxBytes + utf16Length input * 2 ≤ c.maxBytes then .ok none else .error "cache_limit" := by
  have sound' := sound.expire t
  have empty : ((RequestCache.expire t).after c).entries.values = [] := by
    rw [RequestCache.expire_after, RequestCache.values_filter]
    apply List.filter_eq_nil_iff.2
    intro e he
    simpa using expired e he
  have bytes : ((RequestCache.expire t).after c).bytes = 0 := by
    rw [sound'.bytes, empty]
    rfl
  have vacant : ((RequestCache.expire t).after c).entries = .empty := Table.ext_entries (List.map_eq_nil_iff.1 empty)
  have cleared : (RequestCache.expire t).exec c = (.ok (), (RequestCache.expire t).after c) := rfl
  have looked : (RequestCache.lookup id input t).exec c = (.ok none, (RequestCache.expire t).after c) := by
    have here : (get : RequestCache.CacheM RequestCache).exec ((RequestCache.expire t).after c) =
        (.ok ((RequestCache.expire t).after c), (RequestCache.expire t).after c) := rfl
    have room : ¬((RequestCache.expire t).after c).entries.size ≥ ((RequestCache.expire t).after c).maxEntries := by
      rw [vacant]
      exact not_le.2 positive
    rw [RequestCache.lookup, exec_bind_ok cleared, exec_bind_ok here, vacant]
    dsimp only [Table.get?_empty]
    rw [exec_bind_ok here, throwIf, if_neg room]
    rfl
  rw [RequestCache.admission, exec_bind_ok looked]
  have here : (get : RequestCache.CacheM RequestCache).exec ((RequestCache.expire t).after c) =
      (.ok ((RequestCache.expire t).after c), (RequestCache.expire t).after c) := rfl
  dsimp only
  rw [RequestCache.reserve, bind_assoc, exec_bind_ok here]
  have same : ((RequestCache.expire t).after c).maxBytes = c.maxBytes := rfl
  by_cases room : maxBytes + utf16Length input * 2 ≤ c.maxBytes
  · have fits : ¬((maxBytes + utf16Length input * 2 : Nat) : Int) >
        ((RequestCache.expire t).after c).maxBytes - ((RequestCache.expire t).after c).bytes := by
      rw [bytes, same]
      omega
    rw [if_pos room, throwIf, if_neg fits]
    rfl
  · have exceeds : ((maxBytes + utf16Length input * 2 : Nat) : Int) >
        ((RequestCache.expire t).after c).maxBytes - ((RequestCache.expire t).after c).bytes := by
      rw [bytes, same]
      omega
    rw [if_neg room, throwIf, if_pos exceeds]
    rfl

/-! ## Runs -/

theorem Control.cache_maxBytes {bytes : Bytes} {r r' : SessionRouter η} (c : Control r bytes r') :
    r'.cache.maxBytes = r.cache.maxBytes := by rw [c.cache_trace.1]

theorem Move.cache_maxBytes {numbers : NumberText} {media : MediaService} {r r' : SessionRouter η}
    (m : Move numbers allow media r r') : r'.cache.maxBytes = r.cache.maxBytes := by
  cases m with
  | control bytes _ control => exact control.cache_maxBytes
  | _ => rfl

theorem Turn.cache_maxBytes {r : SessionRouter η} (t : Turn allow w k r) :
    r.cache.maxBytes = (w.routers k).cache.maxBytes := by
  cases t with
  | move _ move => exact move.cache_maxBytes
  | subscribed entry requestId _ isOpen found free room announced =>
    cases announced with
    | announced id input t _ cached storable now control => exact control.cache_maxBytes
    | large => rfl
  | _ => rfl

theorem Goes.cache_maxBytes (g : Goes allow w w') (born : k < w.born) :
    (w'.routers k).cache.maxBytes = (w.routers k).cache.maxBytes := by
  induction g with
  | refl => rfl
  | tail before s ih =>
    rw [← ih]
    rcases s.turn_of_born (born.trans_le (Goes.born before)) with same | turn
    · rw [same]
    · exact turn.cache_maxBytes

/-- The options of a router as the bridge makes them: the topics and the queue budget are
those of an accepted configuration, the message limit is negotiated below its own. -/
structure RouterOptions.Serves (options : RouterOptions η) (yaml : String → Option Json) (source : String)
    (settings : ConfigOptions) (config : BridgeConfig) : Prop where
  accepted : parseBridgeConfig yaml source settings = .ok config
  topics : options.topics = config.topics
  queue : options.maxPeerQueueBytes = config.limits.maxPeerQueueBytes
  negotiated : options.maxMessageBytes ≤ config.limits.maxMessageBytes

/-- For every configuration, every negotiated message limit and every state in which the
cached responses of the router have expired: a request is admitted exactly if the
message limit and the text of the request fit into the queue budget. -/
theorem request_admitted_iff {yaml : String → Option Json} {source : String} {settings : ConfigOptions} {config : BridgeConfig}
    {prefixId : String} {maxSessions maxHandles leaseMs clock : Session.Num} {guard : CommandGuard}
    (created : CommandGuard.create prefixId maxSessions maxHandles leaseMs clock = .ok guard) (numbers : NumberText)
    (media : MediaService) (earlier : List (Env η × Input η)) {env₀ : Env η} {options : RouterOptions η} {w₁ : World η}
    (serves : options.Serves yaml source settings config)
    (made : (construct env₀ options).exec ((World.start numbers guard media).run earlier) = (.ok (), w₁)) {k : Nat}
    (newest : w₁.born = k + 1) {w w' : World η} (later : Goes .any w₁ w) {env : Env η} {t : ℚ}
    (read : (now env k).exec w = (.ok t, w')) (expired : ∀ e ∈ (w.routers k).cache.entries.values, e.expires ≤ t)
    (wire : Wire) (id : String) :
    ¬(Refused env k wire id w "cache_limit" ∨ Refused env k wire id w "request_limit") ↔
      options.maxMessageBytes + utf16Length (inputOf w.numbers wire) * 2 ≤ config.limits.maxPeerQueueBytes := by
  have started : (World.start numbers guard media : World η).Sane := start_sane numbers media (create_handles created)
  have goes₀ := run_goes_any started earlier
  obtain ⟨born, r, sessionId, value, router, here⟩ := of_wp_ok (construct_spec options _) made
  have roams : Roams .any (construct env₀ options) := construct_walks trivial options
  have goes₁ := goes₀.trans (of_wp_ok (roams _ (goes₀.sane started)) made).1.goes
  have number : ((World.start numbers guard media).run earlier).born = k := by omega
  rw [number] at here
  have born₁ : k < w₁.born := by omega
  have sane := (Goes.sane (goes₁.trans later) started).routers k
  have remembered := Goes.remembered (goes₁.trans later) started (start_remembered numbers guard media) k
  have kept := Goes.kept later born₁
  obtain ⟨bytes, -, cache, positive⟩ := router_spec router
  -- The limits of the router are those of its options.
  have maxBytes : (w.routers k).maxBytes = options.maxMessageBytes := by
    rw [kept.maxBytes, here, bytes]
    exact Nat.min_eq_right (serves.negotiated.trans config.limits.message_le)
  have budget : (w.routers k).cache.maxBytes = config.limits.maxPeerQueueBytes := by
    rw [Goes.cache_maxBytes later born₁, here, cache, ← serves.queue]
    rfl
  have room : 0 < (w.routers k).cache.maxEntries := by
    rw [remembered.maxEntries, kept.limits, here]
    exact positive
  have decided := admit_expired sane.cache room expired id (inputOf w.numbers wire) (w.routers k).maxBytes
  rw [maxBytes, budget] at decided
  have refused : ∀ e, Refused env k wire id w e ↔
      ((RequestCache.admission id (inputOf w.numbers wire) (w.routers k).maxBytes t).exec (w.routers k).cache).1 = .error e := by
    intro e
    constructor
    · intro h
      obtain ⟨t', w'', read', h⟩ := h
      obtain rfl := Except.ok.inj (congrArg Prod.fst (read.symm.trans read'))
      exact h
    · exact fun h => ⟨t, w', read, h⟩
  rw [refused, refused, maxBytes, decided]
  split
  · next fits => simp [fits]
  · next large => simp [large]

/-- The configuration of `smallDocument`. -/
def smallConfig (maxPeerQueueBytes : Nat) (enough : 1000 ≤ maxPeerQueueBytes) : BridgeConfig :=
  ⟨"r", ⟨2, 1000, maxPeerQueueBytes, 1000, by decide, by decide, by decide, enough, by decide⟩,
    [plainTopic "/odom" .rosToWeb none]⟩

/-- A router of that configuration. -/
def configured (maxPeerQueueBytes : Nat) : RouterOptions Json :=
  { smallOptions [plainTopic "/odom" .rosToWeb none] with maxPeerQueueBytes := maxPeerQueueBytes }

theorem serves_small (maxPeerQueueBytes : Nat) (enough : 1000 ≤ maxPeerQueueBytes)
    (accepted : parseBridgeConfig (fun _ => some (smallDocument maxPeerQueueBytes)) "" smallSettings =
      .ok (smallConfig maxPeerQueueBytes enough)) :
    (configured maxPeerQueueBytes).Serves (fun _ => some (smallDocument maxPeerQueueBytes)) "" smallSettings
      (smallConfig maxPeerQueueBytes enough) :=
  ⟨accepted, rfl, rfl, le_refl _⟩

/-- A bridge with that router. -/
def constructed (maxPeerQueueBytes : Nat) : World Json := smallBridge.step (.calm 0, .construct (configured maxPeerQueueBytes))

/-- Its peer is welcomed. -/
def greeted (maxPeerQueueBytes : Nat) : World Json :=
  (constructed maxPeerQueueBytes).run [(.calm 0, .receive 0 "ros.control.v1" (envelope "hello" []))]

/-- A request of that peer. -/
def smallRequest : Wire := [("v", .number (some 1)), ("op", .string "subscribe"), ("id", .string "1"), ("topic", .string "/odom")]

theorem constructed_sane (maxPeerQueueBytes : Nat) : (constructed maxPeerQueueBytes).Sane := by
  have sane : smallBridge.Sane := start_sane plainNumbers noMedia rfl
  exact Goes.sane (step_goes (permitted_any _) trivial sane (.inl trivial)) sane

theorem constructed_goes (maxPeerQueueBytes : Nat) : Goes .any (constructed maxPeerQueueBytes) (greeted maxPeerQueueBytes) :=
  run_goes_any (constructed_sane maxPeerQueueBytes) _

theorem request_admitted_small :
    ∃ w₁ : World Json, parseBridgeConfig (fun _ => some (smallDocument 20000)) "" smallSettings =
        .ok (smallConfig 20000 (by decide)) ∧
      (construct (.calm 0) (configured 20000)).exec smallBridge = (.ok (), constructed 20000) ∧
      (now (.calm 0) 0).exec (greeted 20000) = (.ok 0, w₁) ∧ ((greeted 20000).routers 0).cache.entries.values = [] ∧
      (¬(Refused (.calm 0) 0 smallRequest "1" (greeted 20000) "cache_limit" ∨
          Refused (.calm 0) 0 smallRequest "1" (greeted 20000) "request_limit") ↔
        1000 + utf16Length (inputOf (greeted 20000).numbers smallRequest) * 2 ≤ 20000) := by
  have accepted : parseBridgeConfig (fun _ => some (smallDocument 20000)) "" smallSettings =
      .ok (smallConfig 20000 (by decide)) := by decide +kernel
  have made : (construct (.calm 0) (configured 20000)).exec smallBridge = (.ok (), constructed 20000) :=
    exec_of_fst (by decide +kernel)
  have read : (now (.calm 0) 0).exec (greeted 20000) = (.ok 0, (now (.calm 0) 0).after (greeted 20000)) :=
    exec_of_fst (by decide +kernel)
  have created : CommandGuard.create "g" (some 2) (some 8) (some 250) (some 0) = .ok smallGuard := rfl
  have empty : ((greeted 20000).routers 0).cache.entries.values = [] :=
    List.isEmpty_iff.1 (by decide +kernel)
  have expired : ∀ e ∈ ((greeted 20000).routers 0).cache.entries.values, e.expires ≤ (0 : ℚ) := by
    rw [empty]
    exact List.forall_mem_nil _
  refine ⟨_, accepted, made, read, empty, ?_⟩
  exact request_admitted_iff created plainNumbers noMedia [] (serves_small 20000 (by decide) accepted) made
    (by decide +kernel) (constructed_goes 20000) read expired smallRequest "1"

/-- With a queue budget of one message an empty cache refuses every request. -/
theorem request_refused_empty : ¬∀ (yaml : String → Option Json) (source : String) (settings : ConfigOptions)
    (config : BridgeConfig) (options : RouterOptions Json), options.Serves yaml source settings config →
    ∀ (env₀ : Env Json) (w₁ w : World Json), (construct env₀ options).exec smallBridge = (.ok (), w₁) → Goes .any w₁ w →
      (w.routers 0).welcomed = true → (w.routers 0).closed = false → (w.routers 0).cache.entries.values = [] →
      ∀ (raw : Raw) (wire : Wire) (id : String), parseWire raw (w.routers 0).maxBytes = .ok wire → IsRequest wire →
        textField wire "id" = .ok id → ∀ env, ¬Refused env 0 wire id w "cache_limit" := by
  intro claim
  have accepted : parseBridgeConfig (fun _ => some (smallDocument 1000)) "" smallSettings =
      .ok (smallConfig 1000 (by decide)) := by decide +kernel
  have made : (construct (.calm 0) (configured 1000)).exec smallBridge = (.ok (), constructed 1000) :=
    exec_of_fst (by decide +kernel)
  have read : (now (.calm 0) 0).exec (greeted 1000) = (.ok 0, (now (.calm 0) 0).after (greeted 1000)) :=
    exec_of_fst (by decide +kernel)
  have empty : ((greeted 1000).routers 0).cache.entries.values = [] := List.isEmpty_iff.1 (by decide +kernel)
  have maxBytes : ((greeted 1000).routers 0).maxBytes = 1000 := by decide +kernel
  have parsed : parseWire (envelope "subscribe" [("id", "1"), ("topic", "/odom")]) 1000 = .ok smallRequest := rfl
  have sound := (((constructed_goes 1000).sane (constructed_sane 1000)).routers 0).cache
  have expired : ∀ e ∈ ((greeted 1000).routers 0).cache.entries.values, e.expires ≤ (0 : ℚ) := by
    rw [empty]
    exact List.forall_mem_nil _
  have decided := admit_expired sound (by decide +kernel) expired "1" (inputOf (greeted 1000).numbers smallRequest)
    ((greeted 1000).routers 0).maxBytes
  rw [if_neg (by decide +kernel)] at decided
  have admitted := claim _ _ _ _ _ (serves_small 1000 (by decide) accepted) (.calm 0) _ _ made (constructed_goes 1000)
    (by decide +kernel) (by decide +kernel) empty _ smallRequest "1" (by rw [maxBytes]; exact parsed)
    ⟨by decide, by decide⟩ rfl (.calm 0)
  exact admitted ⟨0, _, read, decided⟩

end RosBridge.Router
