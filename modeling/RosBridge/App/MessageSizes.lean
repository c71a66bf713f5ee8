import RosBridge.App.Catalog
import RosBridge.App.Registry
import RosBridge.Router.MessageSizes
import RosBridge.Transport.MessageLimit
/-!
# What a peer is sent fits

`startApp` gives the endpoint and the router of a peer limits from one configuration. The
router is made with the limit that the endpoint has left after the offer, so nothing it
hands to `send` is too large for the endpoint or for an empty channel. The queue of the
router needs one stream more than there can be handles, and that has to be a limit too.
-/

namespace RosBridge.App

open Lib Prog Session Config Router Transport

variable {η : Type}

/-! ## The limits of a configuration -/

theorem parseLimits_safe (value : Option Json) :
    Yields (fun limits => limits.maxPeerQueueBytes ≤ maxSafeInteger ∧ limits.maxChannelBufferedBytes ≤ maxSafeInteger) (parseLimits value) := by
  unfold parseLimits
  refine .bind fun map _ => .bind fun peers _ => .bind fun message _ => .bind fun queue _ => .bind fun buffered _ => ?_
  refine .dite (fun _ => .throw _) fun _ => .pure ?_
  exact ⟨queue.2.2, buffered.2.2⟩

theorem config_safe (yaml : String → Option Json) (source : String) (options : ConfigOptions) :
    Yields (fun config => config.limits.maxPeerQueueBytes ≤ maxSafeInteger ∧ config.limits.maxChannelBufferedBytes ≤ maxSafeInteger)
      (parseBridgeConfig yaml source options) := by
  unfold parseBridgeConfig
  refine .bind fun maxBytes _ => .bind fun maxTopics _ => .bind fun document _ => .bind fun map _ => ?_
  split
  · refine .ite (fun _ => .bind fun _ h => by cases h) fun _ => ?_
    refine .bind fun robotId _ => .bind fun limits read => .bind fun entries _ => ?_
    refine .ite (fun _ => .bind fun _ h => by cases h) fun _ => .bind fun topics _ => .bind fun _ _ => .pure ?_
    exact parseLimits_safe _ limits read
  · exact .throw _

/-! ## The endpoint and the router of a peer -/

/-- The endpoint of a peer. -/
def makeEndpoint (config : BridgeConfig) (maxSdpBytes timeoutMs : Session.Num) (maxSlots : Option ℚ) : Except String Endpoint :=
  Endpoint.create (some (config.limits.maxMessageBytes : ℚ)) (some (config.limits.maxChannelBufferedBytes : ℚ)) maxSdpBytes timeoutMs
    maxSlots

/-- The queue that the constructor of a router makes. -/
def queueOf (options : RouterOptions η) : Except String (DeliveryQueue Bytes) := do
  let limits ← options.limits
  DeliveryQueue.create (some ((limits.maxHandles + 1 : Nat) : ℚ)) (some (options.maxPeerQueueBytes : ℚ)) (some (options.maxBytes : ℚ))

/-- The settings that `startApp` checks first, as far as a peer gets them. -/
structure Checked (maxSdpBytes timeoutMs : Session.Num) (limits : RouterLimits) : Prop where
  sdp : (positiveLimit maxSdpBytes).isSome
  timeout : (positiveLimit timeoutMs).isSome
  handles : (positiveLimit limits.maxHandles).isSome
  requests : (positiveLimit limits.maxRequests).isSome
  ttl : (positiveLimit limits.requestTtlMs).isSome
  rate : (positiveLimit limits.maxControlRateHz).isSome

theorem Checked.limits {maxSdpBytes timeoutMs : Session.Num} {limits : RouterLimits} (h : Checked maxSdpBytes timeoutMs limits)
    (config : BridgeConfig) (registry : List (RouterBinding η)) (max : Nat) (epoch : String) (slots : Option (List Router.VideoSlot)) :
    ∃ l, (makeRouter config registry limits max epoch slots).limits = .ok l ∧ limits.maxHandles = some (l.maxHandles : ℚ) ∧
      0 < l.maxHandles ∧ l.maxHandles ≤ maxSafeInteger := by
  obtain ⟨handles, hhandles⟩ := Option.isSome_iff_exists.1 h.handles
  obtain ⟨requests, hrequests⟩ := Option.isSome_iff_exists.1 h.requests
  obtain ⟨ttl, httl⟩ := Option.isSome_iff_exists.1 h.ttl
  obtain ⟨rate, hrate⟩ := Option.isSome_iff_exists.1 h.rate
  refine ⟨⟨handles, requests, ttl, rate⟩, ?_, natCast_of_positiveLimit hhandles, positiveLimit_pos hhandles⟩
  unfold RouterOptions.limits makeRouter
  rw [hhandles, hrequests, httl, hrate]

/-- The queue can be made exactly if there can be one more stream than handles. -/
theorem queueOf_iff {maxSdpBytes timeoutMs : Session.Num} {limits : RouterLimits} (h : Checked maxSdpBytes timeoutMs limits)
    {config : BridgeConfig} (safe : config.limits.maxPeerQueueBytes ≤ maxSafeInteger) {max : Nat} (pos : 0 < max)
    (small : max ≤ config.limits.maxMessageBytes) (registry : List (RouterBinding η)) (epoch : String)
    (slots : Option (List Router.VideoSlot)) :
    (∃ q, queueOf (makeRouter config registry limits max epoch slots) = .ok q) ↔ limits.maxHandles ≠ some (maxSafeInteger : ℚ) := by
  obtain ⟨l, valid, handles, positive, bounded⟩ := h.limits config registry max epoch slots
  have sizes : (makeRouter config registry limits max epoch slots).maxBytes = max :=
    Nat.min_eq_right (small.trans config.limits.message_le)
  have fits : max ≤ config.limits.maxPeerQueueBytes := small.trans config.limits.queue_le
  have bytes : positiveLimit (some (config.limits.maxPeerQueueBytes : ℚ)) = some config.limits.maxPeerQueueBytes :=
    positiveLimit_natCast (pos.trans_le fits) safe
  have message : positiveLimit (some (max : ℚ)) = some max := positiveLimit_natCast pos (fits.trans safe)
  have queue : queueOf (makeRouter config registry limits max epoch slots) =
      DeliveryQueue.create (some ((l.maxHandles + 1 : Nat) : ℚ)) (some (config.limits.maxPeerQueueBytes : ℚ)) (some (max : ℚ)) := by
    rw [queueOf, valid, sizes]
    rfl
  rw [queue, handles, DeliveryQueue.create, bytes, message]
  have same : some (l.maxHandles : ℚ) ≠ some (maxSafeInteger : ℚ) ↔ l.maxHandles + 1 ≤ maxSafeInteger := by
    rw [ne_eq, Option.some_inj, Nat.cast_inj]
    omega
  rw [same]
  by_cases more : l.maxHandles + 1 ≤ maxSafeInteger
  · rw [positiveLimit_natCast (Nat.succ_pos _) more]
    refine ⟨fun _ => more, fun _ => ⟨_, if_neg fits.not_gt⟩⟩
  · refine ⟨?_, fun h => absurd h more⟩
    rintro ⟨q, made⟩
    cases streams : positiveLimit (some ((l.maxHandles + 1 : Nat) : ℚ)) with
    | none =>
      rw [streams] at made
      cases made
    | some n =>
      rw [← eq_of_positiveLimit streams]
      exact (positiveLimit_pos streams).2

/-! ## Every run -/

/-- Router `k` was constructed with this limit in a run of a bridge, which then went on. -/
def Serving (config : BridgeConfig) (limits : RouterLimits) (max k : Nat) (w : World η) : Prop :=
  ∃ (numbers : NumberText) (guard : CommandGuard) (media : MediaService) (earlier : List (Env η × Input η)) (env : Env η)
    (registry : List (RouterBinding η)) (epoch : String) (slots : Option (List Router.VideoSlot)) (w₁ : World η),
    guard.handles = .empty ∧ (construct env (makeRouter config registry limits max epoch slots)).exec
      ((World.start numbers guard media).run earlier) = (.ok (), w₁) ∧ w₁.born = k + 1 ∧ Goes .any w₁ w

theorem serving_sized {config : BridgeConfig} {limits : RouterLimits} {max k : Nat} {w : World η} (h : Serving config limits max k w) :
    (w.routers k).Sized ∧ (w.routers k).maxBytes = min 16384 max := by
  obtain ⟨numbers, guard, media, earlier, env, registry, epoch, slots, w₁, unused, made, newest, goes⟩ := h
  have started : (World.start numbers guard media : World η).Sane := start_sane numbers media unused
  have goes₀ := run_goes_any started earlier
  have roams : Roams .any (construct env (makeRouter config registry limits max epoch slots)) := construct_walks trivial _
  have goes₁ := goes₀.trans (of_wp_ok (roams _ (goes₀.sane started)) made).1.goes
  obtain ⟨born, r, sessionId, t, router, here⟩ := of_wp_ok (construct_spec _ _) made
  have number : ((World.start numbers guard media).run earlier).born = k := by omega
  rw [number] at here
  have empty : ∀ j, ((World.start numbers guard media : World η).routers j).Sized := by
    intro j stream s found
    cases found
  refine ⟨Goes.sized (goes₁.trans goes) started empty k, ?_⟩
  rw [(Goes.kept goes (by omega)).maxBytes, here, (router_spec router).1]
  rfl

/-- What a peer is sent fits. -/
structure MessagesFit (η : Type) (config : BridgeConfig) (maxSdpBytes timeoutMs : Session.Num) (limits : RouterLimits)
    (maxSlots : Option ℚ) (sdp : JsString) : Prop where
  endpoint : ∃ e, makeEndpoint config maxSdpBytes timeoutMs maxSlots = .ok e
  /-- The queue is made, with the limit that the offer leaves. -/
  queue : ∀ shape, parseOffer sdp (maxSlots.getD 0) = .ok shape →
    ∀ (registry : List (RouterBinding η)) (epoch : String) (slots : Option (List Router.VideoSlot)),
    ∃ q, queueOf (makeRouter config registry limits (limitOf config.limits.maxMessageBytes shape) epoch slots) = .ok q
  /-- Whenever the router calls `send`, it is with the head of a stream, and that is
  neither empty nor too large. -/
  passed : ∀ shape, parseOffer sdp (maxSlots.getD 0) = .ok shape →
    ∀ (k : Nat) (w w' : World η), Serving config limits (limitOf config.limits.maxMessageBytes shape) k w → Step .any w w' →
    ∀ stream ok, w'.history = w.history ++ [.handed k stream ok] → ∃ next q, Sent (w.routers k).queue stream next ok q ∧
      1 ≤ next.byteLength ∧ next.byteLength ≤ limitOf config.limits.maxMessageBytes shape
  /-- The endpoint makes a router with the limit that an offer leaves, and whatever has
  happened since then, `send` does not throw for what is within that limit, and a channel
  that is open and empty takes it. -/
  taken : ∀ e, makeEndpoint config maxSdpBytes timeoutMs maxSlots = .ok e → ∀ events n, .routed n ∈ (e.run events).trace →
    (∃ shape, Offered events maxSlots shape ∧ n = limitOf config.limits.maxMessageBytes shape) ∧
    ∀ label bytes, bytes.length ≤ n → ∃ ok e', (Endpoint.send label bytes).exec (e.run events) = (.ok ok, e') ∧
      ∀ c, (e.run events).closed = false → (e.run events).channels.get? label = some c → (e.run events).ready c.id = .opened →
        (e.run events).bufferedAmount c.id = 0 → ok = true

/-- For every accepted configuration, checked settings and accepted offer. -/
theorem messages_fit_iff {yaml : String → Option Json} {source : String} {options : ConfigOptions} {config : BridgeConfig}
    (accepted : parseBridgeConfig yaml source options = .ok config) {maxSdpBytes timeoutMs : Session.Num} {limits : RouterLimits}
    (checked : Checked maxSdpBytes timeoutMs limits) {maxSlots : Option ℚ} {sdp : JsString} {shape : OfferShape}
    (offered : parseOffer sdp (maxSlots.getD 0) = .ok shape) :
    MessagesFit η config maxSdpBytes timeoutMs limits maxSlots sdp ↔ limits.maxHandles ≠ some (maxSafeInteger : ℚ) := by
  obtain ⟨safe, buffered⟩ := config_safe yaml source options config accepted
  have configured := config.limits.message_pos
  have small : ∀ shape, limitOf config.limits.maxMessageBytes shape ≤ config.limits.maxMessageBytes :=
    fun shape => (limitOf_le _ shape).trans (Nat.min_le_right _ _)
  constructor
  · intro fit
    exact (queueOf_iff checked safe (limitOf_pos configured shape) (small shape) [] "" none).1 (fit.queue shape offered [] "" none)
  intro more
  have message : positiveLimit (some (config.limits.maxMessageBytes : ℚ)) = some config.limits.maxMessageBytes :=
    positiveLimit_natCast configured ((config.limits.queue_le).trans safe)
  have channel : positiveLimit (some (config.limits.maxChannelBufferedBytes : ℚ)) = some config.limits.maxChannelBufferedBytes :=
    positiveLimit_natCast (configured.trans_le config.limits.buffered_le) buffered
  obtain ⟨sdpBytes, hsdp⟩ := Option.isSome_iff_exists.1 checked.sdp
  obtain ⟨timeout, htimeout⟩ := Option.isSome_iff_exists.1 checked.timeout
  have room : min 16384 config.limits.maxMessageBytes ≤ config.limits.maxChannelBufferedBytes :=
    (Nat.min_le_right _ _).trans config.limits.buffered_le
  constructor
  · unfold makeEndpoint Endpoint.create
    rw [message, channel, hsdp, htimeout]
    exact ⟨_, if_neg room.not_gt⟩
  · intro shape _ registry epoch slots
    exact (queueOf_iff checked safe (limitOf_pos configured shape) (small shape) registry epoch slots).2 more
  · intro shape _ k w w' serving step stream ok noted
    obtain ⟨next, q, sent⟩ := step.handed noted
    obtain ⟨sized, limit⟩ := serving_sized serving
    have fits : 0 < next.byteLength ∧ next.byteLength ≤ (w.routers k).maxBytes := by
      cases sent with
      | refused s rest found live head | accepted s rest _ found live head =>
        exact sized stream s found next (head ▸ List.mem_cons_self)
    refine ⟨next, q, sent, fits.1, fits.2.trans ?_⟩
    rw [limit]
    exact Nat.min_le_right _ _
  · intro e made events n routed
    have whole := run_whole (create_whole made) events
    obtain ⟨start, channel, slots⟩ := create_limited made
    have limited := run_limited start events
    obtain ⟨shape, read, limit⟩ := limited.routed n routed
    rw [slots] at read
    have same := (whole.routed n routed).2
    refine ⟨⟨shape, read, limit⟩, fun label bytes fits => ?_⟩
    have enough : (e.run events).maxMessageBytes ≤ (e.run events).options.maxBufferedBytes := by
      rw [limited.same, channel, ← same, limit]
      exact (limitOf_le _ shape).trans room
    rcases exec_cases (send_fits label (same ▸ fits) enough) with ⟨ok, e', taken, run⟩ | ⟨_, _, never, -⟩
    · exact ⟨ok, e', run, taken⟩
    · exact never.elim

/-! ## One stream too many -/

/-- A document for one peer. -/
def soloDocument : Json := .object [
  ("version", .number (some 1)), ("robot_id", .string "r"),
  ("limits", numbersOf [("max_peers", 1), ("max_message_bytes", 1200), ("max_peer_queue_bytes", 131072),
    ("max_channel_buffered_bytes", 32768)]),
  ("topics", .object [("/odom", smallTopic)])]

def soloConfig : BridgeConfig :=
  ⟨"r", ⟨1, 1200, 131072, 32768, Nat.one_pos, by decide, by decide, by decide, by decide⟩, [plainTopic "/odom" .rosToWeb none]⟩

theorem soloDocument_accepted : parseBridgeConfig (fun _ => some soloDocument) "" smallSettings = .ok soloConfig := by decide +kernel

/-- Limits of a router with so many handles. -/
def handlesOf (maxHandles : ℚ) : RouterLimits := ⟨some maxHandles, some 8, some 30000, some 100⟩

theorem checked_of {maxHandles : ℚ} (handles : (positiveLimit (some maxHandles)).isSome) :
    Checked (some 8192) (some 1000) (handlesOf maxHandles) := by
  have others : (positiveLimit (some 8192)).isSome ∧ (positiveLimit (some 1000)).isSome ∧ (positiveLimit (some 8)).isSome ∧
      (positiveLimit (some 30000)).isSome ∧ (positiveLimit (some 100)).isSome := by decide +kernel
  obtain ⟨sdp, timeout, requests, ttl, rate⟩ := others
  exact ⟨sdp, timeout, handles, requests, ttl, rate⟩

theorem browserOffer_accepted : parseOffer browserOffer ((some 1 : Option ℚ).getD 0) = .ok ⟨some 1024, [⟨96, js "42e01f"⟩]⟩ := by
  decide +kernel

/-- An offer that advertises 1024 bytes, to a router of up to eight handles. -/
theorem messages_fit_browser : MessagesFit Json soloConfig (some 8192) (some 1000) (handlesOf 8) (some 1) browserOffer :=
  (messages_fit_iff soloDocument_accepted (checked_of (by decide +kernel)) browserOffer_accepted).2 (by decide +kernel)

/-- With the largest number of handles that passes the check, and that the guard accepts
for one peer, no router is made for any offer. -/
theorem messages_never_fit : ¬∀ (yaml : String → Option Json) (source : String) (options : ConfigOptions) (config : BridgeConfig),
    parseBridgeConfig yaml source options = .ok config →
    ∀ (maxSdpBytes timeoutMs : Session.Num) (limits : RouterLimits), Checked maxSdpBytes timeoutMs limits →
    ∀ guard, CommandGuard.create "g" (some (config.limits.maxPeers : ℚ)) (limits.maxHandles.map (· * config.limits.maxPeers)) (some 250)
      (some 0) = .ok guard →
    ∀ (maxSlots : Option ℚ) (sdp : JsString) (shape : OfferShape), parseOffer sdp (maxSlots.getD 0) = .ok shape →
    ∀ (registry : List (RouterBinding Json)) (epoch : String) (slots : Option (List Router.VideoSlot)),
    ∃ q, queueOf (makeRouter config registry limits (limitOf config.limits.maxMessageBytes shape) epoch slots) = .ok q := by
  intro claim
  have checked := checked_of (show (positiveLimit (some (maxSafeInteger : ℚ))).isSome by decide +kernel)
  have guarded : (CommandGuard.create "g" (some (soloConfig.limits.maxPeers : ℚ))
      ((handlesOf maxSafeInteger).maxHandles.map (· * soloConfig.limits.maxPeers)) (some 250) (some 0)).isOk := by decide +kernel
  cases created : CommandGuard.create "g" (some (soloConfig.limits.maxPeers : ℚ))
      ((handlesOf maxSafeInteger).maxHandles.map (· * soloConfig.limits.maxPeers)) (some 250) (some 0) with
  | error e =>
    rw [created] at guarded
    cases guarded
  | ok guard =>
    have made := claim _ _ _ _ soloDocument_accepted _ _ _ checked guard created _ _ _ browserOffer_accepted [] "" none
    have safe := (config_safe _ _ _ _ soloDocument_accepted).1
    exact (queueOf_iff checked safe (by decide) (by decide) [] "" none).1 made rfl

end RosBridge.App
