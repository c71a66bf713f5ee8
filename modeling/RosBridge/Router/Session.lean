import RosBridge.Router.State
/-!
# SessionRouter and VideoRouter

`router/index.ts` and `router/video.ts`, with the parts of `media/index.ts` they call.
Router `k` of the world is `this`. A map is read again after every call of a hook; the
records the source holds by reference keep their place in their map, so an assignment
to one is `modify`.

Three methods call `flush` while a flush may be going on (`error`, `event` and the
`state` of a viewer), always after a watched track or a subscription is gone, so a
flush nests no deeper than their number (`depth`). They take the nested flush as an
argument, `again`.
-/

namespace RosBridge.Router

open Lib Prog Session Config

variable {η : Type}

/-! ## Reading and writing the world -/

def router (k : Nat) : Code η (SessionRouter η) := do return (← get).routers k

def update (k : Nat) (f : SessionRouter η → SessionRouter η) : Code η Unit :=
  modify fun w => w.setRouter k (f (w.routers k))

/-- Add to a router's trace. -/
def mark (k : Nat) (m : Mark η) : Code η Unit := update k fun r => { r with trace := r.trace ++ [m] }

/-- Add to the history. -/
def note (n : Note) : Code η Unit := modify fun w => { w with history := w.history ++ [n] }

/-- Ask the outside. -/
def ask {α : Type} (answers : Nat → α) : Code η α := do
  let w ← get
  set { w with tick := w.tick + 1 }
  return answers w.tick

def onGuard {α : Type} (m : CommandGuard.GuardM α) : Code η α :=
  Prog.zoom (·.guard) (fun w g => { w with guard := g }) m

def onQueue {α : Type} (k : Nat) (m : QueueM Bytes α) : Code η α :=
  Prog.zoom (fun w => (w.routers k).queue) (fun w q => w.setRouter k { w.routers k with queue := q }) m

def onCache {α : Type} (k : Nat) (m : RequestCache.CacheM α) : Code η α :=
  Prog.zoom (fun w => (w.routers k).cache) (fun w c => w.setRouter k { w.routers k with cache := c }) m

/-- Assign to the binding of a track. -/
def setBinding (k : Nat) (track : String) (f : Binding → Binding) : Code η Unit :=
  update k fun r => { r with video := r.video.map fun v => { v with bound := v.bound.modify track f } }

/-- The binding of a track. -/
def bindingOf (k : Nat) (track : String) : Code η (Option Binding) := do
  return (← router k).video.bind fun v => v.bound.get? track

variable (env : Env η)

/-! ## Closing -/

/-- Detach the viewer of a track; `MediaService.detach`, through the access of the
router, which may throw. -/
def detach (k : Nat) (track : String) : Code η Unit := do
  mark k (.detaching track)
  throwIf (!(← ask env.detach)) "detach_failed"
  let media := (← get).media
  throwIf (track ∉ media.tracks ∨ media.closed) "unknown_video_track"
  modify fun w => { w with media := { w.media with
    sources := fun t => if t = track then (w.media.sources t).remove (k, track) else w.media.sources t } }

/-- Stop delivering a track while keeping its slot bound; `VideoRouter.release`. -/
def release (k : Nat) (track : String) : Code η Unit := do
  match ← bindingOf k track with
  | none => pure ()
  | some entry =>
    setBinding k track fun b => { b with watching := false }
    when entry.attached do
      setBinding k track fun b => { b with attached := false }
      detach env k track

def releaseAll (k : Nat) : List String → Code η Unit
  | [] => pure ()
  | track :: tracks => do
    release env k track
    releaseAll k tracks

/-- Detach every viewer; `VideoRouter.close`. -/
def videoClose (k : Nat) : Code η Unit := do
  match (← router k).video with
  | none => pure ()
  | some video => releaseAll env k video.bound.keys

/-- The `unsubscribe` that ROS returned for a stream. -/
def unsubscribe (k : Nat) (stream : String) : Code η Unit := do
  mark k (.unsubscribing stream)
  throwIf (!(← ask env.unsubscribe)) "unsubscribe_failed"
  modify fun w => { w with listeners := w.listeners.filter (· ≠ (k, stream)) }

/-- Unsubscribe every stream; whether all calls returned. -/
def unsubscribeAll (k : Nat) : List String → Code η Bool
  | [] => return true
  | stream :: streams => do
    let ok ← tryCatch (do unsubscribe env k stream; return true) fun _ => return false
    let rest ← unsubscribeAll k streams
    return ok && rest

/-- Release all peer listeners, handles, and queues. -/
def close (k : Nat) : Code η Unit := do
  let r ← router k
  when (!r.closed) do
    update k fun r => { r with closed := true }
    note (.shut k)
    videoClose env k
    onGuard (CommandGuard.revokeSession r.sessionId)
    note (.revoked r.sessionId)
    -- Continue releasing even if one listener fails to clean up.
    let ok ← unsubscribeAll env k r.subscriptions.keys
    update k fun r => { r with
      trace := r.trace ++ r.subscriptions.keys.map .lost
      subscriptions := .empty
      publishers := .empty
      queue := (DeliveryQueue.clear.after r.queue)
      cache := (RequestCache.clear.after r.cache) }
    mark k .notified
    throwIf (!ok) "cleanup_failed"

/-! ## Authorization hooks -/

/-- What follows the hook in `CommandGuard.arm`. -/
def armFinish (sessionId handle : String) (clock : Session.Num) : Code η Lease := do
  let before := (← get).guard
  let lease ← onGuard (CommandGuard.armRest sessionId handle clock)
  note (.armed sessionId handle (clock.getD 0) before)
  return lease

/-- `CommandGuard.closeHandle`. -/
def guardCloseHandle (sessionId handle : String) : Code η Unit := do
  onGuard (CommandGuard.closeHandle sessionId handle)
  note (.closedHandle sessionId handle)

/-- What a hook does before it answers. What it calls may throw, and it goes on. -/
def react : Reaction → Code η Bool
  | .answer result => Prog.ofExcept result
  | .arm sessionId handle hook clock rest => do
    tryCatch (do
      let _ ← onGuard (CommandGuard.armBegin sessionId handle)
      note .asked
      throwIf (!(← react hook)) "unauthorized"
      let _ ← armFinish sessionId handle clock) fun _ => pure ()
    react rest
  | .closeHandle sessionId handle rest => do
    tryCatch (guardCloseHandle sessionId handle) fun _ => pure ()
    react rest
  | .revokeSession sessionId rest => do
    onGuard (CommandGuard.revokeSession sessionId)
    note (.revoked sessionId)
    react rest
  | .closeRouter k rest => do
    tryCatch (close env k) fun _ => pure ()
    react rest

/-- Evaluate a hook. -/
def hook (reactions : Nat → Reaction) : Code η Bool := do
  note .asked
  let reaction ← ask reactions
  react env reaction

/-- The guard's `authorize`. -/
def guardAuthorize : Code η Unit := do
  throwIf (!(← hook env env.guardAuthorize)) "unauthorized"

/-- `CommandGuard.openHandle`. -/
def guardOpenHandle (sessionId topic : String) (leaseMs : Option Session.Num) : Code η String := do
  let (identity, leaseMs) ← onGuard (CommandGuard.openHandleBegin sessionId topic leaseMs)
  guardAuthorize env
  let handle ← onGuard (CommandGuard.openHandleRest identity leaseMs)
  note (.opened identity)
  return handle

/-- `CommandGuard.arm`. -/
def guardArm (sessionId handle : String) : Code η Lease := do
  let _ ← onGuard (CommandGuard.armBegin sessionId handle)
  guardAuthorize env
  armFinish sessionId handle (← ask env.guardClock)

/-- `CommandGuard.prepare`; the ticket is the saved request and its sequence. -/
def guardPrepare (request : CommandRequest) : Code η (CommandRequest × Nat) := do
  let (_, seq) ← onGuard (CommandGuard.prepareBegin request)
  guardAuthorize env
  onGuard (CommandGuard.prepareRest request seq (← ask env.guardClock))
  return (request, seq)

/-- `CommandTicket.publish`, up to the call of its argument. A publish without a ticket
goes on at once. -/
def ticketPublish : Option (CommandRequest × Nat) → Code η Unit
  | none => pure ()
  | some (saved, seq) => do
    let _ ← onGuard (CommandGuard.validateBegin saved)
    guardAuthorize env
    let clock ← ask env.guardClock
    let before := (← get).guard
    onGuard (CommandGuard.publishRest saved seq clock)
    note (.validated saved (clock.getD 0) before)

/-! ## Small helpers -/

/-- Apply default-deny authorization. -/
def allowed (k : Nat) (entry : RouterBinding η) (operation : Operation) : Code η Bool := do
  if entry.binding.direction = operation.direction then
    let ok ← hook env env.authorize
    note (.answered k entry.binding.publicName operation ok)
    return ok
  else return false

/-- Check topic, direction, and permissions. -/
def entry (k : Nat) (name : String) (operation : Operation) : Code η (RouterBinding η) := do
  match (← router k).entries.get? name with
  | none => throw "unauthorized"
  | some entry =>
    throwIf (!(← allowed env k entry operation)) "unauthorized"
    throwIf ((← router k).closed) "router_closed"
    return entry

/-- Get a peer-owned publisher. -/
def publisher (k : Nat) (handle : String) : Code η (Publisher η) := do
  match (← router k).publishers.get? handle with
  | none => throw "unknown_handle"
  | some publisher => return publisher

/-- Get a peer-owned stream. -/
def subscription (k : Nat) (stream : String) : Code η (Subscription η) := do
  match (← router k).subscriptions.get? stream with
  | none => throw "unknown_stream"
  | some subscription => return subscription

/-- Validate a side-effect-free monotonic clock. -/
def now (k : Nat) : Code η ℚ := do
  let r ← router k
  match ← ask env.clock with
  | none => throw "invalid_clock"
  | some value =>
    throwIf (value < r.lastTime ∨ value > maxSafeInteger - (r.limits.requestTtlMs : ℚ)) "invalid_clock"
    update k fun r => { r with lastTime := value }
    return value

/-- Generate an identifier never reused within the peer; `id` in the source. -/
def issueId (k : Nat) : Code η String := do
  update k fun r => { r with nextId := r.nextId + 1 }
  let r ← router k
  return CommandGuard.idText r.sessionId r.nextId

/-- Limit control floods in a one-second window. -/
def controlRate (k : Nat) : Code η Unit := do
  let window := (← now env k) / 1000
  update k fun r => { r with
    controlWindow := window.floor
    controlCount := (if window.floor = r.controlWindow then r.controlCount else 0) + 1 }
  let r ← router k
  throwIf (r.controlCount > r.limits.maxControlRateHz) "control_rate"

/-- Discard a listener and pending sends. -/
def removeSubscription (k : Nat) (stream : String) : Code η Unit := do
  let _ ← subscription k stream
  update k fun r => { r with
    subscriptions := r.subscriptions.erase stream
    trace := r.trace ++ [.lost stream] }
  onQueue k (DeliveryQueue.closeStream stream)
  unsubscribe env k stream

/-- Put encoded bytes in the control queue. -/
def queueControl (k : Nat) (bytes : Bytes) : Code η Unit := do
  let _ ← onQueue k (DeliveryQueue.enqueue "control" bytes)
  mark k (.queued bytes.envelope)

/-- Encode an envelope under the router's limit. -/
def encoded (k : Nat) (envelope : Envelope) : Code η Bytes := do
  Prog.ofExcept (encodeWire (← get).numbers envelope (← router k).maxBytes)

/-- Store a control response in a bounded queue. -/
def respond (k : Nat) (envelope : Envelope) : Code η Unit := do
  throwIf ((← router k).closed) "router_closed"
  queueControl k (← encoded k envelope)

/-! ## Sending -/

/-- The loop of `drain`; it ends before `fuel` does when that exceeds the messages queued. -/
def drainLoop (k : Nat) (stream : String) (channel : Channel) : Nat → Code η Bool
  | 0 => return true
  | fuel + 1 => do
    match ← onQueue k (DeliveryQueue.peek stream) with
    | none => return true
    | some next =>
      let accepted ← ask env.send
      mark k (.handed channel next.envelope accepted)
      note (.handed k stream accepted)
      if accepted then do
        let _ ← onQueue k (DeliveryQueue.dequeue stream)
        drainLoop k stream channel fuel
      else return false

/-- Remove only successfully sent queue heads; true when the queue is empty. -/
def drain (k : Nat) (stream : String) (channel : Channel) : Code η Bool := do
  let queued := ((← router k).queue.streams.get? stream).map (·.messages.length)
  drainLoop env k stream channel (queued.getD 0 + 1)

section Nested

variable (again : Code η Unit)

/-- Report rejection and release peer resources on control overflow; `error` in the source. -/
def errorWith (k : Nat) (id : Option String) : Code η Unit := do
  when (!(← router k).closed) <|
    tryCatch (do respond k (.error id); again) fun _ => close env k

/-- Deliver an event the peer did not ask for; `event` in the source. -/
def eventWith (k : Nat) (envelope : Envelope) : Code η Unit :=
  tryCatch (do respond k envelope; again) fun _ => errorWith env again k none

/-- The `state` callback of the viewer that router `k` made for a track. -/
def viewerStateWith (k : Nat) (track : String) (state : Media.VideoState) : Code η Unit := do
  match ← bindingOf k track with
  | none => pure ()
  | some entry =>
    when (state = .failed) <| setBinding k track fun b => { b with watching := false, attached := false }
    eventWith env again k (.videoState track entry.slot.mid state)

/-- Losing access to a watched track detaches. -/
def revalidateTrackWith (k : Nat) (track : String) : Code η Unit := do
  match ← bindingOf k track with
  | none => pure ()
  | some entry =>
    when entry.watching do
      let ok ← hook env env.videoAuthorize
      when (!ok) do
        release env k track
        viewerStateWith env again k track .failed

/-- Re-evaluate authorization for every watched track; `VideoRouter.revalidate`. -/
def revalidateWith (k : Nat) : List String → Code η Unit
  | [] => pure ()
  | track :: tracks => do
    revalidateTrackWith env again k track
    revalidateWith k tracks

/-- Recheck a subscription before its buffered data is sent; whether to go on. -/
def recheckWith (k : Nat) (stream name : String) : Code η Bool :=
  tryCatch (do
    let _ ← entry env k name .subscribe
    return true) fun _ => do
      note (.refused k stream)
      when ((← router k).subscriptions.has stream) <| removeSubscription env k stream
      errorWith env again k none
      return false

def flushStreamsWith (k : Nat) : List (String × Subscription η) → Code η Unit
  | [] => pure ()
  | (stream, subscription) :: rest => do
    when (← recheckWith env again k stream subscription.entry.binding.publicName) do
      when (← drain env k stream (dataChannel subscription.entry.binding.delivery)) <|
        flushStreamsWith k rest

/-- One `flush`, with `again` for the flushes it starts itself. -/
def flushWith (k : Nat) : Code η Unit := do
  let r ← router k
  when (!r.closed) do
    note (.flushing k)
    revalidateWith env again k ((r.video.map (·.bound.keys)).getD [])
    when (← drain env k "control" .control) do
      flushStreamsWith env again k (← router k).subscriptions.entries

end Nested

/-- How deep flushes of a router can nest. -/
def SessionRouter.depth (r : SessionRouter η) : Nat :=
  ((r.video.map fun v => (v.bound.values.filter (·.watching)).length).getD 0) + r.subscriptions.size + 1

def flushDepth (k : Nat) : Nat → Code η Unit
  | 0 => pure ()
  | depth + 1 => flushWith env (flushDepth k depth) k

/-- Retry sending when backpressure clears, prioritizing control. -/
def flush (k : Nat) : Code η Unit := do flushDepth env k (← router k).depth

def error (k : Nat) (id : Option String) : Code η Unit := errorWith env (flush env k) k id

def viewerState (k : Nat) (track : String) (state : Media.VideoState) : Code η Unit :=
  viewerStateWith env (flush env k) k track state

/-! ## Samples -/

/-- Number a sample, encode it and queue it. -/
def deliver (k : Nat) (stream : String) (entry : RouterBinding η) (native : η) : Code η Unit := do
  let subscription ← subscription k stream
  -- Stop streams that exhaust uint64 sequence numbers instead of wrapping.
  throwIf ((sequence (toString subscription.seq)).isNone) "invalid_sequence"
  let data ← Prog.ofExcept (entry.codec.encode native)
  update k fun r => { r with
    subscriptions := r.subscriptions.modify stream fun s => { s with seq := s.seq + 1 }
    trace := r.trace ++ [.sampled stream subscription.seq native] }
  let bytes ← encoded k (.message stream (← router k).epoch (toString subscription.seq) data)
  let _ ← onQueue k (DeliveryQueue.enqueue stream bytes)

/-- Deliver only new ROS samples after ready. -/
def sample (k : Nat) (stream : String) (native : η) : Code η Unit := do
  match (← router k).subscriptions.get? stream with
  | none => pure ()
  | some subscription =>
    when subscription.ready <|
      tryCatch (do
        let entry ← entry env k subscription.entry.binding.publicName .subscribe
        let now ← now env k
        when (¬now < subscription.nextAt) do
          update k fun r => { r with subscriptions := r.subscriptions.modify stream fun s =>
            { s with nextAt := now + 1000 / entry.binding.maxRateHz } }
          deliver k stream entry native
          flush env k) fun _ => do
        note (.refused k stream)
        when ((← router k).subscriptions.has stream) <| removeSubscription env k stream
        error env k none

def samples (k : Nat) (stream : String) : List η → Code η Unit
  | [] => pure ()
  | native :: natives => do
    sample env k stream native
    samples k stream natives

/-! ## Video -/

/-- How the code of one source runs in the world: a viewer is told a state by its
router. -/
def mediaPort (track : String) (tick : Nat) : Media.Port (World η) ViewerId where
  view w := w.media.sources track
  put w s := { w with media := { w.media with sources := fun t => if t = track then s else w.media.sources t } }
  told v state w := (viewerState env v.1 v.2 state).after w
  startup := env.startup tick
  keyframe := env.keyframe tick

/-- Run code of the source of a track. -/
def onSource (track : String) (f : Media.Port (World η) ViewerId → World η → World η) : Code η Unit :=
  modify fun w => f (mediaPort env track w.tick) { w with tick := w.tick + 1 }

/-- The number of encoders running. -/
def MediaService.running (m : MediaService) : Nat := (m.tracks.filter fun t => (m.sources t).running).length

/-- Resolve a configured source; `MediaService.source`. -/
def source (track : String) : Code η (Media.SourceSystem ViewerId) := do
  let media := (← get).media
  throwIf (track ∉ media.tracks ∨ media.closed) "unknown_video_track"
  return media.sources track

/-- Attach a viewer to a source, starting the encoder if it is the first; `MediaService.attach`. -/
def attach (track : String) (viewer : ViewerId) : Code η Unit := do
  let source ← source track
  let media := (← get).media
  throwIf (!source.running ∧ media.running ≥ media.maxPipelines) "video_pipeline_limit"
  throwIf (!source.retryable) "video_retry_too_soon"
  onSource env track fun port => port.add viewer

/-- The digits of a hexadecimal number. -/
def hexDigit (c : Char) : Option Nat :=
  if c.isDigit then some (c.toNat - '0'.toNat)
  else if 'a' ≤ c ∧ c ≤ 'f' then some (c.toNat - 'a'.toNat + 10)
  else none

/-- The profile in a `profile-level-id`, which negotiation has checked to be six
lower-case hexadecimal digits. -/
def profileIdc (profileLevelId : String) : Option Nat :=
  match (profileLevelId.toList.take 2).map hexDigit with
  | [some a, some b] => some (16 * a + b)
  | _ => none

/-- The media plane of a router; without one its video operations are unknown. -/
def videoOf (k : Nat) : Code η VideoRouter := do
  match (← router k).video with
  | none => throw "unknown_operation"
  | some video => return video

/-- Bind a slot to a track, or reuse the one already bound; `VideoRouter.bind`. -/
def bind (k : Nat) (track : String) : Code η Binding := do
  let video ← videoOf k
  match video.bound.get? track with
  | some existing => return existing
  | none =>
    throwIf (video.free.isEmpty) "video_slot_limit"
    let wanted := (← get).media.profileIdc track
    match video.free.find? fun slot => wanted.isSome && profileIdc slot.profileLevelId = wanted with
    | none => throw "video_profile_mismatch"
    | some slot =>
      let i := video.free.findIdx fun slot => wanted.isSome && profileIdc slot.profileLevelId = wanted
      let entry : Binding := ⟨slot, false, false⟩
      update k fun r => { r with video := some ⟨video.bound.set track entry, video.free.eraseIdx i⟩ }
      return entry

/-- `video.subscribe`. -/
def videoSubscribe (k : Nat) (wire : Wire) (id : String) : Code η Envelope := do
  Prog.ofExcept (fields wire ["id", "track"])
  let track ← Prog.ofExcept (textField wire "track")
  throwIf (!(← hook env env.videoAuthorize)) "unauthorized"
  let entry ← bind k track
  -- Mark it watched only once the media plane accepted it.
  when (!entry.watching) do
    attach env track (k, track)
    setBinding k track fun b => { b with watching := true, attached := true }
  return .videoSubscribed id track entry.slot.mid

/-- `video.unsubscribe`. -/
def videoUnsubscribe (k : Nat) (wire : Wire) (id : String) : Code η Envelope := do
  Prog.ofExcept (fields wire ["id", "mid"])
  let mid ← Prog.ofExcept (textField wire "mid")
  match (← videoOf k).bound.entries.find? fun e => e.2.slot.mid = mid with
  | none => throw "unknown_video_slot"
  | some (track, _) =>
    release env k track
    return .videoUnsubscribed id

/-- Execute one video control operation; `VideoRouter.operation`. -/
def videoOperation (k : Nat) (wire : Wire) (id : String) : Code η Envelope :=
  if operationOf wire = "video.subscribe" then videoSubscribe env k wire id
  else if operationOf wire = "video.unsubscribe" then videoUnsubscribe env k wire id
  else throw "unknown_operation"

/-! ## Requests -/

/-- The queue's policy for a binding. -/
def streamPolicy (entry : RouterBinding η) : Policy :=
  if entry.binding.queue.policy = .latest then .latest else .reliable

/-- Register a logical ROS listener. -/
def subscribe (k : Nat) (entry : RouterBinding η) (requestId : String) : Code η Envelope := do
  let stream ← issueId k
  onQueue k (DeliveryQueue.register stream (streamPolicy entry) entry.binding.queue.maxMessages)
  match ← ask env.subscribe with
  | none =>
    onQueue k (DeliveryQueue.closeStream stream)
    throw "subscribe_failed"
  | some natives =>
    modify fun w => { w with listeners := w.listeners ++ [(k, stream)] }
    samples env k stream natives
    update k fun r => { r with
      subscriptions := r.subscriptions.set stream ⟨entry, false, 0, 0⟩
      trace := r.trace ++ [.opened stream entry] }
    return .subscribed requestId stream (← router k).epoch entry.schemaId

/-- The handle of a new publisher: the guard's for a guarded binding. -/
def publisherHandle (k : Nat) (entry : RouterBinding η) : Code η String := do
  match entry.binding.commandGuard with
  | some guard =>
    guardOpenHandle env (← router k).sessionId entry.binding.rosTopic (some (some (guard.leaseMs : ℚ)))
  | none => issueId k

/-- Register a publisher. -/
def advertise (k : Nat) (entry : RouterBinding η) (requestId : String) : Code η Envelope := do
  let r ← router k
  let handle ← publisherHandle env k entry
  update k fun r => { r with
    publishers := r.publishers.set handle ⟨entry, entry.binding.commandGuard.isSome, -1, 0⟩ }
  return .advertised requestId handle r.epoch entry.schemaId

/-- `subscribe` and `advertise`. -/
def openOperation (k : Nat) (wire : Wire) (id : String) (operation : Operation) : Code η Envelope := do
  Prog.ofExcept (fields wire ["id", "topic"])
  let topic ← Prog.ofExcept (textField wire "topic")
  let entry ← entry env k topic operation
  let r ← router k
  throwIf (r.subscriptions.size + r.publishers.size ≥ r.limits.maxHandles) "handle_limit"
  match operation with
  | .subscribe => subscribe env k entry id
  | .publish => advertise env k entry id

/-- `unsubscribe`. -/
def unsubscribeOperation (k : Nat) (wire : Wire) (id : String) : Code η Envelope := do
  Prog.ofExcept (fields wire ["id", "stream_id"])
  let stream ← Prog.ofExcept (textField wire "stream_id")
  removeSubscription env k stream
  mark k (.unsubscribed stream)
  return .unsubscribed id

/-- What `arm` and `unadvertise` check: the handle is the peer's, and it may publish. -/
def ownedHandle (k : Nat) (wire : Wire) : Code η (String × Publisher η) := do
  Prog.ofExcept (fields wire ["id", "handle"])
  let handle ← Prog.ofExcept (textField wire "handle")
  let publisher ← publisher k handle
  let _ ← entry env k publisher.entry.binding.publicName .publish
  return (handle, publisher)

/-- `arm`. -/
def armOperation (k : Nat) (wire : Wire) (id : String) : Code η Envelope := do
  let (handle, publisher) ← ownedHandle env k wire
  throwIf (!publisher.guarded) "lease_not_required"
  let r ← router k
  let lease ← guardArm env r.sessionId handle
  return .lease id handle r.epoch lease.id lease.expiresAt

/-- `unadvertise`. -/
def unadvertiseOperation (k : Nat) (wire : Wire) (id : String) : Code η Envelope := do
  let (handle, publisher) ← ownedHandle env k wire
  when publisher.guarded <| guardCloseHandle (← router k).sessionId handle
  update k fun r => { r with publishers := r.publishers.erase handle }
  return .unadvertised id

/-- Process an operation with a request ID. -/
def operation (k : Nat) (wire : Wire) (id : String) : Code η Envelope := do
  let op := operationOf wire
  if op = "subscribe" then openOperation env k wire id .subscribe
  else if op = "advertise" then openOperation env k wire id .publish
  else if op = "unsubscribe" then unsubscribeOperation env k wire id
  else if (← router k).video.isSome ∧ op.startsWith "video." then videoOperation env k wire id
  else if op = "arm" then armOperation env k wire id
  else if op = "unadvertise" then unadvertiseOperation env k wire id
  else throw "unknown_operation"

/-- The entries a peer may use, as its catalog lists them. -/
def catalog (k : Nat) : List (RouterBinding η) → Code η (List CatalogEntry)
  | [] => return []
  | entry :: entries => do
    let ok ← allowed env k entry (if entry.binding.direction = .rosToWeb then .subscribe else .publish)
    let rest ← catalog k entries
    let b := entry.binding
    return if ok then ⟨b.publicName, b.rosType, b.direction, b.delivery, entry.schemaId⟩ :: rest else rest

/-- The catalog of the video plane, left out when it is empty; `VideoRouter.catalog`. -/
def videoCatalog (k : Nat) : Code η (Option (List (String × String))) := do
  match (← router k).video with
  | none => return none
  | some _ =>
    let tracks ← ask env.videoCatalog
    return if tracks = [] then none else some tracks

/-- Execute a request once, and repeat its response to retransmissions. -/
def request (k : Nat) (wire : Wire) (id : String) : Code η Unit := do
  let input := (Json.object wire).stringify (← get).numbers.text
  let now ← now env k
  match ← onCache k (RequestCache.lookup id input now) with
  | some cached => queueControl k cached
  | none =>
    onCache k (RequestCache.reserve ((← router k).maxBytes + utf16Length input * 2))
    let response ← operation env k wire id
    -- Cache responses before sending so delayed delivery cannot cause re-execution.
    let bytes ← encoded k response
    onCache k (RequestCache.store id input bytes now)
    mark k (.stored id input bytes now)
    queueControl k bytes

/-- Execute a control operation. -/
def control (k : Nat) (wire : Wire) (id : Option String) : Code η Unit := do
  if operationOf wire = "hello" then
    Prog.ofExcept (fields wire [])
    let r ← router k
    throwIf (r.welcomed) "already_welcomed"
    let catalog ← catalog env k r.entries.values
    let video ← videoCatalog env k
    respond k (.welcome r.epoch catalog video)
    update k fun r => { r with welcomed := true }
  else
    throwIf (!(← router k).welcomed) "hello_required"
    if operationOf wire = "ready" then
      Prog.ofExcept (fields wire ["stream_id"])
      let stream ← Prog.ofExcept (textField wire "stream_id")
      let _ ← subscription k stream
      update k fun r => { r with
        subscriptions := r.subscriptions.modify stream fun s => { s with ready := true }
        trace := r.trace ++ [.readied stream] }
    else
      match id with
      | none => throw "request_id_required"
      | some id => request env k wire id

/-! ## Publishing -/

/-- The callback that reaches ROS. -/
def rosPublish (k : Nat) (handle : String) (entry : RouterBinding η) (native : η)
    (ticket : Option (CommandRequest × Nat)) : Code η Unit := do
  let _ ← Router.entry env k entry.binding.publicName .publish
  let _ ← Prog.ofExcept (entry.codec.encode native)
  let r ← router k
  mark k (.published handle entry.binding.publicName r.lastTime)
  note (.published k r.sessionId entry.binding (ticket.map (·.1)) (← get).guard)
  throwIf (!(← ask env.publish)) "publish_failed"

/-- The ticket of a guarded publish. -/
def publishTicket (k : Nat) (wire : Wire) (handle : String) (guarded : Bool) (seq : Nat) :
    Code η (Option (CommandRequest × Nat)) := do
  if guarded then do
    let r ← router k
    let leaseId ← Prog.ofExcept (textField wire "lease_id")
    let ticket ← guardPrepare env ⟨r.sessionId, r.epoch, handle, leaseId, toString seq⟩
    return some ticket
  else do
    throwIf (wire.field "lease_id").isSome "unexpected_lease"
    return none

/-- Whether an envelope names the epoch of a router. -/
def namesEpoch (wire : Wire) (epoch : String) : Bool :=
  match wire.field "epoch" with
  | some (.string value) => value = epoch
  | _ => false

/-- The sequence an envelope carries. -/
def wireSequence (wire : Wire) : Except String Nat := do
  match sequence (← textField wire "seq") with
  | none => throw "invalid_sequence"
  | some seq => return seq

/-- Validate Web publishing through the synchronous ROS boundary. -/
def publish (k : Nat) (channel : Channel) (wire : Wire) : Code η Unit := do
  Prog.ofExcept (fields wire ["id", "handle", "epoch", "seq", "lease_id", "data"])
  let r ← router k
  throwIf (!r.welcomed ∨ operationOf wire ≠ "publish" ∨ !namesEpoch wire r.epoch) "invalid_publish"
  let handle ← Prog.ofExcept (textField wire "handle")
  let publisher ← publisher k handle
  let entry ← entry env k publisher.entry.binding.publicName .publish
  throwIf (channel ≠ dataChannel entry.binding.delivery) "invalid_channel"
  let seq ← Prog.ofExcept (wireSequence wire)
  let now ← now env k
  throwIf ((seq : Int) ≤ publisher.seq ∨ now < publisher.nextAt) "publish_rate_or_sequence"
  let native ← Prog.ofExcept (entry.codec.decode (wire.field "data"))
  let ticket ← publishTicket env k wire handle publisher.guarded seq
  -- Do not roll back received sequence or rate state after ROS failure.
  update k fun r => { r with
    publishers := r.publishers.modify handle fun p =>
      { p with seq := seq, nextAt := now + 1000 / entry.binding.maxRateHz }
    trace := r.trace ++ [.admitted handle entry.binding.publicName now] }
  ticketPublish env ticket
  rosPublish env k handle entry native ticket
  respond k (.publishedToRos handle (toString seq))

/-! ## Receiving -/

/-- The request an envelope names, if it names one. -/
def requestId (wire : Wire) : Except String (Option String) :=
  if (Map.field wire "id").isNone then .ok none else (textField wire "id").map some

/-- What `receive` checks before it knows a request. -/
def parse (k : Nat) (label : String) (raw : Raw) : Code η (Channel × Wire × Option String) := do
  match isChannel label with
  | none => throw "invalid_channel"
  | some channel =>
    when (channel = .control) <| controlRate env k
    let wire ← Prog.ofExcept (parseWire raw (← router k).maxBytes)
    -- Do not copy invalid IDs into error responses.
    let id ← Prog.ofExcept (requestId wire)
    return (channel, wire, id)

/-- What `receive` does with a parsed envelope. -/
def dispatch (k : Nat) (channel : Channel) (wire : Wire) (id : Option String) : Code η Unit :=
  if channel = .control then control env k wire id else publish env k channel wire

/-- Validate input and execute an operation. -/
def receive (k : Nat) (label : String) (raw : Raw) : Code η Unit := do
  when (!(← router k).closed) do
    let parsed ← tryCatch (do return some (← parse env k label raw)) fun _ => do
      error env k none
      return none
    match parsed with
    | none => pure ()
    | some (channel, wire, id) =>
      tryCatch (do
        dispatch env k channel wire id
        flush env k) fun _ => error env k id

end RosBridge.Router
