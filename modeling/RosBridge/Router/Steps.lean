import Mathlib.Logic.Relation
import RosBridge.Router.CacheSpecs
import RosBridge.Router.Runs
import RosBridge.Session.Changes
import RosBridge.Session.QueueSpecs
/-!
# What a bridge can do

`Move` lists what can happen inside one router and `Step` what can happen to a bridge,
each with what the code has checked before it. That the code does nothing else is
proved once (`Router.Walk`); the properties of runs are then inductions over steps.

Things that the code does one after the other with nothing in between that could use
the bridge are one step: registering a subscription, its listener and its response, or
all of `close`.
-/

namespace RosBridge.Router

open Lib Session Config Relation

variable {η : Type}

/-- Which failures of the outside may happen, whether requests are cached, and whether routers are
constructed. -/
structure Allow where
  /-- The response to a subscribe may not fit. -/
  large : Prop
  /-- A hook may use the guard. -/
  wild : Prop
  /-- An `unsubscribe` may throw. -/
  stuck : Prop
  /-- A `detach` may throw. -/
  torn : Prop
  /-- The request cache may be used. -/
  cache : Prop
  /-- Routers may be constructed. -/
  makes : Prop

/-- Nothing of a track is delivered any more. -/
def Binding.released (b : Binding) : Binding := { b with watching := false, attached := false }

/-- `b` is `b'` with nothing delivered that was not before. -/
structure Binding.Less (b b' : Binding) : Prop where
  slot : b.slot = b'.slot
  attached : b.attached = true → b'.attached = true

/-- Whether the media service has the viewer of a track. -/
def VideoRouter.holds (v : VideoRouter) (track : String) : Bool := (v.bound.get? track).any (·.attached)

namespace SessionRouter

variable (r : SessionRouter η)

/-- The identifier issued next. -/
def nextStream : String := CommandGuard.idText r.sessionId (r.nextId + 1)

/-- An identifier was issued by the router. -/
def Issued (id : String) : Prop := ∃ n, n ≤ r.nextId ∧ id = CommandGuard.idText r.sessionId n

/-- A stream can take and give messages. -/
def Live (stream : String) : Prop := ∃ s, r.queue.streams.get? stream = some s ∧ s.stopped = false

/-- Nothing is queued on a stream. -/
def Idle (stream : String) : Prop :=
  ∃ s, r.queue.streams.get? stream = some s ∧ s.stopped = false ∧ s.messages = []

/-- Control envelopes can be queued as long as the router is open. -/
def Settled : Prop := r.closed = true ∨ r.Live "control"

/-- The subscriptions and publishers that count towards `maxHandles`. -/
def handles : Nat := r.subscriptions.size + r.publishers.size

/-- The tracks whose viewer the media service has. -/
def attached : List String :=
  match r.video with
  | none => []
  | some v => v.bound.keys.filter v.holds

def marked (m : Mark η) : SessionRouter η := { r with trace := r.trace ++ [m] }

/-- The binding of a track changes. -/
def flag (track : String) (f : Binding → Binding) : SessionRouter η :=
  { r with video := r.video.map fun v => { v with bound := v.bound.modify track f } }

/-- A new subscription. -/
def subscribe (entry : RouterBinding η) : SessionRouter η :=
  { r with
    nextId := r.nextId + 1
    subscriptions := r.subscriptions.set r.nextStream ⟨entry, false, 0, 0⟩
    queue := { r.queue with
      streams := r.queue.streams.set r.nextStream ⟨streamPolicy entry, entry.binding.queue.maxMessages, [], false⟩ }
    trace := r.trace ++ [.opened r.nextStream entry] }

/-- A subscription and its pending messages are gone. -/
def unsubscribe (stream : String) (q : DeliveryQueue Bytes) : SessionRouter η :=
  { r with
    subscriptions := r.subscriptions.erase stream
    queue := q
    trace := r.trace ++ [.lost stream, .unsubscribing stream] }

/-- A sample was given the next number of its stream. -/
def number (stream : String) (seq : Nat) (native : η) : SessionRouter η :=
  { r with
    subscriptions := r.subscriptions.modify stream fun s => { s with seq := s.seq + 1 }
    trace := r.trace ++ [.sampled stream seq native] }

/-- A new publisher. -/
def advertise (handle : String) (entry : RouterBinding η) : SessionRouter η :=
  { r with publishers := r.publishers.set handle ⟨entry, entry.binding.commandGuard.isSome, -1, 0⟩ }

def unadvertise (handle : String) : SessionRouter η := { r with publishers := r.publishers.erase handle }

/-- A response was cached. -/
def store (id input : String) (output : Bytes) (t : ℚ) : SessionRouter η :=
  { r with
    cache := (RequestCache.store id input output t).after r.cache
    trace := r.trace ++ [.stored id input output t] }

/-- What `close` leaves. -/
def finished : SessionRouter η :=
  { r with
    closed := true
    subscriptions := .empty
    publishers := .empty
    queue := DeliveryQueue.clear.after r.queue
    cache := RequestCache.clear.after r.cache
    video := r.video.map fun v => { v with bound := v.bound.mapValues fun _ b => b.released }
    trace := r.trace ++ (r.attached.map .detaching ++ r.subscriptions.keys.map .unsubscribing ++
      r.subscriptions.keys.map .lost ++ [.notified]) }

/-- A router as it is constructed. -/
structure Fresh : Prop where
  isOpen : r.closed = false
  named : ∀ n e, r.entries.get? n = some e → e.binding.publicName = n
  streams : r.queue.streams = Table.empty.set "control" ⟨.reliable, r.limits.maxRequests, [], false⟩
  maxStreams : r.queue.options.maxStreams = r.limits.maxHandles + 1
  limit : r.queue.options.maxMessageBytes = r.maxBytes
  queued : r.queue.bytes = 0
  cache : ∃ maxBytes, r.cache = .create r.limits.maxRequests r.limits.requestTtlMs maxBytes
  positive : 0 < r.limits.maxRequests ∧ 0 < r.limits.maxHandles
  video : ∀ v, r.video = some v → v.bound = .empty
  subscriptions : r.subscriptions = .empty
  publishers : r.publishers = .empty
  trace : r.trace = []
  nextId : r.nextId = 0

end SessionRouter

/-! ## The queue of a router -/

/-- What becomes of the bytes of a control envelope. -/
inductive Control (r : SessionRouter η) (bytes : Bytes) : SessionRouter η → Prop where
  | queued (s : Stream Bytes) (q : DeliveryQueue Bytes) (found : r.queue.streams.get? "control" = some s)
      (live : s.stopped = false) (options : q.options = r.queue.options)
      (streams : q.streams = r.queue.streams.set "control" { s with messages := s.messages ++ [bytes] })
      (fits : 0 < bytes.byteLength ∧ bytes.byteLength ≤ r.queue.options.maxMessageBytes) :
      Control r bytes ({ r with queue := q }.marked (.queued bytes.envelope))
  | jammed (s : Stream Bytes) (q : DeliveryQueue Bytes) (found : r.queue.streams.get? "control" = some s)
      (live : s.stopped = false) (options : q.options = r.queue.options)
      (streams : q.streams = r.queue.streams.set "control" { s with messages := [], stopped := true }) :
      Control r bytes { r with queue := q }
  | dead (dead : ¬r.Live "control") : Control r bytes r

/-- The listeners left when router `k` has unsubscribed these streams. -/
def unheard (k : Nat) (gone : List String) (listeners : List (Nat × String)) : List (Nat × String) :=
  listeners.filter fun l => decide (¬(l.1 = k ∧ l.2 ∈ gone))

/-- What a completed `close` of router `k` leaves. -/
def World.finish (w : World η) (k : Nat) (gone : List String) : World η :=
  { w.setRouter k (w.routers k).finished with
    guard := (CommandGuard.revokeSession (w.routers k).sessionId).after w.guard
    listeners := unheard k gone w.listeners
    history := w.history ++ [.shut k, .revoked (w.routers k).sessionId] }

/-- The head of a stream is given to `send`, and removed if that accepts it. -/
inductive Sent (q : DeliveryQueue Bytes) (stream : String) (next : Bytes) : Bool → DeliveryQueue Bytes → Prop where
  | refused (s : Stream Bytes) (rest : List Bytes) (found : q.streams.get? stream = some s) (live : s.stopped = false)
      (head : s.messages = next :: rest) : Sent q stream next false q
  | accepted (s : Stream Bytes) (rest : List Bytes) (q' : DeliveryQueue Bytes) (found : q.streams.get? stream = some s)
      (live : s.stopped = false) (head : s.messages = next :: rest) (options : q'.options = q.options)
      (streams : q'.streams = q.streams.set stream { s with messages := rest }) : Sent q stream next true q'

/-- The section was negotiated for the profile of the track. -/
def MediaService.Fits (m : MediaService) (track : String) (slot : VideoSlot) : Prop :=
  ∃ idc, m.profileIdc track = some idc ∧ Router.profileIdc slot.profileLevelId = some idc

section Moves

variable (numbers : NumberText) (allow : Allow)

/-- What becomes of the response to a subscribe. -/
inductive Announced (r : SessionRouter η) (envelope : Envelope) : SessionRouter η → Prop where
  | announced (id input : String) (t : ℚ) (r' : SessionRouter η) (cached : allow.cache)
      (storable : Storable r.cache id input (encode numbers envelope)) (now : t ≤ r.lastTime)
      (control : Control (r.store id input (encode numbers envelope) t) (encode numbers envelope) r')
      (welcomed : r.welcomed = true) : Announced r envelope r'
  | large (large : allow.large) : Announced r envelope r

/-- What can happen inside a router. -/
inductive Move (media : MediaService) (r : SessionRouter η) : SessionRouter η → Prop where
  | counted (window : Int) (count : Nat) (welcomed : Bool) (still : r.welcomed = true → welcomed = true) :
      Move media r { r with controlWindow := window, controlCount := count, welcomed := welcomed }
  | ticked (t : ℚ) (later : r.lastTime ≤ t) : Move media r { r with lastTime := t }
  | issued : Move media r { r with nextId := r.nextId + 1 }
  | control (bytes : Bytes) (r' : SessionRouter η) (control : Control r bytes r') (plain : bytes.envelope.stream = none) :
      Move media r r'
  | readied (stream : String) (sub : Subscription η) (found : r.subscriptions.get? stream = some sub) :
      Move media r { r with
        subscriptions := r.subscriptions.modify stream fun s => { s with ready := true }
        trace := r.trace ++ [.readied stream] }
  | paced (stream : String) (t : ℚ) :
      Move media r { r with subscriptions := r.subscriptions.modify stream fun s => { s with nextAt := t } }
  | sampled (stream : String) (sub : Subscription η) (native : η) (data : Json) (ok : Bool) (q : DeliveryQueue Bytes)
      (found : r.subscriptions.get? stream = some sub) (ready : sub.ready = true) (fits : sub.seq ≤ maxSequence)
      (encoded : sub.entry.codec.encode native = .ok data)
      (stored : DeliveryQueue.Stored r.queue stream (encode numbers (.message stream r.epoch (toString sub.seq) data)) ok q)
      (options : q.options = r.queue.options) : Move media r { r.number stream sub.seq native with queue := q }
  | unsubscribed (stream : String) (gone : .lost stream ∈ r.trace) : Move media r (r.marked (.unsubscribed stream))
  | advertised (entry : RouterBinding η) (isOpen : r.closed = false)
      (found : r.entries.get? entry.binding.publicName = some entry) (direction : entry.binding.direction = .webToRos)
      (unguarded : entry.binding.commandGuard = none) (room : r.handles < r.limits.maxHandles) :
      Move media r ({ r with nextId := r.nextId + 1 }.advertise r.nextStream entry)
  | unadvertised (handle : String) (p : Publisher η) (found : r.publishers.get? handle = some p)
      (unguarded : p.guarded = false) : Move media r (r.unadvertise handle)
  | admitted (handle : String) (entry : RouterBinding η) (seq : Int) (t : ℚ) (now : t = r.lastTime)
      (due : r.closed = false → ∃ p, r.publishers.get? handle = some p ∧ p.entry = entry ∧ p.seq < seq ∧ p.nextAt ≤ t) :
      Move media r { r with
        publishers := r.publishers.modify handle fun p =>
          { p with seq := seq, nextAt := t + 1000 / entry.binding.maxRateHz }
        trace := r.trace ++ [.admitted handle entry.binding.publicName t] }
  | expired (t : ℚ) (cached : allow.cache) (past : t ≤ r.lastTime) :
      Move media r { r with cache := (RequestCache.expire t).after r.cache }
  | stored (id input : String) (output : Bytes) (t : ℚ) (cached : allow.cache) (storable : Storable r.cache id input output)
      (now : t ≤ r.lastTime) (welcomed : r.welcomed = true) : Move media r (r.store id input output t)
  | detaching (track : String) : Move media r (r.marked (.detaching track))
  | flagged (track : String) (f : Binding → Binding) (slot : ∀ b, (f b).slot = b.slot)
      (known : ∀ b, (f b).attached = true → b.attached = true ∨ track ∈ media.tracks) :
      Move media r (r.flag track f)
  | bound (v : VideoRouter) (track : String) (i : Nat) (slot : VideoSlot) (video : r.video = some v)
      (new : v.bound.get? track = none) (free : v.free[i]? = some slot) (fits : media.Fits track slot) :
      Move media r { r with video := some ⟨v.bound.set track ⟨slot, false, false⟩, v.free.eraseIdx i⟩ }

end Moves

/-! ## The history -/

/-- What the history records of a change of the guard's clock, sequences and leases. -/
inductive Recorded (g g' : CommandGuard) : Cause → List Note → Prop where
  | quiet : Recorded g g' .quiet []
  | validated (request : CommandRequest) (t : ℚ) (st : HandleState) (lease : Lease)
      (valid : CommandGuard.Valid g request t st lease) (now : g'.lastTime = t) :
      Recorded g g' .quiet [.validated request t g]
  | armed (sessionId handle : String) (t : ℚ) : Recorded g g' (.armed sessionId handle t) [.armed sessionId handle t g]

/-- A change of the guard that keeps sessions and handles. -/
structure Tended (g g' : CommandGuard) (cause : Cause) (notes : List Note) : Prop where
  change : Change g cause g'.handles
  recorded : Recorded g g' cause notes
  prefixId : g'.prefixId = g.prefixId
  nextId : g.nextId ≤ g'.nextId
  sessions : g'.sessions = g.sessions
  options : g'.options = g.options
  closed : g'.closed = g.closed

/-- Notes that a hook can cause. -/
def Note.OfHook : Note → Prop
  | .asked | .answered _ _ _ _ | .shut _ | .armed _ _ _ _ | .closedHandle _ _ | .revoked _ => True
  | _ => False

/-- The ticket of a publication was validated, and since then only hooks ran. -/
def Cleared (history : List Note) (request : CommandRequest) : Prop :=
  ∃ before t g after, history = before ++ .validated request t g :: after ∧ .asked ∈ after ∧ ∀ n ∈ after, n.OfHook

/-- A stream was rechecked in a flush, and since then only its own messages were sent. -/
def Rechecked (history : List Note) (k : Nat) (stream name : String) : Prop :=
  ∃ before after, history = before ++ .answered k name .subscribe true :: after ∧ .flushing k ∈ before ∧
    ∀ n ∈ after, n = .handed k stream true

/-! ## What can happen to a bridge -/

section Steps

variable (allow : Allow)

inductive Step (w : World η) : World η → Prop where
  | outside (tick : Nat) (sources : String → Media.SourceSystem ViewerId) :
      Step w { w with tick := tick, media := { w.media with sources := sources } }
  | mediaClosed : Step w { w with media := { w.media with closed := true } }
  | router (k : Nat) (r : SessionRouter η) (move : Move w.numbers allow w.media (w.routers k) r) :
      Step w (w.setRouter k r)
  | asked : Step w { w with history := w.history ++ [.asked] }
  | answered (k : Nat) (name : String) (operation : Operation) (ok : Bool) :
      Step w { w with history := w.history ++ [.answered k name operation ok] }
  | flushing (k : Nat) (isOpen : (w.routers k).closed = false) : Step w { w with history := w.history ++ [.flushing k] }
  | refused (k : Nat) (stream : String) (absent : (w.routers k).subscriptions.get? stream = none)
      (issued : (w.routers k).Issued stream) (born : k < w.born) :
      Step w { w with history := w.history ++ [.refused k stream] }
  | tended (cause : Cause) (g : CommandGuard) (notes : List Note) (tended : Tended w.guard g cause notes) :
      Step w { w with guard := g, history := w.history ++ notes }
  | handleTaken (sessionId handle : String) (st : HandleState) (wild : allow.wild)
      (own : w.guard.handles.get? handle = some st) (owner : st.identity.sessionId = sessionId) :
      Step w { w with
        guard := { w.guard with handles := w.guard.handles.erase handle }
        history := w.history ++ [.closedHandle sessionId handle] }
  | sessionTaken (sessionId : String) (wild : allow.wild) :
      Step w { w with
        guard := (CommandGuard.revokeSession sessionId).after w.guard
        history := w.history ++ [.revoked sessionId] }
  | handleOpened (k : Nat) (entry : RouterBinding η) (identity : CommandIdentity) (leaseMs n : Nat)
      (found : (w.routers k).entries.get? entry.binding.publicName = some entry)
      (direction : entry.binding.direction = .webToRos) (guarded : entry.binding.commandGuard.isSome)
      (owner : identity.sessionId = (w.routers k).sessionId) (topic : identity.topic = entry.binding.rosTopic)
      (issued : identity.handle = CommandGuard.idText w.guard.prefixId n) (bound : n ≤ w.guard.nextId)
      (absent : w.guard.handles.get? identity.handle = none)
      (session : w.guard.sessions.has identity.sessionId) (capacity : w.guard.handles.size < w.guard.options.maxHandles)
      (room : (w.routers k).closed = false → (w.routers k).handles < (w.routers k).limits.maxHandles) :
      Step w { w.setRouter k ((w.routers k).advertise identity.handle entry) with
        guard := { w.guard with handles := w.guard.handles.set identity.handle ⟨identity, leaseMs, none, -1, -1⟩ }
        history := w.history ++ [.opened identity] }
  | handleClosed (k : Nat) (handle : String) (p : Publisher η) (st : HandleState)
      (found : (w.routers k).publishers.get? handle = some p) (guarded : p.guarded = true)
      (own : w.guard.handles.get? handle = some st) (owner : st.identity.sessionId = (w.routers k).sessionId) :
      Step w { w.setRouter k ((w.routers k).unadvertise handle) with
        guard := { w.guard with handles := w.guard.handles.erase handle }
        history := w.history ++ [.closedHandle (w.routers k).sessionId handle] }
  | subscribed (k : Nat) (entry : RouterBinding η) (requestId : String) (r : SessionRouter η)
      (isOpen : (w.routers k).closed = false) (found : (w.routers k).entries.get? entry.binding.publicName = some entry)
      (free : (w.routers k).queue.streams.get? (w.routers k).nextStream = none)
      (room : (w.routers k).handles < (w.routers k).limits.maxHandles)
      (announced : Announced w.numbers allow ((w.routers k).subscribe entry)
        (.subscribed requestId (w.routers k).nextStream (w.routers k).epoch entry.schemaId) r) :
      Step w { w.setRouter k r with listeners := w.listeners ++ [(k, (w.routers k).nextStream)] }
  | removed (k : Nat) (stream : String) (sub : Subscription η) (q : DeliveryQueue Bytes) (listeners : List (Nat × String))
      (notes : List Note) (found : (w.routers k).subscriptions.get? stream = some sub)
      (options : q.options = (w.routers k).queue.options) (streams : q.streams = (w.routers k).queue.streams.erase stream)
      (left : listeners = w.listeners.filter (· ≠ (k, stream)) ∨ allow.stuck ∧ listeners = w.listeners)
      (recorded : notes = [] ∨ notes = [.refused k stream]) :
      Step w { w.setRouter k ((w.routers k).unsubscribe stream q) with
        listeners := listeners, history := w.history ++ notes }
  | spoiled (k : Nat) (stream : String) (sub : Subscription η) (native : η) (q : DeliveryQueue Bytes)
      (listeners : List (Nat × String)) (found : (w.routers k).subscriptions.get? stream = some sub)
      (ready : sub.ready = true) (fits : sub.seq ≤ maxSequence)
      (options : q.options = (w.routers k).queue.options) (streams : q.streams = (w.routers k).queue.streams.erase stream)
      (left : listeners = w.listeners.filter (· ≠ (k, stream)) ∨ allow.stuck ∧ listeners = w.listeners) :
      Step w { w.setRouter k (((w.routers k).number stream sub.seq native).unsubscribe stream q) with
        listeners := listeners, history := w.history ++ [.refused k stream] }
  | handedControl (k : Nat) (next : Bytes) (accepted : Bool) (q : DeliveryQueue Bytes)
      (sent : Sent (w.routers k).queue "control" next accepted q) :
      Step w { w.setRouter k ({ w.routers k with queue := q }.marked (.handed .control next.envelope accepted)) with
        history := w.history ++ [.handed k "control" accepted] }
  | handedData (k : Nat) (stream : String) (sub : Subscription η) (next : Bytes) (accepted : Bool)
      (q : DeliveryQueue Bytes) (found : (w.routers k).subscriptions.get? stream = some sub)
      (isOpen : (w.routers k).closed = false) (idle : (w.routers k).Idle "control")
      (sent : Sent (w.routers k).queue stream next accepted q)
      (rechecked : Rechecked w.history k stream sub.entry.binding.publicName) :
      Step w { w.setRouter k ({ w.routers k with queue := q }.marked
          (.handed (dataChannel sub.entry.binding.delivery) next.envelope accepted)) with
        history := w.history ++ [.handed k stream accepted] }
  | published (k : Nat) (handle : String) (p : Publisher η) (t : ℚ) (request : Option CommandRequest)
      (isOpen : (w.routers k).closed = false) (found : (w.routers k).publishers.get? handle = some p)
      (last : (w.routers k).trace.getLast? = some (.admitted handle p.entry.binding.publicName t))
      (answered : w.history.getLast? = some (.answered k p.entry.binding.publicName .publish true))
      (guarded : p.guarded = true → ∃ r, request = some r ∧ r.sessionId = (w.routers k).sessionId ∧ r.handle = handle ∧
        Cleared w.history r) :
      Step w { w.setRouter k ((w.routers k).marked (.published handle p.entry.binding.publicName t)) with
        history := w.history ++ [.published k (w.routers k).sessionId p.entry.binding request w.guard] }
  | closed (k : Nat) (gone : List String) (isOpen : (w.routers k).closed = false)
      (only : ∀ s ∈ gone, s ∈ (w.routers k).subscriptions.keys)
      (all : allow.stuck ∨ ∀ s ∈ (w.routers k).subscriptions.keys, s ∈ gone) :
      Step w (w.finish k gone)
  | torn (k : Nat) (v : VideoRouter) (f : String → Binding → Binding) (marks : List (Mark η))
      (isOpen : (w.routers k).closed = false) (video : (w.routers k).video = some v) (torn : allow.torn ∨ w.media.closed = true)
      (less : ∀ track b, (f track b).Less b) (marked : ∀ m ∈ marks, ∃ track, m = .detaching track) :
      Step w { w.setRouter k { w.routers k with
          closed := true
          video := some { v with bound := v.bound.mapValues f }
          trace := (w.routers k).trace ++ marks } with
        history := w.history ++ [.shut k] }
  | constructed (r : SessionRouter η) (fresh : r.Fresh) (isOpen : w.guard.closed = false)
      (capacity : w.guard.sessions.size < w.guard.options.maxSessions)
      (named : r.sessionId = CommandGuard.idText w.guard.prefixId (w.guard.nextId + 1)) (makes : allow.makes) :
      Step w { w.setRouter w.born r with
        born := w.born + 1
        guard := { w.guard with
          nextId := w.guard.nextId + 1, sessions := w.guard.sessions.set r.sessionId r.epoch } }

/-- Any number of steps. -/
abbrev Goes (w w' : World η) : Prop := ReflTransGen (Step allow) w w'

/-- What a step does to router `k`, when it does something to it. -/
inductive Turn (w : World η) (k : Nat) : SessionRouter η → Prop where
  | move (r : SessionRouter η) (move : Move w.numbers allow w.media (w.routers k) r) : Turn w k r
  | advertised (handle : String) (entry : RouterBinding η) (n : Nat)
      (found : (w.routers k).entries.get? entry.binding.publicName = some entry)
      (direction : entry.binding.direction = .webToRos) (guarded : entry.binding.commandGuard.isSome)
      (issued : handle = CommandGuard.idText w.guard.prefixId n) (bound : n ≤ w.guard.nextId)
      (room : (w.routers k).closed = false → (w.routers k).handles < (w.routers k).limits.maxHandles) :
      Turn w k ((w.routers k).advertise handle entry)
  | unadvertised (handle : String) (p : Publisher η) (found : (w.routers k).publishers.get? handle = some p)
      (guarded : p.guarded = true) : Turn w k ((w.routers k).unadvertise handle)
  | subscribed (entry : RouterBinding η) (requestId : String) (r : SessionRouter η) (isOpen : (w.routers k).closed = false)
      (found : (w.routers k).entries.get? entry.binding.publicName = some entry)
      (free : (w.routers k).queue.streams.get? (w.routers k).nextStream = none)
      (room : (w.routers k).handles < (w.routers k).limits.maxHandles)
      (announced : Announced w.numbers allow ((w.routers k).subscribe entry)
        (.subscribed requestId (w.routers k).nextStream (w.routers k).epoch entry.schemaId) r) : Turn w k r
  | removed (stream : String) (sub : Subscription η) (q : DeliveryQueue Bytes)
      (found : (w.routers k).subscriptions.get? stream = some sub) (options : q.options = (w.routers k).queue.options)
      (streams : q.streams = (w.routers k).queue.streams.erase stream) : Turn w k ((w.routers k).unsubscribe stream q)
  | spoiled (stream : String) (sub : Subscription η) (native : η) (q : DeliveryQueue Bytes)
      (found : (w.routers k).subscriptions.get? stream = some sub) (ready : sub.ready = true) (fits : sub.seq ≤ maxSequence)
      (options : q.options = (w.routers k).queue.options) (streams : q.streams = (w.routers k).queue.streams.erase stream) :
      Turn w k (((w.routers k).number stream sub.seq native).unsubscribe stream q)
  | handedControl (next : Bytes) (accepted : Bool) (q : DeliveryQueue Bytes)
      (sent : Sent (w.routers k).queue "control" next accepted q) :
      Turn w k ({ w.routers k with queue := q }.marked (.handed .control next.envelope accepted))
  | handedData (stream : String) (sub : Subscription η) (next : Bytes) (accepted : Bool) (q : DeliveryQueue Bytes)
      (found : (w.routers k).subscriptions.get? stream = some sub) (isOpen : (w.routers k).closed = false)
      (idle : (w.routers k).Idle "control") (sent : Sent (w.routers k).queue stream next accepted q) :
      Turn w k ({ w.routers k with queue := q }.marked
        (.handed (dataChannel sub.entry.binding.delivery) next.envelope accepted))
  | published (handle : String) (p : Publisher η) (t : ℚ) (isOpen : (w.routers k).closed = false)
      (found : (w.routers k).publishers.get? handle = some p)
      (last : (w.routers k).trace.getLast? = some (.admitted handle p.entry.binding.publicName t)) :
      Turn w k ((w.routers k).marked (.published handle p.entry.binding.publicName t))
  | finished (isOpen : (w.routers k).closed = false) : Turn w k (w.routers k).finished
  | torn (v : VideoRouter) (f : String → Binding → Binding) (marks : List (Mark η)) (isOpen : (w.routers k).closed = false)
      (video : (w.routers k).video = some v) (torn : allow.torn ∨ w.media.closed = true)
      (less : ∀ track b, (f track b).Less b) (marked : ∀ m ∈ marks, ∃ track, m = .detaching track) :
      Turn w k { w.routers k with
        closed := true
        video := some { v with bound := v.bound.mapValues f }
        trace := (w.routers k).trace ++ marks }

variable {allow} {w w' : World η}

/-- A step constructs router `k`. -/
structure Born (w w' : World η) (k : Nat) : Prop where
  number : k = w.born
  born : w'.born = k + 1
  fresh : (w'.routers k).Fresh
  named : (w'.routers k).sessionId = CommandGuard.idText w.guard.prefixId (w.guard.nextId + 1)

/-- A change of one router, seen from any router. -/
theorem setRouter_turn {j : Nat} {r : SessionRouter η} (t : Turn allow w j r) {k : Nat} {P : Prop} :
    (w.setRouter j r).routers k = w.routers k ∨ Turn allow w k ((w.setRouter j r).routers k) ∨ P := by
  by_cases h : k = j
  · subst h
    exact .inr (.inl (by rwa [World.setRouter_self]))
  · exact .inl (World.setRouter_ne w r h)

/-- A step leaves a router alone, takes one of its turns or constructs it. -/
theorem Step.turn (s : Step allow w w') (k : Nat) :
    w'.routers k = w.routers k ∨ Turn allow w k (w'.routers k) ∨ Born w w' k := by
  cases s with
  | outside | mediaClosed | asked | answered | flushing | refused | tended | handleTaken | sessionTaken => exact .inl rfl
  | router j r move => exact setRouter_turn (.move r move)
  | handleOpened j entry identity leaseMs n found direction guarded owner topic issued bound absent session capacity room =>
    exact setRouter_turn (.advertised identity.handle entry n found direction guarded issued bound room)
  | handleClosed j handle p st found guarded own owner => exact setRouter_turn (.unadvertised handle p found guarded)
  | subscribed j entry requestId r isOpen found free room announced =>
    exact setRouter_turn (.subscribed entry requestId r isOpen found free room announced)
  | removed j stream sub q listeners notes found options streams left recorded =>
    exact setRouter_turn (.removed stream sub q found options streams)
  | spoiled j stream sub native q listeners found ready fits options streams left =>
    exact setRouter_turn (.spoiled stream sub native q found ready fits options streams)
  | handedControl j next accepted q sent => exact setRouter_turn (.handedControl next accepted q sent)
  | handedData j stream sub next accepted q found isOpen idle sent rechecked =>
    exact setRouter_turn (.handedData stream sub next accepted q found isOpen idle sent)
  | published j handle p t request isOpen found last answered guarded =>
    exact setRouter_turn (.published handle p t isOpen found last)
  | closed j gone isOpen only all => exact setRouter_turn (.finished isOpen)
  | torn j v f marks isOpen video torn less marked => exact setRouter_turn (.torn v f marks isOpen video torn less marked)
  | constructed r fresh isOpen capacity named =>
    by_cases h : k = w.born
    · subst h
      refine .inr (.inr ⟨rfl, rfl, ?_, ?_⟩)
      · exact (World.setRouter_self w w.born r).symm ▸ fresh
      · exact (congrArg _ (World.setRouter_self w w.born r)).trans named
    · exact .inl (World.setRouter_ne w r h)

end Steps

end RosBridge.Router
