import RosBridge.Lib.Program
import RosBridge.Lib.Table
import RosBridge.Transport.Sdp
/-!
# WebRtcEndpoint

`transport/endpoint.ts`. The router, the peer, the slots and the channels are outside:
what they do during an event comes with the event, as a `Call` for a method of the
router and as `Ends` for a `close`. Handlers stay registered after `unSubscribe`, which
may be late. `onError`, `onClosed` and `unSubscribe` return, and nothing that is called
calls `close` before it returns.

The `trace` records what the endpoint did and how channels changed. Nothing reads it.
-/

namespace RosBridge.Transport

open Lib Prog Session

inductive ReadyState where
  | connecting
  | opened
  | closing
  | closed
  deriving DecidableEq

inductive ConnectionState where
  | new
  | connecting
  | connected
  | disconnected
  | failed
  | closed
  deriving DecidableEq

/-- A channel the peer announced; its readiness and its buffer are elsewhere. -/
structure DataChannel where
  id : Nat
  label : String
  ordered : Bool
  negotiated : Bool
  maxRetransmits : Option Nat
  maxPacketLifeTime : Option Nat
  deriving DecidableEq

def labels : List String := ["ros.control.v1", "ros.reliable.v1", "ros.realtime.v1"]

/-- The delivery attributes that a label stands for. -/
def DataChannel.proper (c : DataChannel) : Bool :=
  let realtime : Bool := c.label = "ros.realtime.v1"
  !c.negotiated ∧ c.ordered ≠ realtime ∧ c.maxPacketLifeTime = none ∧ c.maxRetransmits = if realtime then some 0 else none

inductive Message where
  | text (value : String)
  | bytes (value : List UInt8)

/-- The bytes of a message; a text is taken as UTF-8. -/
def Message.byteLength : Message → Nat
  | .text value => value.utf8ByteSize
  | .bytes value => value.length

/-- A call of a method of the router: the sends it makes, whether it throws, and whether
the router is closed afterwards. -/
structure Call where
  sends : List (String × List UInt8)
  throws : Bool
  isClosed : Bool

/-- How a `close` goes: the call of the router's `close`, and which slots stop without
an error. -/
structure Ends where
  router : Call
  stops : Nat → Bool

/-- How far the promise of `close` is. -/
inductive Closing where
  /-- There is none. -/
  | never
  /-- The peer is closing. -/
  | racing
  /-- The peer has closed or the deadline has passed. -/
  | ended
  /-- `onClosed` was called. -/
  | notified
  | settled
  deriving DecidableEq

/-- What happened to an endpoint. -/
inductive Mark where
  /-- The readiness of a channel changed. -/
  | became (id : Nat) (state : ReadyState)
  | registered (c : DataChannel)
  /-- The router was made, with this message limit. -/
  | routed (maxMessageBytes : Nat)
  /-- `router.receive` is called. -/
  | received (c : DataChannel) (bytes : Nat)
  /-- Bytes were handed to a channel. -/
  | handed (c : DataChannel) (bytes : Nat)
  /-- `close` has begun. -/
  | shut
  /-- `router.close` is called. -/
  | routerClosed
  /-- The `stop` of a slot is called. -/
  | stopped (slot : Nat)
  /-- `onError` was called. -/
  | failed
  /-- `onClosed` was called. -/
  | notified
  /-- The promise of `close` has settled. -/
  | settled
  deriving DecidableEq

/-- The options that are not callbacks. Without a media plane `maxSlots` is absent. -/
structure EndpointOptions where
  maxMessageBytes : Nat
  maxBufferedBytes : Nat
  maxSdpBytes : Nat
  maxSlots : Option ℚ

structure Endpoint where
  options : EndpointOptions
  channels : Table String DataChannel
  /-- The channels whose events are handled. -/
  listening : List DataChannel
  /-- Whether there is a router. -/
  router : Bool
  /-- `router.isClosed`. -/
  routerClosed : Bool
  closed : Bool
  used : Bool
  closing : Closing
  /-- Whether the deadline of the negotiation is running. -/
  timer : Bool
  /-- Whether the promise of `answer` is pending. -/
  answering : Bool
  maxMessageBytes : Nat
  /-- Slots by number, and the number of the next one. -/
  slots : List Nat
  nextSlot : Nat
  /-- The channels, as they are. -/
  ready : Nat → ReadyState
  bufferedAmount : Nat → Nat
  trace : List Mark

namespace Endpoint

/-- Fix finite limits and the peer. -/
def create (maxMessageBytes maxBufferedBytes maxSdpBytes timeoutMs : Session.Num) (maxSlots : Option ℚ) :
    Except String Endpoint :=
  match positiveLimit maxMessageBytes, positiveLimit maxBufferedBytes, positiveLimit maxSdpBytes, positiveLimit timeoutMs with
  | some messageBytes, some bufferedBytes, some sdpBytes, some _ =>
    if bufferedBytes < min 16384 messageBytes then .error "invalid_limit"
    else .ok {
      options := ⟨messageBytes, bufferedBytes, sdpBytes, maxSlots⟩
      channels := .empty, listening := [], router := false, routerClosed := false, closed := false, used := false
      closing := .never, timer := false, answering := false, maxMessageBytes := min 16384 messageBytes
      slots := [], nextSlot := 0, ready := fun _ => .connecting, bufferedAmount := fun _ => 0, trace := [] }
  | _, _, _, _ => .error "invalid_limit"

/-- A method of the endpoint. -/
abbrev EndpointM := Prog Endpoint String

/-- Add to the trace. -/
def mark (m : Mark) : EndpointM Unit := modify fun e => { e with trace := e.trace ++ [m] }

/-- Check buffer capacity and send bytes; false means unsent. -/
def send (label : String) (bytes : List UInt8) : EndpointM Bool := do
  let e ← get
  if e.closed then return false
  else
    match e.channels.get? label with
    | none => return false
    | some c =>
      if e.ready c.id ≠ .opened then return false
      else
        throwIf (bytes.length > e.maxMessageBytes) "message_size"
        -- Send only if one additional message fits.
        if (bytes.length : Int) > e.options.maxBufferedBytes - e.bufferedAmount c.id then return false
        else
          mark (.handed c bytes.length)
          return true

def sendAll : List (String × List UInt8) → EndpointM Unit
  | [] => pure ()
  | message :: messages => do
    tryCatch (do let _ ← send message.1 message.2) fun _ => pure ()
    sendAll messages

/-- A method of the router is called. -/
def invoke (call : Call) : EndpointM Unit := do
  sendAll call.sends
  modify fun e => { e with routerClosed := call.isClosed }
  throwIf call.throws "router_failed"

def stopAll (stops : Nat → Bool) : List Nat → EndpointM Unit
  | [] => pure ()
  | slot :: slots => do
    mark (.stopped slot)
    when (!stops slot) <| mark .failed
    stopAll stops slots

/-- Release the router, listeners, and PeerConnection. -/
def close (ends : Ends) : EndpointM Unit := do
  when ((← get).closing = .never) do
    mark .shut
    -- The pending `answer` is cancelled.
    modify fun e => { e with closed := true, timer := false, answering := false }
    when (← get).router do
      mark .routerClosed
      tryCatch (invoke ends.router) fun _ => mark .failed
    let slots := (← get).slots
    modify fun e => { e with slots := [] }
    stopAll ends.stops slots
    modify fun e => { e with channels := .empty, closing := .racing }

/-- Resume queues and propagate fatal router closure to the peer. -/
def flush (call : Call) (ends : Ends) : EndpointM Unit := do
  when (← get).router do
    invoke call
    when (← get).routerClosed <| close ends

/-- Check that all channels are established. -/
def opened (call : Call) (ends : Ends) : EndpointM Unit := do
  let e ← get
  when (e.channels.size = 3 ∧ ∀ c ∈ e.channels.values, e.ready c.id = .opened) do
    modify fun e => { e with timer := false }
    flush call ends

/-- Validate the received channel label and delivery properties. -/
def channel (c : DataChannel) (call : Call) (ends : Ends) : EndpointM Unit := do
  let e ← get
  if e.closed ∨ c.label ∉ labels ∨ e.channels.has c.label ∨ !c.proper then close ends
  else
    mark (.registered c)
    modify fun e => { e with channels := e.channels.set c.label c, listening := e.listening ++ [c] }
    opened call ends

/-- The handler of a channel's messages. -/
def message (c : DataChannel) (value : Message) (call : Call) (ends : Ends) : EndpointM Unit := do
  let e ← get
  if e.channels.size ≠ 3 ∨ !e.router then close ends
  else if value.byteLength > e.maxMessageBytes then close ends
  else
    mark (.received c value.byteLength)
    invoke call
    when (← get).routerClosed <| close ends

/-- The handler of a channel's state changes. -/
def stateChanged (state : ReadyState) (call : Call) (ends : Ends) : EndpointM Unit :=
  if state = .closed then close ends else opened call ends

/-- An argument of `answer`; the text is absent when it is not a string. -/
structure Offer where
  isOffer : Bool
  sdp : Option JsString

/-- What `answer` calls: which slots can be added, and the making of the router. -/
structure Setup where
  adds : Nat → Bool
  makeRouter : Call

def addSlots (adds : Nat → Bool) : List OfferedVideo → EndpointM Unit
  | [] => pure ()
  | _ :: offered => do
    let e ← get
    throwIf (!adds e.nextSlot) "slot_failed"
    set { e with slots := e.slots ++ [e.nextSlot], nextSlot := e.nextSlot + 1 }
    addSlots adds offered

/-- The part of `answer` before it waits. -/
def negotiate (offer : Offer) (setup : Setup) : EndpointM Unit := do
  let e ← get
  match offer.sdp with
  | none => throw "invalid_offer"
  | some sdp =>
    throwIf (!offer.isOffer ∨ JsString.utf8Length sdp > e.options.maxSdpBytes) "invalid_offer"
    let shape ← Prog.ofExcept (parseOffer sdp (e.options.maxSlots.getD 0))
    -- SDP omission means 65536; zero means unlimited.
    let advertised := shape.maxMessageBytes.getD 65536
    when (advertised ≠ 0) <| modify fun e => { e with maxMessageBytes := min e.maxMessageBytes advertised }
    when e.options.maxSlots.isSome <| addSlots setup.adds shape.video
    invoke setup.makeRouter
    mark (.routed (← get).maxMessageBytes)
    modify fun e => { e with router := true, timer := true, answering := true }

/-- Return an answer after ICE gathering completes. -/
def answer (offer : Offer) (setup : Setup) (ends : Ends) : EndpointM Unit := do
  let e ← get
  throwIf (e.used ∨ e.closed) "endpoint_unavailable"
  modify fun e => { e with used := true }
  tryCatch (negotiate offer setup) fun error => do
    close ends
    throw error

/-- The negotiation ends, with the size of the local description unless it failed or
there is none. -/
def negotiated (description : Option Nat) (ends : Ends) : EndpointM Unit := do
  let e ← get
  when e.answering do
    modify fun e => { e with answering := false }
    when (e.closed ∨ description.all fun bytes => bytes > e.options.maxSdpBytes) <| close ends

/-- What reaches an endpoint. -/
inductive Event where
  | announced (c : DataChannel) (call : Call) (ends : Ends)
  | stateChanged (c : DataChannel) (state : ReadyState) (call : Call) (ends : Ends)
  | message (c : DataChannel) (value : Message) (call : Call) (ends : Ends)
  | bufferedAmountLow (c : DataChannel) (call : Call) (ends : Ends)
  | connectionStateChange (state : ConnectionState) (ends : Ends)
  | answer (offer : Offer) (setup : Setup) (ends : Ends)
  | negotiated (description : Option Nat) (ends : Ends)
  | timeout (ends : Ends)
  /-- A call of `close`, also of one that the router or a failed `answer` has put off. -/
  | close (ends : Ends)
  /-- The router sends between events. -/
  | send (label : String) (bytes : List UInt8)
  /-- A channel changes. -/
  | became (id : Nat) (state : ReadyState)
  | buffered (id bytes : Nat)
  /-- The peer has closed, maybe with an error, or the deadline of `close` has passed. -/
  | ended (error : Bool)
  | notified
  | settled

/-- The code an event runs. -/
def Event.code : Event → EndpointM Unit
  | .announced c call ends => channel c call ends
  | .stateChanged c state call ends => do when (c ∈ (← get).listening) <| Endpoint.stateChanged state call ends
  | .message c value call ends => do when (c ∈ (← get).listening) <| Endpoint.message c value call ends
  | .bufferedAmountLow c call ends => do when (c ∈ (← get).listening) <| flush call ends
  | .connectionStateChange state ends =>
    when (state = .failed ∨ state = .closed ∨ state = .disconnected) <| Endpoint.close ends
  | .answer offer setup ends => Endpoint.answer offer setup ends
  | .negotiated description ends => Endpoint.negotiated description ends
  | .timeout ends => do when (← get).timer <| Endpoint.close ends
  | .close ends => Endpoint.close ends
  | .send label bytes => do let _ ← Endpoint.send label bytes
  | .became id state => do
    mark (.became id state)
    modify fun e => { e with ready := fun i => if i = id then state else e.ready i }
  | .buffered id bytes => modify fun e => { e with bufferedAmount := fun i => if i = id then bytes else e.bufferedAmount i }
  | .ended error => do
    when ((← get).closing = .racing) do
      when error <| mark .failed
      modify fun e => { e with closing := .ended }
  | .notified => do
    when ((← get).closing = .ended) do
      mark .notified
      modify fun e => { e with closing := .notified }
  | .settled => do
    when ((← get).closing = .notified) do
      mark .settled
      modify fun e => { e with closing := .settled }

def step (e : Endpoint) (event : Event) : Endpoint := (Event.code event).after e

def run (e : Endpoint) (events : List Event) : Endpoint := events.foldl step e

end Endpoint

end RosBridge.Transport
