import RosBridge.Lib.Program
import RosBridge.Lib.Table
import RosBridge.Session.Validation
/-!
# DeliveryQueue

`session/delivery-queue.ts`. A message is anything with a number of bytes; copies of a
buffer are the message itself.
-/

namespace RosBridge.Session

open Lib Prog

inductive Policy where
  | latest
  | reliable
  deriving DecidableEq

/-- Messages know their `byteLength`. -/
class Sized (β : Type) where
  byteLength : β → Nat

export Sized (byteLength)

structure Stream (β : Type) where
  policy : Policy
  maxMessages : Nat
  messages : List β
  stopped : Bool
  deriving DecidableEq

/-- The limits of a queue, as its constructor checked them. -/
structure QueueOptions where
  maxStreams : Nat
  maxBytes : Nat
  maxMessageBytes : Nat

structure DeliveryQueue (β : Type) where
  options : QueueOptions
  streams : Table String (Stream β)
  bytes : Int
  dropped : Nat

/-- A method of the queue. -/
abbrev QueueM (β : Type) := Prog (DeliveryQueue β) String

namespace DeliveryQueue

variable {β : Type} [Sized β]

/-- Fix limits. -/
def create (maxStreams maxBytes maxMessageBytes : Num) : Except String (DeliveryQueue β) :=
  match positiveLimit maxStreams, positiveLimit maxBytes, positiveLimit maxMessageBytes with
  | some streams, some bytes, some messageBytes =>
    if messageBytes > bytes then .error "invalid_limit" else .ok ⟨⟨streams, bytes, messageBytes⟩, .empty, 0, 0⟩
  | _, _, _ => .error "invalid_limit"

/-- Look up a registration. -/
def stream (id : String) : QueueM β (Stream β) := do
  match (← get).streams.get? id with
  | none => throw "unknown_stream"
  | some stream => return stream

/-- The bytes a list of messages occupies. -/
def occupied (messages : List β) : Int := (messages.map fun m => (byteLength m : Int)).sum

/-- Register a stream. -/
def register (id : String) (policy : Policy) (maxMessages : Nat) : QueueM β Unit := do
  throwIf (!identifier id) "invalid_identifier"
  throwIf (positiveLimit (some (maxMessages : ℚ)) = none) "invalid_limit"
  throwIf (policy = .latest ∧ maxMessages ≠ 1) "invalid_limit"
  let q ← get
  throwIf (q.streams.has id) "duplicate_stream"
  throwIf (q.streams.size ≥ q.options.maxStreams) "stream_limit"
  set { q with streams := q.streams.set id ⟨policy, maxMessages, [], false⟩ }

/-- Release the messages of a stream and replace it. -/
def release (id : String) (stream : Stream β) (stopped : Bool) : QueueM β Unit :=
  modify fun q => { q with
    bytes := q.bytes - occupied stream.messages
    streams := q.streams.set id { stream with messages := [], stopped := stopped } }

/-- The latest policy discards its existing sample first. -/
def discard (id : String) (stream : Stream β) : QueueM β (Stream β) :=
  if stream.policy = .latest ∧ stream.messages ≠ [] then do
    modify fun q => { q with dropped := q.dropped + stream.messages.length }
    release id stream false
    return { stream with messages := [] }
  else return stream

/-- The end of `enqueue`, once the existing sample is discarded. -/
def push (id : String) (stream : Stream β) (message : β) : QueueM β Bool := do
  let q ← get
  if stream.messages.length ≥ stream.maxMessages ∨ (byteLength message : Int) > q.options.maxBytes - q.bytes then
    if stream.policy = .reliable then do
      -- Stop instead of presenting lost data as complete delivery.
      release id stream true
      throw "slow_consumer"
    else do
      set { q with dropped := q.dropped + 1 }
      return false
  else do
    set { q with
      streams := q.streams.set id { stream with messages := stream.messages ++ [message] }
      bytes := q.bytes + byteLength message }
    return true

/-- Store a message; `false` for a realtime drop. -/
def enqueue (id : String) (message : β) : QueueM β Bool := do
  let stream ← stream id
  throwIf stream.stopped "slow_consumer"
  throwIf (byteLength message = 0 ∨ byteLength message > (← get).options.maxMessageBytes) "message_size"
  let stream ← discard id stream
  push id stream message

/-- Remove the head. -/
def dequeue (id : String) : QueueM β (Option β) := do
  let stream ← stream id
  throwIf stream.stopped "slow_consumer"
  match stream.messages with
  | [] => return none
  | message :: messages =>
    modify fun q => { q with
      streams := q.streams.set id { stream with messages := messages }
      bytes := q.bytes - byteLength message }
    return some message

/-- Inspect the head. -/
def peek (id : String) : QueueM β (Option β) := do
  let stream ← stream id
  throwIf stream.stopped "slow_consumer"
  return stream.messages.head?

/-- Release a stream and its messages. -/
def closeStream (id : String) : QueueM β Unit := do
  let stream ← stream id
  modify fun q => { q with bytes := q.bytes - occupied stream.messages, streams := q.streams.erase id }

/-- Release all registrations and messages. -/
def clear : QueueM β Unit := modify fun q => { q with streams := .empty, bytes := 0 }

end DeliveryQueue

end RosBridge.Session
