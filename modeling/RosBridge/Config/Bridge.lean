import RosBridge.Config.Binding
import RosBridge.Lib.Table
/-!
# The configuration document

`config/index.ts` and `checkOutputs`. The YAML reader is an argument: it yields the
plain value of a document that has no errors and no warnings.
-/

namespace RosBridge.Config

open Lib Session

/-- The capacities of a bridge. Even the smallest buffer holds one message. -/
@[ext]
structure BridgeLimits where
  maxPeers : Nat
  maxMessageBytes : Nat
  maxPeerQueueBytes : Nat
  maxChannelBufferedBytes : Nat
  peers_pos : 0 < maxPeers
  message_pos : 0 < maxMessageBytes
  message_le : maxMessageBytes ≤ 16384
  queue_le : maxMessageBytes ≤ maxPeerQueueBytes
  buffered_le : maxMessageBytes ≤ maxChannelBufferedBytes

instance : DecidableEq BridgeLimits := fun _ _ => decidable_of_iff _ BridgeLimits.ext_iff.symm

/-- Validate required capacities. -/
def parseLimits (value : Option Json) : Checked BridgeLimits := do
  let map ← record value
    (some ["max_peers", "max_message_bytes", "max_peer_queue_bytes", "max_channel_buffered_bytes", "video"]) "limits"
  let maxPeers ← positiveInteger (map.field "max_peers") "limits.max_peers"
  let maxMessageBytes ← positiveInteger (map.field "max_message_bytes") "limits.max_message_bytes"
  let maxPeerQueueBytes ← positiveInteger (map.field "max_peer_queue_bytes") "limits.max_peer_queue_bytes"
  let maxChannelBufferedBytes ← positiveInteger (map.field "max_channel_buffered_bytes") "limits.max_channel_buffered_bytes"
  if inconsistent : maxMessageBytes.1 > 16384 ∨ maxMessageBytes.1 > maxPeerQueueBytes.1 ∨
      maxMessageBytes.1 > maxChannelBufferedBytes.1 then
    throw ⟨"limits", "inconsistent message or buffer limits"⟩
  else
    return {
      maxPeers, maxMessageBytes, maxPeerQueueBytes, maxChannelBufferedBytes
      peers_pos := maxPeers.2.1
      message_pos := maxMessageBytes.2.1
      message_le := not_lt.1 fun h => inconsistent (.inl h)
      queue_le := not_lt.1 fun h => inconsistent (.inr (.inl h))
      buffered_le := not_lt.1 fun h => inconsistent (.inr (.inr h)) }

/-! ## Outputs -/

/-- The output protection requirements of a binding. The source compares their texts,
which are the same exactly when these are. -/
structure OutputContract where
  rosType : String
  rosQos : RosQos
  access : Option Access
  commandGuard : Option GuardSettings
  maxRateHz : ℚ
  delivery : Delivery
  queue : QueueSettings
  deriving DecidableEq

def outputContract (topic : TopicBinding) : OutputContract :=
  ⟨topic.rosType, topic.rosQos, topic.access, topic.commandGuard, topic.maxRateHz, topic.delivery, topic.queue⟩

/-- The loop of `checkOutputs`. -/
def checkOutputsLoop : List TopicBinding → Table String TopicBinding → Checked Unit
  | [], _ => return ()
  | topic :: rest, outputs =>
    if topic.direction ≠ .webToRos then checkOutputsLoop rest outputs
    else if (outputs.get? topic.rosTopic).any fun previous => outputContract previous ≠ outputContract topic then
      .error ⟨"topics." ++ topic.publicName, "conflicting ROS output binding"⟩
    else checkOutputsLoop rest (outputs.set topic.rosTopic topic)

/-- Check consistency for bindings to the same ROS output. -/
def checkOutputs (topics : List TopicBinding) : Checked Unit := checkOutputsLoop topics .empty

/-! ## The document -/

/-- Validated configuration. -/
structure BridgeConfig where
  robotId : String
  limits : BridgeLimits
  topics : List TopicBinding
  deriving DecidableEq

/-- Read a configuration document; `yaml` is the reader. -/
def readDocument (yaml : String → Option Json) (source : String) (maxBytes : Nat) : Checked Json :=
  if source.utf8ByteSize > maxBytes then .error ⟨"$", "invalid document size"⟩
  else
    match yaml source with
    | some document => .ok document
    | none => .error ⟨"$", "invalid YAML; aliases and custom tags are unsupported"⟩

/-- `option ?? fallback`, for a number. -/
def orElse (option : Option Json) (fallback : Nat) : Option Json :=
  match option with
  | none | some .null => some (.number (some (fallback : ℚ)))
  | some value => some value

/-- `/^[A-Za-z0-9_-]+$/`. -/
def robotIdPattern : Regex := .plus (.one fun c => c.isAlphanum || c == '_' || c == '-')

/-- Parse startup configuration from YAML and the installed type registry. -/
def parseBridgeConfig (yaml : String → Option Json) (source : String) (options : ConfigOptions) : Checked BridgeConfig := do
  let maxBytes ← positiveInteger (orElse options.maxConfigBytes 1048576) "maxConfigBytes"
  let maxTopics ← positiveInteger (orElse options.maxTopics 256) "maxTopics"
  let document ← readDocument yaml source maxBytes
  let map ← record (some document) (some ["version", "robot_id", "limits", "topics", "video", "video_tracks"]) "$"
  match map.field "version" with
  | some (.number (some version)) =>
    if version ≠ 1 then throw ⟨"version", "unsupported version"⟩
    let robotId ← string (map.field "robot_id") robotIdPattern "robot_id"
    let limits ← parseLimits (map.field "limits")
    -- Treat topic names as keys.
    let entries ← record (map.field "topics") none "topics"
    if entries.length = 0 ∨ entries.length > maxTopics.1 then throw ⟨"topics", "invalid topic count"⟩
    let topics ← entries.mapM fun e => binding e.1 (some e.2) options
    checkOutputs topics
    return ⟨robotId, limits, topics⟩
  | _ => throw ⟨"version", "unsupported version"⟩

/-! ## A small configuration -/

/-- An object of whole numbers. -/
def numbersOf (fields : List (String × Nat)) : Json := .object (fields.map fun f => (f.1, .number (some (f.2 : ℚ))))

/-- An object of strings. -/
def stringsOf (fields : List (String × String)) : Json := .object (fields.map fun f => (f.1, .string f.2))

/-- A reliable topic that goes to the web. -/
def smallTopic : Json := .object [
  ("ros_type", .string "std_msgs/msg/String"), ("direction", .string "ros_to_web"),
  ("ros_qos", .object [("reliability", .string "reliable"), ("durability", .string "volatile"),
    ("history", .string "keep_last"), ("depth", .number (some 1))]),
  ("delivery", .string "reliable"), ("max_rate_hz", .number (some 10)),
  ("queue", .object [("policy", .string "fifo"), ("max_messages", .number (some 4))])]

/-- A document of one topic, with messages of 1000 bytes. -/
def smallDocument (maxPeerQueueBytes : Nat) : Json := .object [
  ("version", .number (some 1)), ("robot_id", .string "r"),
  ("limits", numbersOf [("max_peers", 2), ("max_message_bytes", 1000), ("max_peer_queue_bytes", maxPeerQueueBytes),
    ("max_channel_buffered_bytes", 1000)]),
  ("topics", .object [("/odom", smallTopic)])]

def smallSettings : ConfigOptions := ⟨["std_msgs/msg/String"], none, none, none⟩

end RosBridge.Config
