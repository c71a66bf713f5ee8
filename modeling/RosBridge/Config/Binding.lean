import RosBridge.Lib.Json
import RosBridge.Lib.Regex
import RosBridge.Session.Validation
/-!
# Startup configuration

`config/validation.ts` and `config/binding.ts`. A document is what the YAML reader
yields, a JSON value; a missing field is `undefined`. A `TopicBinding` carries the
consistency conditions that `binding` checks.
-/

namespace RosBridge.Config

open Lib Session

/-- A configuration error: the location and the reason. -/
structure ConfigError where
  path : String
  reason : String
  deriving DecidableEq

/-- A check of one value. -/
abbrev Checked (α : Type) := Except ConfigError α

/-- A field of a validated map, `none` where it is undefined. -/
abbrev Map := List (String × Json)

def Map.field (m : Map) (key : String) : Option Json := (m.find? (·.1 = key)).map Prod.snd

/-! ## Validation -/

/-- Validate a map and allowed keys; `none` allows every key. -/
def record (value : Option Json) (keys : Option (List String)) (path : String) : Checked Map :=
  match value with
  | some (.object fields) =>
    match fields.find? (fun f => keys.any fun ks => f.1 ∉ ks) with
    | some f => .error ⟨path ++ "." ++ f.1, "unknown field"⟩
    | none => .ok fields
  | _ => .error ⟨path, "object required"⟩

/-- Validate a string against a pattern for the whole of it. -/
def string (value : Option Json) (pattern : Regex) (path : String) : Checked String :=
  match value with
  | some (.string s) => if pattern.accepts s then .ok s else .error ⟨path, "invalid string"⟩
  | _ => .error ⟨path, "invalid string"⟩

/-- Validate a finite positive number. -/
def positive (value : Option Json) (path : String) : Checked {q : ℚ // 0 < q} :=
  match value with
  | some (.number (some q)) => if h : 0 < q then .ok ⟨q, h⟩ else .error ⟨path, "positive finite number required"⟩
  | _ => .error ⟨path, "positive finite number required"⟩

/-- Validate a positive safe integer. -/
def positiveInteger (value : Option Json) (path : String) : Checked {n : Nat // 0 < n ∧ n ≤ maxSafeInteger} := do
  let q ← positive value path
  match h : positiveLimit (some q) with
  | some n => .ok ⟨n, positiveLimit_pos h⟩
  | none => .error ⟨path, "safe integer required"⟩

/-- Validate an enum. -/
def choice {α : Type} (value : Option Json) (values : List (String × α)) (path : String) : Checked α :=
  match value with
  | some (.string s) =>
    match values.find? (·.1 = s) with
    | some v => .ok v.2
    | none => .error ⟨path, "unsupported value"⟩
  | _ => .error ⟨path, "unsupported value"⟩

/-- Validate a boolean. -/
def boolean (value : Option Json) (path : String) : Checked Bool :=
  match value with
  | some (.bool b) => .ok b
  | _ => .error ⟨path, "boolean required"⟩

/-- `/^(?:\/[A-Za-z_][A-Za-z0-9_]*)+$/`. -/
def topicNamePattern : Regex := .plus (.seq (.lit '/') nameSegment)

/-- Validate an absolute ROS name. -/
def topicName (value : Option Json) (path : String) : Checked String := do
  let name ← string value topicNamePattern path
  if name.length > 247 then throw ⟨path, "topic name too long"⟩
  return name

/-! ## Bindings -/

inductive Direction where
  | rosToWeb
  | webToRos
  deriving DecidableEq

inductive Delivery where
  | reliable
  | realtime
  deriving DecidableEq

inductive QueuePolicy where
  | latest
  | fifo
  deriving DecidableEq

inductive Reliability where
  | reliable
  | bestEffort
  deriving DecidableEq

inductive Durability where
  | volatile
  | transientLocal
  deriving DecidableEq

/-- Startup QoS; the history is always `keep_last`. -/
structure RosQos where
  reliability : Reliability
  durability : Durability
  depth : Nat
  deriving DecidableEq

structure QueueSettings where
  policy : QueuePolicy
  maxMessages : Nat
  deriving DecidableEq

structure Access where
  publishScope : String
  exclusiveWriter : Bool
  deriving DecidableEq

/-- A command guard; `required` is always true. -/
structure GuardSettings where
  leaseMs : Nat
  deriving DecidableEq

/-- Startup binding that separates the public name from the ROS destination. -/
structure TopicBinding where
  publicName : String
  rosTopic : String
  rosType : String
  direction : Direction
  rosQos : RosQos
  delivery : Delivery
  maxRateHz : ℚ
  queue : QueueSettings
  access : Option Access
  commandGuard : Option GuardSettings
  rate_pos : 0 < maxRateHz
  fifo_iff : delivery = .reliable ↔ queue.policy = .fifo
  latest_one : queue.policy = .latest → queue.maxMessages = 1
  deriving DecidableEq

/-- Inputs of the validation. `resolveTopic` may throw. -/
structure ConfigOptions where
  availableTypes : List String
  maxConfigBytes : Option Json
  maxTopics : Option Json
  resolveTopic : Option (String → Checked String)

def directions : List (String × Direction) := [("ros_to_web", .rosToWeb), ("web_to_ros", .webToRos)]

def deliveries : List (String × Delivery) := [("reliable", .reliable), ("realtime", .realtime)]

def policies : List (String × QueuePolicy) := [("latest", .latest), ("fifo", .fifo)]

def reliabilities : List (String × Reliability) := [("reliable", .reliable), ("best_effort", .bestEffort)]

def durabilities : List (String × Durability) := [("volatile", .volatile), ("transient_local", .transientLocal)]

/-- Validate DDS QoS. -/
def rosQos (value : Option Json) (path : String) : Checked RosQos := do
  let qos ← record value (some ["reliability", "durability", "history", "depth"]) (path ++ ".ros_qos")
  let reliability ← choice (qos.field "reliability") reliabilities (path ++ ".ros_qos.reliability")
  let durability ← choice (qos.field "durability") durabilities (path ++ ".ros_qos.durability")
  let _ ← choice (qos.field "history") [("keep_last", ())] (path ++ ".ros_qos.history")
  let depth ← positiveInteger (qos.field "depth") (path ++ ".ros_qos.depth")
  return ⟨reliability, durability, depth⟩

/-- `[A-Za-z0-9_.:-]`. -/
def scopeChar (c : Char) : Bool := c.isAlphanum || c == '_' || c == '.' || c == ':' || c == '-'

/-- Validate publish permissions. -/
def parseAccess (value : Option Json) (direction : Direction) (path : String) : Checked (Option Access) := do
  if value.isNone then return none
  if direction ≠ .webToRos then throw ⟨path, "access requires web_to_ros"⟩
  let access ← record value (some ["publish_scope", "exclusive_writer"]) (path ++ ".access")
  let scope ← string (access.field "publish_scope") (.plus (.one scopeChar)) (path ++ ".access.publish_scope")
  let exclusiveWriter ← boolean (access.field "exclusive_writer") (path ++ ".access.exclusive_writer")
  return some ⟨scope, exclusiveWriter⟩

/-- Whether a binding claims exclusive ownership of its output. -/
def exclusive (access : Option Access) : Bool := access.any (·.exclusiveWriter)

/-- Validate command requirements. -/
def parseGuard (value : Option Json) (direction : Direction) (durability : Durability) (access : Option Access)
    (path : String) : Checked (Option GuardSettings) := do
  if value.isNone then
    if exclusive access then throw ⟨path, "exclusive writer requires command guard"⟩
    return none
  let guard ← record value (some ["required", "lease_ms"]) (path ++ ".command_guard")
  match guard.field "required" with
  | some (.bool true) =>
    if direction ≠ .webToRos ∨ durability ≠ .volatile ∨ !exclusive access then
      throw ⟨path, "command requires web_to_ros, volatile and exclusive writer"⟩
    let leaseMs ← positiveInteger (guard.field "lease_ms") (path ++ ".command_guard.lease_ms")
    return some ⟨leaseMs⟩
  | _ => throw ⟨path, "command guard must be required"⟩

def bindingFields : List String :=
  ["ros_topic", "ros_type", "direction", "ros_qos", "delivery", "max_rate_hz", "queue", "access", "command_guard"]

/-- `/^[A-Za-z][A-Za-z0-9_]*\/msg\/[A-Za-z][A-Za-z0-9_]*$/`. -/
def rosTypePattern : Regex :=
  let word := Regex.seq (.one Char.isAlpha) (.star (.one fun c => c.isAlphanum || c == '_'))
  .seq word (.seq (.lit '/') (.seq (.lit 'm') (.seq (.lit 's') (.seq (.lit 'g') (.seq (.lit '/') word)))))

/-- Normalize a binding. -/
def binding (name : String) (value : Option Json) (options : ConfigOptions) : Checked TopicBinding := do
  let path := "topics." ++ name
  let map ← record value (some bindingFields) path
  let publicName ← topicName (some (.string name)) path
  let target ← topicName (some ((map.field "ros_topic").getD (.string name))) (path ++ ".ros_topic")
  -- Store the remapped name so aliases share writer ownership.
  let resolved ← match options.resolveTopic with
    | some resolve => resolve target
    | none => pure target
  let rosTopic ← topicName (some (.string resolved)) (path ++ ".resolved_topic")
  let rosType ← string (map.field "ros_type") rosTypePattern (path ++ ".ros_type")
  if rosType ∉ options.availableTypes then throw ⟨path, "type unavailable"⟩
  let direction ← choice (map.field "direction") directions (path ++ ".direction")
  let qos ← rosQos (map.field "ros_qos") path
  let delivery ← choice (map.field "delivery") deliveries (path ++ ".delivery")
  let maxRateHz ← positive (map.field "max_rate_hz") (path ++ ".max_rate_hz")
  let queue ← record (map.field "queue") (some ["policy", "max_messages"]) (path ++ ".queue")
  let policy ← choice (queue.field "policy") policies (path ++ ".queue.policy")
  let maxMessages ← positiveInteger (queue.field "max_messages") (path ++ ".queue.max_messages")
  if conflict : ¬(delivery = .reliable ↔ policy = .fifo) then throw ⟨path, "delivery/queue conflict"⟩
  else if many : policy = .latest ∧ maxMessages.1 ≠ 1 then throw ⟨path, "latest requires one message"⟩
  else
    let access ← parseAccess (map.field "access") direction path
    let commandGuard ← parseGuard (map.field "command_guard") direction qos.durability access path
    return {
      publicName, rosTopic, rosType, direction, delivery, maxRateHz, access, commandGuard
      rosQos := qos
      queue := ⟨policy, maxMessages⟩
      rate_pos := maxRateHz.2
      fifo_iff := not_not.1 conflict
      latest_one := fun h => not_not.1 fun h' => many ⟨h, h'⟩ }

end RosBridge.Config
