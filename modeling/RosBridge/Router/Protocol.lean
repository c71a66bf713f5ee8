import RosBridge.Config.Binding
import RosBridge.Media.Source
import RosBridge.Session.DeliveryQueue
/-!
# Wire envelopes

`router/protocol.ts`. The bytes a peer sends are given by their number and by what
decoding and parsing them yields (`Raw`). The bytes the router sends are the envelope
they encode and the number of bytes of its text (`Bytes`).
-/

namespace RosBridge.Router

open Lib Session Config

inductive Channel where
  | control
  | reliable
  | realtime
  deriving DecidableEq

/-- Check a channel label. -/
def isChannel (label : String) : Option Channel :=
  if label = "ros.control.v1" then some .control
  else if label = "ros.reliable.v1" then some .reliable
  else if label = "ros.realtime.v1" then some .realtime
  else none

/-- Map delivery settings to a channel. -/
def dataChannel : Delivery → Channel
  | .reliable => .reliable
  | .realtime => .realtime

/-- A message of a peer: its size, and its value unless it is not JSON in UTF-8. -/
structure Raw where
  size : Nat
  json : Option Json

/-- The fields of an envelope. -/
abbrev Wire := Map

/-- Validate an envelope at the boundary. -/
def parseWire (raw : Raw) (maxBytes : Nat) : Except String Wire :=
  if raw.size = 0 ∨ raw.size > maxBytes then .error "message_size"
  else match raw.json with
    | some (.object wire) =>
      match Map.field wire "v", Map.field wire "op" with
      | some (.number (some v)), some (.string _) => if v = 1 then .ok wire else .error "invalid_protocol"
      | _, _ => .error "invalid_protocol"
    | some _ => .error "invalid_envelope"
    | none => .error "invalid_json"

/-- The operation an envelope names. -/
def operationOf (wire : Wire) : String :=
  match wire.field "op" with
  | some (.string op) => op
  | _ => ""

/-- Get a required identifier. -/
def textField (wire : Wire) (key : String) : Except String String :=
  match wire.field key with
  | some (.string value) => if identifier value then .ok value else .error "invalid_identifier"
  | _ => .error "invalid_identifier"

/-- Reject unknown fields per operation. -/
def fields (wire : Wire) (allowed : List String) : Except String Unit :=
  if wire.any fun f => f.1 ∉ "v" :: "op" :: allowed then .error "unknown_field" else .ok ()

/-- How the host writes finite numbers: different numbers differently, and with none
of the characters that separate values. -/
structure NumberText where
  text : ℚ → String
  injective : Function.Injective text
  plain : ∀ q, ∀ c ∈ (text q).toList, c ≠ ',' ∧ c ≠ '\x7d' ∧ c ≠ ']'

/-- An entry of the catalog in a welcome. -/
structure CatalogEntry where
  topic : String
  rosType : String
  direction : Direction
  delivery : Delivery
  schemaId : String

/-- What the router sends. -/
inductive Envelope where
  | welcome (epoch : String) (catalog : List CatalogEntry) (video : Option (List (String × String)))
  | subscribed (id streamId epoch schemaId : String)
  | unsubscribed (id : String)
  | advertised (id handle epoch schemaId : String)
  | unadvertised (id : String)
  | lease (id handle epoch leaseId : String) (expiresAt : ℚ)
  | publishedToRos (handle seq : String)
  | message (streamId epoch seq : String) (data : Json)
  | videoSubscribed (id track mid : String)
  | videoUnsubscribed (id : String)
  | videoState (track mid : String) (state : Media.VideoState)
  | error (id : Option String)

def directionText : Direction → String
  | .rosToWeb => "ros_to_web"
  | .webToRos => "web_to_ros"

def deliveryText : Delivery → String
  | .reliable => "reliable"
  | .realtime => "realtime"

def stateText : Media.VideoState → String
  | .starting => "starting"
  | .active => "active"
  | .idle => "idle"
  | .failed => "failed"

namespace Envelope

/-- The fields every envelope starts with. -/
def head (op : String) : List (String × Json) := [("v", .number (some 1)), ("op", .string op)]

def CatalogEntry.json (e : CatalogEntry) : Json :=
  .object [("topic", .string e.topic), ("ros_type", .string e.rosType), ("direction", .string (directionText e.direction)),
    ("delivery", .string (deliveryText e.delivery)), ("schema_id", .string e.schemaId)]

/-- The envelope as a JSON object; an undefined field is left out. -/
def json : Envelope → Json
  | welcome epoch catalog video =>
    .object (head "welcome" ++ [("epoch", .string epoch), ("catalog", .array (catalog.map CatalogEntry.json))] ++
      (video.map fun tracks => ("video", Json.array (tracks.map fun t =>
        .object [("track", .string t.1), ("codec", .string t.2)]))).toList)
  | subscribed id streamId epoch schemaId =>
    .object (head "subscribed" ++ [("id", .string id), ("stream_id", .string streamId), ("epoch", .string epoch),
      ("schema_id", .string schemaId)])
  | unsubscribed id => .object (head "unsubscribed" ++ [("id", .string id)])
  | advertised id handle epoch schemaId =>
    .object (head "advertised" ++ [("id", .string id), ("handle", .string handle), ("epoch", .string epoch),
      ("schema_id", .string schemaId)])
  | unadvertised id => .object (head "unadvertised" ++ [("id", .string id)])
  | lease id handle epoch leaseId expiresAt =>
    .object (head "lease" ++ [("id", .string id), ("handle", .string handle), ("epoch", .string epoch),
      ("lease_id", .string leaseId), ("expires_at", .number (some expiresAt))])
  | publishedToRos handle seq =>
    .object (head "published_to_ros" ++ [("handle", .string handle), ("seq", .string seq)])
  | message streamId epoch seq data =>
    .object (head "message" ++ [("stream_id", .string streamId), ("epoch", .string epoch), ("seq", .string seq),
      ("data", data)])
  | videoSubscribed id track mid =>
    .object (head "video.subscribed" ++ [("id", .string id), ("track", .string track), ("mid", .string mid)])
  | videoUnsubscribed id => .object (head "video.unsubscribed" ++ [("id", .string id)])
  | videoState track mid state =>
    .object (head "video.state" ++ [("track", .string track), ("mid", .string mid), ("state", .string (stateText state))])
  | error id =>
    .object (head "error" ++ (id.map fun id => ("id", Json.string id)).toList ++ [("code", .string "request_rejected")])

/-- The stream whose sample an envelope carries. -/
def stream : Envelope → Option String
  | message streamId _ _ _ => some streamId
  | _ => none

end Envelope

/-- Encoded output. -/
structure Bytes where
  envelope : Envelope
  byteLength : Nat

instance : Sized Bytes := ⟨Bytes.byteLength⟩

/-- Encode output as UTF-8, with its size. -/
def encode (numbers : NumberText) (envelope : Envelope) : Bytes :=
  ⟨envelope, (envelope.json.stringify numbers.text).utf8ByteSize⟩

/-- Encode output, if it fits. -/
def encodeWire (numbers : NumberText) (envelope : Envelope) (maxBytes : Nat) : Except String Bytes :=
  if (encode numbers envelope).byteLength > maxBytes then .error "message_size" else .ok (encode numbers envelope)

end RosBridge.Router
