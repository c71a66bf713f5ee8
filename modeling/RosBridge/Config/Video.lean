import RosBridge.Config.Bridge
/-!
# Configuration of the media plane

`config/video.ts`. The sections `video`, `video_tracks` and `limits.video` of the same
document, configured together or not at all.
-/

namespace RosBridge.Config

open Lib Session

/-- ROS image encodings this bridge accepts. -/
inductive VideoEncoding where
  | rgb8
  | bgr8
  | mono8
  deriving DecidableEq

inductive VideoBackend where
  | fixture
  | l4tV4l2
  | openh264
  deriving DecidableEq

inductive VideoProfile where
  | constrainedBaseline
  | main
  | high
  deriving DecidableEq

def videoEncodings : List (String × VideoEncoding) := [("rgb8", .rgb8), ("bgr8", .bgr8), ("mono8", .mono8)]

def videoBackends : List (String × VideoBackend) := [("fixture", .fixture), ("l4t_v4l2", .l4tV4l2), ("openh264", .openh264)]

def videoProfiles : List (String × VideoProfile) :=
  [("constrained_baseline", .constrainedBaseline), ("main", .main), ("high", .high)]

/-- The profiles that a backend supports. -/
def VideoBackend.profiles : VideoBackend → List VideoProfile
  | .l4tV4l2 => [.constrainedBaseline, .main, .high]
  | _ => [.constrainedBaseline]

/-- The least and the largest bitrate that a backend supports. -/
def VideoBackend.bitrate : VideoBackend → Nat × Nat
  | .fixture => (1, 100000000)
  | .l4tV4l2 => (64000, 100000000)
  | .openh264 => (64000, 40000000)

/-! ## Settings and limits -/

/-- Timings shared by every video source. -/
structure VideoSettings where
  startTimeoutMs : Nat
  stopGraceMs : Nat
  retryMinIntervalMs : Nat
  pliMinIntervalMs : Nat
  deriving DecidableEq

/-- Capacity bounds for the media plane. -/
structure VideoLimits where
  maxTracks : Nat
  maxPipelines : Nat
  maxSlotsPerPeer : Nat
  maxWidth : Nat
  maxHeight : Nat
  maxFramerate : Nat
  /-- Running more encoders than configured sources cannot happen. -/
  pipelines_le : maxPipelines ≤ maxTracks
  deriving DecidableEq

/-- Validate the shared `video` section. -/
def videoSettings (value : Option Json) : Checked VideoSettings := do
  let map ← record value (some ["start_timeout_ms", "stop_grace_ms", "retry_min_interval_ms", "pli_min_interval_ms"]) "video"
  let startTimeoutMs ← positiveInteger (map.field "start_timeout_ms") "video.start_timeout_ms"
  let stopGraceMs ← positiveInteger (map.field "stop_grace_ms") "video.stop_grace_ms"
  let retryMinIntervalMs ← positiveInteger (map.field "retry_min_interval_ms") "video.retry_min_interval_ms"
  let pliMinIntervalMs ← positiveInteger (map.field "pli_min_interval_ms") "video.pli_min_interval_ms"
  return ⟨startTimeoutMs, stopGraceMs, retryMinIntervalMs, pliMinIntervalMs⟩

/-- Validate media-plane capacities. -/
def videoLimits (value : Option Json) : Checked VideoLimits := do
  let map ← record value
    (some ["max_tracks", "max_pipelines", "max_slots_per_peer", "max_width", "max_height", "max_framerate"]) "limits.video"
  let maxTracks ← positiveInteger (map.field "max_tracks") "limits.video.max_tracks"
  let maxPipelines ← positiveInteger (map.field "max_pipelines") "limits.video.max_pipelines"
  let maxSlotsPerPeer ← positiveInteger (map.field "max_slots_per_peer") "limits.video.max_slots_per_peer"
  let maxWidth ← positiveInteger (map.field "max_width") "limits.video.max_width"
  let maxHeight ← positiveInteger (map.field "max_height") "limits.video.max_height"
  let maxFramerate ← positiveInteger (map.field "max_framerate") "limits.video.max_framerate"
  if many : maxPipelines.1 > maxTracks.1 then throw ⟨"limits.video", "more pipelines than tracks"⟩
  else return ⟨maxTracks, maxPipelines, maxSlotsPerPeer, maxWidth, maxHeight, maxFramerate, not_lt.1 many⟩

/-! ## Tracks -/

structure VideoInput where
  encoding : VideoEncoding
  width : Nat
  height : Nat
  framerate : Nat
  deriving DecidableEq

/-- The encoded geometry a track scales its frames to: an odd axis has no representation. -/
structure VideoOutput where
  width : Nat
  height : Nat
  even : width % 2 = 0 ∧ height % 2 = 0
  deriving DecidableEq

structure VideoEncoder where
  backend : VideoBackend
  bitrate : Nat
  keyframeInterval : Nat
  profile : VideoProfile
  bitrate_mem : backend.bitrate.1 ≤ bitrate ∧ bitrate ≤ backend.bitrate.2
  profile_mem : profile ∈ backend.profiles
  deriving DecidableEq

/-- One configured video source. -/
structure VideoBinding where
  name : String
  rosTopic : String
  rosType : String
  rosQos : RosQos
  input : VideoInput
  output : Option VideoOutput
  encoder : VideoEncoder
  subscribeScope : String
  /-- Latched history would replay a stale frame into a live stream. -/
  isVolatile : rosQos.durability = .volatile
  /-- The encoded picture has even axes. -/
  even : output = none → input.width % 2 = 0 ∧ input.height % 2 = 0
  deriving DecidableEq

/-- Validate the raw-image contract the source must deliver. -/
def videoInput (value : Option Json) (limits : VideoLimits) (path : String) : Checked VideoInput := do
  let map ← record value (some ["encoding", "width", "height", "framerate"]) (path ++ ".input")
  let encoding ← choice (map.field "encoding") videoEncodings (path ++ ".input.encoding")
  let width ← positiveInteger (map.field "width") (path ++ ".input.width")
  let height ← positiveInteger (map.field "height") (path ++ ".input.height")
  let framerate ← positiveInteger (map.field "framerate") (path ++ ".input.framerate")
  if width.1 > limits.maxWidth ∨ height.1 > limits.maxHeight ∨ framerate.1 > limits.maxFramerate then
    throw ⟨path ++ ".input", "exceeds configured video limits"⟩
  return ⟨encoding, width, height, framerate⟩

/-- Validate the encoded geometry. -/
def videoOutput (value : Option Json) (limits : VideoLimits) (path : String) : Checked VideoOutput := do
  let map ← record value (some ["width", "height"]) (path ++ ".output")
  let width ← positiveInteger (map.field "width") (path ++ ".output.width")
  let height ← positiveInteger (map.field "height") (path ++ ".output.height")
  if width.1 > limits.maxWidth ∨ height.1 > limits.maxHeight then throw ⟨path ++ ".output", "exceeds configured video limits"⟩
  if even : width.1 % 2 = 0 ∧ height.1 % 2 = 0 then return ⟨width, height, even⟩
  else throw ⟨path ++ ".output", "width and height must be even"⟩

/-- Validate encoder selection and parameters. -/
def videoEncoder (value : Option Json) (path : String) : Checked VideoEncoder := do
  let map ← record value (some ["codec", "backend", "bitrate", "keyframe_interval", "profile"]) (path ++ ".encoder")
  let _ ← choice (map.field "codec") [("h264", ())] (path ++ ".encoder.codec")
  let backend ← choice (map.field "backend") videoBackends (path ++ ".encoder.backend")
  let bitrate ← positiveInteger (map.field "bitrate") (path ++ ".encoder.bitrate")
  if range : backend.bitrate.1 ≤ bitrate.1 ∧ bitrate.1 ≤ backend.bitrate.2 then
    let profile ← choice (map.field "profile") videoProfiles (path ++ ".encoder.profile")
    if supported : profile ∈ backend.profiles then
      let keyframeInterval ← positiveInteger (map.field "keyframe_interval") (path ++ ".encoder.keyframe_interval")
      return ⟨backend, bitrate, keyframeInterval, profile, range, supported⟩
    else throw ⟨path ++ ".encoder.profile", "unsupported by the selected backend"⟩
  else throw ⟨path ++ ".encoder.bitrate", "outside the range supported by the selected backend"⟩

/-- `/^[A-Za-z][A-Za-z0-9_]*$/`. -/
def trackPattern : Regex := .seq (.one Char.isAlpha) (.star (.one fun c => c.isAlphanum || c == '_'))

/-- A text and nothing else. -/
def exactly (text : String) : Regex := text.toList.foldr (fun c r => .seq (.lit c) r) .empty

/-- Validate one `video_tracks` entry. -/
def videoBinding (name : String) (value : Option Json) (limits : VideoLimits) : Checked VideoBinding := do
  let path := "video_tracks." ++ name
  let name ← string (some (.string name)) trackPattern path
  let map ← record value (some ["ros_topic", "ros_type", "ros_qos", "input", "output", "encoder", "access"]) path
  let rosTopic ← topicName (map.field "ros_topic") (path ++ ".ros_topic")
  let rosType ← string (map.field "ros_type") (exactly "sensor_msgs/msg/Image") (path ++ ".ros_type")
  let qos ← rosQos (map.field "ros_qos") path
  if isVolatile : qos.durability = .volatile then
    let access ← record (map.field "access") (some ["subscribe_scope"]) (path ++ ".access")
    let input ← videoInput (map.field "input") limits path
    let output ← (map.field "output").mapM fun value => videoOutput (some value) limits path
    if even : output = none → input.width % 2 = 0 ∧ input.height % 2 = 0 then
      let encoder ← videoEncoder (map.field "encoder") path
      let subscribeScope ← string (access.field "subscribe_scope") (.plus (.one scopeChar)) (path ++ ".access.subscribe_scope")
      return ⟨name, rosTopic, rosType, qos, input, output, encoder, subscribeScope, isVolatile, even⟩
    else throw ⟨path ++ ".input", "width and height must be even when output is not configured"⟩
  else throw ⟨path, "video requires volatile durability"⟩

/-- One ROS topic feeds at most one source. -/
def checkSources : List VideoBinding → List String → Checked Unit
  | [], _ => .ok ()
  | track :: rest, sources =>
    if track.rosTopic ∈ sources then .error ⟨"video_tracks." ++ track.name, "duplicate video source topic"⟩
    else checkSources rest (track.rosTopic :: sources)

/-- Validate every configured track together with the limits that bound them. -/
def videoBindings (value : Option Json) (limits : VideoLimits) : Checked (List VideoBinding) := do
  let entries ← record value none "video_tracks"
  if entries.length = 0 ∨ entries.length > limits.maxTracks then throw ⟨"video_tracks", "invalid video track count"⟩
  let tracks ← entries.mapM fun e => videoBinding e.1 (some e.2) limits
  checkSources tracks []
  return tracks

/-! ## The document -/

structure VideoConfig where
  settings : VideoSettings
  limits : VideoLimits
  tracks : List VideoBinding
  deriving DecidableEq

/-- Validate the media plane; `none` when the deployment serves no video. -/
def parseVideoConfig (yaml : String → Option Json) (source : String) (topics : List TopicBinding) (maxBytes : Nat) :
    Checked (Option VideoConfig) := do
  let document ← readDocument yaml source maxBytes
  let map ← record (some document) none "$"
  let bounds ← record (map.field "limits") none "limits"
  match map.field "video", map.field "video_tracks", bounds.field "video" with
  | none, none, none => return none
  | some video, some tracks, some bounds =>
    let limits ← videoLimits (some bounds)
    let tracks ← videoBindings (some tracks) limits
    -- One ROS topic is not served through both planes.
    match tracks.find? (fun track => track.rosTopic ∈ topics.map (·.rosTopic)) with
    | some track => throw ⟨"video_tracks." ++ track.name, "topic is already exposed through topics"⟩
    | none => return some ⟨← videoSettings (some video), limits, tracks⟩
  | _, _, _ => throw ⟨"video", "video, video_tracks and limits.video must be configured together"⟩

end RosBridge.Config
