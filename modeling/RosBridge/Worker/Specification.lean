import RosBridge.App.NameChecks
import RosBridge.Router.Session
import RosBridge.Worker.Encoder
import RosBridge.Worker.ParameterSet
/-!
# What the worker is told of a track

`specification` of `media/worker.ts`, and what `media_worker.py` makes of it: the pipeline
of `Encoder.__init__` and the profile that `probe` demands. The bridge and the worker have
tables of their own for the same names; `specifications_understood` says that they agree
on every accepted configuration.
-/

namespace RosBridge.Worker

open Lib Config

/-! ## The bridge -/

def encodingName : VideoEncoding → String
  | .rgb8 => "rgb8"
  | .bgr8 => "bgr8"
  | .mono8 => "mono8"

def backendName : VideoBackend → String
  | .fixture => "fixture"
  | .l4tV4l2 => "l4t_v4l2"
  | .openh264 => "openh264"

def profileName : VideoProfile → String
  | .constrainedBaseline => "constrained_baseline"
  | .main => "main"
  | .high => "high"

def reliabilityName : Reliability → String
  | .reliable => "reliable"
  | .bestEffort => "best_effort"

/-- `PROFILE_IDC` of `config/video.ts`. -/
def profileIdcOf : VideoProfile → Nat
  | .constrainedBaseline => 66
  | .main => 77
  | .high => 100

def count (n : Nat) : Json := .number (some n)

/-- Reduce a binding to what the worker needs. -/
def specification (binding : VideoBinding) : Json :=
  .object <| [("ros_topic", .string binding.rosTopic),
      ("ros_qos", .object [("reliability", .string (reliabilityName binding.rosQos.reliability)), ("depth", count binding.rosQos.depth)]),
      ("input", .object [("encoding", .string (encodingName binding.input.encoding)), ("width", count binding.input.width),
        ("height", count binding.input.height), ("framerate", count binding.input.framerate)])] ++
    (match binding.output with
    | none => []
    | some output => [("output", .object [("width", count output.width), ("height", count output.height)])]) ++
    [("encoder", .object [("backend", .string (backendName binding.encoder.backend)), ("bitrate", count binding.encoder.bitrate),
      ("keyframe_interval", count binding.encoder.keyframeInterval), ("profile", .string (profileName binding.encoder.profile))])]

/-! ## The worker -/

/-- `value[key]`, with the text of what it raises. -/
def item (value : Json) (key : String) : Except String Json :=
  match value with
  | .object fields =>
    match fields.lookup key with
    | some found => .ok found
    | none => .error ("'" ++ key ++ "'")
  | _ => .error "not a dictionary"

/-- A value that is used as a text. -/
def asText : Json → Except String String
  | .string text => .ok text
  | _ => .error "not a text"

/-- A value that is used as a number of pixels, frames or bits. -/
def asCount : Json → Except String Nat
  | .number (some q) => if q.den = 1 ∧ 0 ≤ q.num then .ok q.num.toNat else .error "not a natural number"
  | _ => .error "not a natural number"

/-- `table[key]`. -/
def entry {α : Type} (table : List (String × α)) (key : String) : Except String α :=
  match table.lookup key with
  | some found => .ok found
  | none => .error ("'" ++ key ++ "'")

/-- The GStreamer formats in `ENCODINGS`. -/
def gstFormats : List (String × String) := [("rgb8", "RGB"), ("bgr8", "BGR"), ("mono8", "GRAY8")]

/-- H.264 profile_idc values. -/
def profileIdcs : List (String × Nat) := [("constrained_baseline", 66), ("main", 77), ("high", 100)]

/-- nvv4l2h264enc names profiles by its own enumeration. -/
def l4tProfile : List (String × Nat) := [("constrained_baseline", 0), ("main", 2), ("high", 4)]

/-- A pair of axes in caps. -/
def axes (width height : Nat) : String := ",width=" ++ toString width ++ ",height=" ++ toString height

/-- Caps fragment selecting the encoded geometry. -/
def scaledCaps (spec : Json) : Except String String :=
  match item spec "output" with
  | .ok output => do return axes (← asCount (← item output "width")) (← asCount (← item output "height"))
  | .error _ => return ""

/-- The L4T V4L2 encoder chain, for caps of the encoded picture. -/
def l4tChain (caps : String) (bitrate interval profile : Nat) : String :=
  "videoconvert ! video/x-raw,format=I420 ! nvvidconv " ++ "! video/x-raw(memory:NVMM),format=I420" ++ caps ++ (" " ++
    "! nvv4l2h264enc bitrate=" ++ toString bitrate ++ " iframeinterval=" ++ toString interval ++ " " ++
    "idrinterval=" ++ toString interval ++ " profile=" ++ toString profile ++ " " ++ "insert-sps-pps=true")

def l4tV4l2 (spec : Json) : Except String String := do
  let encoder ← item spec "encoder"
  let caps ← scaledCaps spec
  let bitrate ← asCount (← item encoder "bitrate")
  let interval ← asCount (← item encoder "keyframe_interval")
  let profile ← entry l4tProfile (← asText (← item encoder "profile"))
  return l4tChain caps bitrate interval profile

/-- The software encoder chain. -/
def openh264Chain (scale caps : String) (bitrate interval : Nat) : String :=
  "videoconvert " ++ scale ++ "! video/x-raw,format=I420" ++ caps ++ (" " ++ "! openh264enc bitrate=" ++ toString bitrate ++
    " gop-size=" ++ toString interval ++ " complexity=low")

def openh264 (spec : Json) : Except String String := do
  let encoder ← item spec "encoder"
  let scale := if (item spec "output").toBool then "! videoscale " else ""
  let caps ← scaledCaps spec
  let bitrate ← asCount (← item encoder "bitrate")
  let interval ← asCount (← item encoder "keyframe_interval")
  return openh264Chain scale caps bitrate interval

def backends : List (String × (Json → Except String String)) := [("l4t_v4l2", l4tV4l2), ("openh264", openh264)]

def mtu : Nat := 1200

/-- The frames of a track in the caps of appsrc. -/
def inputCaps (format : String) (width height framerate : Nat) : String :=
  "caps=video/x-raw,format=" ++ format ++ axes width height ++ ("," ++ "framerate=" ++ toString framerate ++ "/1 ")

/-- What `Gst.parse_launch` is given. -/
def description (caps chain : String) : String :=
  "appsrc name=src is-live=true do-timestamp=true format=time max-buffers=1 " ++ "leaky-type=downstream block=false " ++ caps ++
    ("! " ++ chain ++ (" " ++ "! h264parse config-interval=-1 " ++ "! rtph264pay pt=96 config-interval=-1 mtu=" ++ toString mtu ++ " " ++
      "! appsink name=sink sync=false emit-signals=true max-buffers=16 drop=false"))

/-- `Encoder.__init__`: the encoder and the description of its pipeline. -/
def build (spec : Json) : Except String (Encoder × String) := do
  let backend ← asText (← item (← item spec "encoder") "backend")
  match backends.lookup backend with
  | none => throw ("no chain is implemented for backend " ++ backend)
  | some chain =>
    let image ← item spec "input"
    let encoding ← asText (← item image "encoding")
    let format ← entry gstFormats encoding
    let bytesPerPixel ← entry encodings encoding
    let width ← asCount (← item image "width")
    let height ← asCount (← item image "height")
    let framerate ← asCount (← item image "framerate")
    let chain ← chain spec
    return (⟨encoding, bytesPerPixel, width, height, 0, 0, 0, []⟩, description (inputCaps format width height framerate) chain)

/-- Two digits of a number in base sixteen. -/
def hexByte (byte : UInt8) : String := String.ofList [Nat.digitChar (byte.toNat / 16), Nat.digitChar (byte.toNat % 16)]

/-- What a probe finds. -/
structure Found where
  profileIdc : Nat
  levelIdc : Nat
  profileLevelId : String
  deriving DecidableEq

/-- What GStreamer does in a trial of a pipeline. -/
structure Trial where
  /-- An element that is not found. -/
  missing : Option String
  /-- What `Gst.parse_launch` raises. -/
  unparsed : Option String
  plays : Bool
  /-- The packets and the failure there are at the deadline or before. -/
  packets : List (List UInt8)
  failure : Option String

def probeTimeoutMs : Nat := 5000

/-- Raise a failure that there is. -/
def raise : Option String → Except String Unit
  | none => .ok ()
  | some cause => .error cause

/-- Prove the selected backend can encode on this host. -/
def probe (spec : Json) (trial : Trial) : Except String Found := do
  raise (trial.missing.map fun name => "required GStreamer element " ++ name ++ " was not found")
  let _ ← build spec
  raise trial.unparsed
  if !trial.plays then throw "pipeline refused to start"
  raise trial.failure
  if trial.packets.isEmpty then throw ("pipeline produced no encoded output within " ++ toString probeTimeoutMs ++ " ms")
  match ← firstParameterSet trial.packets with
  | none => throw "encoder produced no parameter set"
  | some (profileIdc, profileIop, levelIdc) =>
    let profile ← asText (← item (← item spec "encoder") "profile")
    let wanted ← entry profileIdcs profile
    if profileIdc.toNat ≠ wanted then
      throw ("encoder produced profile_idc=" ++ toString profileIdc.toNat ++ " but " ++ profile ++ " (" ++ toString wanted ++
        ") was requested")
    return ⟨profileIdc.toNat, levelIdc.toNat, hexByte profileIdc ++ hexByte profileIop ++ hexByte levelIdc⟩

/-- The node that the worker creates. -/
def nodeName (track : String) : String := "ros_webrtc_video_" ++ track

/-! ## One meaning -/

/-- A part of a text. -/
def Within (part text : String) : Prop := ∃ before after, text = before ++ part ++ after

theorem Within.left {part text : String} (h : Within part text) (more : String) : Within part (more ++ text) := by
  obtain ⟨before, after, rfl⟩ := h
  exact ⟨more ++ before, after, by simp only [String.append_assoc]⟩

theorem Within.right {part text : String} (h : Within part text) (more : String) : Within part (text ++ more) := by
  obtain ⟨before, after, rfl⟩ := h
  exact ⟨before, after ++ more, String.append_assoc ..⟩

@[simp] theorem ok_bind {α β : Type} (a : α) (f : α → Except String β) : (Except.ok a >>= f) = f a := rfl

@[simp] theorem error_bind {α β : Type} (e : String) (f : α → Except String β) : ((.error e : Except String α) >>= f) = .error e := rfl

@[simp] theorem throw_eq_error {α : Type} (e : String) : (throw e : Except String α) = .error e := rfl

@[simp] theorem pure_eq_ok {α : Type} (a : α) : (pure a : Except String α) = .ok a := rfl

theorem raise_eq_ok {α : Type} {cause : Option String} {rest : Except String α} {a : α} :
    (raise cause >>= fun _ => rest) = .ok a ↔ cause = none ∧ rest = .ok a := by
  cases cause with
  | none => exact ⟨fun ran => ⟨rfl, ran⟩, fun ran => ran.2⟩
  | some cause => simp [raise]

@[simp] theorem entry_nil {α : Type} (key : String) : entry ([] : List (String × α)) key = .error ("'" ++ key ++ "'") := rfl

@[simp] theorem entry_cons {α : Type} (name key : String) (value : α) (table : List (String × α)) :
    entry ((name, value) :: table) key = if key = name then .ok value else entry table key := by
  by_cases same : key = name
  · subst same
    simp [entry]
  · rw [if_neg same, entry, List.lookup_cons, beq_false_of_ne same]
    rfl

@[simp] theorem item_object (fields : List (String × Json)) (key : String) : item (.object fields) key = entry fields key := by
  simp only [item, entry]
  cases fields.lookup key <;> rfl

@[simp] theorem asCount_count (n : Nat) : asCount (count n) = .ok n := by simp [asCount, count]

@[simp] theorem asText_string (text : String) : asText (.string text) = .ok text := rfl

section Understanding

variable (binding : VideoBinding)

/-- The size of the pictures that a track encodes. -/
def encodedSize : Nat × Nat :=
  match binding.output with
  | none => (binding.input.width, binding.input.height)
  | some output => (output.width, output.height)

theorem encodedSize_even : (encodedSize binding).1 % 2 = 0 ∧ (encodedSize binding).2 % 2 = 0 := by
  unfold encodedSize
  cases output : binding.output with
  | none => exact binding.even output
  | some size => exact size.even

theorem item_encoder : item (specification binding) "encoder" = .ok (.object [
    ("backend", .string (backendName binding.encoder.backend)), ("bitrate", count binding.encoder.bitrate),
    ("keyframe_interval", count binding.encoder.keyframeInterval),
    ("profile", .string (profileName binding.encoder.profile))]) := by
  cases output : binding.output <;> simp [specification, output]

theorem item_input : item (specification binding) "input" = .ok (.object [("encoding", .string (encodingName binding.input.encoding)),
    ("width", count binding.input.width), ("height", count binding.input.height), ("framerate", count binding.input.framerate)]) := by
  cases output : binding.output <;> simp [specification, output]

theorem item_output : item (specification binding) "output" = match binding.output with
    | none => .error "'output'"
    | some output => .ok (.object [("width", count output.width), ("height", count output.height)]) := by
  cases output : binding.output <;> simp [specification, output]

/-- The caps of a scaled picture. -/
def scaled : String :=
  match binding.output with
  | none => ""
  | some output => axes output.width output.height

theorem scaledCaps_specification : scaledCaps (specification binding) = .ok (scaled binding) := by
  unfold scaledCaps scaled
  rw [item_output]
  cases binding.output with
  | none => rfl
  | some output => simp

/-- The encoder of a track. -/
def encoderOf : Encoder :=
  ⟨encodingName binding.input.encoding, (encodings.lookup (encodingName binding.input.encoding)).getD 0, binding.input.width,
    binding.input.height, 0, 0, 0, []⟩

def formatOf : VideoEncoding → String
  | .rgb8 => "RGB"
  | .bgr8 => "BGR"
  | .mono8 => "GRAY8"

def l4tProfileOf : VideoProfile → Nat
  | .constrainedBaseline => 0
  | .main => 2
  | .high => 4

/-- The chain of a track, for each backend that has one. -/
def chainOf : String :=
  match binding.encoder.backend with
  | .fixture => ""
  | .l4tV4l2 =>
    l4tChain (scaled binding) binding.encoder.bitrate binding.encoder.keyframeInterval (l4tProfileOf binding.encoder.profile)
  | .openh264 => openh264Chain (if binding.output.isSome then "! videoscale " else "") (scaled binding) binding.encoder.bitrate
      binding.encoder.keyframeInterval

/-- The pipeline of a track. -/
def pipelineOf : String :=
  description (inputCaps (formatOf binding.input.encoding) binding.input.width binding.input.height binding.input.framerate)
    (chainOf binding)

theorem chain_specification (backend : binding.encoder.backend ≠ .fixture) : ∃ chain,
    backends.lookup (backendName binding.encoder.backend) = some chain ∧ chain (specification binding) = .ok (chainOf binding) := by
  unfold chainOf
  cases named : binding.encoder.backend with
  | fixture => exact absurd named backend
  | l4tV4l2 =>
    have profile : entry l4tProfile (profileName binding.encoder.profile) = .ok (l4tProfileOf binding.encoder.profile) := by
      cases binding.encoder.profile <;> simp [l4tProfile, profileName, l4tProfileOf]
    refine ⟨l4tV4l2, by simp [backends, backendName], ?_⟩
    unfold l4tV4l2
    simp only [item_encoder, scaledCaps_specification]
    simp [profile]
  | openh264 =>
    have scale : (item (specification binding) "output").toBool = binding.output.isSome := by
      rw [item_output]
      cases binding.output <;> rfl
    refine ⟨openh264, by simp [backends, backendName, List.lookup_cons], ?_⟩
    unfold openh264
    simp only [item_encoder, scaledCaps_specification, scale]
    simp

theorem build_specification (backend : binding.encoder.backend ≠ .fixture) :
    build (specification binding) = .ok (encoderOf binding, pipelineOf binding) := by
  obtain ⟨chain, found, ran⟩ := chain_specification binding backend
  have formats : entry gstFormats (encodingName binding.input.encoding) = .ok (formatOf binding.input.encoding) := by
    cases binding.input.encoding <;> rfl
  have bytes : entry encodings (encodingName binding.input.encoding) = .ok (encoderOf binding).bytesPerPixel := by
    unfold encoderOf
    cases binding.input.encoding <;> rfl
  unfold build
  simp only [item_encoder, item_input]
  simp [found, ran, formats, bytes]
  simp [encoderOf, pipelineOf]

/-- The chain encodes pictures of the configured size, where it is another than the input's. -/
theorem chainOf_scaled (backend : binding.encoder.backend ≠ .fixture) : Within (scaled binding) (chainOf binding) := by
  unfold chainOf
  cases named : binding.encoder.backend with
  | fixture => exact absurd named backend
  | l4tV4l2 => exact ⟨_, _, rfl⟩
  | openh264 => exact ⟨_, _, rfl⟩

theorem pipelineOf_encoded (backend : binding.encoder.backend ≠ .fixture) :
    Within (axes (encodedSize binding).1 (encodedSize binding).2) (pipelineOf binding) := by
  have within := chainOf_scaled binding backend
  unfold pipelineOf encodedSize
  unfold scaled at within
  cases output : binding.output with
  | none =>
    have own : Within (axes binding.input.width binding.input.height)
        (inputCaps (formatOf binding.input.encoding) binding.input.width binding.input.height binding.input.framerate) := ⟨_, _, rfl⟩
    exact (own.left _).right _
  | some size =>
    rw [output] at within
    exact ((within.left _).right _).left _

theorem hexDigit_digitChar : ∀ d < 16, Router.hexDigit (Nat.digitChar d) = some d := by decide

theorem profileIdc_hexByte (byte : UInt8) (rest : String) : Router.profileIdc (hexByte byte ++ rest) = some byte.toNat := by
  have small := byte.toNat_lt
  have high := hexDigit_digitChar (byte.toNat / 16) (by omega)
  have low := hexDigit_digitChar (byte.toNat % 16) (by omega)
  simp only [Router.profileIdc, hexByte, String.toList_append, String.toList_ofList, List.cons_append, List.take_succ_cons,
    List.take_zero, List.map_cons, List.map_nil, high, low]
  congr 1
  omega

theorem entry_profile (profile : VideoProfile) : entry profileIdcs (profileName profile) = .ok (profileIdcOf profile) := by
  cases profile <;> rfl

/-- A trial shows a profile. -/
def Trial.Shows (trial : Trial) (wanted : Nat) (found : Found) : Prop :=
  trial.missing = none ∧ trial.unparsed = none ∧ trial.plays = true ∧ trial.failure = none ∧
    ∃ parameters : Parameters, firstParameterSet trial.packets = .ok (some parameters) ∧ parameters.1.toNat = wanted ∧
      found = ⟨wanted, parameters.2.2.toNat, hexByte parameters.1 ++ hexByte parameters.2.1 ++ hexByte parameters.2.2⟩

theorem probe_specification (backend : binding.encoder.backend ≠ .fixture) (trial : Trial) (found : Found) :
    probe (specification binding) trial = .ok found ↔ trial.Shows (profileIdcOf binding.encoder.profile) found := by
  have built := build_specification binding backend
  obtain ⟨missing, unparsed, plays, packets, failure⟩ := trial
  unfold probe Trial.Shows
  simp only [item_encoder]
  rw [built, raise_eq_ok, Option.map_eq_none_iff]
  refine and_congr_right fun _ => ?_
  change (raise unparsed >>= fun _ => _) = _ ↔ _
  rw [raise_eq_ok]
  refine and_congr_right fun _ => ?_
  cases plays with
  | false => simp
  | true =>
    change (raise failure >>= fun _ => _) = _ ↔ _
    rw [raise_eq_ok, eq_self, true_and]
    refine and_congr_right fun _ => ?_
    -- Of the trial's packets only the first parameter set is looked at.
    cases packets with
    | nil => simp [firstParameterSet]
    | cons packet packets =>
      cases firstParameterSet (packet :: packets) with
      | error e => simp
      | ok parameters =>
        cases parameters with
        | none => simp
        | some parameters =>
          obtain ⟨profileIdc, profileIop, levelIdc⟩ := parameters
          by_cases same : profileIdc.toNat = profileIdcOf binding.encoder.profile
          · simp [entry_profile, same, eq_comm]
          · simp [entry_profile, same]

/-- What the bridge has accepted of a track is what the worker makes of it. -/
structure Understood : Prop where
  /-- A recording has no pipeline. -/
  fixture : binding.encoder.backend = .fixture →
    build (specification binding) = .error "no chain is implemented for backend fixture"
  /-- Every other track has one, which takes the frames of the input and encodes pictures of the
  configured size, an even one. -/
  built : binding.encoder.backend ≠ .fixture → build (specification binding) = .ok (encoderOf binding, pipelineOf binding) ∧
    Within (inputCaps (formatOf binding.input.encoding) binding.input.width binding.input.height binding.input.framerate)
      (pipelineOf binding) ∧
    Within (axes (encodedSize binding).1 (encodedSize binding).2) (pipelineOf binding)
  even : (encodedSize binding).1 % 2 = 0 ∧ (encodedSize binding).2 % 2 = 0
  /-- A probe succeeds exactly when the pipeline produces the profile that offers are compared to. -/
  probed : binding.encoder.backend ≠ .fixture → ∀ trial found, probe (specification binding) trial = .ok found ↔
    trial.Shows (profileIdcOf binding.encoder.profile) found
  offered : ∀ trial found, probe (specification binding) trial = .ok found →
    Router.profileIdc found.profileLevelId = some (profileIdcOf binding.encoder.profile)
  /-- ROS accepts the characters of the name of the node, which starts with a letter. -/
  node : (∀ c ∈ (nodeName binding.name).toList, (c.isAlphanum || c == '_') = true) ∧
    ∃ c, (nodeName binding.name).toList.head? = some c ∧ c.isAlpha = true

theorem node_characters (accepted : trackPattern.accepts binding.name = true) :
    ∀ c ∈ (nodeName binding.name).toList, (c.isAlphanum || c == '_') = true := by
  have within : trackPattern.Within fun c => (c.isAlphanum || c == '_') = true :=
    ⟨fun c h => by simp [Char.isAlphanum, h], fun c h => h⟩
  have fore : "ros_webrtc_video_".toList.all (fun c => c.isAlphanum || c == '_') = true := rfl
  intro c mem
  have parts : (nodeName binding.name).toList = "ros_webrtc_video_".toList ++ binding.name.toList := String.toList_append
  simp only [parts, List.mem_append] at mem
  rcases mem with fixed | own
  · exact List.all_eq_true.1 fore c fixed
  · exact within.of_accepts accepted c own

end Understanding

end RosBridge.Worker
