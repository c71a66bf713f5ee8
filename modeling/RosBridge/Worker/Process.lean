import RosBridge.Media.Frames
import RosBridge.Media.Lines
import RosBridge.Worker.Specification
/-!
# The worker process

`main`, `run` and its `control` of `media_worker.py`. The main thread spins ROS and watches
the pipeline, the control thread reads what the bridge says, and the pipeline hands packets
over when it likes. What GStreamer and ROS do, and what ends the process from outside, comes
with each step.
-/

namespace RosBridge.Worker

open Lib

/-- What is emitted. -/
inductive Report where
  | probed (backend : String) (found : Found)
  | unprobed (backend cause : String)
  /-- The first line is of another version. -/
  | mismatched
  | started
  | stats (framesIn framesInvalid framesDropped rtpOut : Nat)
  | failed (cause : String)
  | stopped
  deriving DecidableEq

def contractVersion : Nat := 1

def maxLineBytes : Nat := 8192

/-- The message that `emit` sends for the track of the process. -/
def Report.message (track : String) (report : Report) : Json :=
  .object <| ("v", count contractVersion) :: match report with
  | .probed backend found => [("op", .string "probe_result"), ("ok", .bool true), ("backend", .string backend),
      ("profile_idc", count found.profileIdc), ("level_idc", count found.levelIdc), ("profile_level_id", .string found.profileLevelId)]
  | .unprobed backend cause =>
    [("op", .string "probe_result"), ("ok", .bool false), ("backend", .string backend), ("cause", .string cause)]
  | .mismatched => [("op", .string "probe_result"), ("ok", .bool false), ("cause", .string "unsupported contract version")]
  | .started => [("op", .string "started"), ("track", .string track), ("payload_type", count 96)]
  | .stats framesIn framesInvalid framesDropped rtpOut =>
    [("op", .string "stats"), ("track", .string track), ("frames_in", count framesIn), ("frames_invalid", count framesInvalid),
      ("frames_dropped", count framesDropped), ("rtp_out", count rtpOut)]
  | .failed cause => [("op", .string "failed"), ("track", .string track), ("cause", .string cause)]
  | .stopped => [("op", .string "stopped"), ("track", .string track)]

/-- How JSON is written and read on both sides. -/
structure Texts where
  stringify : Json → List UInt8
  loads : List UInt8 → Option Json
  dumps : Json → List UInt8
  parse : List UInt8 → Option Json

inductive Phase where
  /-- The first line is not read yet. -/
  | waiting
  /-- The pipeline plays, and `started` is not emitted yet. -/
  | starting
  | streaming
  /-- The process is gone; something outside may have ended it. -/
  | ended (killed : Bool)
  deriving DecidableEq

structure Process where
  phase : Phase
  encoder : Encoder
  rtpOut : Nat
  /-- The event that ends the loop of the main thread. -/
  stopping : Bool
  /-- The control thread has not ended. -/
  reading : Bool
  keyframes : Nat
  reports : List Report
  /-- The packets that were written. -/
  packets : List (List UInt8)
  /-- Lines of the bridge that are not read yet. -/
  input : List (List UInt8)
  /-- No more of them will come. -/
  hungUp : Bool
  /-- Bytes that the bridge has not read yet. -/
  output : List UInt8
  media : List UInt8

namespace Process

def exit (w : Process) : Process := { w with phase := .ended false }

/-- The first line is of this version; `True == 1`. -/
def isVersion : Option Json → Bool
  | some (.number (some v)) => v = contractVersion
  | some (.bool v) => v
  | _ => false

section Emitting

variable (t : Texts) (track : String)

/-- Send one NDJSON event to the bridge. -/
def emit (report : Report) (w : Process) : Process :=
  { w with reports := w.reports ++ [report], output := w.output ++ (t.dumps (report.message track) ++ [Media.newline]) }

/-- The `except` of `main`, for a `start`. -/
def raised (cause : String) (w : Process) : Process := (w.emit t track (.failed cause)).exit

/-- The answer to a probe. -/
def answer (spec : Json) (trial : Trial) (w : Process) : Process :=
  match (do asText (← item (← item spec "encoder") "backend") : Except String String) with
  -- The handler reads the backend once more.
  | .error _ => w.exit
  | .ok backend =>
    match probe spec trial with
    | .ok found => (w.emit t track (.probed backend found)).exit
    | .error cause => (w.emit t track (.unprobed backend cause)).exit

/-- `run`, until its pipeline plays; `setUp` is what GStreamer or ROS raise before. -/
def setUp (spec : Json) (setUp : Option String) (w : Process) : Process :=
  let tracked : Except String Encoder := do
    let built ← build spec
    let qos ← item spec "ros_qos"
    let _ ← asCount (← item qos "depth")
    let _ ← asText (← item qos "reliability")
    let _ ← asText (← item spec "ros_topic")
    raise setUp
    return built.1
  match tracked with
  | .error cause => w.raised t track cause
  | .ok encoder => { w with phase := .starting, encoder }

/-- `main`, with its first line. -/
def main (line : List UInt8) (trial : Trial) (raises : Option String) (w : Process) : Process :=
  match t.loads line with
  | some (.object fields) =>
    if isVersion (fields.lookup "v") then
      match fields.lookup "spec", fields.lookup "op" with
      | some spec, some (.string "probe") => w.answer t track spec trial
      | some spec, some (.string "start") => w.setUp t track spec raises
      | some _, some (.string op) => w.raised t track ("unsupported operation " ++ op)
      -- Nothing catches what these raise.
      | _, _ => w.exit
    else (w.emit t track .mismatched).exit
  | _ => w.exit

/-- Apply one command of the bridge, or the end of its commands. -/
def control (w : Process) : Process :=
  let stop (w : Process) : Process := { w with reading := false, stopping := true }
  match w.input with
  | [] => if w.hungUp then stop w else w
  | line :: rest =>
    let w := { w with input := rest }
    if line.length + 1 > maxLineBytes then stop (w.emit t track (.failed "control line too long"))
    else
      match t.loads line with
      | some (.object fields) =>
        if isVersion (fields.lookup "v") then
          match fields.lookup "op" with
          | some (.string "force_keyframe") => { w with keyframes := w.keyframes + 1 }
          | some (.string "stop") => stop w
          | some (.string "shutdown") => stop w
          | some _ => w
          | none => { w with reading := false }
        else stop (w.emit t track (.failed "unsupported contract version"))
      -- The thread dies, and the event is not set.
      | _ => { w with reading := false }

/-- How the loop of the main thread is left. -/
inductive Leave where
  | returns
  | raises (cause : String)
  | interrupted

/-- The `finally` of `run` and what `main` makes of an exception; taking the node down may raise one. -/
def finish (leave : Leave) (teardown : Option String) (w : Process) : Process :=
  match teardown with
  | some cause => w.raised t track cause
  | none =>
    let w := w.emit t track .stopped
    match leave with
    | .returns => w.exit
    | .raises cause => w.raised t track cause
    | .interrupted => { w with phase := .ended true }

end Emitting

/-- What happens during one pass of the loop. -/
structure Pass where
  /-- The image that `spin_once` hands to the encoder. -/
  frame : Option (Appsrc × Image)
  /-- What `spin_once` raises. -/
  raises : Option String
  /-- The error that the pipeline has reported. -/
  failure : Option String
  /-- The last report is a second ago. -/
  due : Bool
  teardown : Option String

section Acting

variable (t : Texts) (track : String)

def spin (frame : Option (Appsrc × Image)) (w : Process) : Process :=
  match frame with
  | none => w
  | some (source, message) => { w with encoder := (w.encoder.push source message).2 }

/-- The loop of the main thread, once. -/
def pass (p : Pass) (w : Process) : Process :=
  if w.stopping then w.finish t track .returns p.teardown
  else
    let w := w.spin p.frame
    match p.raises, p.failure with
    | some cause, _ => w.finish t track (.raises cause) p.teardown
    | none, some cause => (w.emit t track (.failed cause)).finish t track .returns p.teardown
    | none, none =>
      if p.due then w.emit t track (.stats w.encoder.framesIn w.encoder.framesInvalid w.encoder.framesDropped w.rtpOut) else w

/-- Frame and forward one RTP packet. -/
def forward (packet : List UInt8) (w : Process) : Process :=
  let w := { w with rtpOut := w.rtpOut + 1 }
  match Media.write packet with
  | some framed => { w with packets := w.packets ++ [packet], media := w.media ++ framed }
  | none => w

/-- What a process does next. -/
inductive Act where
  | main (trial : Trial) (raises : Option String)
  | announce
  | packet (bytes : List UInt8)
  | control
  | pass (p : Pass)
  | interrupt (teardown : Option String)
  | kill

def act (w : Process) : Act → Process
  | .main trial raises =>
    if w.phase = .waiting then
      match w.input with
      | [] => if w.hungUp then w.exit else w
      | line :: rest => main t track line trial raises { w with input := rest }
    else w
  | .announce => if w.phase = .starting then { w.emit t track .started with phase := .streaming, reading := true } else w
  | .packet bytes => if w.phase = .starting ∨ w.phase = .streaming then w.forward bytes else w
  | .control => if w.phase = .streaming ∧ w.reading then w.control t track else w
  | .pass p => if w.phase = .streaming then w.pass t track p else w
  | .interrupt teardown => if w.phase = .streaming then w.finish t track .interrupted teardown else w
  | .kill =>
    match w.phase with
    | .ended _ => w
    | _ => { w with phase := .ended true }

end Acting

/-- A process that was given its first line. -/
def spawned (request : List UInt8) : Process :=
  ⟨.waiting, ⟨"", 0, 0, 0, 0, 0, 0, []⟩, 0, false, false, 0, [], [], [request], false, [], []⟩

end Process

end RosBridge.Worker
