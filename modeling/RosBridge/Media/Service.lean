import RosBridge.Lib.Program
import RosBridge.Media.SourceRuns
/-!
# MediaService

`media/index.ts`, over any viewers. The tracks are the keys of `sources`. Timers,
encoders and promises reach one source at a time (`Call.event`). A viewer that is told a
state may detach viewers from any track before it returns, as the viewers of a router
do; it attaches none. The probe, the catalog and the counters change no source.
-/

namespace RosBridge.Media

open Lib Prog

structure MediaService (ν : Type) where
  tracks : List String
  nodup : tracks.Nodup
  maxPipelines : Nat
  sources : String → SourceSystem ν
  closed : Bool

/-- What the outside does during a call: the viewers that a viewer detaches when it is
told a state, with their tracks, and what an encoder reports from inside `start` and from
inside `requestKeyframe`. -/
structure Outside (ν : Type) where
  told : ν → VideoState → List (String × ν)
  startup : List Signal
  keyframe : List Signal

/-- What reaches a source other than through its service. -/
def Event.internal {ν : Type} : Event ν → Bool
  | .add _ | .remove _ | .requestKeyframe | .close => false
  | _ => true

namespace MediaService

variable {ν : Type}

/-- Create one source per configured track. -/
def create (tracks : List String) (nodup : tracks.Nodup) (maxPipelines : Nat) (options : String → VideoSourceOptions) :
    MediaService ν where
  tracks := tracks
  nodup := nodup
  maxPipelines := maxPipelines
  sources track := .init (options track)
  closed := false

def setSource (m : MediaService ν) (track : String) (s : SourceSystem ν) : MediaService ν :=
  { m with sources := fun t => if t = track then s else m.sources t }

/-- Count the encoders currently running. -/
def running (m : MediaService ν) : Nat := m.tracks.countP fun track => (m.sources track).running

/-- A method of the service. -/
abbrev ServiceM (ν : Type) := Prog (MediaService ν) String

/-- Resolve a configured source. -/
def source (track : String) : ServiceM ν (SourceSystem ν) := do
  let m ← get
  throwIf (track ∉ m.tracks ∨ m.closed) "unknown_video_track"
  return m.sources track

variable [DecidableEq ν]

/-- Detach a viewer. -/
def detach (track : String) (viewer : ν) : ServiceM ν Unit := do
  let source ← source track
  modify fun m => m.setSource track (source.remove viewer)

/-- How the code of one source runs inside the service. -/
def port (outside : Outside ν) (track : String) : Port (MediaService ν) ν where
  view m := m.sources track
  put m s := m.setSource track s
  told viewer state m := (outside.told viewer state).foldl (fun m gone => (detach gone.1 gone.2).after m) m
  startup := outside.startup
  keyframe := outside.keyframe

variable (outside : Outside ν)

/-- Attach a viewer to a source, starting the encoder if it is the first. -/
def attach (track : String) (viewer : ν) : ServiceM ν Unit := do
  let source ← source track
  let m ← get
  throwIf (!source.running ∧ m.running ≥ m.maxPipelines) "video_pipeline_limit"
  -- A refused viewer is not taken on.
  throwIf (!source.retryable) "video_retry_too_soon"
  modify ((port outside track).add viewer)

/-- Ask a source for an IDR. -/
def requestKeyframe (track : String) : ServiceM ν Unit := do
  let _ ← source track
  modify (port outside track).requestKeyframe

/-- Release every source, up to the first wait. -/
def close : ServiceM ν Unit :=
  modify fun m => m.tracks.foldl (fun m track => (port outside track).close m) { m with closed := true }

inductive Call (ν : Type) where
  | attach (track : String) (viewer : ν)
  | detach (track : String) (viewer : ν)
  | requestKeyframe (track : String)
  | close
  /-- A timer, an encoder or a promise of a source. -/
  | event (track : String) (e : Event ν)

/-- The code a call runs. -/
def Call.code : Call ν → ServiceM ν Unit
  | .attach track viewer => MediaService.attach outside track viewer
  | .detach track viewer => MediaService.detach track viewer
  | .requestKeyframe track => MediaService.requestKeyframe outside track
  | .close => MediaService.close outside
  | .event track e => when (e.internal = true) <| modify ((port outside track).step e)

def step (m : MediaService ν) (call : Outside ν × Call ν) : MediaService ν := (call.2.code call.1).after m

def run (m : MediaService ν) (calls : List (Outside ν × Call ν)) : MediaService ν := calls.foldl step m

end MediaService

end RosBridge.Media
