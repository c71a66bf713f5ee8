import RosBridge.Media.Source
import RosBridge.Lib.Runs
/-!
# Runs of one source

An `Input` is one turn of the event loop that reaches the source: a call, a timer, a
signal of an encoder, a promise that settles, or a call that resumes. It carries what
the outside does inside that turn: the viewers each viewer removes when it is told a
state, and what the encoder reports from inside `start` and `requestKeyframe`.

The `stop` of an encoder settles together with the `finish` that waits for it, which
is the first to be resumed; a `begin` that waited for the same release resumes at any
later time (`resume`). A turn that is not possible changes nothing.
-/

namespace RosBridge.Media

inductive Event (ν : Type) where
  | add (viewer : ν)
  | remove (viewer : ν)
  | requestKeyframe
  | close
  | fire (timer : Nat)
  | packet (encoder : Nat) (packet : RtpPacket)
  | failure (encoder : Nat)
  | started (encoder : Nat)
  | refused (encoder : Nat)
  | stopped (encoder : Nat)
  | resume
  | closing (call : Nat)
  | advance (now : ℚ)

structure Input (ν : Type) where
  event : Event ν
  told : ν → VideoState → List ν
  startup : List Signal
  keyframe : List Signal

/-- A turn in which no callback does anything more. -/
def Event.alone {ν : Type} (event : Event ν) : Input ν := ⟨event, fun _ _ => [], [], []⟩

variable {σ ν : Type} [DecidableEq ν]

/-- A call of `close` resumes, if what it waits for is over. -/
def SourceSystem.advanceClose (s : SourceSystem ν) (call : Nat) : SourceSystem ν :=
  match s.closes[call]? with
  | some (.finishing on) =>
    if ∀ e ∈ on, e ∉ s.releasing then { s with closes := s.closes.set call (.releasing s.release) } else s
  | some (.releasing on) => if ∀ e ∈ on, e ∉ s.releasing then { s with closes := s.closes.set call .done } else s
  | _ => s

/-- The `stop` of an encoder settles, and the `finish` that waits for it resumes. -/
def SourceSystem.stopped (s : SourceSystem ν) (encoder : Nat) : SourceSystem ν :=
  if encoder ∉ s.releasing then s
  else { s with
    release := none
    live := s.live.filter (· ≠ encoder)
    releasing := s.releasing.filter (· ≠ encoder)
    waiting := s.waiting.filter (· ≠ encoder)
    ready := s.ready + s.waiting.count encoder }

namespace Port

variable (p : Port σ ν)

/-- A timer's callback. -/
def fired (w : σ) : TimerKind → σ
  | .grace => p.finish .idle (p.modify (fun s => { s with cancelGrace := none }) w)
  | .start => p.finish .failed w

/-- A timer fires when it is due. -/
def fire (timer : Nat) (w : σ) : σ :=
  match (p.view w).timers.find? fun t => t.id = timer ∧ t.due ≤ (p.view w).now with
  | none => w
  | some t => p.fired (p.modify (fun s => { s with timers := s.timers.filter fun t => t.id ≠ timer }) w) t.kind

/-- The promise of `start` rejects: the catch block of `begin`, which unlike the
callbacks does not ask whose encoder it is. -/
def refused (encoder : Nat) (w : σ) : σ :=
  if encoder ∉ (p.view w).opening then w
  else p.finish .failed (p.modify (fun s => { s with opening := s.opening.filter (· ≠ encoder) }) w)

/-- A `begin` whose release is over resumes. -/
def resume (w : σ) : σ :=
  if (p.view w).ready = 0 then w else p.beginRest (p.modify (fun s => { s with ready := s.ready - 1 }) w)

def step (event : Event ν) (w : σ) : σ :=
  match event with
  | .add viewer => p.add viewer w
  | .remove viewer => p.modify (·.remove viewer) w
  | .requestKeyframe => p.requestKeyframe w
  | .close => p.close w
  | .fire timer => p.fire timer w
  | .packet encoder packet => p.signal encoder w (.packet packet)
  | .failure encoder => p.signal encoder w .failed
  | .started encoder => p.modify (fun s => { s with opening := s.opening.filter (· ≠ encoder) }) w
  | .refused encoder => p.refused encoder w
  | .stopped encoder => p.modify (·.stopped encoder) w
  | .resume => p.resume w
  | .closing call => p.modify (·.advanceClose call) w
  | .advance now => p.modify (fun s => { s with now := max s.now now }) w

end Port

/-- The source is the whole state; a viewer that is told a state removes viewers. -/
def Input.port (i : Input ν) : Port (SourceSystem ν) ν where
  view := id
  put _ s := s
  told v state s := (i.told v state).foldl SourceSystem.remove s
  startup := i.startup
  keyframe := i.keyframe

namespace SourceSystem

def step (s : SourceSystem ν) (i : Input ν) : SourceSystem ν := i.port.step i.event s

def run (s : SourceSystem ν) (inputs : List (Input ν)) : SourceSystem ν := inputs.foldl step s

end SourceSystem

end RosBridge.Media
