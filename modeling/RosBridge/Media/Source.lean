import RosBridge.Lib.Binary
import RosBridge.Media.Rtp
/-!
# VideoSource

`media/source.ts`. The asynchronous methods are cut where they wait for a promise:
`begin` before the release it waits for, `finish` and `close` likewise, and each call
that waits is kept (`waiting`, `releasing`, `closes`) until it resumes. An encoder is a
number; what it emits, also from inside `start`, comes from outside.

The viewers' callbacks run code of their own, which may come back to the source
before it returns, so the methods are written over any state `σ` that holds the source
(`Port`).
-/

namespace RosBridge.Media

inductive VideoState where
  | starting
  | active
  | idle
  | failed
  deriving DecidableEq

structure VideoSettings where
  startTimeoutMs : Nat
  retryMinIntervalMs : Nat
  stopGraceMs : Nat
  pliMinIntervalMs : Nat
  pos : 0 < startTimeoutMs ∧ 0 < retryMinIntervalMs ∧ 0 < stopGraceMs ∧ 0 < pliMinIntervalMs
  deriving DecidableEq

/-- What a source reads of its options: the settings and the track's frame rate. -/
structure VideoSourceOptions where
  settings : VideoSettings
  framerate : Nat
  framerate_pos : 0 < framerate
  deriving DecidableEq

/-- The fields of a `VideoSource`. `source` and `release` name an encoder, the timers
are named by the number `schedule` gave them, and `none` in the two times is
`NEGATIVE_INFINITY`. -/
structure VideoSource (ν : Type) where
  options : VideoSourceOptions
  viewers : List ν
  source : Option Nat
  cancelGrace : Option Nat
  cancelStart : Option Nat
  phase : VideoState
  lastKeyframeAt : Option ℚ
  failedAt : Option ℚ
  sequence : Nat
  emitted : UInt32
  origin : Option UInt32
  shift : UInt32
  packets : Nat
  keyframeRequests : Nat
  release : Option Nat
  deriving DecidableEq

/-- The two callbacks a source schedules. -/
inductive TimerKind where
  | grace
  | start
  deriving DecidableEq

structure Timer where
  id : Nat
  kind : TimerKind
  due : ℚ
  deriving DecidableEq

/-- Where a call of `close` stands: it waits for its `finish`, then for the release it
found after that. -/
inductive CloseFrame where
  | finishing (on : Option Nat)
  | releasing (on : Option Nat)
  | done
  deriving DecidableEq

/-- A source and its surroundings: the clock, the armed timers, the encoders (`live`:
started, and not stopped yet; `opening`: their `start` has not settled), the calls that
wait, and what the viewers were sent. -/
structure SourceSystem (ν : Type) extends VideoSource ν where
  now : ℚ
  timers : List Timer
  nextTimer : Nat
  created : Nat
  live : List Nat
  opening : List Nat
  /-- Calls of `finish` that wait for the encoder's `stop`. -/
  releasing : List Nat
  /-- Calls of `begin` that wait for a release. -/
  waiting : List Nat
  /-- Calls of `begin` whose release is over and that have not resumed yet. -/
  ready : Nat
  closes : List CloseFrame
  written : List (ν × RtpPacket)
  deriving DecidableEq

/-- What an encoder reports through its two callbacks. -/
inductive Signal where
  | packet (packet : RtpPacket)
  | failed

/-- How the code of one source runs inside a larger state: where the source is, what
its viewers do when they are told a state, and what an encoder reports from inside
`start` and from inside `requestKeyframe`. -/
structure Port (σ ν : Type) where
  view : σ → SourceSystem ν
  put : σ → SourceSystem ν → σ
  told : ν → VideoState → σ → σ
  startup : List Signal
  keyframe : List Signal

variable {σ ν : Type}

namespace SourceSystem

/-- A source nobody watches yet. -/
def init (options : VideoSourceOptions) : SourceSystem ν where
  options := options
  viewers := []
  source := none
  cancelGrace := none
  cancelStart := none
  phase := .idle
  lastKeyframeAt := none
  failedAt := none
  sequence := 0
  emitted := 0
  origin := none
  shift := 0
  packets := 0
  keyframeRequests := 0
  release := none
  now := 0
  timers := []
  nextTimer := 0
  created := 0
  live := []
  opening := []
  releasing := []
  waiting := []
  ready := 0
  closes := []
  written := []

/-- Whether this source currently holds an encoder. -/
def running (s : SourceSystem ν) : Bool := s.release.isSome || (s.phase ≠ .idle && s.phase ≠ .failed)

/-- `clock() - since >= interval`, where nothing has happened since `none`. The difference of
two doubles is rounded to one. -/
def elapsed (s : SourceSystem ν) (since : Option ℚ) (interval : Nat) : Bool :=
  match since with
  | none => true
  | some t => Lib.binary64.atLeast (s.now - t) interval

/-- Whether a subscription may start this source now. -/
def retryable (s : SourceSystem ν) : Bool := s.elapsed s.failedAt s.options.settings.retryMinIntervalMs

/-- `schedule`: the timer armed is number `s.nextTimer`. -/
def schedule (s : SourceSystem ν) (kind : TimerKind) (delayMs : Nat) : SourceSystem ν :=
  { s with timers := s.timers ++ [⟨s.nextTimer, kind, s.now + delayMs⟩], nextTimer := s.nextTimer + 1 }

/-- `cancel?.()`. -/
def cancel (s : SourceSystem ν) (timer : Option Nat) : SourceSystem ν :=
  { s with timers := s.timers.filter fun t => some t.id ≠ timer }

/-- `this.cancelGrace = schedule(..)`. -/
def armGrace (s : SourceSystem ν) : SourceSystem ν :=
  { s.schedule .grace s.options.settings.stopGraceMs with cancelGrace := some s.nextTimer }

/-- `this.cancelStart = schedule(..)`. -/
def armStart (s : SourceSystem ν) : SourceSystem ν :=
  { s.schedule .start s.options.settings.startTimeoutMs with cancelStart := some s.nextTimer }

/-- Remove a viewer, stopping the encoder once nobody is left. -/
def remove [DecidableEq ν] (s : SourceSystem ν) (viewer : ν) : SourceSystem ν :=
  if viewer ∉ s.viewers then s
  else
    let s := { s with viewers := s.viewers.erase viewer }
    if s.viewers.length > 0 ∨ s.phase = .idle then s else s.armGrace

/-- Renumber one packet so the track is continuous across encoder restarts. -/
def renumber (s : SourceSystem ν) (packet : RtpPacket) : SourceSystem ν × RtpPacket :=
  let original := packet.timestamp
  let s := match s.origin with
    | some _ => s
    | none =>
      let step := UInt32.ofInt (mathRound (90000 / s.options.framerate))
      { s with origin := some original, shift := s.emitted + step - original }
  let emitted := original + s.shift
  ({ s with emitted := emitted, sequence := s.sequence + 1 },
    (packet.withTimestamp emitted).withSequence (UInt16.ofNat s.sequence))

/-- The end of `deliver`: the packet is counted, renumbered and written to every viewer. -/
def fanOut (s : SourceSystem ν) (packet : RtpPacket) : SourceSystem ν :=
  let (s, packet) := { s with packets := s.packets + 1 }.renumber packet
  { s with written := s.written ++ s.viewers.map (·, packet) }

/-- `this.release = source.stop()`: the call of `finish` waits for it. -/
def stop (s : SourceSystem ν) (encoder : Nat) : SourceSystem ν :=
  { s with release := some encoder, releasing := s.releasing ++ [encoder] }

/-- `this.source = create()` and the call of its `start`. -/
def create (s : SourceSystem ν) : SourceSystem ν :=
  { s with
    origin := none
    source := some s.created
    created := s.created + 1
    live := s.live ++ [s.created]
    opening := s.opening ++ [s.created] }

end SourceSystem

namespace Port

variable [DecidableEq ν] (p : Port σ ν)

def modify (f : SourceSystem ν → SourceSystem ν) (w : σ) : σ := p.put w (f (p.view w))

/-- Tell every viewer the current phase. A viewer that has left before its turn is not
told. -/
def notify (w : σ) : σ :=
  (p.view w).viewers.foldl (fun w v => if v ∈ (p.view w).viewers then p.told v (p.view w).phase w else w) w

/-- Release the encoder and settle on a terminal phase. -/
def finish (phase : VideoState) (w : σ) : σ :=
  let source := (p.view w).source
  let w := p.modify (fun s => { (s.cancel s.cancelStart).cancel s.cancelGrace with
    cancelStart := none
    cancelGrace := none
    source := none
    phase := phase
    failedAt := if phase = .failed then some s.now else s.failedAt }) w
  let w := p.notify w
  let w := if phase = .failed then p.modify (fun s => { s with viewers := [] }) w else w
  match source with
  | none => w
  | some encoder => p.modify (·.stop encoder) w

/-- Fan one RTP packet out to every viewer. -/
def deliver (packet : RtpPacket) (w : σ) : σ :=
  let w :=
    if (p.view w).phase = .starting then
      p.notify (p.modify (fun s => { s.cancel s.cancelStart with cancelStart := none, phase := .active }) w)
    else w
  p.modify (·.fanOut packet) w

/-- The callbacks given to `start`: both are ignored once the encoder is superseded. -/
def signal (encoder : Nat) (w : σ) (signal : Signal) : σ :=
  if (p.view w).source ≠ some encoder then w
  else match signal with
    | .packet packet => p.deliver packet w
    | .failed => p.finish .failed w

/-- Ask the encoder for an IDR, rate limited. -/
def requestKeyframe (w : σ) : σ :=
  let s := p.view w
  if !s.elapsed s.lastKeyframeAt s.options.settings.pliMinIntervalMs then w
  else
    let w := p.modify (fun s => { s with lastKeyframeAt := some s.now, keyframeRequests := s.keyframeRequests + 1 }) w
    match s.source with
    | none => w
    | some encoder => p.keyframe.foldl (p.signal encoder) w

/-- `begin` from the point where nothing is left to wait for. -/
def beginRest (w : σ) : σ :=
  let s := p.view w
  if s.phase ≠ .starting ∨ s.viewers = [] then w
  else p.startup.foldl (p.signal s.created) (p.modify (·.create) w)

/-- Start the encoder for the first viewer; `begin` in the source. -/
def beginStart (w : σ) : σ :=
  let w := p.notify (p.modify (fun s => { s with phase := .starting }) w)
  let w := p.modify (·.armStart) w
  match (p.view w).release with
  | some encoder => p.modify (fun s => { s with waiting := s.waiting ++ [encoder] }) w
  | none => p.beginRest w

/-- Add a viewer, starting the encoder if it is the first. -/
def add (viewer : ν) (w : σ) : σ :=
  let w := p.modify (fun s => { s.cancel s.cancelGrace with
    viewers := if viewer ∈ s.viewers then s.viewers else s.viewers ++ [viewer]
    cancelGrace := none }) w
  let phase := (p.view w).phase
  if phase = .idle ∨ phase = .failed then p.beginStart w
  else
    let w := if phase = .active then p.requestKeyframe w else w
    p.told viewer (p.view w).phase w

/-- Release the encoder and forget every viewer, up to the first wait. -/
def close (w : σ) : σ :=
  let w := p.modify (fun s => { s with viewers := [] }) w
  let source := (p.view w).source
  let w := p.finish .idle w
  p.modify (fun s => { s with closes := s.closes ++ [.finishing source] }) w

end Port

end RosBridge.Media
