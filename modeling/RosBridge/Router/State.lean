import RosBridge.Media.SourceRuns
import RosBridge.Router.RequestCache
import RosBridge.Session.CommandGuard
/-!
# The state of a bridge

Any number of session routers share one command guard and one media service. A
`World` is that whole state. What runs outside the modelled code (clocks,
authorization hooks, the transport, ROS, encoders) answers through an `Env`: the
`n`-th time something outside is asked, its answer is the one with number `n`. An
authorization hook may use the guard and close routers before it answers; what it does
is a `Reaction`.

Each router keeps a `trace` of what it did and the world keeps a `history` of what
happened to the guard and at the ROS boundary. Nothing reads them.
-/

namespace RosBridge.Router

open Lib Session Config

/-- Converts between native values and JSON. -/
structure Codec (η : Type) where
  encode : η → Except String Json
  decode : Option Json → Except String η

structure RouterBinding (η : Type) where
  binding : TopicBinding
  codec : Codec η
  schemaId : String

structure Subscription (η : Type) where
  entry : RouterBinding η
  ready : Bool
  seq : Nat
  nextAt : ℚ

structure Publisher (η : Type) where
  entry : RouterBinding η
  guarded : Bool
  seq : Int
  nextAt : ℚ

/-- The limits of a router, as its constructor checked them. -/
structure Limits where
  maxHandles : Nat
  maxRequests : Nat
  requestTtlMs : Nat
  maxControlRateHz : Nat

/-- A negotiated video section. -/
structure VideoSlot where
  mid : String
  profileLevelId : String

/-- One track a peer has a slot for. -/
structure Binding where
  slot : VideoSlot
  watching : Bool
  attached : Bool

/-- The fields of a `VideoRouter`. -/
structure VideoRouter where
  bound : Table String Binding
  free : List VideoSlot

inductive Operation where
  | subscribe
  | publish
  deriving DecidableEq

/-- The direction an operation needs. -/
def Operation.direction : Operation → Direction
  | .subscribe => .rosToWeb
  | .publish => .webToRos

/-- What a router did. -/
inductive Mark (η : Type) where
  /-- A control envelope was queued. -/
  | queued (envelope : Envelope)
  /-- A subscription was registered. -/
  | opened (stream : String) (entry : RouterBinding η)
  /-- A `ready` was processed. -/
  | readied (stream : String)
  /-- A sample was given a sequence number. -/
  | sampled (stream : String) (seq : Nat) (native : η)
  /-- Queued samples of a stream were released. -/
  | lost (stream : String)
  /-- An envelope was given to `send`, which accepted or refused it. -/
  | handed (channel : Channel) (envelope : Envelope) (accepted : Bool)
  /-- A subscription was removed at the peer's request. -/
  | unsubscribed (stream : String)
  /-- The response to a request was cached. -/
  | stored (id input : String) (output : Bytes) (time : ℚ)
  /-- A publish passed the rate check of its handle. -/
  | admitted (handle publicName : String) (time : ℚ)
  /-- `ros.publish` was called. -/
  | published (handle publicName : String) (time : ℚ)
  /-- A viewer is being detached. -/
  | detaching (track : String)
  /-- The `unsubscribe` of a stream is being called. -/
  | unsubscribing (stream : String)
  /-- `onClosed` was called. -/
  | notified

/-- The fields of a `SessionRouter`. -/
structure SessionRouter (η : Type) where
  sessionId : String
  epoch : String
  limits : Limits
  maxBytes : Nat
  entries : Table String (RouterBinding η)
  subscriptions : Table String (Subscription η)
  publishers : Table String (Publisher η)
  queue : DeliveryQueue Bytes
  cache : RequestCache
  video : Option VideoRouter
  nextId : Nat
  lastTime : ℚ
  controlWindow : Int
  controlCount : Nat
  welcomed : Bool
  closed : Bool
  trace : List (Mark η)

/-- A viewer is named by its router and its track. -/
abbrev ViewerId := Nat × String

/-- The fields of a `MediaService`, with the configuration it was built from. -/
structure MediaService where
  tracks : List String
  maxPipelines : Nat
  profileIdc : String → Option Nat
  sources : String → Media.SourceSystem ViewerId
  closed : Bool

/-- What happened to the guard and at the boundaries of the bridge. -/
inductive Note where
  /-- An authorization hook is being evaluated. -/
  | asked
  /-- The hook of a router has answered. -/
  | answered (router : Nat) (publicName : String) (operation : Operation) (ok : Bool)
  /-- A router has begun to flush. -/
  | flushing (router : Nat)
  /-- The head of a stream was given to `send`, which accepted or refused it. -/
  | handed (router : Nat) (stream : String) (accepted : Bool)
  /-- A stream was refused before its buffered data or a sample of it was sent. -/
  | refused (router : Nat) (stream : String)
  /-- A router has begun to close. -/
  | shut (router : Nat)
  | opened (identity : CommandIdentity)
  | armed (sessionId handle : String) (t : ℚ) (before : CommandGuard)
  | closedHandle (sessionId handle : String)
  | revoked (sessionId : String)
  /-- A ticket's validation passed at the guard's time `t`. -/
  | validated (request : CommandRequest) (t : ℚ) (before : CommandGuard)
  /-- `ros.publish` was called by a router, with the guard as it was. -/
  | published (router : Nat) (sessionId : String) (binding : TopicBinding) (request : Option CommandRequest)
      (guard : CommandGuard)

structure World (η : Type) where
  numbers : NumberText
  guard : CommandGuard
  media : MediaService
  routers : Nat → SessionRouter η
  /-- Routers constructed so far; the next one is number `born`. -/
  born : Nat
  /-- The listeners ROS holds, as router and stream. -/
  listeners : List (Nat × String)
  /-- How often something outside was asked. -/
  tick : Nat
  history : List Note

/-- What an authorization hook does: it answers or throws, maybe after using the guard
(where the guard's own hook may react in turn) and closing routers. -/
inductive Reaction where
  | answer (result : Except String Bool)
  | arm (sessionId handle : String) (hook : Reaction) (clock : Session.Num) (rest : Reaction)
  | closeHandle (sessionId handle : String) (rest : Reaction)
  | revokeSession (sessionId : String) (rest : Reaction)
  | closeRouter (router : Nat) (rest : Reaction)

/-- The outside. -/
structure Env (η : Type) where
  clock : Nat → Session.Num
  guardClock : Nat → Session.Num
  /-- `options.authorize` of a router; a missing hook answers `false`. -/
  authorize : Nat → Reaction
  guardAuthorize : Nat → Reaction
  /-- `VideoAccess.authorize`. -/
  videoAuthorize : Nat → Reaction
  videoCatalog : Nat → List (String × String)
  send : Nat → Bool
  /-- `ros.subscribe`: the samples it delivers before it returns, or `none` if it throws. -/
  subscribe : Nat → Option (List η)
  /-- Whether an `unsubscribe` returns. -/
  unsubscribe : Nat → Bool
  /-- Whether a `VideoAccess.detach` reaches the media service. -/
  detach : Nat → Bool
  /-- Whether a `ros.publish` returns. -/
  publish : Nat → Bool
  /-- What an encoder reports from inside `start` and from inside `requestKeyframe`. -/
  startup : Nat → List Media.Signal
  keyframe : Nat → List Media.Signal

/-- A reaction that leaves the guard to the routers: it may close them and answers. -/
def Reaction.Mild : Reaction → Prop
  | .answer _ => True
  | .closeRouter _ rest => rest.Mild
  | _ => False

/-- Every hook reacts like that. -/
def Env.Hooks {η : Type} (env : Env η) (P : Reaction → Prop) : Prop :=
  ∀ n, P (env.authorize n) ∧ P (env.guardAuthorize n) ∧ P (env.videoAuthorize n)

/-- A piece of code of the bridge. -/
abbrev Code (η α : Type) := Prog (World η) String α

variable {η : Type}

namespace World

/-- The world with another record for router `k`. -/
def setRouter (w : World η) (k : Nat) (r : SessionRouter η) : World η :=
  { w with routers := fun j => if j = k then r else w.routers j }

@[simp] theorem setRouter_self (w : World η) (k : Nat) (r : SessionRouter η) : (w.setRouter k r).routers k = r := by
  simp [setRouter]

theorem setRouter_ne (w : World η) {k j : Nat} (r : SessionRouter η) (h : j ≠ k) :
    (w.setRouter k r).routers j = w.routers j := by
  simp [setRouter, h]

theorem setRouter_same (w : World η) (k : Nat) : w.setRouter k (w.routers k) = w := by
  have : (fun j => if j = k then w.routers k else w.routers j) = w.routers := by
    funext j
    split
    · next h => rw [h]
    · rfl
  simp only [setRouter, this]

@[simp] theorem setRouter_guard (w : World η) (k : Nat) (r : SessionRouter η) : (w.setRouter k r).guard = w.guard := rfl

@[simp] theorem setRouter_media (w : World η) (k : Nat) (r : SessionRouter η) : (w.setRouter k r).media = w.media := rfl

@[simp] theorem setRouter_history (w : World η) (k : Nat) (r : SessionRouter η) : (w.setRouter k r).history = w.history := rfl

@[simp] theorem setRouter_listeners (w : World η) (k : Nat) (r : SessionRouter η) :
    (w.setRouter k r).listeners = w.listeners := rfl

@[simp] theorem setRouter_born (w : World η) (k : Nat) (r : SessionRouter η) : (w.setRouter k r).born = w.born := rfl

@[simp] theorem setRouter_tick (w : World η) (k : Nat) (r : SessionRouter η) : (w.setRouter k r).tick = w.tick := rfl

@[simp] theorem setRouter_numbers (w : World η) (k : Nat) (r : SessionRouter η) : (w.setRouter k r).numbers = w.numbers := rfl

end World

/-- A router that has not been constructed: closed, and without anything. -/
def SessionRouter.vacant : SessionRouter η where
  sessionId := ""
  epoch := ""
  limits := ⟨0, 0, 0, 0⟩
  maxBytes := 0
  entries := .empty
  subscriptions := .empty
  publishers := .empty
  queue := ⟨⟨0, 0, 0⟩, .empty, 0, 0⟩
  cache := .create 0 0 0
  video := none
  nextId := 0
  lastTime := 0
  controlWindow := 0
  controlCount := 0
  welcomed := false
  closed := true
  trace := []

/-- A bridge before its first peer. -/
def World.start (numbers : NumberText) (guard : CommandGuard) (media : MediaService) : World η :=
  ⟨numbers, guard, media, fun _ => .vacant, 0, [], 0, []⟩

end RosBridge.Router
