import Mathlib.Data.Rat.Encodable
import RosBridge.Lib.Runs
import RosBridge.Router.Session
/-!
# Runs of a bridge

An `Input` is one call from outside: a peer connects or sends something, a transport
becomes writable, ROS delivers a sample, a peer leaves, a track's encoder or timer
acts, or other code uses the guard. Each step comes with the `Env` that answers in it,
so the runs are all interleavings of all of these with all behaviours of the outside.
-/

namespace RosBridge.Router

open Lib Prog Session Config

variable {η : Type}

/-- What a router is built from, the shared guard, media service and ROS apart. -/
structure RouterOptions (η : Type) where
  topics : List TopicBinding
  maxMessageBytes : Nat
  maxPeerQueueBytes : Nat
  bindings : List (RouterBinding η)
  epoch : String
  maxHandles : Session.Num
  maxRequests : Session.Num
  requestTtlMs : Session.Num
  maxControlRateHz : Session.Num
  slots : Option (List VideoSlot)

/-- Copy validated entries. -/
def addEntries (topics : List TopicBinding) :
    List (RouterBinding η) → Table String (RouterBinding η) → Except String (Table String (RouterBinding η))
  | [], entries => .ok entries
  | entry :: rest, entries =>
    if entry.binding ∉ topics ∨ entries.has entry.binding.publicName then .error "invalid_binding"
    else if !identifier entry.schemaId then .error "invalid_identifier"
    else addEntries topics rest (entries.set entry.binding.publicName entry)

/-- The limits, if they are positive safe integers. -/
def RouterOptions.limits (options : RouterOptions η) : Except String Limits :=
  match positiveLimit options.maxHandles, positiveLimit options.maxRequests, positiveLimit options.requestTtlMs,
    positiveLimit options.maxControlRateHz with
  | some handles, some requests, some ttl, some rate => .ok ⟨handles, requests, ttl, rate⟩
  | _, _, _, _ => .error "invalid_limit"

/-- The bound of one envelope. -/
def RouterOptions.maxBytes (options : RouterOptions η) : Nat := min 16384 options.maxMessageBytes

/-- The fields of a new router, before it reads the clock and opens its session. -/
def RouterOptions.router (options : RouterOptions η) : Except String (SessionRouter η) := do
  let limits ← options.limits
  if !identifier options.epoch then throw "invalid_identifier"
  let entries ← addEntries options.topics options.bindings .empty
  let queue ← DeliveryQueue.create (some ((limits.maxHandles + 1 : Nat) : ℚ)) (some (options.maxPeerQueueBytes : ℚ))
    (some (options.maxBytes : ℚ))
  match (DeliveryQueue.register "control" .reliable limits.maxRequests).exec queue with
  | (.error e, _) => throw e
  | (.ok _, queue) => return { (.vacant : SessionRouter η) with
      epoch := options.epoch
      limits := limits
      maxBytes := options.maxBytes
      entries := entries
      queue := queue
      cache := .create limits.maxRequests limits.requestTtlMs options.maxPeerQueueBytes
      video := options.slots.map fun slots => ⟨.empty, slots⟩ }

variable (env : Env η)

/-- Construct router number `born`. -/
def construct (options : RouterOptions η) : Code η Unit := do
  let k := (← get).born
  let r ← Prog.ofExcept options.router
  match ← ask env.clock with
  | none => throw "invalid_clock"
  | some value =>
    throwIf (value < 0 ∨ value > maxSafeInteger - (r.limits.requestTtlMs : ℚ)) "invalid_clock"
    let sessionId ← onGuard (CommandGuard.openSession options.epoch)
    modify fun w => { w.setRouter k { r with sessionId := sessionId, lastTime := value, closed := false } with
      born := k + 1 }

/-- What reaches a source other than through its service. -/
def internal : Media.Event ViewerId → Bool
  | .add _ | .remove _ | .requestKeyframe | .close => false
  | _ => true

/-- A decoder asks for a keyframe. -/
def keyframe (k : Nat) (track : String) : Code η Unit := do
  match ← bindingOf k track with
  | none => pure ()
  | some entry =>
    when entry.watching do
      let _ ← source track
      onSource env track fun port => port.requestKeyframe

def closeSources : List String → Code η Unit
  | [] => pure ()
  | track :: tracks => do
    onSource env track fun port => port.close
    closeSources tracks

/-- Release every source, up to the first wait; `MediaService.close`. -/
def mediaClose : Code η Unit := do
  modify fun w => { w with media := { w.media with closed := true } }
  closeSources env (← get).media.tracks

inductive Input (η : Type) where
  | construct (options : RouterOptions η)
  | receive (k : Nat) (label : String) (raw : Raw)
  | flush (k : Nat)
  | sample (k : Nat) (stream : String) (native : η)
  | close (k : Nat)
  | outside (reaction : Reaction)
  | media (track : String) (event : Media.Event ViewerId)
  | keyframe (k : Nat) (track : String)
  | mediaClose

/-- The code an input runs. -/
def Input.code : Input η → Code η Unit
  | .construct options => Router.construct env options
  | .receive k label raw => Router.receive env k label raw
  | .flush k => Router.flush env k
  | .sample k stream native => Router.sample env k stream native
  | .close k => Router.close env k
  | .outside reaction => do let _ ← react env reaction
  | .media track event => if internal event then onSource env track fun port => port.step event else pure ()
  | .keyframe k track => Router.keyframe env k track
  | .mediaClose => Router.mediaClose env

namespace World

def step (w : World η) (i : Env η × Input η) : World η := (i.2.code i.1).after w

def run (w : World η) (inputs : List (Env η × Input η)) : World η := inputs.foldl step w

end World

/-! ## A small bridge -/

/-- Whole numbers in decimal, others by their number in an enumeration. -/
def plainText (q : ℚ) : String :=
  if q.den = 1 ∧ 0 ≤ q.num then toString q.num.toNat else "x" ++ toString (Encodable.encode q)

theorem isDigit_of_mem_toString {n : Nat} {c : Char} (h : c ∈ (toString n).toList) : c.isDigit := by
  rw [Nat.toString_eq_repr, Nat.toList_repr] at h
  exact Nat.isDigit_of_mem_toDigits (by decide) (by decide) h

theorem toString_inj {n m : Nat} (h : toString n = toString m) : n = m := by
  have := congrArg (fun s : String => Nat.ofDigitChars 10 s.toList 0) h
  simpa only [Nat.toString_eq_repr, Nat.toList_repr, Nat.ofDigitChars_ten_toDigits] using this

theorem plainText_injective : Function.Injective plainText := by
  intro q p h
  have mixed : ∀ n m : Nat, toString n ≠ "x" ++ toString m := by
    intro n m e
    have first : 'x' ∈ (toString n).toList := by rw [e, String.toList_append]; simp
    exact absurd (isDigit_of_mem_toString first) (by decide)
  unfold plainText at h
  split at h <;> split at h
  · have := toString_inj h
    apply Rat.ext <;> omega
  · exact absurd h (mixed _ _)
  · exact absurd h.symm (mixed _ _)
  · exact Encodable.encode_injective (toString_inj ((String.append_right_inj _).1 h))

def plainNumbers : NumberText where
  text := plainText
  injective := plainText_injective
  plain q c hc := by
    have known : c.isDigit ∨ c = 'x' := by
      unfold plainText at hc
      split at hc
      · exact .inl (isDigit_of_mem_toString hc)
      · rw [String.toList_append] at hc
        rcases List.mem_append.1 hc with hc | hc
        · exact .inr (by simpa using hc)
        · exact .inl (isDigit_of_mem_toString hc)
    rcases known with digit | rfl
    · refine ⟨?_, ?_, ?_⟩ <;> (rintro rfl; revert digit; decide)
    · decide

/-- An outside in which nothing fails. -/
def Env.calm (t : ℚ) : Env Json where
  clock _ := some t
  guardClock _ := some t
  authorize _ := .answer (.ok true)
  guardAuthorize _ := .answer (.ok true)
  videoAuthorize _ := .answer (.ok true)
  videoCatalog _ := []
  send _ := true
  subscribe _ := some []
  unsubscribe _ := true
  detach _ := true
  publish _ := true
  startup _ := []
  keyframe _ := []

/-- Values are sent as they are. -/
def plainCodec : Codec Json where
  encode value := .ok value
  decode
    | some value => .ok value
    | none => .error "missing"

/-- A reliable topic under its own name. -/
def plainTopic (name : String) (direction : Direction) (commandGuard : Option GuardSettings) : TopicBinding :=
  ⟨name, name, "std_msgs/msg/String", direction, ⟨.reliable, .volatile, 1⟩, .reliable, 10, ⟨.fifo, 4⟩, none, commandGuard,
    by decide, by decide, by decide⟩

def smallOptions (topics : List TopicBinding) : RouterOptions Json where
  topics := topics
  maxMessageBytes := 1000
  maxPeerQueueBytes := 20000
  bindings := topics.map fun b => ⟨b, plainCodec, "s"⟩
  epoch := "e"
  maxHandles := some 4
  maxRequests := some 8
  requestTtlMs := some 1000
  maxControlRateHz := some 100
  slots := none

def smallGuard : CommandGuard := ⟨⟨2, 8, 250, by decide⟩, "g", 0, 0, .empty, .empty, false⟩

def noMedia : MediaService where
  tracks := []
  maxPipelines := 1
  profileIdc _ := none
  sources _ := {
    options := ⟨⟨1, 1, 1, 1, by decide⟩, 1, by decide⟩, viewers := [], source := none, cancelGrace := none, cancelStart := none
    phase := .idle, lastKeyframeAt := none, failedAt := none, sequence := 0, emitted := 0, origin := none, shift := 0
    packets := 0, keyframeRequests := 0, release := none, now := 0, timers := [], nextTimer := 0, created := 0, live := []
    opening := [], releasing := [], waiting := [], ready := 0, closes := [], written := [] }
  closed := false

/-- One track, with H.264 in its baseline profile. -/
def oneTrack : MediaService := { noMedia with tracks := ["front"], profileIdc := fun _ => some 66 }

/-- A small bridge before its first peer. -/
def smallBridge : World Json := .start plainNumbers smallGuard noMedia

/-- An envelope of text fields. -/
def envelope (op : String) (fields : List (String × String)) : Raw :=
  ⟨100, some (.object ([("v", .number (some 1)), ("op", .string op)] ++ fields.map fun f => (f.1, .string f.2)))⟩

/-- A peer subscribes to one topic and receives a sample, and publishes on another. -/
def smallVisit : List (Env Json × Input Json) :=
  [(.calm 0, .construct (smallOptions [plainTopic "/odom" .rosToWeb none, plainTopic "/led" .webToRos none])),
    (.calm 0, .receive 0 "ros.control.v1" (envelope "hello" [])),
    (.calm 0, .receive 0 "ros.control.v1" (envelope "subscribe" [("id", "1"), ("topic", "/odom")])),
    (.calm 0, .receive 0 "ros.control.v1" (envelope "ready" [("stream_id", "g:1:1")])),
    (.calm 0, .sample 0 "g:1:1" (.number (some 3))),
    (.calm 0, .receive 0 "ros.control.v1" (envelope "advertise" [("id", "2"), ("topic", "/led")])),
    (.calm 0, .receive 0 "ros.reliable.v1"
      (envelope "publish" [("handle", "g:1:2"), ("epoch", "e"), ("seq", "0"), ("data", "on")]))]

/-- A peer subscribes to a topic and to a track. -/
def videoVisit : List (Env Json × Input Json) :=
  [(.calm 0, .construct { smallOptions [plainTopic "/odom" .rosToWeb none] with slots := some [⟨"0", "42e01f"⟩] }),
    (.calm 0, .receive 0 "ros.control.v1" (envelope "hello" [])),
    (.calm 0, .receive 0 "ros.control.v1" (envelope "subscribe" [("id", "1"), ("topic", "/odom")])),
    (.calm 0, .receive 0 "ros.control.v1" (envelope "video.subscribe" [("id", "2"), ("track", "front")]))]

/-- The bridge after that. -/
def videoBridge : World Json := (World.start plainNumbers smallGuard oneTrack).run videoVisit

end RosBridge.Router
