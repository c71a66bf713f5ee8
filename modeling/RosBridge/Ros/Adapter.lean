import RosBridge.Config.Binding
import RosBridge.Lib.Interleaving
import RosBridge.Lib.JsonTree
import RosBridge.Lib.Table
import RosBridge.Ros.PublishPath
/-!
# The ROS adapter

`TopicRosAdapter` of `ros/adapter.ts`. Native entities are made once, at the start, and
shared by the names that agree on topic, type and QoS; listeners come and go. A listener
is arbitrary code, which may call the adapter and write to the trees that it was given.
-/

namespace RosBridge.Ros

open Lib Config RosJson Thread

/-- Type-validated binding and codec. -/
structure RosRegistration where
  binding : TopicBinding
  codec : Codec
  created : ∃ descriptor overrides, createCodec descriptor overrides = .ok codec

/-- What a native entity is made from. -/
structure Entity where
  rosType : String
  rosTopic : String
  rosQos : RosQos
  deriving DecidableEq

def RosRegistration.entity (entry : RosRegistration) : Entity :=
  ⟨entry.binding.rosType, entry.binding.rosTopic, entry.binding.rosQos⟩

def reliabilityName : Reliability → String
  | .reliable => "reliable"
  | .bestEffort => "best_effort"

def durabilityName : Durability → String
  | .volatile => "volatile"
  | .transientLocal => "transient_local"

/-- Build entity-sharing keys from semantic QoS. -/
def entityKey (entity : Entity) : JsString :=
  Tree.text (.array [.string (Tree.units entity.rosTopic), .string (Tree.units entity.rosType), .string (Tree.units "keep_last"),
    .number entity.rosQos.depth, .string (Tree.units (reliabilityName entity.rosQos.reliability)),
    .string (Tree.units (durabilityName entity.rosQos.durability))])

inductive AdapterState where
  | new
  | running
  | closed
  deriving DecidableEq

/-- The adapter, for listeners in `ν`. Each subscription that was created holds on to its list
of aliases. -/
structure Adapter (ν : Type) where
  registrations : List RosRegistration
  listeners : String → List ν
  publishers : List JsString
  subscriptions : Table JsString (List String)
  entities : List (Direction × Entity)
  state : AdapterState

/-- The external native addon. -/
structure RosBackend where
  create : Direction → Entity → Except String Unit
  publish : Entity → Value → Except String Unit
  spin : Except String Unit
  close : Except String Unit

namespace Adapter

variable {ν : Type}

/-- Own validated configuration. -/
def create (registry : List RosRegistration) : Except String (Adapter ν) :=
  if (registry.map (·.binding.publicName)).Nodup then .ok ⟨registry, fun _ => [], [], .empty, [], .new⟩
  else .error "duplicate_ros_registration"

/-- The body of the loop in `start`. -/
def startEntry (backend : RosBackend) (a : Adapter ν) (entry : RosRegistration) : Except String (Adapter ν) :=
  let key := entityKey entry.entity
  match entry.binding.direction with
  | .webToRos =>
    if key ∈ a.publishers then .ok a
    else do
      backend.create .webToRos entry.entity
      return { a with publishers := a.publishers ++ [key], entities := a.entities ++ [(.webToRos, entry.entity)] }
  | .rosToWeb =>
    match a.subscriptions.get? key with
    | some aliases => .ok { a with subscriptions := a.subscriptions.set key (aliases ++ [entry.binding.publicName]) }
    | none => do
      backend.create .rosToWeb entry.entity
      return { a with
        subscriptions := a.subscriptions.set key [entry.binding.publicName]
        entities := a.entities ++ [(.rosToWeb, entry.entity)] }

/-- What `close` does to the adapter itself. -/
def closed (a : Adapter ν) : Adapter ν := { a with state := .closed, listeners := fun _ => [], publishers := [] }

/-- Create fixed entities and start spinning. Partial failures clean up and rethrow. -/
def start (backend : RosBackend) (a : Adapter ν) : Except String Unit × Adapter ν :=
  if a.state ≠ .new then (.error "ros_adapter_not_new", a)
  else
    let started : Except String (Adapter ν) := do
      let a ← a.registrations.foldlM (startEntry backend) a
      backend.spin
      return { a with state := .running }
    match started with
    | .ok a => (.ok (), a)
    | .error e =>
      match backend.close with
      | .ok _ => (.error e, a.closed)
      | .error _ => (.error "ros_start_cleanup_failed", a.closed)

/-- Validate direction, existence, and lifetime at the boundary. -/
def registration (a : Adapter ν) (name : String) (direction : Direction) : Except String RosRegistration :=
  if a.state ≠ .running then .error "ros_adapter_not_running"
  else
    match a.registrations.find? (·.binding.publicName = name) with
    | some entry => if entry.binding.direction ≠ direction then .error "ros_binding_denied" else .ok entry
    | none => .error "ros_binding_denied"

variable [DecidableEq ν]

def setListeners (a : Adapter ν) (name : String) (listeners : List ν) : Adapter ν :=
  { a with listeners := Function.update a.listeners name listeners }

end Adapter

/-- A call of a listener: the tree that was made for it, and what was in it. -/
structure Called (ν : Type) where
  publicName : String
  callback : ν
  tree : Nat
  native : Value

/-- What a listener can do. -/
inductive Op (ν : Type) where
  | subscribe (publicName : String) (callback : ν)
  | unsubscribe (publicName : String) (callback : ν)
  | publish (publicName : String) (native : Value)
  | start
  | close
  | write (tree : Nat) (native : Value)

/-- The adapter with the trees that decoding has made, the calls of listeners, what was
published and, the latest first, what was done to it. -/
structure World (ν : Type) where
  adapter : Adapter ν
  trees : List Value
  calls : List (Called ν)
  published : List (Entity × Value)
  performed : List (Op ν)

/-- Code that calls the adapter. -/
abbrev Code (ν : Type) := Thread (Op ν) (fun _ => Unit) String Unit

/-- The listeners, and the error handler. What they do may depend on all that has happened. -/
structure Callbacks (ν : Type) where
  listener : ν → World ν → Nat → Code ν
  onError : String → World ν → Code ν

namespace World

variable {ν : Type} [DecidableEq ν] (backend : RosBackend) (callbacks : Callbacks ν)

/-- Add a logical listener to a ROS-to-Web binding. -/
def subscribe (w : World ν) (publicName : String) (callback : ν) : Except String Unit × World ν :=
  match w.adapter.registration publicName .rosToWeb with
  | .error e => (.error e, w)
  | .ok _ =>
    let listeners := w.adapter.listeners publicName
    (.ok (), { w with
      adapter := w.adapter.setListeners publicName (if callback ∈ listeners then listeners else listeners ++ [callback]) })

/-- What `subscribe` returns; it may be called again and again. -/
def unsubscribe (w : World ν) (publicName : String) (callback : ν) : World ν :=
  { w with adapter := w.adapter.setListeners publicName ((w.adapter.listeners publicName).filter (· ≠ callback)) }

/-- Revalidate native values and publish synchronously. -/
def publish (w : World ν) (publicName : String) (native : Value) : Except String Unit × World ν :=
  match w.adapter.registration publicName .webToRos with
  | .error e => (.error e, w)
  | .ok entry =>
    -- A codec round trip creates an independent native tree.
    match normalized entry.codec native with
    | .error e => (.error e, w)
    | .ok normalized => (backend.publish entry.entity normalized, { w with published := w.published ++ [(entry.entity, normalized)] })

/-- Release process-owned context and listeners. -/
def close (w : World ν) : Except String Unit × World ν :=
  if w.adapter.state = .closed then (.ok (), w) else (backend.close, { w with adapter := w.adapter.closed })

def perform (op : Op ν) (w : World ν) : Except String Unit × World ν :=
  let w : World ν := { w with performed := op :: w.performed }
  match op with
  | .subscribe publicName callback => w.subscribe publicName callback
  | .unsubscribe publicName callback => (.ok (), w.unsubscribe publicName callback)
  | .publish publicName native => w.publish backend publicName native
  | .start => ((w.adapter.start backend).1, { w with adapter := (w.adapter.start backend).2 })
  | .close => w.close backend
  | .write tree native => (.ok (), { w with trees := w.trees.set tree native })

/-- The error handler, which returns. -/
def report (w : World ν) (error : String) : World ν := ((callbacks.onError error w).exec (perform backend) w).2

/-- A call with a tree of its own. What the callback throws is reported. -/
def notify (name : String) (native : Value) (w : World ν) (callback : ν) : World ν :=
  let given : World ν := { w with trees := w.trees ++ [native], calls := w.calls ++ [⟨name, callback, w.trees.length, native⟩] }
  let ran := (callbacks.listener callback given w.trees.length).exec (perform backend) given
  match ran.1 with
  | .ok _ => ran.2
  | .error e => ran.2.report backend callbacks e

/-- The body of the loop over the listeners: each decodes for itself. -/
def visit (name : String) (codec : Codec) (wire : Value) (w : World ν) (callback : ν) : World ν :=
  if callback ∉ w.adapter.listeners name then w
  else
    match codec.decode wire with
    | .ok native => w.notify backend callbacks name native callback
    | .error e => w.report backend callbacks e

/-- Validate external ROS input and copy it for each listener. -/
def receive (native : Value) (w : World ν) (name : String) : World ν :=
  if w.adapter.state ≠ .running then w
  else
    match w.adapter.registrations.find? (·.binding.publicName = name) with
    | none => w.report backend callbacks "Cannot read properties of undefined"
    | some entry =>
      match entry.codec.encode native with
      | .error e => w.report backend callbacks e
      | .ok wire => (w.adapter.listeners name).foldl (visit backend callbacks name entry.codec wire) w

/-- A native sample on the subscription of an entity. -/
def sample (w : World ν) (entity : Entity) (native : Value) : World ν :=
  ((w.adapter.subscriptions.get? (entityKey entity)).getD []).foldl (receive backend callbacks native) w

/-- What happens between tasks. -/
inductive Input (ν : Type) where
  | code (code : Code ν)
  | sample (entity : Entity) (native : Value)

def step (w : World ν) : Input ν → World ν
  | .code code => (code.exec (perform backend) w).2
  | .sample entity native => if (.rosToWeb, entity) ∈ w.adapter.entities then w.sample backend callbacks entity native else w

def run (inputs : List (Input ν)) (w : World ν) : World ν := inputs.foldl (step backend callbacks) w

end World

end RosBridge.Ros
