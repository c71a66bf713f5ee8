import RosBridge.Lib.Program
import RosBridge.Lib.Table
import RosBridge.Session.Validation
/-!
# CommandGuard

`session/command-guard.ts`. A method that consults the authorization hook is cut at
that call: the part before it (`armBegin`) yields the identity the hook is asked
about, the part after it (`armRest`) runs once the hook has answered. Nothing else of
the guard can run inside a part, and anything can run between the two, because the
hook may call the guard again. The clock is read at most once by each part and has no
side effect, so its reading is an argument.
-/

namespace RosBridge.Session

open Lib

structure CommandIdentity where
  sessionId : String
  epoch : String
  handle : String
  topic : String
  deriving DecidableEq

structure CommandRequest where
  sessionId : String
  epoch : String
  handle : String
  leaseId : String
  seq : String
  deriving DecidableEq

structure Lease where
  id : String
  expiresAt : ℚ
  deriving DecidableEq

structure HandleState where
  identity : CommandIdentity
  leaseMs : Nat
  lease : Option Lease
  received : Int
  published : Int
  deriving DecidableEq

/-- The limits a guard was built with, as its constructor checked them. -/
structure GuardOptions where
  maxSessions : Nat
  maxHandles : Nat
  leaseMs : Nat
  pos : 0 < maxSessions ∧ 0 < maxHandles ∧ 0 < leaseMs

/-- The fields of a guard. `prefixId` is its `randomUUID`. -/
structure CommandGuard where
  options : GuardOptions
  prefixId : String
  nextId : Nat
  lastTime : ℚ
  sessions : Table String String
  handles : Table String HandleState
  closed : Bool

namespace CommandGuard

/-- A method of the guard, between two calls of the hook. -/
abbrev GuardM := Prog CommandGuard String

/-- Reject operations after closure. -/
def assertOpen : GuardM Unit := do
  if (← get).closed then throw "guard_closed"

/-- The identifier with number `n`. -/
def idText (prefixId : String) (n : Nat) : String := prefixId ++ ":" ++ toString n

/-- Issue a nonreused identifier; `id()` in the source. -/
def issueId : GuardM String := do
  modify fun g => { g with nextId := g.nextId + 1 }
  let g ← get
  return idText g.prefixId g.nextId

/-- Validate the monotonic clock. -/
def now (clock : Num) : GuardM ℚ := do
  match clock with
  | none => throw "invalid_clock"
  | some value =>
    let g ← get
    if value > maxSafeInteger ∨ value < g.lastTime then throw "invalid_clock"
    set { g with lastTime := value }
    return value

/-- The constructor; `clock` is the reading of its first `now()`. -/
def create (prefixId : String) (maxSessions maxHandles leaseMs clock : Num) : Except String CommandGuard :=
  match positiveLimit maxSessions, positiveLimit maxHandles, positiveLimit leaseMs with
  | some s, some h, some l =>
    if pos : 0 < s ∧ 0 < h ∧ 0 < l then
      match (now clock).exec ⟨⟨s, h, l, pos⟩, prefixId, 0, 0, .empty, .empty, false⟩ with
      | (.ok _, g) => .ok g
      | (.error e, _) => .error e
    else .error "invalid_limit"
  | _, _, _ => .error "invalid_limit"

/-- What the hook's answer means: anything but `true` denies. -/
def authorized (answer : Except String Bool) : GuardM Unit :=
  match answer with
  | .ok true => pure ()
  | .ok false => throw "unauthorized"
  | .error e => throw e

/-- Validate ownership. -/
def owned (sessionId handle : String) : GuardM HandleState := do
  assertOpen
  match (← get).handles.get? handle with
  | none => throw "invalid_owner"
  | some state => if state.identity.sessionId ≠ sessionId then throw "invalid_owner" else return state

/-- Register a new connection. -/
def openSession (epoch : String) : GuardM String := do
  assertOpen
  if !identifier epoch then throw "invalid_identifier"
  let g ← get
  if g.sessions.size ≥ g.options.maxSessions then throw "session_limit"
  let id ← issueId
  modify fun g => { g with sessions := g.sessions.set id epoch }
  return id

/-- `/^\/(?:[A-Za-z_][A-Za-z0-9_]*\/)*[A-Za-z_][A-Za-z0-9_]*$/`. -/
def topicPattern : Regex :=
  .seq (.lit '/') (.seq (.star (.seq nameSegment (.lit '/'))) nameSegment)

/-- Register a resolved output topic: up to the authorization of `open`. -/
def openHandleBegin (sessionId topic : String) (leaseMs : Option Num) : GuardM (CommandIdentity × Nat) := do
  assertOpen
  let g ← get
  match positiveLimit (leaseMs.getD (some g.options.leaseMs)) with
  | none => throw "invalid_limit"
  | some leaseMs =>
    match g.sessions.get? sessionId with
    | none => throw "unknown_session"
    | some epoch =>
      if !topicPattern.accepts topic ∨ topic.length > 247 then throw "invalid_topic"
      let handle ← issueId
      return (⟨sessionId, epoch, handle, topic⟩, leaseMs)

/-- The rest of `openHandle`: no resource is held until here. -/
def openHandleRest (identity : CommandIdentity) (leaseMs : Nat) : GuardM String := do
  let g ← get
  if !g.sessions.has identity.sessionId then throw "unknown_session"
  if g.handles.size ≥ g.options.maxHandles then throw "handle_limit"
  set { g with handles := g.handles.set identity.handle ⟨identity, leaseMs, none, -1, -1⟩ }
  return identity.handle

/-- Issue an exclusive-writer lease: up to the authorization of `arm`. -/
def armBegin (sessionId handle : String) : GuardM CommandIdentity := do
  return (← owned sessionId handle).identity

/-- An unexpired lease on `topic` held by another session. -/
def busy (topic sessionId : String) (now : ℚ) (candidate : HandleState) : Bool :=
  candidate.identity.topic = topic ∧ candidate.identity.sessionId ≠ sessionId ∧
    ∃ lease ∈ candidate.lease, now < lease.expiresAt

/-- Invalidate every lease on `topic`. -/
def clearLeases (topic : String) (handles : Table String HandleState) : Table String HandleState :=
  handles.mapValues fun _ candidate =>
    if candidate.identity.topic = topic then { candidate with lease := none } else candidate

/-- The rest of `arm`. -/
def armRest (sessionId handle : String) (clock : Num) : GuardM Lease := do
  let state ← owned sessionId handle
  let now ← now clock
  if (← get).handles.values.any (busy state.identity.topic sessionId now) then throw "writer_busy"
  let expiresAt := now + state.leaseMs
  if expiresAt > maxSafeInteger then throw "invalid_clock"
  modify fun g => { g with handles := clearLeases state.identity.topic g.handles }
  let id ← issueId
  modify fun g => { g with handles := g.handles.modify handle fun s => { s with lease := some ⟨id, expiresAt⟩ } }
  return ⟨id, expiresAt⟩

/-- Recheck ownership and expiry: up to the authorization of `receive` or `publish`. -/
def validateBegin (request : CommandRequest) : GuardM CommandIdentity := do
  return (← owned request.sessionId request.handle).identity

/-- The rest of `validate`. -/
def validateRest (request : CommandRequest) (clock : Num) : GuardM HandleState := do
  let state ← owned request.sessionId request.handle
  if request.epoch ≠ state.identity.epoch then throw "invalid_epoch"
  match state.lease with
  | none => throw "invalid_lease"
  | some lease =>
    if request.leaseId ≠ lease.id then throw "invalid_lease"
    if (← now clock) ≥ lease.expiresAt then throw "lease_expired"
    return state

/-- Validate at receipt: up to the authorization of `receive`. -/
def prepareBegin (request : CommandRequest) : GuardM (CommandIdentity × Nat) := do
  match sequence request.seq with
  | none => throw "invalid_sequence"
  | some seq => return (← validateBegin request, seq)

/-- The rest of `prepare`: consume the received sequence. -/
def prepareRest (saved : CommandRequest) (seq : Nat) (clock : Num) : GuardM Unit := do
  let state ← validateRest saved clock
  if (seq : Int) ≤ state.received then throw "stale_sequence"
  modify fun g => { g with handles := g.handles.modify saved.handle fun s => { s with received := seq } }

/-- The rest of a ticket's `publish`, up to the call of the callback. -/
def publishRest (saved : CommandRequest) (seq : Nat) (clock : Num) : GuardM Unit := do
  let current ← validateRest saved clock
  if (seq : Int) ≤ current.published then throw "stale_sequence"
  modify fun g => { g with handles := g.handles.modify saved.handle fun s => { s with published := seq } }

/-- Discard a handle and lease. -/
def closeHandle (sessionId handle : String) : GuardM Unit := do
  let _ ← owned sessionId handle
  modify fun g => { g with handles := g.handles.erase handle }

/-- Discard all handles of a revoked session. -/
def revokeSession (sessionId : String) : GuardM Unit := do
  modify fun g => { g with
    sessions := g.sessions.erase sessionId
    handles := g.handles.filter fun _ state => state.identity.sessionId ≠ sessionId }

/-- Discard all resources and forbid reuse. -/
def close : GuardM Unit := do
  modify fun g => { g with closed := true, sessions := .empty, handles := .empty }

/-- The lease a handle holds. -/
def leaseOf (g : CommandGuard) (handle : String) : Option Lease := (g.handles.get? handle).bind (·.lease)

end CommandGuard

end RosBridge.Session
