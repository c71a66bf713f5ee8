import RosBridge.Config.Binding
/-!
# The signaling handler

`signaling/handler.ts` and the routing of `signaling/docs.ts`. Requests are handled side
by side: each waits for the events of its own body, for its turn after that, and for what
`accept` returns, and all share the count of pending ones. How the host hashes a text and
what it parses bytes as is an argument. A document that is served is named by its path.

The `trace` records what was done for which request. Nothing reads it.
-/

namespace RosBridge.Signaling

open Lib Session Config

/-- What the handler uses of its host. -/
structure Host where
  /-- `createHash('sha256').update(value).digest()`. -/
  digest : String → List UInt8
  /-- `JSON.parse(bytes.toString('utf8'))`, unless it throws. -/
  parse : List UInt8 → Option Json

/-- The settings; `accept` is outside. -/
structure SignalingOptions where
  credential : String
  maxBodyBytes : Nat
  requestTimeoutMs : Nat
  maxPending : Nat

/-- What is read of a request before its body. -/
structure IncomingMessage where
  method : Option String
  url : Option String
  authorization : Option String
  contentType : Option String
  deriving DecidableEq

inductive Body where
  | json (value : Json)
  | resource (path : String)

structure Response where
  status : Nat
  headers : List (String × String)
  body : Body

/-- Compare Bearer credentials using fixed-length digests. -/
def authenticate (host : Host) (expected : String) : Option String → Bool
  | none => false
  | some supplied => host.digest ("Bearer " ++ expected) = host.digest supplied

/-- The documents that are served, with their content types. -/
def resources : List (String × String) := [
  ("/openapi.json", "application/json"),
  ("/openapi.yaml", "application/yaml"),
  ("/docs/swagger-ui.css", "text/css"),
  ("/docs/swagger-ui-bundle.js", "application/javascript"),
  ("/docs/init.js", "application/javascript"),
  ("/docs", "text/html"),
  ("/docs/", "text/html")]

/-- Serve public HTTP documentation only. -/
def serveSignalingDocs (request : IncomingMessage) : Option Response :=
  if request.method ≠ some "GET" then none
  else (resources.find? (·.1 = request.url.getD "")).map fun resource =>
    ⟨200, [("Content-Type", resource.2), ("Cache-Control", "no-store"), ("X-Content-Type-Options", "nosniff")], .resource resource.1⟩

/-- Return status and a JSON response. -/
def reply (status : Nat) (body : Json) : Response :=
  ⟨status, [("Content-Type", "application/json"), ("Cache-Control", "no-store"), ("Connection", "close")], .json body⟩

/-- A response with a fixed classification. -/
def errorReply (status : Nat) (error : String) : Response := reply status (.object [("error", .string error)])

/-- What is answered before a body is read; `none` for a request that is taken. -/
def refusal (host : Host) (settings : SignalingOptions) (pending : Nat) (request : IncomingMessage) : Option Response :=
  match serveSignalingDocs request with
  | some response => some response
  | none =>
    if request.method = some "GET" ∧ request.url = some "/health" then some (reply 200 (.object [("status", .string "ready")]))
    else if request.method ≠ some "POST" ∨ request.url ≠ some "/offer" then some (errorReply 404 "not_found")
    -- Nothing is accumulated before authentication.
    else if !authenticate host settings.credential request.authorization then some (errorReply 401 "unauthorized")
    else if request.contentType ≠ some "application/json" then some (errorReply 415 "content_type")
    else if pending ≥ settings.maxPending then some (errorReply 503 "busy")
    else none

/-- What is accepted of a parsed body: an offer and nothing else. -/
def offerOf : Json → Except String String
  | .object value =>
    if value.any fun f => f.1 ≠ "type" ∧ f.1 ≠ "sdp" then .error "bad_request"
    else
      match Map.field value "type", Map.field value "sdp" with
      | some (.string type), some (.string sdp) => if type = "offer" then .ok sdp else .error "bad_request"
      | _, _ => .error "bad_request"
  | _ => .error "bad_request"

/-- Expose only fixed error classifications. -/
def classify (reason : String) : Response :=
  if reason = "body_too_large" then errorReply 413 reason
  else if reason = "request_timeout" then errorReply 408 reason
  else errorReply 400 "offer_rejected"

/-! ## One request -/

/-- How far a request is. -/
inductive Phase where
  /-- The listeners of the body are there. -/
  | reading (size : Nat) (chunks : List (List UInt8))
  /-- `readBody` has settled, and the handler is to go on. -/
  | read (outcome : Except String Json)
  /-- `accept` was called. -/
  | accepting
  /-- The handler has returned. -/
  | finished

/-- An event of a body. -/
inductive BodyEvent where
  | data (chunk : List UInt8)
  | ended
  | failed
  | aborted
  | timeout

/-- What happens to a request that was taken. -/
inductive Incoming where
  | body (event : BodyEvent)
  /-- The handler goes on after `readBody`. -/
  | resumed
  /-- The handler goes on after `accept`, with an answer or with the message of an error. -/
  | accepted (outcome : Except String Json)

/-- What the handler does. -/
inductive Action where
  | accept (sdp : String)
  | reply (response : Response)

/-- An event of the body while it is read. -/
def readBody (host : Host) (settings : SignalingOptions) (size : Nat) (chunks : List (List UInt8)) : BodyEvent → Phase
  | .data chunk =>
    if size + chunk.length > settings.maxBodyBytes then .read (.error "body_too_large")
    else .reading (size + chunk.length) (chunks ++ [chunk])
  | .ended =>
    match host.parse chunks.flatten with
    | some value => .read (.ok value)
    | none => .read (.error "bad_request")
  -- Socket errors are anonymized.
  | .failed => .read (.error "bad_request")
  | .aborted => .read (.error "bad_request")
  | .timeout => .read (.error "request_timeout")

/-- What one event does to a request that was taken. -/
def Phase.step (host : Host) (settings : SignalingOptions) : Phase → Incoming → Phase × Option Action
  | .reading size chunks, .body event => (readBody host settings size chunks event, none)
  | .read outcome, .resumed =>
    match outcome >>= offerOf with
    | .ok sdp => (.accepting, some (.accept sdp))
    | .error reason => (.finished, some (.reply (classify reason)))
  | .accepting, .accepted (.ok answer) => (.finished, some (.reply (Signaling.reply 200 answer)))
  | .accepting, .accepted (.error reason) => (.finished, some (.reply (classify reason)))
  -- The listeners are gone, or what happens is not awaited.
  | phase, _ => (phase, none)

/-- Whether a request counts as pending. -/
def Phase.open : Phase → Bool
  | .finished => false
  | _ => true

/-- The bytes of a body that are held. -/
def Phase.held : Phase → Nat
  | .reading _ chunks => chunks.flatten.length
  | _ => 0

/-! ## The handler -/

/-- Something done for a request. -/
structure Mark where
  request : Nat
  action : Action

/-- The handler's state, with the requests in the order of their arrival. -/
structure Handler where
  settings : SignalingOptions
  pending : Nat
  requests : List Phase
  trace : List Mark

/-- `Number.isSafeInteger(value) && value > 0` for each limit, and a credential of at least 32
code units. -/
def createSignalingHandler (credential : String) (maxBodyBytes requestTimeoutMs maxPending : Session.Num) : Except String Handler :=
  if utf16Length credential < 32 then .error "invalid_credential"
  else
    match positiveLimit maxBodyBytes, positiveLimit requestTimeoutMs, positiveLimit maxPending with
    | some bodyBytes, some timeoutMs, some most => .ok ⟨⟨credential, bodyBytes, timeoutMs, most⟩, 0, [], []⟩
    | _, _, _ => .error "invalid_limit"

inductive Event where
  | request (message : IncomingMessage)
  | incoming (request : Nat) (what : Incoming)

/-- A request arrives. -/
def Handler.handle (host : Host) (h : Handler) (message : IncomingMessage) : Handler :=
  match refusal host h.settings h.pending message with
  | some response =>
    { h with requests := h.requests ++ [.finished], trace := h.trace ++ [⟨h.requests.length, .reply response⟩] }
  | none => { h with pending := h.pending + 1, requests := h.requests ++ [.reading 0 []] }

/-- Something happens to a request. -/
def Handler.advance (host : Host) (h : Handler) (i : Nat) (phase : Phase) (what : Incoming) : Handler :=
  let (next, action) := phase.step host h.settings what
  { h with
    -- `finally`: the handler returns.
    pending := if phase.open ∧ !next.open then h.pending - 1 else h.pending
    requests := h.requests.set i next
    trace := h.trace ++ (action.map (⟨i, ·⟩)).toList }

def Handler.step (host : Host) (h : Handler) : Event → Handler
  | .request message => h.handle host message
  | .incoming i what =>
    match h.requests[i]? with
    | some phase => h.advance host i phase what
    | none => h

def Handler.run (host : Host) (h : Handler) (events : List Event) : Handler := events.foldl (Handler.step host) h

end RosBridge.Signaling
