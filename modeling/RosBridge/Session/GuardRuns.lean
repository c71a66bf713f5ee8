import RosBridge.Session.CommandGuard
/-!
# Runs of one guard

Any number of callers use one guard, and the hook it consults may use it again before
it answers. A `Machine` is a guard with the tickets it has issued and the stack of
calls waiting for the hook; an `Input` is either a new call, made from the top level
or from inside the hook, or the answer of the innermost hook. A run is a list of
inputs, so every reachable state, also in the middle of a hook, is `run` of one.
-/

namespace RosBridge.Session

open Lib CommandGuard

/-- A ticket of `prepare`: the saved request, its sequence, and whether it is used up. -/
structure Ticket where
  saved : CommandRequest
  seq : Nat
  consumed : Bool

/-- A method call. `publish` names the ticket by its place among the issued ones;
`callable` is whether its argument is a function. -/
inductive Call where
  | openSession (epoch : String)
  | openHandle (sessionId topic : String) (leaseMs : Option Num)
  | arm (sessionId handle : String)
  | prepare (request : CommandRequest)
  | publish (ticket : Nat) (callable : Bool)
  | closeHandle (sessionId handle : String)
  | revokeSession (sessionId : String)
  | close

/-- A call that waits for the hook, with the locals it resumes with. -/
inductive Suspended where
  | openHandle (identity : CommandIdentity) (leaseMs : Nat)
  | arm (sessionId handle : String)
  | prepare (saved : CommandRequest) (seq : Nat)
  | publish (ticket : Nat) (saved : CommandRequest) (seq : Nat)

/-- The call that waits in a frame. -/
def Suspended.call : Suspended → Call
  | .openHandle identity leaseMs => .openHandle identity.sessionId identity.topic (some (some leaseMs))
  | .arm sessionId handle => .arm sessionId handle
  | .prepare saved _ => .prepare saved
  | .publish ticket _ _ => .publish ticket true

/-- An answer carries the clock reading its call makes after it. -/
inductive Input where
  | call (c : Call)
  | answer (result : Except String Bool) (clock : Num)

/-- A publish callback that ran, and the clock reading of its ticket's validation. -/
structure Publication where
  request : CommandRequest
  clock : Num

structure Machine where
  guard : CommandGuard
  tickets : List Ticket
  stack : List Suspended
  published : List Publication

namespace Machine

/-- A machine around a guard nobody has used. -/
def start (g : CommandGuard) : Machine := ⟨g, [], [], []⟩

/-- Run a part of a method that ends in a call of the hook, and wait for the answer. -/
def ask {α : Type} (m : Machine) (part : GuardM α) (frame : α → Suspended) : Machine :=
  match part.exec m.guard with
  | (.ok a, g) => { m with guard := g, stack := frame a :: m.stack }
  | (.error _, g) => { m with guard := g }

/-- Make a call: it runs to its end or to the hook. -/
def call (m : Machine) : Call → Machine
  | .openSession epoch => { m with guard := (openSession epoch).after m.guard }
  | .openHandle sessionId topic leaseMs =>
    m.ask (openHandleBegin sessionId topic leaseMs) fun r => .openHandle r.1 r.2
  | .arm sessionId handle => m.ask (armBegin sessionId handle) fun _ => .arm sessionId handle
  | .prepare request => m.ask (prepareBegin request) fun r => .prepare request r.2
  | .publish i callable =>
    match m.tickets[i]? with
    | none => m
    | some ticket =>
      -- A used ticket throws before it asks anybody; an unused one is used up first.
      if ticket.consumed then m
      else
        let m := { m with tickets := m.tickets.set i { ticket with consumed := true } }
        if callable then m.ask (validateBegin ticket.saved) fun _ => .publish i ticket.saved ticket.seq else m
  | .closeHandle sessionId handle => { m with guard := (closeHandle sessionId handle).after m.guard }
  | .revokeSession sessionId => { m with guard := (revokeSession sessionId).after m.guard }
  | .close => { m with guard := close.after m.guard }

/-- Resume a call with the hook's answer. -/
def resume (m : Machine) (result : Except String Bool) (clock : Num) : Suspended → Machine
  | .openHandle identity leaseMs =>
    { m with guard := Prog.after (do authorized result; openHandleRest identity leaseMs) m.guard }
  | .arm sessionId handle =>
    { m with guard := Prog.after (do authorized result; armRest sessionId handle clock) m.guard }
  | .prepare saved seq =>
    match Prog.exec (do authorized result; prepareRest saved seq clock) m.guard with
    | (.ok _, g) => { m with guard := g, tickets := m.tickets ++ [⟨saved, seq, false⟩] }
    | (.error _, g) => { m with guard := g }
  | .publish _ saved seq =>
    match Prog.exec (do authorized result; publishRest saved seq clock) m.guard with
    | (.ok _, g) => { m with guard := g, published := m.published ++ [⟨saved, clock⟩] }
    | (.error _, g) => { m with guard := g }

/-- One input. An answer nobody waits for is not possible and changes nothing. -/
def step (m : Machine) : Input → Machine
  | .call c => m.call c
  | .answer result clock =>
    match m.stack with
    | [] => m
    | frame :: stack => { m with stack := stack }.resume result clock frame

/-- A run. -/
def run (m : Machine) (inputs : List Input) : Machine := inputs.foldl step m

/-- The call whose code an input executes. -/
def acting (m : Machine) : Input → Option Call
  | .call c => some c
  | .answer _ _ => m.stack.head?.map Suspended.call

end Machine

end RosBridge.Session
