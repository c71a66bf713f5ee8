import RosBridge.Lib.Json
import RosBridge.Lib.Runs
import RosBridge.Media.Frames
import RosBridge.Media.Lines
/-!
# A supervised worker

`begin` of `createWorkerFactory` in `media/worker.ts`: the control output is read by
lines and the media output by frames, and both, with the exit of the process, end in
`fail`. What the two readers and the exit report does not depend on what is made of it
(`run_signals`), and from that follows how often `onFailed` is called: `reported_iff`.
The packets are handed to a callback that returns, as that of a video source does.
-/

namespace RosBridge.Media.Supervised

open Lib Prog

/-- The events that acknowledge a request. -/
inductive Answer where
  | started
  | probeResult
  deriving DecidableEq

/-- What the callbacks of a worker report. -/
inductive Signal where
  | failed (error : String)
  | answered (answer : Answer) (event : Json)

/-- `event[key]` of a parsed value. -/
def property (key : String) : Json → Except String (Option Json)
  | .null => .error ("Cannot read properties of null (reading '" ++ key ++ "')")
  | .object fields => .ok (fields.lookup key)
  | _ => .ok none

def contractVersion : ℚ := 1

def isNumber (n : ℚ) : Option Json → Bool
  | some (.number (some m)) => m = n
  | _ => false

def isString (text : String) : Option Json → Bool
  | some (.string s) => s = text
  | _ => false

def isTrue : Option Json → Bool
  | some (.bool b) => b
  | _ => false

/-- `typeof cause === 'string' ? cause : …`. -/
def causeOf : Option Json → String
  | some (.string cause) => cause
  | _ => "worker reported a failure"

section Worker

-- `parse` is `JSON.parse` of the text of a line, `none` where it throws.
variable (parse : List UInt8 → Option Json)

/-- What a line says; an error is an exception that the reader of the line throws. -/
def lineSignal (line : List UInt8) : Except String (Option Signal) :=
  match parse line with
  | none => .ok (some (.failed "worker sent malformed control output"))
  | some event => do
    let v ← property "v" event
    let op ← property "op" event
    let ok ← property "ok" event
    let cause ← property "cause" event
    if isNumber contractVersion v = false then return some (.failed "worker speaks an unsupported contract version")
    if isString "failed" op ∨ isString "probe_result" op ∧ isTrue ok = false then return some (.failed (causeOf cause))
    if isString "probe_result" op then return some (.answered .probeResult event)
    if isString "started" op then return some (.answered .started event)
    return none

/-- What is done on a signal and on `stop`. -/
structure Handlers (σ : Type) where
  signal : Signal → Prog σ String Unit
  stop : Prog σ String Unit

/-- The two readers of a worker, and the state of what they report to. -/
structure Worker (σ : Type) where
  control : LineReader σ
  media : Deframer

inductive Event where
  | output (chunk : List UInt8)
  | rtp (chunk : List UInt8)
  | exit
  | stop

variable {σ : Type} (h : Handlers σ)

def onLine (line : List UInt8) : Prog σ String Unit := do
  match ← Prog.ofExcept (lineSignal parse line) with
  | some signal => h.signal signal
  | none => pure ()

/-- A program of the handlers. -/
def inside (m : Prog σ String Unit) : Prog (Worker σ) String Unit :=
  zoom (·.control.inner) (fun w inner => { w with control.inner := inner }) m

/-- The callbacks that `begin` gives the process, and `stop`. -/
def handle : Event → Prog (Worker σ) String Unit
  | .output chunk =>
    tryCatch (zoom Worker.control (fun w control => { w with control }) (lines (onLine parse h) chunk)) fun error =>
      inside (h.signal (.failed error))
  | .rtp chunk =>
    tryCatch (zoom Worker.media (fun w media => { w with media }) (feed chunk)) fun error => inside (h.signal (.failed error))
  | .exit => inside (h.signal (.failed "worker exited before it was asked to stop"))
  | .stop => inside h.stop

def step (w : Worker σ) (event : Event) : Worker σ := (handle parse h event).after w

end Worker

/-! ## The supervision -/

/-- The variables of the closures of one source, from `begin` for a `start` on. -/
structure Supervision where
  child : Bool
  stopping : Bool
  settled : Bool
  /-- How the promise of `start` is settled. -/
  outcome : Option (Except String Json)
  onFailedCalls : Nat

/-- `begin`, whatever the source has done before. -/
def Supervision.begin : Supervision := ⟨true, false, false, none, 0⟩

def fail (error : String) : Prog Supervision String Unit := do
  let s ← get
  if s.stopping then pure ()
  else if s.settled then set { s with onFailedCalls := s.onFailedCalls + 1 }
  else set { s with settled := true, outcome := some (.error error) }

def acknowledge (event : Json) : Prog Supervision String Unit := do
  let s ← get
  if s.settled then pure () else set { s with settled := true, outcome := some (.ok event) }

/-- The part of `stop` before it waits for the process. -/
def stop : Prog Supervision String Unit := do
  let s ← get
  if s.child then set { s with child := false, stopping := true } else pure ()

def supervise : Handlers Supervision where
  signal := fun
    | .failed error => fail error
    | .answered _ event => acknowledge event
  stop := stop

/-- A source after its `start` and these events. -/
def run (parse : List UInt8 → Option Json) (events : List Event) : Worker Supervision :=
  events.foldl (step parse supervise) ⟨⟨[], .begin⟩, .start⟩

/-! ## What is reported -/

/-- Handlers that only keep the signals. -/
def record : Handlers (List Signal) where
  signal := fun signal => modify (· ++ [signal])
  stop := pure ()

def Event.isStop : Event → Bool
  | .stop => true
  | _ => false

/-- What the readers and the exit report until `stop` is called. -/
def signals (parse : List UInt8 → Option Json) (events : List Event) : List Signal :=
  ((events.takeWhile (fun event => !event.isStop)).foldl (step parse record) ⟨⟨[], []⟩, .start⟩).control.inner

section Alike

variable {parse : List UInt8 → Option Json} {σ τ : Type} {h : Handlers σ} {h' : Handlers τ} {R : σ → τ → Prop}

/-- Two workers that have read the same, and report to states that `R` relates. -/
structure Beside (R : σ → τ → Prop) (w : Worker σ) (w' : Worker τ) : Prop where
  pending : w.control.pending = w'.control.pending
  media : w.media = w'.media
  inner : R w.control.inner w'.control.inner

/-- Two readers of lines beside each other. -/
structure BesideLines (R : σ → τ → Prop) (r : LineReader σ) (r' : LineReader τ) : Prop where
  pending : r.pending = r'.pending
  inner : R r.inner r'.inner

variable (report : ∀ signal s t, R s t → Matches R (h.signal signal) (h'.signal signal) s t)

include report

theorem onLine_matches (line : List UInt8) {s : σ} {t : τ} (here : R s t) :
    Matches R (onLine parse h line) (onLine parse h' line) s t := by
  unfold onLine
  cases lineSignal parse line with
  | error e => exact Matches.throw e here
  | ok signal =>
    cases signal with
    | none => exact Matches.pure () here
    | some signal => exact report signal s t here

theorem lineLoop_matches (fuel : Nat) {r : LineReader σ} {r' : LineReader τ} (here : BesideLines R r r') :
    Matches (BesideLines R) (lineLoop (onLine parse h) fuel) (lineLoop (onLine parse h') fuel) r r' := by
  induction fuel generalizing r r' with
  | zero => exact Matches.pure () here
  | succ fuel ih =>
    unfold lineLoop
    apply Matches.get
    rw [here.pending]
    split
    · next line rest cut =>
      apply Matches.bind (R := BesideLines R)
      · apply Matches.update
        exact ⟨rfl, here.inner⟩
      · intro _ r r' here
        apply Matches.bind
        · apply Matches.when _ here
          exact Matches.zoom (onLine_matches report line here.inner) fun u v related => ⟨here.pending, related⟩
        · exact fun _ _ _ here => ih here
    · exact Matches.pure () here

theorem lines_matches (chunk : List UInt8) {r : LineReader σ} {r' : LineReader τ} (here : BesideLines R r r') :
    Matches (BesideLines R) (lines (onLine parse h) chunk) (lines (onLine parse h') chunk) r r' := by
  unfold lines
  apply Matches.bind (R := BesideLines R)
  · apply Matches.update
    exact ⟨congrArg (· ++ chunk) here.pending, here.inner⟩
  · intro _ r r' here
    apply Matches.get
    rw [here.pending]
    apply Matches.bind (lineLoop_matches report _ here)
    intro _ r r' here
    apply Matches.get
    rw [here.pending]
    unfold throwIf
    split
    · exact Matches.throw _ here
    · exact Matches.pure () here

theorem inside_matches (signal : Signal) {w : Worker σ} {w' : Worker τ} (here : Beside R w w') :
    Matches (Beside R) (inside (h.signal signal)) (inside (h'.signal signal)) w w' :=
  Matches.zoom (report signal _ _ here.inner) fun _ _ related => ⟨here.pending, here.media, related⟩

/-- On the same event two workers read the same and report the same. -/
theorem step_beside {event : Event} (going : event.isStop = false) {w : Worker σ} {w' : Worker τ} (here : Beside R w w') :
    Beside R (step parse h w event) (step parse h' w' event) := by
  have matched : Matches (Beside R) (handle parse h event) (handle parse h' event) w w' := by
    cases event with
    | output chunk =>
      apply Matches.tryCatch
      · exact Matches.zoom (lines_matches report chunk ⟨here.pending, here.inner⟩) fun u v related =>
          ⟨related.pending, here.media, related.inner⟩
      · exact fun error _ _ here => inside_matches report _ here
    | rtp chunk =>
      apply Matches.tryCatch
      · apply Matches.zoom (S := Eq)
        · rw [here.media]
          exact Matches.refl _ _
        · exact fun u v same => ⟨here.pending, same, here.inner⟩
      · exact fun error _ _ here => inside_matches report _ here
    | exit => exact inside_matches report _ here
    | stop => cases going
  exact matched.2

theorem steps_beside {events : List Event} (going : ∀ event ∈ events, event.isStop = false) {w : Worker σ} {w' : Worker τ}
    (here : Beside R w w') : Beside R (events.foldl (step parse h) w) (events.foldl (step parse h') w') := by
  induction events generalizing w w' with
  | nil => exact here
  | cons event events ih =>
    rw [List.forall_mem_cons] at going
    exact ih going.2 (step_beside report going.1 here)

end Alike

/-! ## What the supervision makes of it -/

def Signal.isFailed : Signal → Bool
  | .failed _ => true
  | .answered .. => false

def failures (sigs : List Signal) : Nat := sigs.countP Signal.isFailed

/-- One signal, of which the handlers never throw. -/
def settle (s : Supervision) (signal : Signal) : Supervision := (supervise.signal signal).after s

theorem exec_signal (signal : Signal) (s : Supervision) : (supervise.signal signal).exec s = (.ok (), settle s signal) := by
  apply exec_of_fst
  obtain ⟨child, stopping, settled, outcome, calls⟩ := s
  cases signal <;> cases stopping <;> cases settled <;> rfl

theorem settle_child (s : Supervision) (signal : Signal) :
    (settle s signal).child = s.child ∧ (settle s signal).stopping = s.stopping := by
  obtain ⟨child, stopping, settled, outcome, calls⟩ := s
  cases signal <;> cases stopping <;> cases settled <;> exact ⟨rfl, rfl⟩

theorem settle_calls {s : Supervision} (stopping : s.stopping = true) (signal : Signal) :
    (settle s signal).onFailedCalls = s.onFailedCalls := by
  obtain ⟨child, stopping, settled, outcome, calls⟩ := s
  cases stopping
  cases signal <;> cases settled <;> rfl

theorem settle_outcome {s : Supervision} (settled : s.settled = true) (signal : Signal) :
    (settle s signal).settled = true ∧ (settle s signal).outcome = s.outcome := by
  obtain ⟨child, stopping, settled, outcome, calls⟩ := s
  cases settled
  cases signal <;> cases stopping <;> exact ⟨rfl, rfl⟩

/-- Once settled, every failure is one more call. -/
theorem foldl_settled {s : Supervision} (settled : s.settled = true) (going : s.stopping = false) (sigs : List Signal) :
    sigs.foldl settle s = { s with onFailedCalls := s.onFailedCalls + failures sigs } := by
  induction sigs generalizing s with
  | nil => rfl
  | cons signal sigs ih =>
    have next : settle s signal = { s with onFailedCalls := s.onFailedCalls + failures [signal] } := by
      obtain ⟨child, stopping, settled', outcome, calls⟩ := s
      cases settled
      cases going
      cases signal <;> rfl
    have total : failures (signal :: sigs) = failures [signal] + failures sigs := by
      rw [failures, failures, failures, ← List.countP_append, List.singleton_append]
    have later := ih (s := { s with onFailedCalls := s.onFailedCalls + failures [signal] }) settled going
    rw [List.foldl_cons, next, later, total, Nat.add_assoc]

/-- How a signal settles a promise. -/
def Signal.settles : Signal → Except String Json
  | .failed error => .error error
  | .answered _ event => .ok event

/-- The first signal settles the promise. -/
theorem foldl_begin (signal : Signal) (sigs : List Signal) :
    ((signal :: sigs).foldl settle .begin).onFailedCalls = failures sigs ∧
      ((signal :: sigs).foldl settle .begin).settled = true ∧
      ((signal :: sigs).foldl settle .begin).outcome = some signal.settles := by
  have first : (settle .begin signal).settled = true ∧ (settle .begin signal).stopping = false ∧
      (settle .begin signal).onFailedCalls = 0 ∧ (settle .begin signal).outcome = some signal.settles := by
    cases signal <;> exact ⟨rfl, rfl, rfl, rfl⟩
  obtain ⟨settled, going, zero, outcome⟩ := first
  rw [List.foldl_cons, foldl_settled settled going, zero, Nat.zero_add]
  exact ⟨rfl, settled, outcome⟩

/-! ## Runs -/

section Runs

variable (parse : List UInt8 → Option Json)

theorem isStop_of_takeWhile {events : List Event} :
    ∀ event ∈ events.takeWhile (fun event => !event.isStop), event.isStop = false := by
  intro event mem
  simpa using List.all_eq_true.1 List.all_takeWhile event mem

/-- Until `stop` a source has made of its events what the supervision makes of their signals. -/
theorem run_signals (events : List Event) :
    (run parse (events.takeWhile fun event => !event.isStop)).control.inner = (signals parse events).foldl settle .begin := by
  have report : ∀ signal (s : Supervision) (t : List Signal), s = t.foldl settle .begin →
      Matches (fun s (t : List Signal) => s = t.foldl settle .begin) (supervise.signal signal) (record.signal signal) s t := by
    intro signal s t here
    unfold Matches
    rw [exec_signal]
    refine ⟨rfl, ?_⟩
    show _ = (t ++ [signal]).foldl settle .begin
    rw [List.foldl_append, ← here]
    rfl
  exact (steps_beside report isStop_of_takeWhile ⟨rfl, rfl, rfl⟩).inner

/-- What every signal and `stop` keep, every event keeps. -/
theorem step_keeps {I : Supervision → Prop} (signals : ∀ s signal, I s → I (settle s signal)) (stops : ∀ s, I s → I (stop.after s))
    (w : Worker Supervision) (event : Event) (here : I w.control.inner) : I (step parse supervise w event).control.inner := by
  by_cases going : event.isStop = false
  · have report : ∀ signal (s : Supervision) (t : List Signal), I s →
        Matches (fun s (_ : List Signal) => I s) (supervise.signal signal) (record.signal signal) s t := by
      intro signal s t here
      unfold Matches
      rw [exec_signal]
      exact ⟨rfl, signals s signal here⟩
    let w' : Worker (List Signal) := ⟨⟨w.control.pending, []⟩, w.media⟩
    have beside : Beside (fun s (_ : List Signal) => I s) w w' := ⟨rfl, rfl, here⟩
    have next : Beside (fun s (_ : List Signal) => I s) (step parse supervise w event) (step parse record w' event) :=
      step_beside report going beside
    exact next.inner
  · cases event with
    | stop =>
      have same : (step parse supervise w .stop).control.inner = stop.after w.control.inner := by
        obtain ⟨⟨pending, ⟨child, stopping, settled, outcome, calls⟩⟩, media⟩ := w
        cases child <;> rfl
      rw [same]
      exact stops _ here
    | output | rtp | exit => exact absurd rfl going

theorem run_keeps {I : Supervision → Prop} (signals : ∀ s signal, I s → I (settle s signal)) (stops : ∀ s, I s → I (stop.after s))
    {w : Worker Supervision} (here : I w.control.inner) (events : List Event) :
    I (events.foldl (step parse supervise) w).control.inner :=
  foldl_inv (I := fun w : Worker Supervision => I w.control.inner) (step_keeps parse signals stops) here events

/-- After `stop` nothing calls `onFailed`. -/
theorem calls_after_stop (pre post : List Event) :
    (run parse (pre ++ .stop :: post)).control.inner.onFailedCalls = (run parse pre).control.inner.onFailedCalls := by
  set w := run parse pre with hw
  have live : w.control.inner.child = true ∨ w.control.inner.stopping = true := by
    refine run_keeps parse (I := fun s => s.child = true ∨ s.stopping = true) ?_ ?_ (.inl rfl) pre
    · intro s signal here
      rwa [(settle_child s signal).1, (settle_child s signal).2]
    · rintro ⟨child, stopping, settled, outcome, calls⟩ here
      cases child
      · exact here
      · exact .inr rfl
  have stopped : ∀ s : Supervision, s.child = true ∨ s.stopping = true →
      (stop.after s).stopping = true ∧ (stop.after s).onFailedCalls = s.onFailedCalls := by
    rintro ⟨child, stopping, settled, outcome, calls⟩ here
    cases child
    · exact ⟨here.resolve_left Bool.false_ne_true, rfl⟩
    · exact ⟨rfl, rfl⟩
  have now : (step parse supervise w .stop).control.inner.stopping = true ∧
      (step parse supervise w .stop).control.inner.onFailedCalls = w.control.inner.onFailedCalls := by
    have same : (step parse supervise w .stop).control.inner = stop.after w.control.inner := by
      obtain ⟨⟨pending, ⟨child, stopping, settled, outcome, calls⟩⟩, media⟩ := w
      cases child <;> rfl
    rw [same]
    exact stopped _ live
  have later := run_keeps parse (I := fun s => s.stopping = true ∧ s.onFailedCalls = w.control.inner.onFailedCalls)
    (fun s signal here => ⟨(settle_child s signal).2 ▸ here.1, (settle_calls here.1 signal).trans here.2⟩)
    (fun s here => ⟨(stopped s (.inr here.1)).1, (stopped s (.inr here.1)).2.trans here.2⟩) now post
  rw [run, List.foldl_append, List.foldl_cons]
  exact later.2

/-- A settled promise stays as it is. -/
theorem outcome_kept {w : Worker Supervision} {o : Option (Except String Json)}
    (here : w.control.inner.settled = true ∧ w.control.inner.outcome = o) (events : List Event) :
    (events.foldl (step parse supervise) w).control.inner.outcome = o := by
  have kept := run_keeps parse (I := fun s => s.settled = true ∧ s.outcome = o)
    (fun s signal here => ⟨(settle_outcome here.1 signal).1, (settle_outcome here.1 signal).2.trans here.2⟩) ?_ here events
  · exact kept.2
  · rintro ⟨child, stopping, settled, outcome, calls⟩ here
    cases child <;> exact here

/-- A run ends with the calls there were before the first `stop`. -/
theorem run_calls (events : List Event) :
    (run parse events).control.inner.onFailedCalls = ((signals parse events).foldl settle .begin).onFailedCalls := by
  rw [← run_signals parse]
  have split := List.takeWhile_append_dropWhile (p := fun event : Event => !event.isStop) (l := events)
  cases rest : events.dropWhile (fun event => !event.isStop) with
  | nil =>
    rw [rest, List.append_nil] at split
    rw [split]
  | cons event post =>
    have stops : event.isStop = true := by
      have := List.head?_dropWhile_not (fun event : Event => !event.isStop) events
      rw [rest] at this
      simpa using this
    cases event with
    | stop =>
      rw [rest] at split
      conv_lhs => rw [← split]
      exact calls_after_stop parse _ post
    | output | rtp | exit => cases stops

theorem run_outcome {events : List Event} {signal : Signal} {rest : List Signal} (first : signals parse events = signal :: rest) :
    (run parse events).control.inner.outcome = some signal.settles := by
  have before := run_signals parse events
  rw [first] at before
  have split := List.takeWhile_append_dropWhile (p := fun event : Event => !event.isStop) (l := events)
  conv_lhs => rw [run, ← split, List.foldl_append]
  apply outcome_kept parse
  obtain ⟨-, settled, outcome⟩ := foldl_begin signal rest
  rw [← before] at settled outcome
  exact ⟨settled, outcome⟩

/-! ## Once, and to the right party -/

/-- Among these signals is an acknowledgement of a kind that counts. -/
def Acknowledged (counts : Answer → Prop) (sigs : List Signal) : Prop :=
  ∃ answer event, .answered answer event ∈ sigs ∧ counts answer

/-- The first failure before `stop` is reported once: by the promise of `start` if it was
not acknowledged, else by `onFailed`; and after `stop` nothing calls `onFailed`. -/
structure Reported (parse : List UInt8 → Option Json) (counts : Answer → Prop) (events : List Event) : Prop where
  first : ∀ pre error post, signals parse events = pre ++ .failed error :: post → (∀ signal ∈ pre, signal.isFailed = false) →
    (Acknowledged counts pre → (run parse events).control.inner.onFailedCalls = 1) ∧
      (¬Acknowledged counts pre → (run parse events).control.inner.outcome = some (.error error) ∧
        (run parse events).control.inner.onFailedCalls = 0)
  stopped : ∀ pre post, events = pre ++ .stop :: post →
    (run parse events).control.inner.onFailedCalls = (run parse pre).control.inner.onFailedCalls

/-- At most one failure, and none that only an acknowledgement that does not count precedes. -/
structure Single (counts : Answer → Prop) (sigs : List Signal) : Prop where
  once : failures sigs ≤ 1
  counted : ∀ pre error post, sigs = pre ++ .failed error :: post → Acknowledged (fun _ => True) pre → Acknowledged counts pre

/-- Signals without a failure, of which there are some. -/
theorem acknowledged_of {signal : Signal} {sigs : List Signal} (fine : ∀ s ∈ signal :: sigs, s.isFailed = false) :
    Acknowledged (fun _ => True) (signal :: sigs) := by
  cases signal with
  | failed error => cases fine _ List.mem_cons_self
  | answered answer event => exact ⟨answer, event, List.mem_cons_self, trivial⟩

theorem failures_split {pre post : List Signal} {error : String} (fine : ∀ s ∈ pre, s.isFailed = false) :
    failures (pre ++ .failed error :: post) = failures post + 1 := by
  have none : failures pre = 0 := List.countP_eq_zero.2 fun s mem => by rw [fine s mem]; exact Bool.false_ne_true
  rw [failures, List.countP_append, ← failures, none, Nat.zero_add, List.countP_cons_of_pos rfl, failures]

/-- The first failure of some signals. -/
theorem exists_first_failure {sigs : List Signal} (some : 0 < failures sigs) :
    ∃ pre error post, sigs = pre ++ .failed error :: post ∧ ∀ s ∈ pre, s.isFailed = false := by
  induction sigs with
  | nil => exact absurd some (Nat.lt_irrefl 0)
  | cons signal sigs ih =>
    cases signal with
    | failed error => exact ⟨[], error, sigs, rfl, by simp⟩
    | answered answer event =>
      obtain ⟨pre, error, post, rfl, fine⟩ := ih some
      exact ⟨.answered answer event :: pre, error, post, rfl, List.forall_mem_cons.2 ⟨rfl, fine⟩⟩

/-- A worker's failure is reported once exactly when it reports at most one before `stop`. -/
theorem reported_iff (counts : Answer → Prop) (events : List Event) :
    Reported parse counts events ↔ Single counts (signals parse events) := by
  constructor
  · intro reported
    have main : ∀ pre error post, signals parse events = pre ++ .failed error :: post → (∀ s ∈ pre, s.isFailed = false) →
        failures post = 0 ∧ (Acknowledged (fun _ => True) pre → Acknowledged counts pre) := by
      intro pre error post text fine
      obtain ⟨after, before⟩ := reported.first pre error post text fine
      have calls := run_calls parse events
      rw [text] at calls
      cases pre with
      | nil =>
        have none : ¬Acknowledged counts [] := by
          rintro ⟨answer, event, mem, -⟩
          cases mem
        rw [List.nil_append, (foldl_begin _ post).1, (before none).2] at calls
        refine ⟨calls.symm, ?_⟩
        rintro ⟨answer, event, mem, -⟩
        cases mem
      | cons signal pre =>
        rw [List.cons_append, (foldl_begin signal _).1, failures_split fun s mem => fine s (List.mem_cons_of_mem _ mem)] at calls
        by_cases counted : Acknowledged counts (signal :: pre)
        · have one := after counted
          exact ⟨by omega, fun _ => counted⟩
        · have zero := (before counted).2
          omega
    have once : failures (signals parse events) ≤ 1 := by
      by_cases some : 0 < failures (signals parse events)
      · obtain ⟨pre, error, post, text, fine⟩ := exists_first_failure some
        rw [text, failures_split fine, (main pre error post text fine).1]
      · omega
    refine ⟨once, fun pre error post text => ?_⟩
    -- The one failure is the first.
    have fine : ∀ s ∈ pre, s.isFailed = false := by
      rw [text, failures, List.countP_append, List.countP_cons_of_pos rfl] at once
      have none : pre.countP Signal.isFailed = 0 := by omega
      intro s mem
      simpa using List.countP_eq_zero.1 none s mem
    exact (main pre error post text fine).2
  · rintro ⟨once, counted⟩
    refine ⟨?_, ?_⟩
    · intro pre error post text fine
      have none : failures post = 0 := by
        rw [text, failures_split fine] at once
        omega
      have calls := run_calls parse events
      rw [text] at calls
      cases pre with
      | nil =>
        rw [List.nil_append, (foldl_begin _ post).1, none] at calls
        refine ⟨?_, fun _ => ⟨run_outcome parse text, calls⟩⟩
        rintro ⟨answer, event, mem, -⟩
        cases mem
      | cons signal pre =>
        rw [List.cons_append, (foldl_begin signal _).1, failures_split fun s mem => fine s (List.mem_cons_of_mem _ mem),
          none] at calls
        exact ⟨fun _ => calls, fun uncounted => absurd (counted _ _ _ text (acknowledged_of fine)) uncounted⟩
    · rintro pre post rfl
      exact calls_after_stop parse pre post

end Runs

/-! ## A worker that fails twice -/

def startedText : List UInt8 := "\x7b\"v\":1,\"op\":\"started\"\x7d".toList.map fun c => UInt8.ofNat c.toNat

/-- `JSON.parse` on the text above and on texts that are not JSON. -/
def parseStarted (line : List UInt8) : Option Json :=
  if line = startedText then some (.object [("v", .number (some 1)), ("op", .string "started")]) else none

/-- After it has started the worker writes a line that is no JSON, and exits. -/
theorem fails_twice :
    ¬Reported parseStarted (· = .started) [.output (startedText ++ [newline]), .output [120, newline], .exit] ∧
      ¬Reported parseStarted (fun _ => True) [.output (startedText ++ [newline]), .output [120, newline], .exit] := by
  let events : List Event := [.output (startedText ++ [newline]), .output [120, newline], .exit]
  let event : Json := .object [("v", .number (some 1)), ("op", .string "started")]
  have calls : (run parseStarted events).control.inner.onFailedCalls = 2 := by decide +kernel
  have text : signals parseStarted events = [.answered .started event] ++ .failed "worker sent malformed control output" ::
      [.failed "worker exited before it was asked to stop"] := by rfl
  have never : ∀ counts : Answer → Prop, counts .started → ¬Reported parseStarted counts events := by
    intro counts started reported
    have one := (reported.first _ _ _ text (by simp [Signal.isFailed])).1 ⟨.started, event, List.mem_singleton_self _, started⟩
    rw [calls] at one
    exact absurd one (by decide)
  exact ⟨never _ rfl, never _ trivial⟩

end RosBridge.Media.Supervised
