import Mathlib.Data.List.Induction
import RosBridge.Lib.Program
import RosBridge.Lib.Runs
import RosBridge.Signaling.Handler
/-!
# Requests side by side

A request that was taken goes its own way: `Story` says from the events of its body alone
what was done for it and how far it is, and `run_at` that the other requests make no
difference to it, except that they decide whether it is taken. What they share, the count
of pending requests and the bytes held, stays within the settings (`requests_bounded`).
-/

namespace RosBridge.Signaling

open Lib Session Config

variable {host : Host} {settings : SignalingOptions}

/-! ## One step -/

/-- What an event does to a request that was taken. -/
inductive Steps (host : Host) (settings : SignalingOptions) : Phase → Incoming → Phase → Option Action → Prop
  | body {size : Nat} {chunks : List (List UInt8)} {event : BodyEvent} :
    Steps host settings (.reading size chunks) (.body event) (readBody host settings size chunks event) none
  | offered {outcome : Except String Json} {sdp : String} : outcome >>= offerOf = .ok sdp →
    Steps host settings (.read outcome) .resumed .accepting (some (.accept sdp))
  | refused {outcome : Except String Json} {reason : String} : outcome >>= offerOf = .error reason →
    Steps host settings (.read outcome) .resumed .finished (some (.reply (classify reason)))
  | answered {answer : Json} :
    Steps host settings .accepting (.accepted (.ok answer)) .finished (some (.reply (reply 200 answer)))
  | rejected {reason : String} :
    Steps host settings .accepting (.accepted (.error reason)) .finished (some (.reply (classify reason)))
  | ignored {phase : Phase} {what : Incoming} : (∀ size chunks event, phase = .reading size chunks → what ≠ .body event) →
    Steps host settings phase what phase none

theorem Phase.step_steps (host : Host) (settings : SignalingOptions) (phase : Phase) (what : Incoming) :
    Steps host settings phase what (phase.step host settings what).1 (phase.step host settings what).2 := by
  cases phase with
  | reading size chunks =>
    cases what with
    | body event => exact .body
    | resumed | accepted => exact .ignored fun _ _ _ _ => nofun
  | read outcome =>
    cases what with
    | resumed =>
      simp only [Phase.step]
      cases offer : outcome >>= offerOf with
      | ok sdp => exact .offered offer
      | error reason => exact .refused offer
    | body | accepted => exact .ignored nofun
  | accepting =>
    cases what with
    | accepted outcome =>
      cases outcome with
      | ok answer => exact .answered
      | error reason => exact .rejected
    | body | resumed => exact .ignored nofun
  | finished => exact .ignored nofun

/-! ## Capacity -/

/-- The bytes of a body that is read are counted, and within the limit. -/
def Phase.Fits (settings : SignalingOptions) : Phase → Prop
  | .reading size chunks => size = chunks.flatten.length ∧ size ≤ settings.maxBodyBytes
  | _ => True

theorem readBody_fits {size : Nat} {chunks : List (List UInt8)} {event : BodyEvent} (fits : (Phase.reading size chunks).Fits settings) :
    (readBody host settings size chunks event).Fits settings := by
  cases event with
  | data chunk =>
    simp only [readBody]
    split
    · trivial
    · next small => exact ⟨by simp [fits.1], Nat.le_of_not_lt small⟩
  | ended =>
    simp only [readBody]
    split <;> trivial
  | failed | aborted | timeout => trivial

theorem Steps.fits {phase next : Phase} {what : Incoming} {action : Option Action} (s : Steps host settings phase what next action)
    (fits : phase.Fits settings) : next.Fits settings := by
  cases s with
  | body => exact readBody_fits fits
  | ignored => exact fits
  | _ => trivial

/-- A request holds no more than a body, and nothing when it is over. -/
theorem Phase.Fits.held_le {phase : Phase} (fits : phase.Fits settings) :
    phase.held ≤ if phase.open then settings.maxBodyBytes else 0 := by
  cases phase with
  | reading size chunks => simpa [Phase.held, Phase.open, ← fits.1] using fits.2
  | _ => simp [Phase.held]

/-- A sum whose items are bounded where `p` holds and else nothing. -/
theorem sum_le_countP_mul {α : Type} (f : α → Nat) (p : α → Bool) (bound : Nat) (xs : List α)
    (each : ∀ x ∈ xs, f x ≤ if p x then bound else 0) : (xs.map f).sum ≤ xs.countP p * bound := by
  induction xs with
  | nil => simp
  | cons x xs ih =>
    have first := each x List.mem_cons_self
    have rest := ih fun y hy => each y (List.mem_cons_of_mem _ hy)
    rw [List.map_cons, List.sum_cons, List.countP_cons, Nat.add_mul]
    cases here : p x with
    | true =>
      simp only [here, if_true, Nat.one_mul] at first ⊢
      omega
    | false =>
      simp only [here, Bool.false_eq_true, if_false, Nat.zero_mul] at first ⊢
      omega

/-- The count of pending requests is right and within the settings, and so is what each of
them holds. -/
structure Handler.Bounded (h : Handler) : Prop where
  counted : h.pending = h.requests.countP Phase.open
  limited : h.pending ≤ h.settings.maxPending
  fits : ∀ phase ∈ h.requests, phase.Fits h.settings

theorem refusal_none {pending : Nat} {message : IncomingMessage} (taken : refusal host settings pending message = none) :
    message.method = some "POST" ∧ message.url = some "/offer" ∧ authenticate host settings.credential message.authorization = true ∧
      message.contentType = some "application/json" ∧ pending < settings.maxPending := by
  unfold refusal at taken
  split at taken
  · cases taken
  · split at taken
    · cases taken
    · split at taken
      · cases taken
      · next route =>
        split at taken
        · cases taken
        · next bearer =>
          split at taken
          · cases taken
          · next type =>
            split at taken
            · cases taken
            · next room =>
              simp only [not_or, not_not] at route type
              exact ⟨route.1, route.2, by simpa using bearer, type, Nat.lt_of_not_le room⟩

theorem Handler.Bounded.handle {h : Handler} (bounded : h.Bounded) (message : IncomingMessage) : (h.handle host message).Bounded := by
  obtain ⟨counted, limited, fits⟩ := bounded
  unfold Handler.handle
  cases taken : refusal host h.settings h.pending message with
  | some response =>
    refine ⟨by simpa [Phase.open] using counted, limited, fun phase there => ?_⟩
    rcases List.mem_append.1 there with old | new
    · exact fits phase old
    · rw [List.mem_singleton.1 new]
      trivial
  | none =>
    obtain ⟨-, -, -, -, room⟩ := refusal_none taken
    refine ⟨by simp [counted, Phase.open], room, fun phase there => ?_⟩
    rcases List.mem_append.1 there with old | new
    · exact fits phase old
    · rw [List.mem_singleton.1 new]
      exact ⟨rfl, Nat.zero_le _⟩

/-- What a step leaves of the count of pending requests. -/
theorem countP_advance {h : Handler} {i : Nat} {phase next : Phase} {what : Incoming} {action : Option Action}
    (there : h.requests[i]? = some phase) (s : Steps host h.settings phase what next action) :
    (h.requests.set i next).countP Phase.open =
      if phase.open ∧ !next.open then h.requests.countP Phase.open - 1 else h.requests.countP Phase.open := by
  obtain ⟨bound, rfl⟩ := List.getElem?_eq_some_iff.1 there
  have mem : h.requests[i] ∈ h.requests := List.getElem_mem bound
  have some : h.requests[i].open = true → 0 < h.requests.countP Phase.open := fun opened => List.countP_pos_iff.2 ⟨_, mem, opened⟩
  rw [List.countP_set bound]
  generalize h.requests[i] = phase at s some
  -- A request that is over does not start again.
  have later : next.open = true → phase.open = true := by
    cases s with
    | ignored => exact id
    | answered | rejected | refused => exact fun e => nomatch e
    | _ => exact fun _ => rfl
  cases here : phase.open <;> cases there : next.open <;> simp_all

theorem Handler.Bounded.advance {h : Handler} (bounded : h.Bounded) {i : Nat} {phase : Phase} (there : h.requests[i]? = some phase)
    (what : Incoming) : (h.advance host i phase what).Bounded := by
  obtain ⟨counted, limited, fits⟩ := bounded
  have s := phase.step_steps host h.settings what
  refine ⟨?_, ?_, fun other mem => ?_⟩
  · simp only [Handler.advance, counted]
    exact (countP_advance there s).symm
  · simp only [Handler.advance]
    split <;> omega
  · rcases List.mem_or_eq_of_mem_set mem with old | rfl
    · exact fits other old
    · exact s.fits (fits phase (List.mem_of_getElem? there))

theorem Handler.Bounded.step {h : Handler} (bounded : h.Bounded) (event : Event) : (h.step host event).Bounded := by
  cases event with
  | request message => exact bounded.handle message
  | incoming i what =>
    simp only [Handler.step]
    cases there : h.requests[i]? with
    | some phase => exact bounded.advance there what
    | none => exact bounded

theorem createSignalingHandler_spec {credential : String} {maxBodyBytes requestTimeoutMs maxPending : Session.Num} {h : Handler}
    (created : createSignalingHandler credential maxBodyBytes requestTimeoutMs maxPending = .ok h) :
    h.settings.credential = credential ∧ 32 ≤ utf16Length credential ∧ positiveLimit maxBodyBytes = some h.settings.maxBodyBytes ∧
      positiveLimit requestTimeoutMs = some h.settings.requestTimeoutMs ∧ positiveLimit maxPending = some h.settings.maxPending ∧
      h.pending = 0 ∧ h.requests = [] ∧ h.trace = [] := by
  unfold createSignalingHandler at created
  split at created
  · cases created
  · next long =>
    split at created
    · next bodyBytes timeoutMs most =>
      cases created
      exact ⟨rfl, Nat.le_of_not_lt long, bodyBytes, timeoutMs, most, rfl, rfl, rfl⟩
    · cases created

@[simp] theorem step_settings (h : Handler) (event : Event) : (h.step host event).settings = h.settings := by
  cases event with
  | request message =>
    simp only [Handler.step, Handler.handle]
    split <;> rfl
  | incoming i what =>
    simp only [Handler.step]
    split <;> rfl

@[simp] theorem run_settings (h : Handler) (events : List Event) : (h.run host events).settings = h.settings := by
  induction events generalizing h with
  | nil => rfl
  | cons event events ih => exact (ih _).trans (step_settings h event)

/-! ## One request alone -/

/-- What the steps of one request do, one after another. -/
def Phase.run (host : Host) (settings : SignalingOptions) (phase : Phase) (what : List Incoming) : Phase × List Action :=
  what.foldl (fun state x => ((state.1.step host settings x).1, state.2 ++ (state.1.step host settings x).2.toList)) (phase, [])

theorem Phase.run_concat (phase : Phase) (what : List Incoming) (x : Incoming) :
    phase.run host settings (what ++ [x]) =
      (((phase.run host settings what).1.step host settings x).1,
        (phase.run host settings what).2 ++ ((phase.run host settings what).1.step host settings x).2.toList) := by
  simp [Phase.run]

theorem Phase.run_append (phase : Phase) (what more : List Incoming) :
    phase.run host settings (what ++ more) =
      (((phase.run host settings what).1.run host settings more).1,
        (phase.run host settings what).2 ++ ((phase.run host settings what).1.run host settings more).2) := by
  induction more using List.reverseRecOn with
  | nil => simp [Phase.run]
  | append_singleton more x ih => rw [← List.append_assoc, Phase.run_concat, ih, Phase.run_concat, List.append_assoc]

theorem Phase.run_cons (phase : Phase) (x : Incoming) (what : List Incoming) :
    phase.run host settings (x :: what) =
      (((phase.step host settings x).1.run host settings what).1,
        (phase.step host settings x).2.toList ++ ((phase.step host settings x).1.run host settings what).2) :=
  Phase.run_append phase [x] what

/-- A phase in which nothing of what happens makes a difference lasts. -/
theorem Phase.run_of_step {phase : Phase} {what : List Incoming} (stays : ∀ x ∈ what, phase.step host settings x = (phase, none)) :
    phase.run host settings what = (phase, []) := by
  induction what with
  | nil => rfl
  | cons x what ih =>
    rw [List.forall_mem_cons] at stays
    rw [Phase.run_cons, stays.1, ih stays.2]
    rfl

/-- The events of a body among what happens to a request. -/
def bodyEvents : List Incoming → List BodyEvent :=
  List.filterMap fun x => match x with
    | .body event => some event
    | _ => none

@[simp] theorem bodyEvents_append (what more : List Incoming) : bodyEvents (what ++ more) = bodyEvents what ++ bodyEvents more :=
  List.filterMap_append

/-- The chunks that the events of a body start with fit. -/
def Collected (settings : SignalingOptions) (chunks : List (List UInt8)) : Prop := chunks.flatten.length ≤ settings.maxBodyBytes

theorem Collected.init {chunks : List (List UInt8)} {chunk : List UInt8} (fits : Collected settings (chunks ++ [chunk])) :
    Collected settings chunks := by
  unfold Collected at *
  rw [List.flatten_append, List.length_append] at fits
  omega

/-- What a body is read as, from its events up to the one that decides. -/
inductive Settles (host : Host) (settings : SignalingOptions) : List BodyEvent → Except String Json → Prop
  | large {chunks : List (List UInt8)} {chunk : List UInt8} : Collected settings chunks →
    ¬Collected settings (chunks ++ [chunk]) → Settles host settings (chunks.map .data ++ [.data chunk]) (.error "body_too_large")
  | parsed {chunks : List (List UInt8)} {value : Json} : Collected settings chunks →
    host.parse chunks.flatten = some value → Settles host settings (chunks.map .data ++ [.ended]) (.ok value)
  | garbled {chunks : List (List UInt8)} : Collected settings chunks →
    host.parse chunks.flatten = none → Settles host settings (chunks.map .data ++ [.ended]) (.error "bad_request")
  | broken {chunks : List (List UInt8)} {event : BodyEvent} : Collected settings chunks →
    event = .failed ∨ event = .aborted → Settles host settings (chunks.map .data ++ [event]) (.error "bad_request")
  | late {chunks : List (List UInt8)} : Collected settings chunks →
    Settles host settings (chunks.map .data ++ [.timeout]) (.error "request_timeout")

/-- The event that decides ends the reading of the chunks before it. -/
theorem Settles.readBody {events : List BodyEvent} {event : BodyEvent} {outcome : Except String Json}
    (settled : Settles host settings (events ++ [event]) outcome) :
    ∃ chunks, events = chunks.map .data ∧ Collected settings chunks ∧
      Signaling.readBody host settings chunks.flatten.length chunks event = .read outcome := by
  generalize all : events ++ [event] = decided at settled
  cases settled with
  | large fits large =>
    obtain ⟨rfl, last⟩ := List.append_inj' all rfl
    obtain rfl := List.singleton_inj.1 last
    refine ⟨_, rfl, fits, if_pos ?_⟩
    simpa [Collected] using large
  | parsed fits parsed =>
    obtain ⟨rfl, last⟩ := List.append_inj' all rfl
    obtain rfl := List.singleton_inj.1 last
    exact ⟨_, rfl, fits, by simp only [Signaling.readBody, parsed]⟩
  | garbled fits garbled =>
    obtain ⟨rfl, last⟩ := List.append_inj' all rfl
    obtain rfl := List.singleton_inj.1 last
    exact ⟨_, rfl, fits, by simp only [Signaling.readBody, garbled]⟩
  | broken fits broken =>
    obtain ⟨rfl, last⟩ := List.append_inj' all rfl
    obtain rfl := List.singleton_inj.1 last
    rcases broken with rfl | rfl <;> exact ⟨_, rfl, fits, rfl⟩
  | late fits =>
    obtain ⟨rfl, last⟩ := List.append_inj' all rfl
    obtain rfl := List.singleton_inj.1 last
    exact ⟨_, rfl, fits, rfl⟩

/-- The body was read, and the handler has not gone on since. -/
def BodyRead (host : Host) (settings : SignalingOptions) (what : List Incoming) (outcome : Except String Json) : Prop :=
  ∃ before event after, what = before ++ .body event :: after ∧ Settles host settings (bodyEvents before ++ [event]) outcome ∧
    .resumed ∉ after

/-- What the client gets for what `accept` returns. -/
def answerOf : Except String Json → Response
  | .ok answer => reply 200 answer
  | .error reason => classify reason

/-- What was done for a request that was taken, and how far it is: the first event that decides
on the body counts, the first time that the handler goes on after it, and then the first
thing that `accept` returns. -/
inductive Story (host : Host) (settings : SignalingOptions) (what : List Incoming) : Phase → List Action → Prop
  | reading {chunks : List (List UInt8)} : bodyEvents what = chunks.map .data → Collected settings chunks →
    Story host settings what (.reading chunks.flatten.length chunks) []
  | read {outcome : Except String Json} : BodyRead host settings what outcome → Story host settings what (.read outcome) []
  | refused {body after : List Incoming} {outcome : Except String Json} {reason : String} : what = body ++ .resumed :: after →
    BodyRead host settings body outcome → outcome >>= offerOf = .error reason →
    Story host settings what .finished [.reply (classify reason)]
  | accepting {body after : List Incoming} {value : Json} {sdp : String} : what = body ++ .resumed :: after →
    BodyRead host settings body (.ok value) → offerOf value = .ok sdp → (∀ result, .accepted result ∉ after) →
    Story host settings what .accepting [.accept sdp]
  | answered {body waiting after : List Incoming} {value : Json} {sdp : String} {result : Except String Json} :
    what = body ++ .resumed :: (waiting ++ .accepted result :: after) → BodyRead host settings body (.ok value) →
    offerOf value = .ok sdp → (∀ result, .accepted result ∉ waiting) →
    Story host settings what .finished [.accept sdp, .reply (answerOf result)]

/-! ### The steps follow the story -/

theorem run_reading {what : List Incoming} {chunks : List (List UInt8)} (sent : bodyEvents what = chunks.map .data)
    (fits : Collected settings chunks) :
    (Phase.reading 0 []).run host settings what = (.reading chunks.flatten.length chunks, []) := by
  -- From the end: the last event of the body is the last chunk.
  induction what using List.reverseRecOn generalizing chunks with
  | nil =>
    obtain rfl := List.map_eq_nil_iff.1 sent.symm
    rfl
  | append_singleton what x ih =>
    rw [bodyEvents_append] at sent
    rw [Phase.run_concat]
    cases x with
    | body event =>
      obtain ⟨init, last, rfl, before, here⟩ := List.map_eq_append_iff.1 sent.symm
      obtain ⟨chunk, rfl, rfl⟩ := List.map_eq_singleton_iff.1 here
      rw [ih before.symm fits.init]
      have length : (init ++ [chunk]).flatten.length = init.flatten.length + chunk.length := by simp
      simp only [Phase.step, readBody, ← length]
      rw [if_neg (Nat.not_lt_of_le fits)]
      rfl
    | resumed | accepted =>
      rw [ih (by simpa [bodyEvents] using sent) fits]
      rfl

theorem run_bodyRead {what : List Incoming} {outcome : Except String Json} (read : BodyRead host settings what outcome) :
    (Phase.reading 0 []).run host settings what = (.read outcome, []) := by
  obtain ⟨before, event, after, rfl, settled, paused⟩ := read
  obtain ⟨chunks, sent, fits, decided⟩ := settled.readBody
  have stays : ∀ x ∈ after, (Phase.read outcome).step host settings x = (.read outcome, none) := by
    intro x mem
    cases x with
    | resumed => exact absurd mem paused
    | body | accepted => rfl
  rw [Phase.run_append, run_reading sent fits, Phase.run_cons]
  simp only [Phase.step, decided, Phase.run_of_step stays]
  rfl

theorem run_waiting {what : List Incoming} (waiting : ∀ result, .accepted result ∉ what) :
    Phase.accepting.run host settings what = (.accepting, []) := by
  apply Phase.run_of_step
  intro x mem
  cases x with
  | accepted result => exact absurd mem (waiting result)
  | body | resumed => rfl

/-- What is over stays so. -/
theorem run_finished (what : List Incoming) : Phase.finished.run host settings what = (.finished, []) :=
  Phase.run_of_step fun _ _ => rfl

/-- There is one story. -/
theorem Story.run_eq {what : List Incoming} {phase : Phase} {actions : List Action} (story : Story host settings what phase actions) :
    (Phase.reading 0 []).run host settings what = (phase, actions) := by
  cases story with
  | reading sent fits => exact run_reading sent fits
  | read read => exact run_bodyRead read
  | refused split read refused =>
    rw [split, Phase.run_append, run_bodyRead read, Phase.run_cons]
    simp only [Phase.step, refused, run_finished]
    rfl
  | @accepting _ _ value _ split read offer waiting =>
    have offer : (Except.ok value : Except String Json) >>= offerOf = .ok _ := offer
    rw [split, Phase.run_append, run_bodyRead read, Phase.run_cons]
    simp only [Phase.step, offer, run_waiting waiting]
    rfl
  | @answered _ _ _ value _ result split read offer waiting =>
    have offer : (Except.ok value : Except String Json) >>= offerOf = .ok _ := offer
    rw [split, Phase.run_append, run_bodyRead read, Phase.run_cons]
    simp only [Phase.step, offer, Phase.run_append, run_waiting waiting, Phase.run_cons]
    cases result <;> simp only [run_finished, answerOf] <;> rfl

theorem BodyRead.more {what : List Incoming} {outcome : Except String Json} (read : BodyRead host settings what outcome) {x : Incoming}
    (paused : x ≠ .resumed) : BodyRead host settings (what ++ [x]) outcome := by
  obtain ⟨before, event, after, rfl, settled, still⟩ := read
  refine ⟨before, event, after ++ [x], by rw [List.append_assoc, List.cons_append], settled, fun mem => ?_⟩
  rcases List.mem_append.1 mem with old | new
  · exact still old
  · exact paused (List.mem_singleton.1 new).symm

/-- The body goes on. -/
theorem story_body {what : List Incoming} {chunks : List (List UInt8)} (sent : bodyEvents what = chunks.map .data)
    (fits : Collected settings chunks) (event : BodyEvent) : ∃ phase actions, Story host settings (what ++ [.body event]) phase actions := by
  have decided : ∀ outcome, Settles host settings (chunks.map .data ++ [event]) outcome →
      ∃ phase actions, Story host settings (what ++ [.body event]) phase actions := by
    intro outcome settled
    exact ⟨_, _, .read ⟨what, event, [], rfl, sent ▸ settled, List.not_mem_nil⟩⟩
  cases event with
  | data chunk =>
    by_cases small : Collected settings (chunks ++ [chunk])
    · exact ⟨_, _, .reading (by rw [bodyEvents_append, sent, List.map_append]; rfl) small⟩
    · exact decided _ (.large fits small)
  | ended =>
    cases parsed : host.parse chunks.flatten with
    | some value => exact decided _ (.parsed fits parsed)
    | none => exact decided _ (.garbled fits parsed)
  | failed => exact decided _ (.broken fits (.inl rfl))
  | aborted => exact decided _ (.broken fits (.inr rfl))
  | timeout => exact decided _ (.late fits)

theorem Story.next {what : List Incoming} {phase : Phase} {actions : List Action} (story : Story host settings what phase actions)
    (x : Incoming) : ∃ phase actions, Story host settings (what ++ [x]) phase actions := by
  cases story with
  | reading sent fits =>
    cases x with
    | body event => exact story_body sent fits event
    | resumed | accepted => exact ⟨_, _, .reading (by simpa [bodyEvents] using sent) fits⟩
  | @read outcome read =>
    cases x with
    | resumed =>
      cases offer : outcome >>= offerOf with
      | ok sdp =>
        obtain ⟨value, rfl, offer⟩ := exists_of_bind offer
        exact ⟨_, _, .accepting rfl read offer fun _ => List.not_mem_nil⟩
      | error reason => exact ⟨_, _, .refused rfl read offer⟩
    | body | accepted => exact ⟨_, _, .read (read.more Incoming.noConfusion)⟩
  -- From here on the outcome is settled: what comes later is only appended.
  | @refused body after outcome reason split read refused =>
    have longer : what ++ [x] = body ++ .resumed :: (after ++ [x]) := by rw [split, List.append_assoc, List.cons_append]
    exact ⟨_, _, .refused longer read refused⟩
  | @accepting body after value sdp split read offer waiting =>
    have longer : what ++ [x] = body ++ .resumed :: (after ++ [x]) := by rw [split, List.append_assoc, List.cons_append]
    cases x with
    | accepted result => exact ⟨_, _, .answered longer read offer waiting⟩
    | body | resumed =>
      refine ⟨_, _, .accepting longer read offer fun result mem => ?_⟩
      rcases List.mem_append.1 mem with old | new
      · exact waiting result old
      · cases List.mem_singleton.1 new
  | @answered body waiting' after value sdp result split read offer waiting =>
    have longer : what ++ [x] = body ++ .resumed :: (waiting' ++ .accepted result :: (after ++ [x])) := by
      rw [split, List.append_assoc, List.cons_append, List.append_assoc, List.cons_append]
    exact ⟨_, _, .answered longer read offer waiting⟩

/-- The story of a request that is taken. -/
theorem story_iff {what : List Incoming} {phase : Phase} {actions : List Action} :
    Story host settings what phase actions ↔ (phase, actions) = (Phase.reading 0 []).run host settings what := by
  refine ⟨fun story => story.run_eq.symm, fun is => ?_⟩
  have told : ∃ phase actions, Story host settings what phase actions := by
    clear is
    induction what using List.reverseRecOn with
    | nil => exact ⟨_, _, @Story.reading host settings [] [] rfl (Nat.zero_le _)⟩
    | append_singleton what x ih =>
      obtain ⟨_, _, story⟩ := ih
      exact story.next x
  obtain ⟨_, _, story⟩ := told
  cases is.trans story.run_eq
  exact story

/-! ## All requests -/

/-- What happens to one request. -/
def incomings (i : Nat) : List Event → List Incoming :=
  List.filterMap fun event => match event with
    | .incoming j what => if j = i then some what else none
    | .request _ => none

/-- What was done for one request. -/
def actionsOf (i : Nat) : List Mark → List Action :=
  List.filterMap fun mark => if mark.request = i then some mark.action else none

/-- How many requests arrive. -/
def arrivals : List Event → Nat :=
  List.countP fun event => match event with
    | .request _ => true
    | .incoming _ _ => false

@[simp] theorem incomings_concat (i : Nat) (events : List Event) (event : Event) :
    incomings i (events ++ [event]) = incomings i events ++ incomings i [event] := List.filterMap_append

@[simp] theorem actionsOf_append (i : Nat) (trace more : List Mark) :
    actionsOf i (trace ++ more) = actionsOf i trace ++ actionsOf i more := List.filterMap_append

@[simp] theorem run_concat (h : Handler) (events : List Event) (event : Event) :
    h.run host (events ++ [event]) = (h.run host events).step host event := by simp [Handler.run]

theorem run_append (h : Handler) (events more : List Event) : h.run host (events ++ more) = (h.run host events).run host more :=
  List.foldl_append

/-- What is done for a request that was taken is done for no other. -/
theorem actionsOf_advance (h : Handler) (i j : Nat) (phase : Phase) (what : Incoming) :
    actionsOf j (h.advance host i phase what).trace =
      actionsOf j h.trace ++ if i = j then (phase.step host h.settings what).2.toList else [] := by
  simp only [Handler.advance, actionsOf_append]
  cases (phase.step host h.settings what).2 with
  | none => simp [actionsOf]
  | some action => by_cases same : i = j <;> simp [actionsOf, same]

theorem length_step (h : Handler) (event : Event) :
    (h.step host event).requests.length = h.requests.length + arrivals [event] := by
  cases event with
  | request message =>
    simp only [Handler.step, Handler.handle, arrivals]
    split <;> simp
  | incoming i what =>
    simp only [Handler.step, arrivals]
    split <;> simp [Handler.advance]

theorem length_run (h : Handler) (events : List Event) :
    (h.run host events).requests.length = h.requests.length + arrivals events := by
  induction events generalizing h with
  | nil => simp [Handler.run, arrivals]
  | cons event events ih =>
    rw [← List.singleton_append, run_append, ih]
    simp only [arrivals, List.countP_append]
    have := @length_step host h event
    simp only [Handler.run, List.foldl_cons, List.foldl_nil, arrivals] at this ⊢
    omega

/-- The others make no difference to a request that is there. -/
theorem run_request {h : Handler} {i : Nat} {phase : Phase} (there : h.requests[i]? = some phase) (events : List Event) :
    (h.run host events).requests[i]? = some (phase.run host h.settings (incomings i events)).1 ∧
      actionsOf i (h.run host events).trace = actionsOf i h.trace ++ (phase.run host h.settings (incomings i events)).2 := by
  induction events using List.reverseRecOn with
  | nil => simpa [Handler.run, incomings, Phase.run] using there
  | append_singleton events event ih =>
    obtain ⟨now, done⟩ := ih
    rw [run_concat, incomings_concat]
    obtain ⟨bound, -⟩ := List.getElem?_eq_some_iff.1 now
    cases event with
    -- A new request is put behind those that are there.
    | request message =>
      rw [show incomings i [.request message] = [] from rfl, List.append_nil]
      simp only [Handler.step, Handler.handle]
      split
      · refine ⟨by simpa [List.getElem?_append_left bound] using now, ?_⟩
        rw [actionsOf_append, done]
        simp [actionsOf, Nat.ne_of_gt bound]
      · exact ⟨by simpa [List.getElem?_append_left bound] using now, done⟩
    | incoming j what =>
      simp only [Handler.step]
      by_cases same : j = i
      · subst same
        rw [now]
        have one : incomings j [.incoming j what] = [what] := by simp [incomings]
        rw [one, Phase.run_concat, actionsOf_advance, if_pos rfl, done, run_settings, List.append_assoc]
        refine ⟨?_, rfl⟩
        simp [Handler.advance, bound]
      -- Another request takes its step.
      · have none : incomings i [.incoming j what] = [] := by simp [incomings, same]
        rw [none, List.append_nil]
        split
        · next other _ =>
          rw [actionsOf_advance, if_neg same, List.append_nil]
          exact ⟨by simpa [Handler.advance, List.getElem?_set_ne same] using now, done⟩
        · exact ⟨now, done⟩


/-- What is done is done for requests that arrived. -/
def Handler.Within (h : Handler) : Prop := ∀ mark ∈ h.trace, mark.request < h.requests.length

theorem Handler.Within.step {h : Handler} (within : h.Within) (event : Event) : (h.step host event).Within := by
  cases event with
  | request message =>
    simp only [Handler.step, Handler.handle]
    split
    · intro mark there
      rw [List.length_append, List.length_singleton]
      rcases List.mem_append.1 there with old | new
      · exact Nat.lt_succ_of_lt (within mark old)
      · rw [List.mem_singleton.1 new]
        exact Nat.lt_succ_self _
    · intro mark there
      rw [List.length_append, List.length_singleton]
      exact Nat.lt_succ_of_lt (within mark there)
  | incoming i what =>
    simp only [Handler.step]
    split
    · next phase there =>
      obtain ⟨bound, -⟩ := List.getElem?_eq_some_iff.1 there
      intro mark mem
      simp only [Handler.advance, List.length_set] at mem ⊢
      rcases List.mem_append.1 mem with old | new
      · exact within mark old
      · cases action : (phase.step host h.settings what).2 with
        | none => simp [action] at new
        | some a =>
          rw [action] at new
          rw [List.mem_singleton.1 new]
          exact bound
    · exact within

theorem Handler.Within.run {h : Handler} (within : h.Within) (events : List Event) : (h.run host events).Within :=
  foldl_inv (fun _ event within => within.step event) within events

/-- Nothing was done for a request that has not arrived. -/
theorem Handler.Within.actionsOf {h : Handler} (within : h.Within) {i : Nat} (absent : h.requests.length ≤ i) :
    actionsOf i h.trace = [] := by
  refine List.filterMap_eq_nil_iff.2 fun mark there => if_neg fun same => ?_
  exact absurd (within mark there) (by omega)

/-- How a request is handled, from what the handler sees of it: the count of pending requests
at its arrival, and its own events. -/
inductive Handled (host : Host) (settings : SignalingOptions) (pending : Nat) (message : IncomingMessage) (what : List Incoming) :
    Phase → List Action → Prop
  | turned {response : Response} : refusal host settings pending message = some response →
    Handled host settings pending message what .finished [.reply response]
  | taken {phase : Phase} {actions : List Action} : refusal host settings pending message = none →
    Story host settings what phase actions → Handled host settings pending message what phase actions

/-- How far a request is and what was done for it, by its own steps. -/
def handled (host : Host) (settings : SignalingOptions) (pending : Nat) (message : IncomingMessage) (what : List Incoming) :
    Phase × List Action :=
  match refusal host settings pending message with
  | some response => (.finished, [.reply response])
  | none => (Phase.reading 0 []).run host settings what

theorem handled_iff {pending : Nat} {message : IncomingMessage} {what : List Incoming} {phase : Phase} {actions : List Action} :
    Handled host settings pending message what phase actions ↔ (phase, actions) = handled host settings pending message what := by
  unfold handled
  constructor
  · intro h
    cases h with
    | turned turned => rw [turned]
    | taken taken story =>
      rw [taken]
      exact story_iff.1 story
  · intro is
    cases answer : refusal host settings pending message with
    | some response =>
      rw [answer] at is
      cases is
      exact .turned answer
    | none =>
      rw [answer] at is
      exact .taken answer (story_iff.2 is)

theorem handled_run {h : Handler} (within : h.Within) (message : IncomingMessage) (events : List Event) :
    let outcome := handled host h.settings h.pending message (incomings h.requests.length events)
    (h.run host (.request message :: events)).requests[h.requests.length]? = some outcome.1 ∧
      actionsOf h.requests.length (h.run host (.request message :: events)).trace = outcome.2 := by
  have run : h.run host (.request message :: events) = (h.handle host message).run host events := rfl
  have none : actionsOf h.requests.length h.trace = [] := within.actionsOf (Nat.le_refl _)
  rw [run]
  unfold handled
  cases answer : refusal host h.settings h.pending message with
  -- Turned away: it is over at once, whatever comes for it later.
  | some response =>
    have handled : h.handle host message =
        { h with requests := h.requests ++ [.finished], trace := h.trace ++ [⟨h.requests.length, .reply response⟩] } := by
      simp only [Handler.handle, answer]
    have there : (h.handle host message).requests[h.requests.length]? = some .finished := by simp [handled]
    obtain ⟨now, done⟩ := @run_request host _ _ _ there events
    rw [run_finished] at now done
    refine ⟨now, ?_⟩
    rw [done, handled, actionsOf_append, none]
    simp [actionsOf]
  | none =>
    have handled : h.handle host message = { h with pending := h.pending + 1, requests := h.requests ++ [.reading 0 []] } := by
      simp only [Handler.handle, answer]
    -- Taken: it starts with an empty body, and nothing was done for it.
    have there : (h.handle host message).requests[h.requests.length]? = some (.reading 0 []) := by simp [handled]
    obtain ⟨now, done⟩ := @run_request host _ _ _ there events
    rw [handled] at now done ⊢
    refine ⟨now, ?_⟩
    rw [done, none, List.nil_append]

/-- A request that arrived did so at some point. -/
theorem exists_arrival {i : Nat} {events : List Event} (early : i < arrivals events) :
    ∃ pre message post, events = pre ++ .request message :: post ∧ arrivals pre = i := by
  induction events generalizing i with
  | nil => exact absurd early (Nat.not_lt_zero _)
  | cons event events ih =>
    cases event with
    | request message =>
      cases i with
      | zero => exact ⟨[], message, events, rfl, rfl⟩
      | succ i =>
        have early : i < arrivals events := by simpa [arrivals] using early
        obtain ⟨pre, other, post, rfl, here⟩ := ih early
        exact ⟨.request message :: pre, other, post, rfl, by simpa [arrivals] using here⟩
    | incoming j what =>
      have early : i < arrivals events := by simpa [arrivals] using early
      obtain ⟨pre, other, post, rfl, here⟩ := ih early
      exact ⟨.incoming j what :: pre, other, post, rfl, by simpa [arrivals] using here⟩

/-! ## Making room -/

/-- The deadline of a body passes, the handler goes on, and `accept` returns. -/
def release (i : Nat) (result : Except String Json) : List Event :=
  [.incoming i (.body .timeout), .incoming i .resumed, .incoming i (.accepted result)]

theorem accepting_release (result : Except String Json) : (Phase.accepting.step host settings (.accepted result)).1 = .finished := by
  cases result <;> rfl

theorem Phase.run_release {phase : Phase} (opened : phase.open) (result : Except String Json) :
    (phase.run host settings [.body .timeout, .resumed, .accepted result]).1 = .finished := by
  cases phase with
  | reading => rfl
  | read outcome =>
    simp only [Phase.run, List.foldl_cons, List.foldl_nil, Phase.step]
    cases outcome >>= offerOf with
    | ok sdp => exact accepting_release result
    | error reason => rfl
  | accepting => exact accepting_release result
  | finished => cases opened

theorem run_release {h : Handler} {i : Nat} {phase : Phase} (there : h.requests[i]? = some phase) (opened : phase.open)
    (result : Except String Json) : (h.run host (release i result)).requests = h.requests.set i .finished := by
  obtain ⟨bound, -⟩ := List.getElem?_eq_some_iff.1 there
  refine List.ext_getElem? fun j => ?_
  by_cases same : i = j
  · subst same
    have own : incomings i (release i result) = [.body .timeout, .resumed, .accepted result] := by simp [incomings, release]
    rw [(run_request there _).1, own, Phase.run_release opened, List.getElem?_set_self bound]
  · have others : incomings j (release i result) = [] := by simp [incomings, release, same]
    rw [List.getElem?_set_ne same]
    cases other : h.requests[j]? with
    | some phase =>
      rw [(run_request other _).1, others]
      rfl
    | none =>
      have length : (h.run host (release i result)).requests.length = h.requests.length := length_run h _
      rw [List.getElem?_eq_none_iff] at other ⊢
      omega

theorem Handler.Bounded.released {h : Handler} (bounded : h.Bounded) {i : Nat} {phase : Phase} (there : h.requests[i]? = some phase)
    (opened : phase.open) (result : Except String Json) :
    (h.run host (release i result)).requests = h.requests.set i .finished ∧
      (h.run host (release i result)).pending + 1 = h.pending := by
  have requests := @run_release host _ _ _ there opened result
  have after : (h.run host (release i result)).Bounded := foldl_inv (fun _ event bounded => bounded.step event) bounded _
  obtain ⟨bound, rfl⟩ := List.getElem?_eq_some_iff.1 there
  have positive : 0 < h.requests.countP Phase.open := List.countP_pos_iff.2 ⟨_, List.getElem_mem bound, opened⟩
  refine ⟨requests, ?_⟩
  rw [after.counted, bounded.counted, requests, List.countP_set bound, if_pos opened]
  simp only [Phase.open, Bool.false_eq_true, if_false]
  omega

/-! ## What is passed on and what is returned -/

theorem offerOf_ok {value : Json} {sdp : String} (offer : offerOf value = .ok sdp) :
    ∃ fields, value = .object fields ∧ (∀ f ∈ fields, f.1 = "type" ∨ f.1 = "sdp") ∧
      Map.field fields "type" = some (.string "offer") ∧ Map.field fields "sdp" = some (.string sdp) := by
  cases value with
  | object fields =>
    simp only [offerOf] at offer
    split at offer
    · cases offer
    · next known =>
      split at offer
      · next type sdp' found found' =>
        split at offer
        · next is =>
          subst is
          cases offer
          refine ⟨fields, rfl, fun f mem => ?_, found, found'⟩
          by_contra other
          exact known (List.any_eq_true.2 ⟨f, mem, by simpa using other⟩)
        · cases offer
      · cases offer
  | _ => cases offer

/-- A body that is parsed: the chunks before its end. -/
theorem BodyRead.of_ok {what : List Incoming} {value : Json} (read : BodyRead host settings what (.ok value)) :
    ∃ chunks rest, bodyEvents what = chunks.map .data ++ .ended :: rest ∧ Collected settings chunks ∧
      host.parse chunks.flatten = some value := by
  obtain ⟨before, event, after, rfl, settled, -⟩ := read
  have events : bodyEvents (before ++ .body event :: after) = (bodyEvents before ++ [event]) ++ bodyEvents after := by
    rw [bodyEvents_append, List.append_assoc]
    rfl
  generalize outcome : (Except.ok value : Except String Json) = read at settled
  generalize bodyEvents before ++ [event] = decided at settled events
  cases settled with
  | @parsed chunks value' fits parsed =>
    cases outcome
    exact ⟨chunks, bodyEvents after, events.trans (List.append_assoc _ _ _), fits, parsed⟩
  | _ => cases outcome

/-- The offer that was passed on for a request is the one its body ends in. -/
theorem Story.accepted {what : List Incoming} {phase : Phase} {actions : List Action} (story : Story host settings what phase actions)
    {sdp : String} (passed : .accept sdp ∈ actions) :
    ∃ chunks rest value, bodyEvents what = chunks.map .data ++ .ended :: rest ∧ Collected settings chunks ∧
      host.parse chunks.flatten = some value ∧ offerOf value = .ok sdp := by
  -- Only the two ways in which an offer was passed on have an `accept` in them.
  have found : ∃ body more value, what = body ++ more ∧ BodyRead host settings body (.ok value) ∧ offerOf value = .ok sdp := by
    cases story with
    | accepting split read offer =>
      cases List.mem_singleton.1 passed
      exact ⟨_, _, _, split, read, offer⟩
    | answered split read offer =>
      obtain here | later := List.mem_cons.1 passed
      · cases here
        exact ⟨_, _, _, split, read, offer⟩
      · cases List.mem_singleton.1 later
    | refused => cases List.mem_singleton.1 passed
    | reading | read => cases passed
  obtain ⟨body, more, value, rfl, read, offer⟩ := found
  obtain ⟨chunks, rest, events, fits, parsed⟩ := read.of_ok
  refine ⟨chunks, rest ++ bodyEvents more, value, ?_, fits, parsed, offer⟩
  rw [bodyEvents_append, events, List.append_assoc, List.cons_append]

/-- The responses that do not depend on what `accept` returns. -/
def fixedResponses : List Response :=
  (resources.map fun resource =>
    ⟨200, [("Content-Type", resource.2), ("Cache-Control", "no-store"), ("X-Content-Type-Options", "nosniff")], .resource resource.1⟩) ++
  [reply 200 (.object [("status", .string "ready")]), errorReply 404 "not_found", errorReply 401 "unauthorized",
    errorReply 415 "content_type", errorReply 503 "busy", errorReply 413 "body_too_large", errorReply 408 "request_timeout",
    errorReply 400 "offer_rejected"]

theorem classify_fixed (reason : String) : classify reason ∈ fixedResponses := by
  unfold classify
  split
  · next is => subst is; simp [fixedResponses]
  · split
    · next is => subst is; simp [fixedResponses]
    · simp [fixedResponses]

theorem refusal_fixed {pending : Nat} {message : IncomingMessage} {response : Response}
    (turned : refusal host settings pending message = some response) : response ∈ fixedResponses := by
  unfold refusal at turned
  split at turned
  · next served =>
    cases turned
    unfold serveSignalingDocs at served
    split at served
    · cases served
    · obtain ⟨resource, found, rfl⟩ := Option.map_eq_some_iff.1 served
      exact List.mem_append_left _ (List.mem_map_of_mem (List.mem_of_find?_eq_some found))
  · apply List.mem_append_right
    repeat' split at turned
    all_goals first | (cases turned; simp) | cases turned

/-- What a request has to be, and to bring, for an offer to be passed on. -/
structure Offered (host : Host) (settings : SignalingOptions) (message : IncomingMessage) (what : List Incoming) (sdp : String) : Prop where
  method : message.method = some "POST"
  url : message.url = some "/offer"
  bearer : authenticate host settings.credential message.authorization
  contentType : message.contentType = some "application/json"
  /-- The body ended within the limit, before anything else happened to it, and says the offer and no more. -/
  body : ∃ chunks rest fields, bodyEvents what = chunks.map .data ++ .ended :: rest ∧ Collected settings chunks ∧
    host.parse chunks.flatten = some (.object fields) ∧ (∀ f ∈ fields, f.1 = "type" ∨ f.1 = "sdp") ∧
    Map.field fields "type" = some (.string "offer") ∧ Map.field fields "sdp" = some (.string sdp)

theorem Handled.offered {pending : Nat} {message : IncomingMessage} {what : List Incoming} {phase : Phase} {actions : List Action}
    (handled : Handled host settings pending message what phase actions) {sdp : String} (passed : .accept sdp ∈ actions) :
    pending < settings.maxPending ∧ Offered host settings message what sdp := by
  cases handled with
  | turned => cases List.mem_singleton.1 passed
  | taken free story =>
    obtain ⟨method, url, bearer, contentType, room⟩ := refusal_none free
    obtain ⟨chunks, rest, value, events, fits, parsed, offer⟩ := story.accepted passed
    obtain ⟨fields, rfl, known, type, named⟩ := offerOf_ok offer
    exact ⟨room, method, url, bearer, contentType, chunks, rest, fields, events, fits, parsed, known, type, named⟩

/-- A reply is the only one and the last thing done, and fixed unless it is what `accept` returned. -/
theorem Handled.replied {pending : Nat} {message : IncomingMessage} {what : List Incoming} {phase : Phase} {actions : List Action}
    (handled : Handled host settings pending message what phase actions) {response : Response} (replied : .reply response ∈ actions) :
    (actions = [.reply response] ∨ ∃ sdp, actions = [.accept sdp, .reply response]) ∧
      (response ∈ fixedResponses ∨ ∃ sdp answer, actions = [.accept sdp, .reply response] ∧ response = reply 200 answer ∧
        .accepted (.ok answer) ∈ what) := by
  cases handled with
  | turned turned =>
    cases List.mem_singleton.1 replied
    exact ⟨.inl rfl, .inl (refusal_fixed turned)⟩
  | taken _ story =>
    cases story with
    | reading | read => cases replied
    | accepting => cases List.mem_singleton.1 replied
    | refused =>
      cases List.mem_singleton.1 replied
      exact ⟨.inl rfl, .inl (classify_fixed _)⟩
    | @answered body waiting after value sdp result split =>
      have returned : .accepted result ∈ what := by simp [split]
      obtain here | later := List.mem_cons.1 replied
      · cases here
      · cases List.mem_singleton.1 later
        refine ⟨.inr ⟨sdp, rfl⟩, ?_⟩
        cases result with
        | ok answer => exact .inr ⟨sdp, answer, rfl, rfl, returned⟩
        | error reason => exact .inl (classify_fixed reason)

theorem mem_incomings {i : Nat} {events : List Event} {what : Incoming} : what ∈ incomings i events ↔ .incoming i what ∈ events := by
  unfold incomings
  rw [List.mem_filterMap]
  constructor
  · rintro ⟨event, there, is⟩
    cases event with
    | request => cases is
    | incoming j other =>
      by_cases same : j = i
      · subst same
        cases (if_pos rfl).symm.trans is
        exact there
      · cases (if_neg same).symm.trans is
  · exact fun there => ⟨_, there, if_pos rfl⟩

/-! ## Main results -/

section Runs

variable {credential : String} {maxBodyBytes requestTimeoutMs maxPending : Session.Num} {h : Handler}
  (created : createSignalingHandler credential maxBodyBytes requestTimeoutMs maxPending = .ok h)

include created

theorem run_bounded (events : List Event) : (h.run host events).Bounded := by
  obtain ⟨-, -, -, -, -, pending, requests, -⟩ := createSignalingHandler_spec created
  refine foldl_inv (fun _ event bounded => bounded.step event) ⟨?_, ?_, ?_⟩ events <;> simp [pending, requests]

theorem created_within : h.Within := by
  obtain ⟨-, -, -, -, -, -, -, trace⟩ := createSignalingHandler_spec created
  simp [Handler.Within, trace]

/-- However requests come in and whatever happens to them: as many are pending as are not
over, at most as many as the settings allow, and their bodies hold no more than that many
times the size of one. A pending request is over when its deadline has passed and `accept`,
if it was called, has returned; that makes room for one more and touches no other. -/
theorem requests_bounded (events : List Event) :
    (h.run host events).pending = (h.run host events).requests.countP Phase.open ∧
      (h.run host events).pending ≤ h.settings.maxPending ∧
      ((h.run host events).requests.map Phase.held).sum ≤ h.settings.maxPending * h.settings.maxBodyBytes ∧
      ∀ i phase result, (h.run host events).requests[i]? = some phase → phase.open →
        (h.run host (events ++ release i result)).requests = (h.run host events).requests.set i .finished ∧
          (h.run host (events ++ release i result)).pending + 1 = (h.run host events).pending := by
  have bounded := @run_bounded host _ _ _ _ _ created events
  refine ⟨bounded.counted, run_settings h events ▸ bounded.limited, ?_, fun i phase result there opened => ?_⟩
  · calc ((h.run host events).requests.map Phase.held).sum
        ≤ (h.run host events).requests.countP Phase.open * h.settings.maxBodyBytes :=
          sum_le_countP_mul Phase.held Phase.open _ _ fun phase there => (run_settings h events ▸ bounded.fits phase there).held_le
      _ ≤ h.settings.maxPending * h.settings.maxBodyBytes :=
          Nat.mul_le_mul_right _ (bounded.counted ▸ run_settings h events ▸ bounded.limited)
  · rw [run_append]
    exact bounded.released there opened result

theorem request_handled (pre post : List Event) (message : IncomingMessage) :
    let outcome := handled host h.settings (h.run host pre).pending message (incomings (arrivals pre) post)
    (h.run host (pre ++ .request message :: post)).requests[arrivals pre]? = some outcome.1 ∧
      actionsOf (arrivals pre) (h.run host (pre ++ .request message :: post)).trace = outcome.2 := by
  obtain ⟨-, -, -, -, -, -, requests, -⟩ := createSignalingHandler_spec created
  have length : (h.run host pre).requests.length = arrivals pre := by rw [length_run, requests, List.length_nil, Nat.zero_add]
  have within : (h.run host pre).Within := (created_within created).run pre
  have handled := @handled_run host _ within message post
  rwa [length, run_settings, ← run_append] at handled

/-- Every request is handled as if it were alone, but for the count of pending requests at its
arrival: what is done for it and how far it is are what its own steps make of its own
events, and that is the one account of them. -/
theorem requests_handled (pre post : List Event) (message : IncomingMessage) :
    let outcome := handled host h.settings (h.run host pre).pending message (incomings (arrivals pre) post)
    (h.run host (pre ++ .request message :: post)).requests[arrivals pre]? = some outcome.1 ∧
      actionsOf (arrivals pre) (h.run host (pre ++ .request message :: post)).trace = outcome.2 ∧
      ∀ phase actions, Handled host h.settings (h.run host pre).pending message (incomings (arrivals pre) post) phase actions ↔
        (phase, actions) = outcome := by
  obtain ⟨now, done⟩ := @request_handled host _ _ _ _ _ created pre post message
  exact ⟨now, done, fun _ _ => handled_iff⟩

theorem exists_handled {events : List Event} {i : Nat} {action : Action} (done : action ∈ actionsOf i (h.run host events).trace) :
    ∃ pre message post phase, events = pre ++ .request message :: post ∧ arrivals pre = i ∧
      Handled host h.settings (h.run host pre).pending message (incomings i post) phase (actionsOf i (h.run host events).trace) := by
  obtain ⟨-, -, -, -, -, -, requests, -⟩ := createSignalingHandler_spec created
  have early : i < arrivals events := by
    by_contra late
    have within : (h.run host events).Within := (created_within created).run events
    rw [within.actionsOf (by rw [length_run, requests, List.length_nil]; omega)] at done
    cases done
  obtain ⟨pre, message, post, rfl, rfl⟩ := exists_arrival early
  obtain ⟨-, actions⟩ := @request_handled host _ _ _ _ _ created pre post message
  rw [actions]
  exact ⟨pre, message, post, _, rfl, rfl, handled_iff.2 rfl⟩

/-- An offer is passed on to `accept` only for an authenticated request, from a body within
the limit that ended before anything else happened to it and says nothing but the offer. A
client gets one reply at most: one of the fixed ones, or what `accept` returned for its own
offer. -/
theorem offers_guarded (events : List Event) (i : Nat) :
    (∀ sdp, .accept sdp ∈ actionsOf i (h.run host events).trace → ∃ pre message post,
      events = pre ++ .request message :: post ∧ arrivals pre = i ∧ (h.run host pre).pending < h.settings.maxPending ∧
      Offered host h.settings message (incomings i post) sdp) ∧
    ∀ response, .reply response ∈ actionsOf i (h.run host events).trace →
      (actionsOf i (h.run host events).trace = [.reply response] ∨
        ∃ sdp, actionsOf i (h.run host events).trace = [.accept sdp, .reply response]) ∧
      (response ∈ fixedResponses ∨ ∃ sdp answer,
        actionsOf i (h.run host events).trace = [.accept sdp, .reply response] ∧ response = reply 200 answer ∧
        .incoming i (.accepted (.ok answer)) ∈ events) := by
  refine ⟨fun sdp passed => ?_, fun response replied => ?_⟩
  · obtain ⟨pre, message, post, phase, split, arrived, handled⟩ := exists_handled created passed
    obtain ⟨room, offered⟩ := handled.offered passed
    exact ⟨pre, message, post, split, arrived, room, offered⟩
  · obtain ⟨pre, message, post, phase, rfl, arrived, handled⟩ := exists_handled created replied
    obtain ⟨alone, fixed | ⟨sdp, answer, actions, is, returned⟩⟩ := handled.replied replied
    · exact ⟨alone, .inl fixed⟩
    · refine ⟨alone, .inr ⟨sdp, answer, actions, is, ?_⟩⟩
      exact List.mem_append_right _ (List.mem_cons_of_mem _ (mem_incomings.1 returned))

end Runs

/-! ## Two clients -/

/-- A host that hashes nothing and knows one body. -/
def smallHost : Host where
  digest text := text.toList.map fun c => UInt8.ofNat c.toNat
  parse bytes := if bytes = [1, 2] then some (.object [("type", .string "offer"), ("sdp", .string "v=0")]) else none

/-- A handler that takes one request at a time. -/
def smallHandler : Handler := ⟨⟨"0123456789abcdef0123456789abcdef", 2, 1000, 1⟩, 0, [], []⟩

theorem smallHandler_created :
    createSignalingHandler "0123456789abcdef0123456789abcdef" (some 2) (some 1000) (some 1) = .ok smallHandler := rfl

/-- The request of a client that is admitted. -/
def smallRequest : IncomingMessage :=
  ⟨some "POST", some "/offer", some "Bearer 0123456789abcdef0123456789abcdef", some "application/json"⟩

/-- One client's offer is accepted, another one comes too early. -/
def twoClients : List Event :=
  [.request smallRequest, .incoming 0 (.body (.data [1])), .request smallRequest, .incoming 0 (.body (.data [2])),
    .incoming 0 (.body .ended), .incoming 0 .resumed]

theorem requests_bounded_two :
    createSignalingHandler "0123456789abcdef0123456789abcdef" (some 2) (some 1000) (some 1) = .ok smallHandler ∧
      (smallHandler.run smallHost twoClients).pending = 1 ∧ (smallHandler.run smallHost twoClients).requests.length = 2 ∧
      (smallHandler.run smallHost (twoClients ++ release 0 (.ok .null))).pending + 1 = (smallHandler.run smallHost twoClients).pending :=
  ⟨smallHandler_created, rfl, rfl,
    ((requests_bounded smallHandler_created twoClients).2.2.2 0 .accepting (.ok .null) rfl rfl).2⟩

/-- The offer is answered, whatever comes after; the other client is told to come again. -/
theorem requests_handled_two :
    createSignalingHandler "0123456789abcdef0123456789abcdef" (some 2) (some 1000) (some 1) = .ok smallHandler ∧
      let events := twoClients ++ [.incoming 0 (.accepted (.ok .null)), .incoming 0 (.accepted (.error "late"))]
      (smallHandler.run smallHost events).requests[0]? = some .finished ∧
        actionsOf 0 (smallHandler.run smallHost events).trace = [.accept "v=0", .reply (reply 200 .null)] ∧
        (smallHandler.run smallHost events).requests[1]? = some .finished ∧
        actionsOf 1 (smallHandler.run smallHost events).trace = [.reply (errorReply 503 "busy")] := by
  refine ⟨smallHandler_created, ?_⟩
  intro events
  have first := @requests_handled smallHost _ _ _ _ _ smallHandler_created [] events.tail smallRequest
  have second := @requests_handled smallHost _ _ _ _ _ smallHandler_created (events.take 2) (events.drop 3) smallRequest
  have read : BodyRead smallHost smallHandler.settings [.body (.data [1]), .body (.data [2]), .body .ended]
      (.ok (.object [("type", .string "offer"), ("sdp", .string "v=0")])) :=
    ⟨[.body (.data [1]), .body (.data [2])], .ended, [], rfl, @Settles.parsed _ _ [[1], [2]] _ (Nat.le_refl 2) rfl, List.not_mem_nil⟩
  have offered : Handled smallHost smallHandler.settings 0 smallRequest (incomings 0 events.tail) .finished
      [.accept "v=0", .reply (answerOf (.ok .null))] :=
    .taken rfl (@Story.answered _ _ _ _ [] _ _ _ _ rfl read rfl fun _ => List.not_mem_nil)
  have busy : Handled smallHost smallHandler.settings 1 smallRequest (incomings 1 (events.drop 3)) .finished
      [.reply (errorReply 503 "busy")] := .turned rfl
  have told := (first.2.2 _ _).1 offered
  have turned := (second.2.2 _ _).1 busy
  exact ⟨first.1.trans (congrArg (fun outcome => some outcome.1) told.symm), first.2.1.trans (congrArg Prod.snd told.symm),
    second.1.trans (congrArg (fun outcome => some outcome.1) turned.symm), second.2.1.trans (congrArg Prod.snd turned.symm)⟩

theorem offers_guarded_two :
    createSignalingHandler "0123456789abcdef0123456789abcdef" (some 2) (some 1000) (some 1) = .ok smallHandler ∧
      ∃ pre message post, twoClients = pre ++ .request message :: post ∧ arrivals pre = 0 ∧
        (smallHandler.run smallHost pre).pending < 1 ∧ Offered smallHost smallHandler.settings message (incomings 0 post) "v=0" :=
  ⟨smallHandler_created, (offers_guarded smallHandler_created twoClients 0).1 "v=0" (List.mem_singleton.2 rfl)⟩

end RosBridge.Signaling
