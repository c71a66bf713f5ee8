import Mathlib.Data.List.Perm.Subperm
import RosBridge.Lib.Log
import RosBridge.Lib.Runs
import RosBridge.Transport.Endpoint
import RosBridge.Transport.Offers
/-!
# What an endpoint never does

Every entry of the trace is justified by what stands before it (`Justified`), whatever
reaches the endpoint and in whatever order. After `close` there is nothing left that a
late event could use: no channels, and no router call that gets to send.
-/

namespace RosBridge.Transport

open Lib Prog Session Endpoint

/-! ## The trace -/

def Mark.registers : Mark → Option DataChannel
  | .registered c => some c
  | _ => none

/-- The channels that were registered, in order. -/
def registered (trace : List Mark) : List DataChannel := trace.filterMap Mark.registers

/-- The readiness of the channels after a change. -/
def Mark.became' (m : Mark) (ready : Nat → ReadyState) : Nat → ReadyState :=
  match m with
  | .became id state => fun i => if i = id then state else ready i
  | _ => ready

/-- The readiness of the channels. -/
def readyOf (trace : List Mark) : Nat → ReadyState := trace.foldl (fun ready m => m.became' ready) fun _ => .connecting

/-- The three channels have been registered, each once and each with the delivery
attributes of its label. -/
def Complete (trace : List Mark) : Prop :=
  ((registered trace).map (·.label)).Perm labels ∧ ∀ c ∈ registered trace, c.proper = true

/-- What justifies an entry of the trace. -/
def Justified (before : List Mark) : Mark → Prop
  | .received c bytes => .shut ∉ before ∧ c ∈ registered before ∧ Complete before ∧ ∃ max, .routed max ∈ before ∧ bytes ≤ max
  | .handed c _ => .shut ∉ before ∧ c ∈ registered before ∧ readyOf before c.id = .opened
  | .registered c => .shut ∉ before ∧ c.label ∈ labels ∧ c.proper = true ∧ ∀ d ∈ registered before, d.label ≠ c.label
  | .routed _ => .shut ∉ before ∧ ∀ max, .routed max ∉ before
  | .settled => .notified ∈ before
  | .shut => .shut ∉ before
  | .routerClosed => .routerClosed ∉ before
  | .stopped slot => .stopped slot ∉ before
  | .notified => .notified ∉ before
  | .became _ _ | .failed => True

@[simp] theorem registered_append (trace more : List Mark) : registered (trace ++ more) = registered trace ++ registered more :=
  List.filterMap_append

@[simp] theorem readyOf_concat (trace : List Mark) (m : Mark) : readyOf (trace ++ [m]) = m.became' (readyOf trace) := by
  rw [readyOf, List.foldl_append]
  rfl

/-- A mark that neither registers a channel nor changes one. -/
def Mark.Quiet (m : Mark) : Prop := m.registers = none ∧ ∀ ready, m.became' ready = ready

theorem registered_quiet (trace : List Mark) {new : List Mark} (quiet : ∀ m ∈ new, m.Quiet) :
    registered (trace ++ new) = registered trace := by
  have none : registered new = [] := List.filterMap_eq_nil_iff.2 fun m mem => (quiet m mem).1
  rw [registered_append, none, List.append_nil]

theorem readyOf_quiet (trace : List Mark) {new : List Mark} (quiet : ∀ m ∈ new, m.Quiet) :
    readyOf (trace ++ new) = readyOf trace := by
  induction new generalizing trace with
  | nil => rw [List.append_nil]
  | cons m new ih =>
    have rest := ih (trace ++ [m]) fun m' mem => quiet m' (List.mem_cons_of_mem m mem)
    rw [readyOf_concat, (quiet m List.mem_cons_self).2, List.append_assoc] at rest
    exact rest

/-- What is justified by its absence happens once at most. -/
theorem count_le_one {m : Mark} (absent : ∀ before, Justified before m → m ∉ before) {trace : List Mark}
    (log : Logged Justified trace) : trace.count m ≤ 1 := by
  by_cases mem : m ∈ trace
  · obtain ⟨before, after, rfl, first⟩ := List.eq_append_cons_of_mem mem
    have rest : m ∉ after := by
      intro again
      obtain ⟨between, last, rfl⟩ := List.append_of_mem again
      have later := absent _ (log (before ++ m :: between) m last (by simp))
      exact later (by simp)
    rw [List.count_append, List.count_cons_self, List.count_eq_zero_of_not_mem first, List.count_eq_zero_of_not_mem rest]
  · rw [List.count_eq_zero_of_not_mem mem]
    exact Nat.zero_le _

/-! ## The invariant -/

/-- The state of an endpoint between events, and while a method of an open one runs. -/
structure Whole (e : Endpoint) : Prop where
  log : Logged Justified e.trace
  shut : .shut ∈ e.trace ↔ e.closed = true
  closing : e.closed = true ↔ e.closing ≠ .never
  emptied : e.closed = true → e.channels = .empty
  channels : e.closed = false → e.channels.values = registered e.trace
  keys : e.channels.keys = e.channels.values.map (·.label)
  listening : e.listening = registered e.trace
  routed : ∀ max, .routed max ∈ e.trace → e.router = true ∧ max = e.maxMessageBytes
  router : e.router = true → .routed e.maxMessageBytes ∈ e.trace ∧ e.used = true
  ready : e.ready = readyOf e.trace
  slots : e.slots.Nodup ∧ ∀ s ∈ e.slots, s < e.nextSlot
  released : (.routerClosed ∈ e.trace ∨ ∃ s, .stopped s ∈ e.trace) → e.closed = true
  notified : .notified ∈ e.trace ↔ e.closing = .notified ∨ e.closing = .settled
  settled : .settled ∈ e.trace → e.closing = .settled

namespace Whole

variable {e : Endpoint}

/-- A mark that no field of the endpoint depends on. -/
theorem marked (h : Whole e) {m : Mark} (justified : Justified e.trace m)
    (plain : m = .failed ∨ (∃ c n, m = .received c n) ∨ ∃ c n, m = .handed c n) : Whole { e with trace := e.trace ++ [m] } := by
  have apart : m.Quiet ∧ m ≠ .shut ∧ (∀ max, m ≠ .routed max) ∧ m ≠ .routerClosed ∧ (∀ s, m ≠ .stopped s) ∧
      m ≠ .notified ∧ m ≠ .settled := by
    rcases plain with rfl | ⟨c, n, rfl⟩ | ⟨c, n, rfl⟩ <;> simp [Mark.Quiet, Mark.registers, Mark.became']
  obtain ⟨quiet, shut, routed, routerClosed, stopped, notified, settled⟩ := apart
  have quiet : ∀ m' ∈ [m], m'.Quiet := fun m' mem => List.mem_singleton.1 mem ▸ quiet
  have same : registered (e.trace ++ [m]) = registered e.trace := registered_quiet e.trace quiet
  constructor
  · exact h.log.concat justified
  · simpa [shut.symm] using h.shut
  · exact h.closing
  · exact h.emptied
  · exact fun isOpen => (h.channels isOpen).trans same.symm
  · exact h.keys
  · exact h.listening.trans same.symm
  · exact fun max mem => h.routed max (by simpa [(routed max).symm] using mem)
  · exact fun router => ⟨List.mem_append_left _ (h.router router).1, (h.router router).2⟩
  · exact h.ready.trans (readyOf_quiet e.trace quiet).symm
  · exact h.slots
  · intro mem
    apply h.released
    simpa [routerClosed.symm, fun s => (stopped s).symm] using mem
  · simpa [notified.symm] using h.notified
  · exact fun mem => h.settled (by simpa [settled.symm] using mem)

/-- A field that the invariant does not read. -/
theorem routerClosed (h : Whole e) (isClosed : Bool) : Whole { e with routerClosed := isClosed } := { h with }

theorem timer (h : Whole e) : Whole { e with timer := false } := { h with }

end Whole

/-! ## Calls of the router -/

/-- What a call of the router changes. -/
def Framed (e e' : Endpoint) : Prop := ∃ new isClosed, e' = { e with trace := e.trace ++ new, routerClosed := isClosed }

theorem Framed.refl (e : Endpoint) : Framed e e := ⟨[], e.routerClosed, by simp⟩

theorem Framed.trans {e e' e'' : Endpoint} (h : Framed e e') (h' : Framed e' e'') : Framed e e'' := by
  obtain ⟨new, isClosed, rfl⟩ := h
  obtain ⟨more, again, rfl⟩ := h'
  exact ⟨new ++ more, again, by simp⟩

section Calls

variable {e : Endpoint} {label : String} {bytes : List UInt8} {call : Call} {ends : Ends}

theorem send_closed (closed : e.closed = true) : (send label bytes).exec e = (.ok false, e) := by
  unfold send
  rw [exec_bind_ok (exec_get e), if_pos closed]
  rfl

/-- Bytes go to a channel that is registered and open. -/
theorem send_spec (h : Whole e) :
    wp (send label bytes) (fun _ e' => Whole e' ∧ Framed e e') (fun _ e' => Whole e' ∧ Framed e e') e := by
  unfold send
  rw [wp_bind, wp_get, wp_ite]
  constructor
  · intro _
    exact ⟨h, .refl e⟩
  intro isOpen
  cases found : e.channels.get? label with
  | none => exact ⟨h, .refl e⟩
  | some c =>
    simp only [wp_ite, wp_bind, wp_throwIf, wp_pure, mark, wp_modify]
    refine ⟨fun _ => ⟨h, .refl e⟩, fun ready => ⟨fun _ => ⟨h, .refl e⟩, fun _ => ⟨fun _ => ⟨h, .refl e⟩, fun _ => ?_⟩⟩⟩
    have isOpen : e.closed = false := by simpa using isOpen
    have mem : c ∈ registered e.trace := h.channels isOpen ▸ Table.mem_values_iff.2 ⟨label, found⟩
    have justified : Justified e.trace (.handed c bytes.length) := by
      refine ⟨fun shut => ?_, mem, ?_⟩
      · rw [h.shut.1 shut] at isOpen
        cases isOpen
      · rw [← h.ready]
        exact not_not.1 ready
    exact ⟨h.marked justified (.inr (.inr ⟨c, _, rfl⟩)), [_], e.routerClosed, rfl⟩

theorem sendAll_closed (closed : e.closed = true) (messages : List (String × List UInt8)) :
    (sendAll messages).exec e = (.ok (), e) := by
  induction messages with
  | nil => rfl
  | cons message messages ih =>
    have sent : (tryCatch (do let _ ← send message.1 message.2) fun _ => pure () : EndpointM Unit).exec e = (.ok (), e) := by
      rw [exec_tryCatch, exec_bind_ok (send_closed closed)]
      rfl
    rw [sendAll, exec_bind_ok sent, ih]

theorem sendAll_spec (h : Whole e) (messages : List (String × List UInt8)) :
    wp (sendAll messages) (fun _ e' => Whole e' ∧ Framed e e') (fun _ _ => False) e := by
  induction messages generalizing e with
  | nil => exact ⟨h, .refl e⟩
  | cons message messages ih =>
    simp only [sendAll, wp_bind, wp_tryCatch, wp_pure]
    -- The router goes on whether or not the send was refused.
    have rest : ∀ e', Whole e' ∧ Framed e e' →
        wp (sendAll messages) (fun _ e' => Whole e' ∧ Framed e e') (fun _ _ => False) e' := by
      intro e' h'
      exact wp_mono (ih h'.1) (fun _ _ h => ⟨h.1, h'.2.trans h.2⟩) fun _ _ => id
    exact wp_mono (send_spec h) (fun _ => rest) fun _ => rest

/-- The router of a closed endpoint does nothing to it. -/
theorem invoke_closed (closed : e.closed = true) (call : Call) :
    (invoke call).exec e = (if call.throws then .error "router_failed" else .ok (), { e with routerClosed := call.isClosed }) := by
  unfold invoke
  rw [exec_bind_ok (sendAll_closed closed _), exec_bind_ok (exec_modify _ _)]
  cases throws : call.throws <;> simp [throwIf]

theorem invoke_spec (h : Whole e) :
    wp (invoke call) (fun _ e' => Whole e' ∧ Framed e e') (fun _ e' => Whole e' ∧ Framed e e') e := by
  simp only [invoke, wp_bind, wp_modify, wp_throwIf]
  apply wp_mono (sendAll_spec h _)
  · intro _ e' h'
    have framed : Framed e { e' with routerClosed := call.isClosed } := h'.2.trans ⟨[], call.isClosed, by simp⟩
    exact ⟨fun _ => ⟨h'.1.routerClosed _, framed⟩, fun _ => ⟨h'.1.routerClosed _, framed⟩⟩
  · exact fun _ _ => False.elim

/-! ## Closing -/

def stopMarks (stops : Nat → Bool) (slots : List Nat) : List Mark :=
  slots.flatMap fun slot => .stopped slot :: if stops slot then [] else [.failed]

def routerMarks (router throws : Bool) : List Mark :=
  if router then .routerClosed :: if throws then [.failed] else [] else []

/-- What `close` adds to the trace of an open endpoint. -/
def closeMarks (e : Endpoint) (ends : Ends) : List Mark :=
  .shut :: (routerMarks e.router ends.router.throws ++ stopMarks ends.stops e.slots)

theorem stopAll_exec (stops : Nat → Bool) (slots : List Nat) :
    (stopAll stops slots).exec e = (.ok (), { e with trace := e.trace ++ stopMarks stops slots }) := by
  induction slots generalizing e with
  | nil => simp [stopAll, stopMarks]
  | cons slot slots ih =>
    rw [stopAll, mark, exec_bind_ok (exec_modify _ _)]
    cases stopped : stops slot with
    | true =>
      rw [when, if_neg (by simp), exec_bind_ok (exec_pure _ _), ih]
      simp [stopMarks, stopped]
    | false =>
      rw [when, if_pos (by simp), mark, exec_bind_ok (exec_modify _ _), ih]
      simp [stopMarks, stopped]

/-- The router of a closed endpoint is closed, whether or not it throws. -/
theorem revoke_exec (closed : e.closed = true) (call : Call) :
    (when (e.router = true) (do mark .routerClosed; tryCatch (invoke call) fun _ => mark .failed)).exec e =
      (.ok (), { e with
        routerClosed := if e.router then call.isClosed else e.routerClosed
        trace := e.trace ++ routerMarks e.router call.throws }) := by
  by_cases router : e.router = true
  · rw [when, if_pos router, mark, exec_bind_ok (exec_modify _ _), exec_tryCatch, invoke_closed (by exact closed)]
    cases throws : call.throws <;> simp [routerMarks, router, mark]
  · rw [when, if_neg router, routerMarks, if_neg router, if_neg router, List.append_nil]
    rfl

/-- An endpoint after its first `close`. -/
def shutDown (e : Endpoint) (ends : Ends) : Endpoint :=
  { e with
    closed := true, timer := false, answering := false, slots := [], channels := .empty, closing := .racing
    routerClosed := if e.router then ends.router.isClosed else e.routerClosed
    trace := e.trace ++ closeMarks e ends }

theorem close_exec (first : e.closing = .never) (ends : Ends) : (close ends).exec e = (.ok (), shutDown e ends) := by
  unfold close
  rw [exec_bind_ok (exec_get e), when, if_pos first, mark, exec_bind_ok (exec_modify _ _), exec_bind_ok (exec_modify _ _),
    exec_bind_ok (exec_get _), exec_bind_ok (revoke_exec (by rfl) _), exec_bind_ok (exec_get _), exec_bind_ok (exec_modify _ _),
    exec_bind_ok (stopAll_exec _ _), exec_modify]
  simp [shutDown, closeMarks]

theorem close_again (again : e.closing ≠ .never) (ends : Ends) : (close ends).exec e = (.ok (), e) := by
  unfold close
  rw [exec_bind_ok (exec_get e), when, if_neg again]
  rfl

end Calls

theorem mem_stopMarks {stops : Nat → Bool} {slots : List Nat} {m : Mark} (mem : m ∈ stopMarks stops slots) :
    m = .failed ∨ ∃ s ∈ slots, m = .stopped s := by
  obtain ⟨slot, found, mem⟩ := List.mem_flatMap.1 mem
  rcases List.mem_cons.1 mem with rfl | mem
  · exact .inr ⟨slot, found, rfl⟩
  · left
    cases stopped : stops slot <;> simp_all

theorem mem_routerMarks {router throws : Bool} {m : Mark} (mem : m ∈ routerMarks router throws) :
    m = .routerClosed ∨ m = .failed := by
  cases router <;> cases throws <;> simp_all [routerMarks]

theorem mem_closeMarks {e : Endpoint} {ends : Ends} {m : Mark} (mem : m ∈ closeMarks e ends) :
    m = .shut ∨ m = .routerClosed ∨ m = .failed ∨ ∃ s ∈ e.slots, m = .stopped s := by
  rcases List.mem_cons.1 mem with rfl | mem
  · exact .inl rfl
  rcases List.mem_append.1 mem with mem | mem
  · rcases mem_routerMarks mem with rfl | rfl
    · exact .inr (.inl rfl)
    · exact .inr (.inr (.inl rfl))
  · exact .inr (.inr (mem_stopMarks mem))

theorem logged_routerMarks {trace : List Mark} (router throws : Bool) (log : Logged Justified trace)
    (fresh : .routerClosed ∉ trace) : Logged Justified (trace ++ routerMarks router throws) := by
  have called : Logged Justified (trace ++ [.routerClosed]) := log.concat fresh
  cases router with
  | false => simpa [routerMarks] using log
  | true =>
    cases throws with
    | false => simpa [routerMarks] using called
    | true =>
      have failed : Logged Justified (trace ++ [.routerClosed] ++ [.failed]) := called.concat trivial
      simpa [routerMarks] using failed

/-- Different slots that were not stopped are stopped, one after the other. -/
theorem logged_stopMarks {trace : List Mark} (stops : Nat → Bool) {slots : List Nat} (log : Logged Justified trace)
    (nodup : slots.Nodup) (fresh : ∀ s ∈ slots, .stopped s ∉ trace) : Logged Justified (trace ++ stopMarks stops slots) := by
  induction slots generalizing trace with
  | nil => simpa [stopMarks] using log
  | cons slot slots ih =>
    obtain ⟨apart, nodup⟩ := List.nodup_cons.1 nodup
    have first : Logged Justified (trace ++ [.stopped slot]) := log.concat (fresh slot (by simp))
    have later : ∀ s ∈ slots, s ≠ slot := fun s mem same => apart (same ▸ mem)
    cases stopped : stops slot with
    | true =>
      have rest := ih first nodup fun s mem => by simp [fresh s (by simp [mem]), later s mem]
      simpa [stopMarks, stopped] using rest
    | false =>
      have failed : Logged Justified (trace ++ [.stopped slot] ++ [.failed]) := first.concat trivial
      have rest := ih failed nodup fun s mem => by simp [fresh s (by simp [mem]), later s mem]
      simpa [stopMarks, stopped] using rest

namespace Whole

variable {e : Endpoint}

theorem not_shut (h : Whole e) (isOpen : e.closed = false) : .shut ∉ e.trace := by
  intro shut
  rw [h.shut.1 shut] at isOpen
  cases isOpen

theorem logged_closeMarks (h : Whole e) (isOpen : e.closed = false) (ends : Ends) :
    Logged Justified (e.trace ++ closeMarks e ends) := by
  have unreleased : ¬(.routerClosed ∈ e.trace ∨ ∃ s, .stopped s ∈ e.trace) := by
    intro released
    rw [h.released released] at isOpen
    cases isOpen
  obtain ⟨router, slots⟩ := not_or.1 unreleased
  have begun : Logged Justified (e.trace ++ [.shut]) := h.log.concat (h.not_shut isOpen)
  have revoked := logged_routerMarks e.router ends.router.throws begun (by simpa using router)
  have fresh : ∀ s ∈ e.slots, .stopped s ∉ e.trace ++ [.shut] ++ routerMarks e.router ends.router.throws := by
    intro s _ mem
    rcases List.mem_append.1 mem with mem | mem
    · exact slots ⟨s, by simpa using mem⟩
    · rcases mem_routerMarks mem with eq | eq <;> cases eq
  have all := logged_stopMarks ends.stops revoked h.slots.1 fresh
  simpa [closeMarks] using all

/-- Closing for the first time. -/
theorem shutDown (h : Whole e) (first : e.closing = .never) (ends : Ends) : Whole (shutDown e ends) := by
  have isOpen : e.closed = false := by
    cases closed : e.closed with
    | false => rfl
    | true => exact absurd first (h.closing.1 closed)
  have quiet : ∀ m ∈ closeMarks e ends, m.Quiet := by
    intro m mem
    rcases mem_closeMarks mem with rfl | rfl | rfl | ⟨s, -, rfl⟩ <;> exact ⟨rfl, fun _ => rfl⟩
  -- `close` alone neither notifies, nor settles, nor makes a router.
  have other : ∀ m ∈ e.trace ++ closeMarks e ends, (m = .notified ∨ m = .settled ∨ ∃ max, m = .routed max) → m ∈ e.trace := by
    intro m mem kind
    rcases List.mem_append.1 mem with mem | mem
    · exact mem
    · rcases mem_closeMarks mem with rfl | rfl | rfl | ⟨s, -, rfl⟩ <;> simp at kind
  have unnotified : .notified ∉ e.trace := by
    intro mem
    rcases h.notified.1 mem with now | now <;> rw [first] at now <;> cases now
  constructor
  · exact h.logged_closeMarks isOpen ends
  · simp [Transport.shutDown, closeMarks]
  · simp [Transport.shutDown]
  · exact fun _ => rfl
  · intro isOpen
    cases isOpen
  · rfl
  · exact h.listening.trans (registered_quiet e.trace quiet).symm
  · exact fun max mem => h.routed max (other _ mem (.inr (.inr ⟨max, rfl⟩)))
  · exact fun router => ⟨List.mem_append_left _ (h.router router).1, (h.router router).2⟩
  · exact h.ready.trans (readyOf_quiet e.trace quiet).symm
  · exact ⟨List.nodup_nil, fun s mem => absurd mem List.not_mem_nil⟩
  · exact fun _ => rfl
  · constructor
    · exact fun mem => absurd (other _ mem (.inl rfl)) unnotified
    · intro now
      rcases now with now | now <;> cases now
  · intro mem
    have now := h.settled (other _ mem (.inr (.inl rfl)))
    rw [first] at now
    cases now

end Whole

/-- `close` returns, and the endpoint is closed. -/
theorem close_spec {e : Endpoint} (h : Whole e) (ends : Ends) :
    wp (close ends) (fun _ e' => Whole e' ∧ e'.closed = true) (fun _ _ => False) e := by
  by_cases first : e.closing = .never
  · rw [wp, close_exec first]
    exact ⟨h.shutDown first ends, rfl⟩
  · rw [wp, close_again first]
    exact ⟨h, h.closing.2 first⟩

/-! ## Events -/

/-- `m` keeps the invariant, whether it returns or throws. -/
def Keeps (m : EndpointM Unit) : Prop := ∀ e, Whole e → wp m (fun _ => Whole) (fun _ => Whole) e

section Events

variable (call : Call) (ends : Ends)

theorem close_keeps : Keeps (close ends) :=
  fun _ h => wp_mono (close_spec h ends) (fun _ _ h => h.1) fun _ _ => False.elim

theorem flush_keeps : Keeps (flush call ends) := by
  intro e h
  simp only [flush, wp_bind, wp_get, wp_when]
  refine ⟨fun _ => ?_, fun _ => h⟩
  apply wp_mono (invoke_spec h) (fun _ e' h' => ?_) (fun _ _ h' => h'.1)
  exact ⟨fun _ => close_keeps ends e' h'.1, fun _ => h'.1⟩

theorem opened_keeps : Keeps (opened call ends) := by
  intro e h
  simp only [opened, wp_bind, wp_get, wp_when, wp_modify]
  exact ⟨fun _ => flush_keeps call ends _ h.timer, fun _ => h⟩

/-- Another channel is registered. -/
theorem Whole.register {e : Endpoint} (h : Whole e) (isOpen : e.closed = false) {c : DataChannel} (known : c.label ∈ labels)
    (fresh : e.channels.has c.label = false) (proper : c.proper = true) :
    Whole { e with
      channels := e.channels.set c.label c, listening := e.listening ++ [c], trace := e.trace ++ [.registered c] } := by
  have absent : e.channels.get? c.label = none := by
    cases found : e.channels.get? c.label with
    | none => rfl
    | some d => simp [Table.has, found] at fresh
  have entries := Table.entries_set_of_get?_none c absent
  have values : (e.channels.set c.label c).values = e.channels.values ++ [c] := by simp [Table.values, entries]
  have keys : (e.channels.set c.label c).keys = e.channels.keys ++ [c.label] := by simp [Table.keys, entries]
  have apart : ∀ d ∈ registered e.trace, d.label ≠ c.label := by
    intro d mem same
    apply Table.get?_eq_none_iff.1 absent
    rw [h.keys, h.channels isOpen, ← same]
    exact List.mem_map_of_mem mem
  have one : registered (e.trace ++ [.registered c]) = registered e.trace ++ [c] := by simp [registered, Mark.registers]
  constructor
  · exact h.log.concat ⟨h.not_shut isOpen, known, proper, apart⟩
  · simpa using h.shut
  · exact h.closing
  · intro closed
    rw [isOpen] at closed
    cases closed
  · intro _
    show (e.channels.set c.label c).values = _
    rw [values, one, h.channels isOpen]
  · show (e.channels.set c.label c).keys = (e.channels.set c.label c).values.map _
    rw [values, keys, List.map_append, h.keys]
    rfl
  · show e.listening ++ [c] = _
    rw [one, h.listening]
  · exact fun max mem => h.routed max (by simpa using mem)
  · exact fun router => ⟨List.mem_append_left _ (h.router router).1, (h.router router).2⟩
  · rw [readyOf_concat]
    exact h.ready
  · exact h.slots
  · intro mem
    apply h.released
    simpa using mem
  · simpa using h.notified
  · exact fun mem => h.settled (by simpa using mem)

theorem channel_keeps (c : DataChannel) : Keeps (channel c call ends) := by
  intro e h
  simp only [channel, wp_bind, wp_get, wp_ite, mark, wp_modify]
  refine ⟨fun _ => close_keeps ends e h, fun good => ?_⟩
  simp only [not_or, not_not, Bool.not_eq_true, Bool.not_eq_false'] at good
  obtain ⟨isOpen, known, fresh, proper⟩ := good
  exact opened_keeps call ends _ (h.register isOpen known fresh proper)

/-- Three registered channels are the three that there have to be. -/
theorem Whole.complete {e : Endpoint} (h : Whole e) (isOpen : e.closed = false) (three : e.channels.size = 3) :
    Complete e.trace := by
  have valid : ∀ c ∈ registered e.trace, c.label ∈ labels ∧ c.proper = true := by
    intro c mem
    obtain ⟨m, mem, eq⟩ := List.mem_filterMap.1 mem
    cases m with
    | registered d =>
      cases eq
      obtain ⟨before, -, justified⟩ := h.log.mem mem
      exact ⟨justified.2.1, justified.2.2.1⟩
    | _ => cases eq
  have keys : (registered e.trace).map (·.label) = e.channels.keys := by rw [h.keys, h.channels isOpen]
  refine ⟨?_, fun c mem => (valid c mem).2⟩
  rw [keys]
  have sub : e.channels.keys ⊆ labels := by
    intro label mem
    rw [← keys] at mem
    obtain ⟨c, found, rfl⟩ := List.mem_map.1 mem
    exact (valid c found).1
  apply List.Subperm.perm_of_length_le (e.channels.nodup.subperm sub)
  have length : e.channels.keys.length = 3 := by rw [← three, Table.keys, List.length_map, Table.size]
  exact length.ge

theorem message_keeps (c : DataChannel) (value : Message) {e : Endpoint} (h : Whole e) (listening : c ∈ e.listening) :
    wp (message c value call ends) (fun _ => Whole) (fun _ => Whole) e := by
  simp only [message, wp_bind, wp_get, wp_ite, mark, wp_modify, wp_when]
  refine ⟨fun _ => close_keeps ends e h, fun complete => ⟨fun _ => close_keeps ends e h, fun fits => ?_⟩⟩
  simp only [not_or, not_not, Bool.not_eq_true, Bool.not_eq_false'] at complete
  obtain ⟨three, router⟩ := complete
  have isOpen : e.closed = false := by
    cases closed : e.closed with
    | false => rfl
    | true =>
      rw [h.emptied closed] at three
      cases three
  have justified : Justified e.trace (.received c value.byteLength) :=
    ⟨h.not_shut isOpen, h.listening ▸ listening, h.complete isOpen three, e.maxMessageBytes, (h.router router).1, Nat.le_of_not_lt fits⟩
  have h := h.marked justified (.inr (.inl ⟨c, _, rfl⟩))
  apply wp_mono (invoke_spec h) (fun _ e' h' => ?_) (fun _ _ h' => h'.1)
  exact ⟨fun _ => close_keeps ends e' h'.1, fun _ => h'.1⟩

theorem stateChanged_keeps (state : ReadyState) : Keeps (Endpoint.stateChanged state call ends) := by
  intro e h
  unfold Endpoint.stateChanged
  rw [wp_ite]
  exact ⟨fun _ => close_keeps ends e h, fun _ => opened_keeps call ends e h⟩

/-! ### The answer -/

/-- The state of an endpoint while it answers. -/
structure Negotiating (e : Endpoint) : Prop where
  whole : Whole e
  router : e.router = false
  used : e.used = true
  isOpen : e.closed = false

namespace Negotiating

variable {e e' : Endpoint}

theorem framed (h : Negotiating e) (whole : Whole e') (framed : Framed e e') : Negotiating e' := by
  obtain ⟨new, isClosed, rfl⟩ := framed
  exact ⟨whole, h.router, h.used, h.isOpen⟩

theorem unrouted (h : Negotiating e) (max : Nat) : .routed max ∉ e.trace := by
  intro mem
  have router := (h.whole.routed max mem).1
  rw [h.router] at router
  cases router

theorem unmade (h : Negotiating e) : e.router ≠ true := by
  rw [h.router]
  exact Bool.false_ne_true

/-- Without a router the limit can still change. -/
theorem limited (h : Negotiating e) (max : Nat) : Negotiating { e with maxMessageBytes := max } := by
  have whole : Whole { e with maxMessageBytes := max } :=
    { h.whole with
      routed := fun m mem => absurd mem (h.unrouted m)
      router := fun router => absurd router h.unmade }
  exact ⟨whole, h.router, h.used, h.isOpen⟩

theorem slotAdded (h : Negotiating e) :
    Negotiating { e with slots := e.slots ++ [e.nextSlot], nextSlot := e.nextSlot + 1 } := by
  obtain ⟨nodup, below⟩ := h.whole.slots
  have fresh : e.nextSlot ∉ e.slots := fun mem => Nat.lt_irrefl _ (below _ mem)
  have below : ∀ s ∈ e.slots ++ [e.nextSlot], s < e.nextSlot + 1 := by
    intro s mem
    rcases List.mem_append.1 mem with mem | mem
    · exact Nat.lt_succ_of_lt (below s mem)
    · rw [List.mem_singleton.1 mem]
      exact Nat.lt_succ_self _
  have whole : Whole { e with slots := e.slots ++ [e.nextSlot], nextSlot := e.nextSlot + 1 } :=
    { h.whole with slots := ⟨List.nodup_append.2 ⟨nodup, List.nodup_singleton _, by
        intro s mem s' mem' same
        rw [same, List.mem_singleton.1 mem'] at mem
        exact fresh mem⟩, below⟩ }
  exact ⟨whole, h.router, h.used, h.isOpen⟩

/-- The router is there. -/
theorem made (h : Negotiating e) :
    Whole { e with router := true, timer := true, answering := true, trace := e.trace ++ [.routed e.maxMessageBytes] } := by
  have quiet : ∀ m ∈ [Mark.routed e.maxMessageBytes], m.Quiet := by
    intro m mem
    rw [List.mem_singleton.1 mem]
    exact ⟨rfl, fun _ => rfl⟩
  have same := registered_quiet e.trace quiet
  constructor
  · exact h.whole.log.concat ⟨h.whole.not_shut h.isOpen, h.unrouted⟩
  · simpa using h.whole.shut
  · exact h.whole.closing
  · exact h.whole.emptied
  · exact fun isOpen => (h.whole.channels isOpen).trans same.symm
  · exact h.whole.keys
  · exact h.whole.listening.trans same.symm
  · intro max mem
    rcases List.mem_append.1 mem with mem | mem
    · exact absurd mem (h.unrouted max)
    · exact ⟨rfl, Mark.routed.inj (List.mem_singleton.1 mem)⟩
  · exact fun _ => ⟨List.mem_append_right _ (List.mem_singleton.2 rfl), h.used⟩
  · exact h.whole.ready.trans (readyOf_quiet e.trace quiet).symm
  · exact h.whole.slots
  · intro mem
    apply h.whole.released
    simpa using mem
  · simpa using h.whole.notified
  · exact fun mem => h.whole.settled (by simpa using mem)

end Negotiating

theorem addSlots_spec {e : Endpoint} (h : Negotiating e) (adds : Nat → Bool) (offered : List OfferedVideo) :
    wp (addSlots adds offered) (fun _ => Negotiating) (fun _ => Negotiating) e := by
  induction offered generalizing e with
  | nil => exact h
  | cons video offered ih =>
    simp only [addSlots, wp_bind, wp_get, wp_throwIf, wp_set]
    exact ⟨fun _ => h, fun _ => ih h.slotAdded⟩

theorem negotiate_spec {e : Endpoint} (h : Negotiating e) (offer : Offer) (setup : Setup) :
    wp (negotiate offer setup) (fun _ => Whole) (fun _ => Whole) e := by
  unfold negotiate
  rw [wp_bind, wp_get]
  cases offer.sdp with
  | none => exact h.whole
  | some sdp =>
    have routed : ∀ e', Negotiating e' → wp (do
        invoke setup.makeRouter
        mark (.routed (← get).maxMessageBytes)
        modify fun e => { e with router := true, timer := true, answering := true })
        (fun _ => Whole) (fun _ => Whole) e' := by
      intro e' h
      simp only [wp_bind, wp_get, mark, wp_modify]
      exact wp_mono (invoke_spec h.whole) (fun _ _ h' => (h.framed h'.1 h'.2).made) fun _ _ h' => h'.1
    -- What is left once the limit is known.
    have rest : ∀ e', Negotiating e' → ∀ video : List OfferedVideo, wp (do
        when (e.options.maxSlots.isSome = true) (addSlots setup.adds video)
        invoke setup.makeRouter
        mark (.routed (← get).maxMessageBytes)
        modify fun e => { e with router := true, timer := true, answering := true })
        (fun _ => Whole) (fun _ => Whole) e' := by
      intro e' h video
      rw [wp_bind, wp_when]
      exact ⟨fun _ => wp_mono (addSlots_spec h _ _) (fun _ => routed) fun _ _ h => h.whole, fun _ => routed e' h⟩
    rw [wp_bind, wp_throwIf]
    refine ⟨fun _ => h.whole, fun _ => ?_⟩
    rw [wp_bind, wp_ofExcept]
    refine ⟨fun shape _ => ?_, fun _ _ => h.whole⟩
    rw [wp_bind, wp_when, wp_modify]
    exact ⟨fun _ => rest _ (h.limited _) shape.video, fun _ => rest e h shape.video⟩

theorem answer_keeps (offer : Offer) (setup : Setup) : Keeps (answer offer setup ends) := by
  intro e h
  simp only [answer, wp_bind, wp_get, wp_throwIf, wp_modify, wp_tryCatch, wp_throw]
  refine ⟨fun _ => h, fun free => ?_⟩
  simp only [not_or, Bool.not_eq_true] at free
  have router : e.router = false := by
    cases router : e.router with
    | false => rfl
    | true =>
      rw [(h.router router).2] at free
      cases free.1
  have negotiating : Negotiating { e with used := true } :=
    ⟨{ h with router := fun made => ⟨(h.router made).1, rfl⟩ }, router, rfl, free.2⟩
  apply wp_mono (negotiate_spec negotiating offer setup) (fun _ _ => id)
  exact fun error e' h' => wp_mono (close_spec h' ends) (fun _ _ h => h.1) fun _ _ => False.elim

theorem negotiated_keeps (description : Option Nat) : Keeps (negotiated description ends) := by
  intro e h
  simp only [negotiated, wp_bind, wp_get, wp_when, wp_modify]
  have h' : Whole { e with answering := false } := { h with }
  exact ⟨fun _ => ⟨fun _ => close_keeps ends _ h', fun _ => h'⟩, fun _ => h⟩

end Events

/-! ### Every event -/

/-- The readiness of a channel changes. -/
theorem Whole.became {e : Endpoint} (h : Whole e) (id : Nat) (state : ReadyState) :
    Whole { e with ready := fun i => if i = id then state else e.ready i, trace := e.trace ++ [.became id state] } := by
  have same : registered (e.trace ++ [.became id state]) = registered e.trace := by simp [registered, Mark.registers]
  constructor
  · exact h.log.concat trivial
  · simpa using h.shut
  · exact h.closing
  · exact h.emptied
  · exact fun isOpen => (h.channels isOpen).trans same.symm
  · exact h.keys
  · exact h.listening.trans same.symm
  · exact fun max mem => h.routed max (by simpa using mem)
  · exact fun router => ⟨List.mem_append_left _ (h.router router).1, (h.router router).2⟩
  · rw [readyOf_concat, ← h.ready]
    rfl
  · exact h.slots
  · intro mem
    apply h.released
    simpa using mem
  · simpa using h.notified
  · exact fun mem => h.settled (by simpa using mem)

/-- The promise of `close` gets further, and the trace with it. -/
theorem Whole.settles {e : Endpoint} (h : Whole e) {m : Mark} {closing : Closing}
    (next : e.closing = .ended ∧ m = .notified ∧ closing = .notified ∨ e.closing = .notified ∧ m = .settled ∧ closing = .settled) :
    Whole { e with closing := closing, trace := e.trace ++ [m] } := by
  have quiet : ∀ m' ∈ [m], m'.Quiet := by
    intro m' mem
    rw [List.mem_singleton.1 mem]
    rcases next with ⟨-, rfl, -⟩ | ⟨-, rfl, -⟩ <;> exact ⟨rfl, fun _ => rfl⟩
  have other : ∀ m' ∈ e.trace ++ [m], m' ≠ .notified → m' ≠ .settled → m' ∈ e.trace := by
    intro m' mem notified settled
    rcases List.mem_append.1 mem with mem | mem
    · exact mem
    · rw [List.mem_singleton.1 mem] at notified settled
      rcases next with ⟨-, rfl, -⟩ | ⟨-, rfl, -⟩
      · exact absurd rfl notified
      · exact absurd rfl settled
  have unsettled : .settled ∉ e.trace := by
    intro mem
    have now := h.settled mem
    rcases next with ⟨was, -⟩ | ⟨was, -⟩ <;> rw [now] at was <;> cases was
  have same := registered_quiet e.trace quiet
  constructor
  · apply h.log.concat
    rcases next with ⟨was, rfl, -⟩ | ⟨was, rfl, -⟩
    · intro mem
      rcases h.notified.1 mem with now | now <;> rw [was] at now <;> cases now
    · exact h.notified.2 (.inl was)
  · constructor
    · intro mem
      exact h.shut.1 (other _ mem (by simp) (by simp))
    · exact fun closed => List.mem_append_left _ (h.shut.2 closed)
  · have began : e.closing ≠ .never := by rcases next with ⟨was, -⟩ | ⟨was, -⟩ <;> simp [was]
    have goes : closing ≠ .never := by rcases next with ⟨-, -, rfl⟩ | ⟨-, -, rfl⟩ <;> simp
    exact ⟨fun _ => goes, fun _ => h.closing.2 began⟩
  · exact h.emptied
  · exact fun isOpen => (h.channels isOpen).trans same.symm
  · exact h.keys
  · exact h.listening.trans same.symm
  · exact fun max mem => h.routed max (other _ mem (by simp) (by simp))
  · exact fun router => ⟨List.mem_append_left _ (h.router router).1, (h.router router).2⟩
  · exact h.ready.trans (readyOf_quiet e.trace quiet).symm
  · exact h.slots
  · rintro (mem | ⟨s, mem⟩)
    · exact h.released (.inl (other _ mem (by simp) (by simp)))
    · exact h.released (.inr ⟨s, other _ mem (by simp) (by simp)⟩)
  · rcases next with ⟨-, rfl, rfl⟩ | ⟨was, rfl, rfl⟩
    · simp
    · simp [h.notified, was]
  · intro mem
    rcases next with ⟨-, rfl, rfl⟩ | ⟨-, -, rfl⟩
    · simp [unsettled] at mem
    · rfl

/-- The wait for the peer is over. -/
theorem Whole.ended {e : Endpoint} (h : Whole e) (racing : e.closing = .racing) : Whole { e with closing := .ended } := by
  have unnotified : ¬(e.closing = .notified ∨ e.closing = .settled) := by simp [racing]
  have begun : e.closing ≠ .never := by simp [racing]
  exact { h with
    closing := ⟨fun _ => by simp, fun _ => h.closing.2 begun⟩
    notified := ⟨fun mem => absurd (h.notified.1 mem) unnotified, fun now => by simp at now⟩
    settled := fun mem => absurd (.inr (h.settled mem)) unnotified }

theorem code_keeps (event : Event) : Keeps event.code := by
  intro e h
  cases event with
  | announced c call ends => exact channel_keeps call ends c e h
  | stateChanged c state call ends =>
    simp only [Event.code, wp_bind, wp_get, wp_when]
    exact ⟨fun _ => stateChanged_keeps call ends state e h, fun _ => h⟩
  | message c value call ends =>
    simp only [Event.code, wp_bind, wp_get, wp_when]
    exact ⟨message_keeps call ends c value h, fun _ => h⟩
  | bufferedAmountLow c call ends =>
    simp only [Event.code, wp_bind, wp_get, wp_when]
    exact ⟨fun _ => flush_keeps call ends e h, fun _ => h⟩
  | connectionStateChange state ends =>
    simp only [Event.code, wp_when]
    exact ⟨fun _ => close_keeps ends e h, fun _ => h⟩
  | answer offer setup ends => exact answer_keeps ends offer setup e h
  | negotiated description ends => exact negotiated_keeps ends description e h
  | timeout ends =>
    simp only [Event.code, wp_bind, wp_get, wp_when]
    exact ⟨fun _ => close_keeps ends e h, fun _ => h⟩
  | close ends => exact close_keeps ends e h
  | send label bytes =>
    simp only [Event.code, wp_bind, wp_pure]
    exact wp_mono (send_spec h) (fun _ _ h => h.1) fun _ _ h => h.1
  | became id state => exact h.became id state
  | buffered id bytes => exact { h with }
  | ended error =>
    simp only [Event.code, wp_bind, wp_get, wp_when, mark, wp_modify]
    refine ⟨fun racing => ⟨fun _ => ?_, fun _ => h.ended racing⟩, fun _ => h⟩
    exact (h.marked (m := .failed) trivial (.inl rfl)).ended racing
  | notified =>
    simp only [Event.code, wp_bind, wp_get, wp_when, mark, wp_modify]
    exact ⟨fun was => h.settles (.inl ⟨was, rfl, rfl⟩), fun _ => h⟩
  | settled =>
    simp only [Event.code, wp_bind, wp_get, wp_when, mark, wp_modify]
    exact ⟨fun was => h.settles (.inr ⟨was, rfl, rfl⟩), fun _ => h⟩

theorem step_whole {e : Endpoint} (event : Event) (h : Whole e) : Whole (step e event) :=
  after_of_wp (code_keeps event e h)

theorem create_whole {maxMessageBytes maxBufferedBytes maxSdpBytes timeoutMs : Session.Num} {maxSlots : Option ℚ} {e : Endpoint}
    (made : create maxMessageBytes maxBufferedBytes maxSdpBytes timeoutMs maxSlots = .ok e) : Whole e := by
  unfold create at made
  split at made
  · split at made
    · cases made
    · cases made
      constructor <;> simp [logged_nil, Table.empty, Table.keys, Table.values, registered, readyOf]
  · cases made

theorem run_whole {e : Endpoint} (h : Whole e) (events : List Event) : Whole (run e events) := by
  apply foldl_inv (I := Whole) _ h events
  exact fun _ event => step_whole event

/-! ## What every run keeps to -/

/-- A channel that an endpoint has no use for. -/
def Unwanted (e : Endpoint) (c : DataChannel) : Prop :=
  c.label ∉ labels ∨ (∃ d ∈ registered e.trace, d.label = c.label) ∨ c.proper = false

theorem unwanted_closes {e : Endpoint} (h : Whole e) {c : DataChannel} (unwanted : Unwanted e c) (call : Call) (ends : Ends) :
    (step e (.announced c call ends)).closed = true := by
  have refused : e.closed = true ∨ c.label ∉ labels ∨ e.channels.has c.label = true ∨ (!c.proper) = true := by
    cases isOpen : e.closed with
    | true => exact .inl rfl
    | false =>
      rcases unwanted with unknown | ⟨d, mem, same⟩ | improper
      · exact .inr (.inl unknown)
      · have key : c.label ∈ e.channels.keys := by
          rw [h.keys, h.channels isOpen, ← same]
          exact List.mem_map_of_mem mem
        exact .inr (.inr (.inl (Table.has_iff.2 (Table.mem_keys_iff.1 key))))
      · exact .inr (.inr (.inr (by rw [improper]; rfl)))
  apply after_of_wp (P := fun e' : Endpoint => e'.closed = true) (m := Event.code _)
  simp only [Event.code, channel, wp_bind, wp_get, wp_ite]
  refine ⟨fun _ => ?_, fun accepted => absurd refused accepted⟩
  exact wp_mono (close_spec h ends) (fun _ _ h => h.2) fun _ _ => False.elim

/-- What an endpoint keeps to, whatever has reached it. -/
structure Safe (e : Endpoint) : Prop where
  shut : .shut ∈ e.trace ↔ e.closed = true
  ready : e.ready = readyOf e.trace
  /-- The router receives while the endpoint is open, after the router was made and the
  three channels were registered, and no more than the limit that the router was made with. -/
  received : ∀ before c bytes after, e.trace = before ++ .received c bytes :: after →
    .shut ∉ before ∧ c ∈ registered before ∧ Complete before ∧ .routed e.maxMessageBytes ∈ before ∧ bytes ≤ e.maxMessageBytes
  handed : ∀ before c bytes after, e.trace = before ++ .handed c bytes :: after →
    .shut ∉ before ∧ c ∈ registered before ∧ readyOf before c.id = .opened
  unwanted : ∀ c, Unwanted e c → ∀ call ends, (step e (.announced c call ends)).closed = true
  routerClosed : e.trace.count .routerClosed ≤ 1
  stopped : ∀ slot, e.trace.count (.stopped slot) ≤ 1
  notified : e.trace.count .notified ≤ 1
  settled : ∀ before after, e.trace = before ++ .settled :: after → before.count .notified = 1

theorem Whole.safe {e : Endpoint} (h : Whole e) : Safe e := by
  constructor
  · exact h.shut
  · exact h.ready
  · intro before c bytes after eq
    obtain ⟨isOpen, mem, complete, max, routed, fits⟩ := h.log before _ after eq
    have same := (h.routed max (by rw [eq]; exact List.mem_append_left _ routed)).2
    rw [same] at routed fits
    exact ⟨isOpen, mem, complete, routed, fits⟩
  · exact fun before c bytes after eq => h.log before _ after eq
  · exact fun c unwanted => unwanted_closes h unwanted
  · exact count_le_one (fun _ => id) h.log
  · exact fun slot => count_le_one (fun _ => id) h.log
  · exact count_le_one (fun _ => id) h.log
  · intro before after eq
    have log : Logged Justified before := by
      intro first m rest eq'
      apply h.log first m (rest ++ .settled :: after)
      rw [eq, eq', List.append_assoc]
      rfl
    have one := count_le_one (m := .notified) (fun _ => id) log
    have present : 0 < before.count .notified := List.count_pos_iff.2 (h.log before _ after eq)
    exact Nat.le_antisymm one present

/-- Whatever reaches an endpoint, and in whatever order. -/
theorem run_safe {maxMessageBytes maxBufferedBytes maxSdpBytes timeoutMs : Session.Num} {maxSlots : Option ℚ} {e : Endpoint}
    (made : create maxMessageBytes maxBufferedBytes maxSdpBytes timeoutMs maxSlots = .ok e) (events : List Event) :
    Safe (run e events) := (run_whole (create_whole made) events).safe

/-- An endpoint that nothing has reached. -/
def smallEndpoint : Endpoint :=
  { options := ⟨16384, 65536, 65536, some 1⟩
    channels := .empty, listening := [], router := false, routerClosed := false, closed := false, used := false
    closing := .never, timer := false, answering := false, maxMessageBytes := 16384
    slots := [], nextSlot := 0, ready := fun _ => .connecting, bufferedAmount := fun _ => 0, trace := [] }

def smallChannels : List DataChannel :=
  [⟨0, "ros.control.v1", true, false, none, none⟩, ⟨1, "ros.reliable.v1", true, false, none, none⟩,
    ⟨2, "ros.realtime.v1", false, false, some 0, none⟩]

/-- A router that answers on the control channel. -/
def replies : Call := ⟨[("ros.control.v1", [1, 2, 3])], false, false⟩

/-- An offer is answered, the channels are announced and open, a message is answered, and
the endpoint is closed. -/
def smallEvents : List Event :=
  let ends : Ends := ⟨⟨[], true, true⟩, fun _ => false⟩
  [.answer ⟨true, some browserOffer⟩ ⟨fun _ => true, ⟨[], false, false⟩⟩ ends, .negotiated (some 900) ends] ++
    smallChannels.map (fun c => .announced c replies ends) ++ smallChannels.map (fun c => .became c.id .opened) ++
    smallChannels.map (fun c => .message c (.bytes [0]) replies ends) ++ [.close ends] ++
    smallChannels.map (fun c => .bufferedAmountLow c replies ends) ++ [.ended false, .notified, .settled]

theorem run_safe_small : (run smallEndpoint smallEvents).trace.length = 20 ∧ Safe (run smallEndpoint smallEvents) := by
  have made : create (some 16384) (some 65536) (some 65536) (some 10000) (some 1) = .ok smallEndpoint := rfl
  exact ⟨by decide +kernel, run_safe made smallEvents⟩

end RosBridge.Transport
