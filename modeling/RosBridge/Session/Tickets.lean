import RosBridge.Session.Exclusive
/-!
# Tickets

A ticket of `prepare` runs at most one callback, and the callbacks of one handle run in
the order of their sequence numbers. `called` and `Answered` say what one input does to
the counters, the tickets and the waiting calls; `Tallied` is what every run keeps.
-/

namespace RosBridge.Session

open Lib Prog CommandGuard

/-- A publish callback that is invoked, with its ticket and sequence number. -/
structure Invocation where
  ticket : Nat
  publication : Publication
  seq : Nat

def Invocation.handle (a : Invocation) : String := a.publication.request.handle

namespace Machine

/-- The callback an input invokes. -/
def invocation (m : Machine) : Input → Option Invocation
  | .call _ => none
  | .answer result clock =>
    match m.stack with
    | .publish k saved seq :: _ =>
      match Prog.exec (do authorized result; publishRest saved seq clock) m.guard with
      | (.ok _, _) => some ⟨k, ⟨saved, clock⟩, seq⟩
      | (.error _, _) => none
    | _ => none

/-- The callbacks a run invokes, in order. -/
def invocations : Machine → List Input → List Invocation
  | _, [] => []
  | m, i :: is => (m.invocation i).toList ++ invocations (m.step i) is

end Machine

/-! ## What one input does -/

/-- The ticket a frame waits to publish. -/
def Suspended.ticket : Suspended → Option Nat
  | .publish k _ _ => some k
  | _ => none

/-- The sequence of a waiting `prepare` is the one its request names. -/
def Suspended.Parsed : Suspended → Prop
  | .prepare saved seq => sequence saved.seq = some seq
  | _ => True

/-- A call leaves the tickets and the stack alone, waits, or uses a ticket up. -/
inductive Queues (m : Machine) (m' : Machine) : Prop where
  | idle (tickets : m'.tickets = m.tickets) (stack : m'.stack = m.stack)
  | waits (frame : Suspended) (plain : frame.ticket = none) (parsed : frame.Parsed)
      (tickets : m'.tickets = m.tickets) (stack : m'.stack = frame :: m.stack)
  | spends (k : Nat) (t : Ticket) (found : m.tickets[k]? = some t) (unused : t.consumed = false)
      (tickets : m'.tickets = m.tickets.set k { t with consumed := true })
      (stack : m'.stack = m.stack ∨ m'.stack = .publish k t.saved t.seq :: m.stack)

/-- A call registers no handle and notes no sequence number. -/
structure Called (m : Machine) (m' : Machine) : Prop where
  handles : ∀ h st, m'.guard.handles.get? h = some st → m.guard.handles.get? h = some st
  queues : Queues m m'

theorem Called.of_same {m m' : Machine} (handles : m'.guard.handles = m.guard.handles) (queues : Queues m m') : Called m m' :=
  ⟨fun _ _ found => handles ▸ found, queues⟩

/-- A part that waits for the hook and registers nothing. -/
theorem called_ask {α : Type} {m : Machine} {part : GuardM α} {frame : α → Suspended} {P : α → Prop}
    (spec : wp part (fun a g => P a ∧ g.handles = m.guard.handles) (fun _ g => g.handles = m.guard.handles) m.guard)
    (plain : ∀ a, (frame a).ticket = none) (parsed : ∀ a, P a → (frame a).Parsed) : Called m (m.ask part frame) := by
  rcases ask_of_wp frame spec with ⟨a, g, ⟨ha, same⟩, e⟩ | ⟨_, g, same, e⟩ <;> rw [e]
  · exact .of_same same (.waits (frame a) (plain a) (parsed a ha) rfl rfl)
  · exact .of_same same (.idle rfl rfl)

theorem called (m : Machine) (c : Call) : Called m (m.call c) := by
  cases c with
  | openSession epoch =>
    refine .of_same ?_ (.idle rfl rfl)
    simp only [Machine.call]
    rcases after_cases (openSession_spec epoch m.guard) with ⟨id, -, -, -, e⟩ | ⟨_, e⟩ <;> rw [e]
  | openHandle sessionId topic leaseMs =>
    refine called_ask (P := fun _ => True) ?_ (fun _ => rfl) fun _ _ => trivial
    refine wp_mono (openHandleBegin_spec sessionId topic leaseMs m.guard) (fun _ g h => ?_) fun _ g h => by rw [h]
    obtain ⟨-, -, -, -, -, rfl⟩ := h
    exact ⟨trivial, rfl⟩
  | arm sessionId handle =>
    refine called_ask (P := fun _ => True) ?_ (fun _ => rfl) fun _ _ => trivial
    exact wp_mono (armBegin_spec sessionId handle m.guard) (fun _ g h => ⟨trivial, by rw [h]⟩) fun _ g h => by rw [h]
  | prepare request =>
    refine called_ask (P := fun r => sequence request.seq = some r.2) ?_ (fun _ => rfl) fun _ h => h
    exact wp_mono (prepareBegin_spec request m.guard) (fun _ g h => ⟨h.1, by rw [h.2]⟩) fun _ g h => by rw [h]
  | publish k callable =>
    simp only [Machine.call]
    split
    · exact .of_same rfl (.idle rfl rfl)
    · next t found =>
      split
      · exact .of_same rfl (.idle rfl rfl)
      · next unused =>
        have unused : t.consumed = false := by simpa using unused
        split
        · rcases ask_of_wp (m := { m with tickets := m.tickets.set k { t with consumed := true } })
            (fun _ => .publish k t.saved t.seq) (validateBegin_spec t.saved m.guard) with ⟨_, g, same, e⟩ | ⟨_, g, same, e⟩ <;>
            rw [e]
          · exact .of_same (by rw [same]) (.spends k t found unused rfl (.inr rfl))
          · exact .of_same (by rw [same]) (.spends k t found unused rfl (.inl rfl))
        · exact .of_same rfl (.spends k t found unused rfl (.inl rfl))
  | closeHandle sessionId handle =>
    refine ⟨fun h st found => ?_, .idle rfl rfl⟩
    simp only [Machine.call] at found
    rcases after_cases (closeHandle_spec sessionId handle m.guard) with ⟨-, _, -, -, e⟩ | ⟨_, e⟩ <;> rw [e] at found
    · rw [Table.get?_erase] at found
      split at found
      · cases found
      · exact found
    · exact found
  | revokeSession sessionId =>
    refine ⟨fun h st found => ?_, .idle rfl rfl⟩
    simp only [Machine.call, revokeSession_after, Table.get?_filter] at found
    exact (Option.filter_eq_some_iff.1 found).1
  | close =>
    refine ⟨fun h st found => ?_, .idle rfl rfl⟩
    simp only [Machine.call, close_after, Table.get?_empty] at found
    cases found

/-- `prepare` goes through only with a sequence above the handle's last received one. -/
theorem prepareRest_newer (saved : CommandRequest) (seq : Nat) (clock : Num) (g : CommandGuard) :
    wp (prepareRest saved seq clock)
      (fun _ g' => ∃ st, g.handles.get? saved.handle = some st ∧ st.received < seq ∧
        g'.handles = g.handles.modify saved.handle fun s => { s with received := seq })
      (fun _ => Ticked g) g := by
  rw [prepareRest, wp_bind]
  refine wp_mono (validateRest_spec saved clock g) (fun st _ h => ?_) fun _ _ h => h
  obtain ⟨t, lease, -, le, valid, rfl⟩ := h
  simp only [wp_bind, wp_ite, wp_throw, wp_modify, not_le]
  exact ⟨fun _ => ⟨t, le, rfl⟩, fun newer => ⟨st, valid.handle, newer, trivial⟩⟩

/-- A ticket's `publish` goes through only with a sequence above the last published one. -/
theorem publishRest_newer (saved : CommandRequest) (seq : Nat) (clock : Num) (g : CommandGuard) :
    wp (publishRest saved seq clock)
      (fun _ g' => ∃ st, g.handles.get? saved.handle = some st ∧ st.published < seq ∧
        g'.handles = g.handles.modify saved.handle fun s => { s with published := seq })
      (fun _ => Ticked g) g := by
  rw [publishRest, wp_bind]
  refine wp_mono (validateRest_spec saved clock g) (fun st _ h => ?_) fun _ _ h => h
  obtain ⟨t, lease, -, le, valid, rfl⟩ := h
  simp only [wp_bind, wp_ite, wp_throw, wp_modify, not_le]
  exact ⟨fun _ => ⟨t, le, rfl⟩, fun newer => ⟨st, valid.handle, newer, trivial⟩⟩

/-- What an answered frame does to counters and tickets. `a` is the callback it runs. -/
inductive Answered (m m' : Machine) : Suspended → Option Invocation → Prop where
  | quiet (frame : Suspended) (tickets : m'.tickets = m.tickets)
      (handles : ∀ h st', m'.guard.handles.get? h = some st' →
        ∃ st, m.guard.handles.get? h = some st ∧ st'.received = st.received ∧ st'.published = st.published) :
      Answered m m' frame none
  | opened (identity : CommandIdentity) (leaseMs : Nat) (tickets : m'.tickets = m.tickets)
      (handles : m'.guard.handles = m.guard.handles.set identity.handle ⟨identity, leaseMs, none, -1, -1⟩) :
      Answered m m' (.openHandle identity leaseMs) none
  | received (saved : CommandRequest) (seq : Nat) (st : HandleState)
      (own : m.guard.handles.get? saved.handle = some st) (newer : st.received < seq)
      (handles : m'.guard.handles = m.guard.handles.modify saved.handle fun s => { s with received := seq })
      (tickets : m'.tickets = m.tickets ++ [⟨saved, seq, false⟩]) :
      Answered m m' (.prepare saved seq) none
  | published (k : Nat) (saved : CommandRequest) (seq : Nat) (clock : Num) (st : HandleState)
      (own : m.guard.handles.get? saved.handle = some st) (newer : st.published < seq)
      (handles : m'.guard.handles = m.guard.handles.modify saved.handle fun s => { s with published := seq })
      (tickets : m'.tickets = m.tickets) :
      Answered m m' (.publish k saved seq) (some ⟨k, ⟨saved, clock⟩, seq⟩)

theorem Answered.of_ticked {m m' : Machine} {frame : Suspended} (tickets : m'.tickets = m.tickets)
    (ticked : Ticked m.guard m'.guard) : Answered m m' frame none := by
  refine .quiet frame tickets fun h st found => ?_
  rw [ticked.handles] at found
  exact ⟨st, found, rfl, rfl⟩

/-- Granting a lease leaves the counters alone. -/
theorem granted_counters {g : CommandGuard} {topic handle : String} {lease : Lease} {h : String} {st' : HandleState}
    (found : (granted g topic handle lease).get? h = some st') :
    ∃ st, g.handles.get? h = some st ∧ st'.received = st.received ∧ st'.published = st.published := by
  have cleared : ∀ {st}, (clearLeases topic g.handles).get? h = some st →
      ∃ st₀, g.handles.get? h = some st₀ ∧ st.received = st₀.received ∧ st.published = st₀.published := by
    intro st e
    rw [clearLeases, Table.get?_mapValues, Option.map_eq_some_iff] at e
    obtain ⟨st₀, here, rfl⟩ := e
    refine ⟨st₀, here, ?_⟩
    split <;> exact ⟨rfl, rfl⟩
  rw [granted, Table.get?_modify] at found
  split at found
  · obtain ⟨st, e, rfl⟩ := Option.map_eq_some_iff.1 found
    have kept := cleared e
    exact kept
  · exact cleared found

theorem answered (m : Machine) (result : Except String Bool) (clock : Num) {frame : Suspended} {stack : List Suspended}
    (hs : m.stack = frame :: stack) : (m.step (.answer result clock)).stack = stack ∧
      Answered m (m.step (.answer result clock)) frame (m.invocation (.answer result clock)) := by
  have untouched : ∀ e : String, (fun _ => Ticked m.guard : String → CommandGuard → Prop) e m.guard := fun _ => .refl _
  cases frame with
  | openHandle identity leaseMs =>
    simp only [Machine.step, Machine.invocation, hs, Machine.resume, true_and]
    rcases after_cases (authorized_then result (E := fun _ => Ticked m.guard)
      (wp_mono (openHandleRest_spec identity leaseMs m.guard) (fun _ _ h => h) (fun _ _ h => h ▸ .refl _)) untouched) with
      ⟨_, -, -, -, e⟩ | ⟨_, e⟩
    · exact .opened identity leaseMs rfl (by rw [e])
    · exact .of_ticked rfl e
  | arm sessionId handle =>
    simp only [Machine.step, Machine.invocation, hs, Machine.resume, true_and]
    rcases after_cases (authorized_then result (armRest_spec sessionId handle clock m.guard) untouched) with
      ⟨lease, st, t, -, -, -, -, -, -, e⟩ | ⟨_, e⟩
    · refine .quiet _ rfl fun h st' found => ?_
      rw [e] at found
      exact granted_counters found
    · exact .of_ticked rfl e
  | prepare saved seq =>
    simp only [Machine.step, Machine.invocation, hs, Machine.resume]
    rcases exec_cases (authorized_then result (prepareRest_newer saved seq clock m.guard) untouched) with
      ⟨_, g, ⟨st, own, newer, handles⟩, e⟩ | ⟨_, g, ticked, e⟩ <;> rw [e]
    · exact ⟨rfl, .received saved seq st own newer handles rfl⟩
    · exact ⟨rfl, .of_ticked rfl ticked⟩
  | publish k saved seq =>
    simp only [Machine.step, Machine.invocation, hs, Machine.resume]
    rcases exec_cases (authorized_then result (publishRest_newer saved seq clock m.guard) untouched) with
      ⟨_, g, ⟨st, own, newer, handles⟩, e⟩ | ⟨_, g, ticked, e⟩ <;> rw [e]
    · exact ⟨rfl, .published k saved seq clock st own newer handles rfl⟩
    · exact ⟨rfl, .of_ticked rfl ticked⟩

/-! ## Tickets are used once -/

/-- A ticket that a call of `publish` has used up. -/
def Used (m : Machine) (k : Nat) : Prop := ∃ t, m.tickets[k]? = some t ∧ t.consumed = true

/-- The tickets whose callback has run or may still run in a call that waits. -/
def Machine.running (m : Machine) (log : List Invocation) : List Nat :=
  log.map (·.ticket) ++ m.stack.filterMap Suspended.ticket

/-- A ticket runs or waits once, and only after it has been used up. -/
structure UsedOnce (m : Machine) (log : List Invocation) : Prop where
  nodup : (m.running log).Nodup
  used : ∀ k ∈ m.running log, Used m k

theorem Queues.used {m m' : Machine} (h : Queues m m') {k : Nat} (used : Used m k) : Used m' k := by
  cases h with
  | idle tickets stack => rwa [Used, tickets]
  | waits frame plain parsed tickets stack => rwa [Used, tickets]
  | spends k₁ t₁ found unused tickets stack =>
    obtain ⟨t, here, consumed⟩ := used
    have other : k₁ ≠ k := by
      rintro rfl
      obtain rfl : t = t₁ := Option.some.inj (here.symm.trans found)
      rw [unused] at consumed
      cases consumed
    exact ⟨t, by rw [tickets, List.getElem?_set_ne other, here], consumed⟩

theorem Answered.used {m m' : Machine} {frame : Suspended} {a : Option Invocation} (h : Answered m m' frame a) {k : Nat}
    (used : Used m k) : Used m' k := by
  obtain ⟨t, here, consumed⟩ := used
  cases h with
  | quiet frame tickets | opened identity leaseMs tickets | published k saved seq clock st own newer handles tickets =>
    exact ⟨t, by rw [tickets, here], consumed⟩
  | received saved seq st own newer handles tickets =>
    refine ⟨t, ?_, consumed⟩
    rw [tickets, List.getElem?_append_left (List.getElem?_eq_some_iff.1 here).1, here]

theorem Machine.answer_nobody {m : Machine} (hs : m.stack = []) (result : Except String Bool) (clock : Num) :
    m.step (.answer result clock) = m ∧ m.invocation (.answer result clock) = none := by
  unfold Machine.step Machine.invocation
  simp only [hs, and_self]

theorem Used.step {m : Machine} {k : Nat} (used : Used m k) (i : Input) : Used (m.step i) k := by
  cases i with
  | call c => exact (called m c).queues.used used
  | answer result clock =>
    cases hs : m.stack with
    | nil =>
      rw [(Machine.answer_nobody hs result clock).1]
      exact used
    | cons frame stack => exact (answered m result clock hs).2.used used

/-- The callback a frame runs is that of its own ticket. -/
theorem Answered.ticket {m m' : Machine} {frame : Suspended} {a : Invocation} (h : Answered m m' frame (some a)) :
    frame.ticket = some a.ticket := by
  cases h with
  | published => rfl

theorem UsedOnce.step {m : Machine} {log : List Invocation} (once : UsedOnce m log) (i : Input) :
    UsedOnce (m.step i) (log ++ (m.invocation i).toList) := by
  have smaller : ∀ {l : List Nat}, (m.step i).running (log ++ (m.invocation i).toList) = l → l.Sublist (m.running log) →
      UsedOnce (m.step i) (log ++ (m.invocation i).toList) := by
    intro l e sub
    refine ⟨by rw [e]; exact once.nodup.sublist sub, fun k hk => (once.used k ?_).step i⟩
    rw [e] at hk
    exact sub.subset hk
  cases i with
  | call c =>
    have none : m.invocation (.call c) = none := rfl
    have stack : (m.step (.call c)).stack = (m.call c).stack := rfl
    obtain ⟨-, queues⟩ := called m c
    cases queues with
    | idle tickets same =>
      refine smaller rfl ?_
      simp only [Machine.running, none, Option.toList_none, List.append_nil, stack, same, List.Sublist.refl]
    | waits frame plain parsed tickets pushed =>
      refine smaller rfl ?_
      simp only [Machine.running, none, Option.toList_none, List.append_nil, stack, pushed, List.filterMap_cons, plain,
        List.Sublist.refl]
    | spends k t found unused tickets stack' =>
      rcases stack' with same | pushed
      · refine smaller rfl ?_
        simp only [Machine.running, none, Option.toList_none, List.append_nil, stack, same, List.Sublist.refl]
      · -- The ticket used up now has neither run nor waited before.
        have fresh : k ∉ m.running log := by
          intro here
          obtain ⟨t', found', consumed⟩ := once.used k here
          obtain rfl : t' = t := Option.some.inj (found'.symm.trans found)
          rw [unused] at consumed
          cases consumed
        have perm : ((m.step (.call c)).running (log ++ (m.invocation (.call c)).toList)).Perm (k :: m.running log) := by
          simp only [Machine.running, none, Option.toList_none, List.append_nil, stack, pushed,
            List.filterMap_cons_some (show Suspended.ticket (.publish k t.saved t.seq) = some k from rfl)]
          exact List.perm_middle
        refine ⟨perm.nodup_iff.2 (List.nodup_cons.2 ⟨fresh, once.nodup⟩), fun k' hk => ?_⟩
        rcases List.mem_cons.1 (perm.subset hk) with rfl | old
        · have lt := (List.getElem?_eq_some_iff.1 found).1
          refine ⟨{ t with consumed := true }, ?_, rfl⟩
          show (m.call c).tickets[k']? = _
          rw [tickets]
          exact List.getElem?_set_self lt
        · exact (once.used k' old).step _
  | answer result clock =>
    cases hs : m.stack with
    | nil =>
      obtain ⟨same, none⟩ := Machine.answer_nobody hs result clock
      refine smaller rfl ?_
      rw [same, none, Option.toList_none, List.append_nil]
    | cons frame stack =>
      obtain ⟨popped, did⟩ := answered m result clock hs
      refine smaller rfl ?_
      unfold Machine.running
      rw [popped, hs]
      cases ha : m.invocation (.answer result clock) with
      | none =>
        rw [Option.toList_none, List.append_nil]
        exact List.Sublist.append (List.Sublist.refl _) ((List.sublist_cons_self frame stack).filterMap _)
      | some a =>
        rw [ha] at did
        rw [List.filterMap_cons_some did.ticket, Option.toList_some, List.map_append, List.append_assoc]
        exact List.Sublist.refl _

/-- A used ticket that waits in no call. -/
structure Over (m : Machine) (k : Nat) : Prop where
  used : Used m k
  idle : k ∉ m.stack.filterMap Suspended.ticket

theorem Over.step {m : Machine} {k : Nat} (spent : Over m k) (i : Input) :
    Over (m.step i) k ∧ ∀ a ∈ m.invocation i, a.ticket ≠ k := by
  cases i with
  | call c =>
    refine ⟨⟨spent.used.step _, ?_⟩, fun a ha => by cases ha⟩
    show k ∉ (m.call c).stack.filterMap Suspended.ticket
    cases (called m c).queues with
    | idle tickets same => rw [same]; exact spent.idle
    | waits frame plain parsed tickets pushed => rw [pushed, List.filterMap_cons_none plain]; exact spent.idle
    | spends k₁ t found unused tickets stack' =>
      rcases stack' with same | pushed
      · rw [same]; exact spent.idle
      · rw [pushed, List.filterMap_cons_some (show Suspended.ticket (.publish k₁ t.saved t.seq) = some k₁ from rfl)]
        intro here
        rcases List.mem_cons.1 here with rfl | old
        · obtain ⟨t', found', consumed⟩ := spent.used
          obtain rfl : t' = t := Option.some.inj (found'.symm.trans found)
          rw [unused] at consumed
          cases consumed
        · exact spent.idle old
  | answer result clock =>
    cases hs : m.stack with
    | nil =>
      obtain ⟨same, none⟩ := Machine.answer_nobody hs result clock
      rw [same, none]
      exact ⟨spent, fun a ha => by cases ha⟩
    | cons frame stack =>
      obtain ⟨popped, did⟩ := answered m result clock hs
      have idle := spent.idle
      rw [hs] at idle
      refine ⟨⟨spent.used.step _, ?_⟩, ?_⟩
      · rw [popped]
        intro here
        exact idle (((List.sublist_cons_self frame stack).filterMap _).subset here)
      · intro a ha e
        rw [Option.mem_def.1 ha] at did
        apply idle
        rw [List.filterMap_cons_some did.ticket, e]
        exact List.mem_cons_self

theorem Over.run {m : Machine} {k : Nat} (spent : Over m k) (inputs : List Input) :
    k ∉ (m.invocations inputs).map (·.ticket) := by
  induction inputs generalizing m with
  | nil => exact List.not_mem_nil
  | cons i is ih =>
    obtain ⟨next, others⟩ := spent.step i
    unfold Machine.invocations
    rw [List.map_append, List.mem_append]
    rintro (now | later)
    · obtain ⟨a, ha, e⟩ := List.mem_map.1 now
      exact others a (Option.mem_toList.1 ha) e
    · exact ih next later

/-! ## Sequence numbers only grow -/

/-- Both counters of a handle have at least kept their value. -/
structure Grown (st st' : HandleState) : Prop where
  received : st.received ≤ st'.received
  published : st.published ≤ st'.published

/-- Whenever handle `h` exists from now on, its state satisfies `P`: the handle has been
registered once and is never registered again. -/
structure Past (m : Machine) (h : String) (P : HandleState → Prop) : Prop where
  issued : Issued m.guard h
  idle : h ∉ m.stack.filterMap Suspended.pending
  state : ∀ st, m.guard.handles.get? h = some st → P st

theorem Inv.past {m : Machine} (hi : Inv m) {h : String} {st : HandleState} (found : m.guard.handles.get? h = some st)
    {P : HandleState → Prop} (here : P st) : Past m h P := by
  refine ⟨hi.keys h st found, fun pending => ?_, fun st' found' => ?_⟩
  · rw [(hi.pending h pending).2] at found
    cases found
  · obtain rfl : st = st' := Option.some.inj (found.symm.trans found')
    exact here

/-- Every state of a handle after an answer comes from one before it. -/
theorem Answered.grown {m m' : Machine} {frame : Suspended} {a : Option Invocation} (did : Answered m m' frame a)
    {h : String} {st' : HandleState} (registered : frame.pending ≠ some h) (found : m'.guard.handles.get? h = some st') :
    ∃ st, m.guard.handles.get? h = some st ∧ Grown st st' := by
  cases did with
  | quiet frame tickets handles =>
    obtain ⟨st, here, received, published⟩ := handles h st' found
    exact ⟨st, here, received.ge, published.ge⟩
  | opened identity leaseMs tickets handles =>
    have other : h ≠ identity.handle := fun e => registered (by rw [e]; rfl)
    rw [handles, Table.get?_set_ne _ _ other] at found
    exact ⟨st', found, le_refl _, le_refl _⟩
  | received saved seq st own newer handles tickets =>
    rw [handles, Table.get?_modify] at found
    split at found
    · next e =>
      rw [e, own] at found
      obtain rfl := Option.some.inj found
      exact ⟨st, by rw [e, own], newer.le, le_refl _⟩
    · exact ⟨st', found, le_refl _, le_refl _⟩
  | published k saved seq clock st own newer handles tickets =>
    rw [handles, Table.get?_modify] at found
    split at found
    · next e =>
      rw [e, own] at found
      obtain rfl := Option.some.inj found
      exact ⟨st, by rw [e, own], le_refl _, newer.le⟩
    · exact ⟨st', found, le_refl _, le_refl _⟩

theorem Past.step {m : Machine} {h : String} {P : HandleState → Prop} (past : Past m h P)
    (mono : ∀ st st', Grown st st' → P st → P st') (i : Input) : Past (m.step i) h P := by
  have move := (effect m i).2
  have issued := past.issued.mono move.prefixId move.nextId
  cases i with
  | call c =>
    refine ⟨issued, ?_, fun st found => past.state st ((called m c).handles h st found)⟩
    rcases move.called c rfl with same | ⟨frame, pushed, fresh⟩
    · rw [same]
      exact past.idle
    · rw [pushed]
      intro here
      obtain ⟨frame', mem, pending⟩ := List.mem_filterMap.1 here
      rcases List.mem_cons.1 mem with rfl | old
      · -- The handle of a new frame has an identifier nobody has seen.
        obtain ⟨e, lt⟩ := fresh h pending
        obtain ⟨n, le, e'⟩ := past.issued
        have := idText_inj (e'.symm.trans e)
        omega
      · exact past.idle (List.mem_filterMap.2 ⟨frame', old, pending⟩)
  | answer result clock =>
    cases hs : m.stack with
    | nil =>
      rw [(Machine.answer_nobody hs result clock).1]
      exact past
    | cons frame stack =>
      obtain ⟨popped, did⟩ := answered m result clock hs
      have idle := past.idle
      rw [hs] at idle
      refine ⟨issued, ?_, fun st' found => ?_⟩
      · rw [popped]
        exact fun here => idle (((List.sublist_cons_self frame stack).filterMap _).subset here)
      · have registered : frame.pending ≠ some h := by
          intro e
          apply idle
          rw [List.filterMap_cons_some e]
          exact List.mem_cons_self
        obtain ⟨st, here, grown⟩ := did.grown registered found
        exact mono st st' grown (past.state st here)

theorem Past.run {m : Machine} {h : String} {P : HandleState → Prop} (past : Past m h P)
    (mono : ∀ st st', Grown st st' → P st → P st') (inputs : List Input) : Past (m.run inputs) h P := by
  induction inputs generalizing m with
  | nil => exact past
  | cons i is ih => exact ih (past.step mono i)

/-- What every run keeps: a handle has received whatever a ticket of it names, and has
published whatever a callback of it has run with. -/
structure Tallied (m : Machine) (log : List Invocation) : Prop where
  inv : Inv m
  waits : TicketInv m
  parsed : ∀ frame ∈ m.stack, frame.Parsed
  counters : ∀ h st, m.guard.handles.get? h = some st → st.published ≤ st.received ∧ st.received ≤ maxSequence
  tickets : ∀ t ∈ m.tickets, sequence t.saved.seq = some t.seq ∧
    Past m t.saved.handle fun st => (t.seq : Int) ≤ st.received
  ran : ∀ a ∈ log, sequence a.publication.request.seq = some a.seq ∧
    Past m a.handle fun st => (a.seq : Int) ≤ st.published
  increasing : log.Pairwise fun a b => a.handle = b.handle → a.seq < b.seq

theorem sequence_le {text : String} {n : Nat} (h : sequence text = some n) : n ≤ maxSequence := by
  unfold sequence at h
  split at h
  · obtain rfl := Option.some.inj h
    exact Nat.zero_le _
  · split at h
    · next bounded =>
      obtain rfl := Option.some.inj h
      exact bounded.2.2.2.2
    · cases h
  · cases h

theorem Queues.tickets {m m' : Machine} (h : Queues m m') {t : Ticket} (ht : t ∈ m'.tickets) :
    ∃ t₀ ∈ m.tickets, t.saved = t₀.saved ∧ t.seq = t₀.seq := by
  cases h with
  | idle tickets | waits frame plain parsed tickets =>
    rw [tickets] at ht
    exact ⟨t, ht, rfl, rfl⟩
  | spends k t₁ found unused tickets =>
    rw [tickets] at ht
    rcases List.mem_or_eq_of_mem_set ht with old | rfl
    · exact ⟨t, old, rfl, rfl⟩
    · exact ⟨t₁, List.mem_of_getElem? found, rfl, rfl⟩

theorem Queues.parsed {m m' : Machine} (h : Queues m m') (old : ∀ frame ∈ m.stack, frame.Parsed) :
    ∀ frame ∈ m'.stack, frame.Parsed := by
  cases h with
  | idle tickets stack =>
    rw [stack]
    exact old
  | waits frame plain parsed tickets stack =>
    rw [stack]
    exact List.forall_mem_cons.2 ⟨parsed, old⟩
  | spends k t found unused tickets stack =>
    rcases stack with stack | stack <;> rw [stack]
    · exact old
    · exact List.forall_mem_cons.2 ⟨trivial, old⟩

/-- What holds of every handle still does when one of them changes. -/
theorem modify_counters {handles : Table String HandleState} {handle : String} {f : HandleState → HandleState}
    {P : HandleState → Prop} (old : ∀ h st, handles.get? h = some st → P st)
    (noted : ∀ st, handles.get? handle = some st → P (f st)) :
    ∀ h st, (handles.modify handle f).get? h = some st → P st := by
  intro h st found
  rw [Table.get?_modify] at found
  split at found
  · next e =>
    subst e
    obtain ⟨st₀, here, rfl⟩ := Option.map_eq_some_iff.1 found
    exact noted st₀ here
  · exact old h st found

theorem Tallied.step {m : Machine} {log : List Invocation} (tallied : Tallied m log) (i : Input) :
    Tallied (m.step i) (log ++ (m.invocation i).toList) := by
  obtain ⟨inv, waits, parsed, counters, tickets, ran, increasing⟩ := tallied
  have inv' := inv_step inv i
  have waits' := ticketInv_step waits i
  have kept : ∀ t ∈ m.tickets, sequence t.saved.seq = some t.seq ∧
      Past (m.step i) t.saved.handle fun st => (t.seq : Int) ≤ st.received := by
    intro t ht
    exact ⟨(tickets t ht).1, (tickets t ht).2.step (fun _ _ grown le => le.trans grown.received) i⟩
  have stays : ∀ a ∈ log, sequence a.publication.request.seq = some a.seq ∧
      Past (m.step i) a.handle fun st => (a.seq : Int) ≤ st.published := by
    intro a ha
    exact ⟨(ran a ha).1, (ran a ha).2.step (fun _ _ grown le => le.trans grown.published) i⟩
  cases i with
  | call c =>
    have none : m.invocation (.call c) = none := rfl
    rw [none, Option.toList_none, List.append_nil]
    obtain ⟨handles, queues⟩ := called m c
    refine ⟨inv', waits', queues.parsed parsed, fun h st found => counters h st (handles h st found), fun t ht => ?_, stays,
      increasing⟩
    obtain ⟨t₀, old, saved, seq⟩ := queues.tickets ht
    rw [saved, seq]
    exact kept t₀ old
  | answer result clock =>
    cases hs : m.stack with
    | nil =>
      obtain ⟨same, none⟩ := Machine.answer_nobody hs result clock
      rw [same, none, Option.toList_none, List.append_nil]
      exact ⟨inv, waits, parsed, counters, tickets, ran, increasing⟩
    | cons frame stack =>
      obtain ⟨popped, did⟩ := answered m result clock hs
      rw [hs] at parsed
      have parsed' : ∀ frame' ∈ (m.step (.answer result clock)).stack, frame'.Parsed := by
        rw [popped]
        exact (List.forall_mem_cons.1 parsed).2
      have quiet : ∀ {m' : Machine}, m'.tickets = m.tickets → ∀ {Q : Ticket → Prop}, (∀ t ∈ m.tickets, Q t) →
          ∀ t ∈ m'.tickets, Q t := by
        intro m' same Q h
        rw [same]
        exact h
      generalize m.step (.answer result clock) = m' at *
      generalize m.invocation (.answer result clock) = ran' at did ⊢
      cases did with
      | quiet _ same handles =>
        rw [Option.toList_none, List.append_nil]
        refine ⟨inv', waits', parsed', fun h st' found => ?_, quiet same kept, stays, increasing⟩
        obtain ⟨st, here, received, published⟩ := handles h st' found
        rw [received, published]
        exact counters h st here
      | opened identity leaseMs same handles =>
        rw [Option.toList_none, List.append_nil]
        refine ⟨inv', waits', parsed', fun h st' found => ?_, quiet same kept, stays, increasing⟩
        rw [handles, Table.get?_set] at found
        split at found
        · obtain rfl := Option.some.inj found
          have none : (-1 : Int) ≤ maxSequence := by decide
          exact ⟨le_refl _, none⟩
        · exact counters h st' found
      | received saved seq st own newer handles issued =>
        rw [Option.toList_none, List.append_nil]
        have named : sequence saved.seq = some seq := parsed _ List.mem_cons_self
        refine ⟨inv', waits', parsed', ?_, fun t ht => ?_, stays, increasing⟩
        · rw [handles]
          refine modify_counters counters fun st₀ here => ?_
          obtain rfl : st = st₀ := Option.some.inj (own.symm.trans here)
          have bounded : (seq : Int) ≤ maxSequence := by exact_mod_cast sequence_le named
          exact ⟨(counters _ _ own).1.trans newer.le, bounded⟩
        · rw [issued] at ht
          rcases List.mem_append.1 ht with old | new
          · exact kept t old
          · obtain rfl := List.mem_singleton.1 new
            have here : m'.guard.handles.get? saved.handle = some { st with received := (seq : Int) } := by
              rw [handles, Table.get?_modify, if_pos rfl, own]
              rfl
            exact ⟨named, inv'.past here (le_refl _)⟩
      | published k saved seq clock st own newer handles same =>
        -- The ticket that waited says that its sequence has been received.
        have issued := List.mem_of_getElem? (waits k saved seq (by rw [hs]; exact List.mem_cons_self))
        have received := (tickets _ issued).2.state st own
        rw [Option.toList_some]
        refine ⟨inv', waits', parsed', ?_, quiet same kept, fun a ha => ?_, ?_⟩
        · rw [handles]
          refine modify_counters counters fun st₀ here => ?_
          obtain rfl : st = st₀ := Option.some.inj (own.symm.trans here)
          exact ⟨received, (counters _ _ own).2⟩
        · rcases List.mem_append.1 ha with old | new
          · exact stays a old
          · obtain rfl := List.mem_singleton.1 new
            have here : m'.guard.handles.get? saved.handle = some { st with published := (seq : Int) } := by
              rw [handles, Table.get?_modify, if_pos rfl, own]
              rfl
            exact ⟨(tickets _ issued).1, inv'.past here (le_refl _)⟩
        · refine List.pairwise_append.2 ⟨increasing, List.pairwise_singleton _ _, fun a ha b hb same => ?_⟩
          obtain rfl := List.mem_singleton.1 hb
          have := (ran a ha).2.state st (by rw [same]; exact own)
          have lt := this.trans_lt newer
          exact_mod_cast lt

/-! ## Whole runs -/

theorem start_tallied {g : CommandGuard} (h : g.handles = .empty) : Tallied (.start g) [] where
  inv := inv_start h
  waits := fun _ _ _ mem => by cases mem
  parsed := List.forall_mem_nil _
  counters := fun handle st found => by
    rw [show (Machine.start g).guard.handles = .empty from h, Table.get?_empty] at found
    cases found
  tickets := List.forall_mem_nil _
  ran := List.forall_mem_nil _
  increasing := .nil

theorem start_usedOnce (g : CommandGuard) : UsedOnce (.start g) [] := ⟨List.nodup_nil, List.forall_mem_nil _⟩

theorem Tallied.run {m : Machine} {log : List Invocation} (tallied : Tallied m log) (inputs : List Input) :
    Tallied (m.run inputs) (log ++ m.invocations inputs) := by
  induction inputs generalizing m log with
  | nil =>
    rw [Machine.invocations, List.append_nil]
    exact tallied
  | cons i is ih =>
    rw [Machine.invocations, ← List.append_assoc]
    exact ih (tallied.step i)

theorem UsedOnce.run {m : Machine} {log : List Invocation} (once : UsedOnce m log) (inputs : List Input) :
    UsedOnce (m.run inputs) (log ++ m.invocations inputs) := by
  induction inputs generalizing m log with
  | nil =>
    rw [Machine.invocations, List.append_nil]
    exact once
  | cons i is ih =>
    rw [Machine.invocations, ← List.append_assoc]
    exact ih (once.step i)

/-- A publication is the run of a callback. -/
theorem published_step (m : Machine) (i : Input) :
    (m.step i).published = m.published ++ (m.invocation i).toList.map (·.publication) := by
  cases i with
  | call c =>
    show (m.call c).published = m.published ++ []
    rw [List.append_nil, call_published]
  | answer result clock =>
    unfold Machine.step Machine.invocation
    cases m.stack with
    | nil => exact (List.append_nil _).symm
    | cons frame stack =>
      cases frame with
      | openHandle | arm => exact (List.append_nil _).symm
      | prepare saved seq =>
        simp only [Machine.resume, Option.toList_none, List.map_nil, List.append_nil]
        split <;> rfl
      | publish k saved seq =>
        simp only [Machine.resume]
        generalize Prog.exec (do authorized result; publishRest saved seq clock) m.guard = outcome
        obtain ⟨outcome, g⟩ := outcome
        cases outcome with
        | ok => rfl
        | error => exact (List.append_nil _).symm

theorem published_run (m : Machine) (inputs : List Input) :
    (m.run inputs).published = m.published ++ (m.invocations inputs).map (·.publication) := by
  induction inputs generalizing m with
  | nil => exact (List.append_nil _).symm
  | cons i is ih =>
    rw [Machine.invocations, List.map_append, ← List.append_assoc, ← published_step]
    exact ih (m.step i)

/-- After a call of `publish` the ticket is used up, whatever comes of the call. -/
theorem used_publish {m : Machine} {k : Nat} {t : Ticket} (found : m.tickets[k]? = some t) (callable : Bool) :
    Used (m.call (.publish k callable)) k := by
  have lt := (List.getElem?_eq_some_iff.1 found).1
  simp only [Machine.call, found]
  split
  · next consumed => exact ⟨t, found, consumed⟩
  · have spent : (m.tickets.set k { t with consumed := true })[k]? = some { t with consumed := true } :=
      List.getElem?_set_self lt
    split
    · refine ⟨{ t with consumed := true }, ?_, rfl⟩
      rw [(ask_tickets _ _ _).1]
      exact spent
    · exact ⟨_, spent, rfl⟩

/-- The callbacks of a run in order, and the counters of its handles. -/
structure TicketsInOrder (m : Machine) (inputs : List Input) : Prop where
  /-- The publications of the run are those of the callbacks listed. -/
  published : (m.run inputs).published = m.published ++ (m.invocations inputs).map (·.publication)
  named : ∀ a ∈ m.invocations inputs, sequence a.publication.request.seq = some a.seq
  increasing : (m.invocations inputs).Pairwise fun a b => a.handle = b.handle → a.seq < b.seq
  pairs : ((m.invocations inputs).map fun a => (a.handle, a.seq)).Nodup
  counters : ∀ h st, (m.run inputs).guard.handles.get? h = some st → st.published ≤ st.received ∧ st.received ≤ maxSequence
  grow : ∀ h st more st', (m.run inputs).guard.handles.get? h = some st →
    ((m.run inputs).run more).guard.handles.get? h = some st' → Grown st st'
  /-- A ticket runs one callback at most, -/
  once : ((m.invocations inputs).map (·.ticket)).Nodup
  /-- is used up by any call of its `publish`, -/
  used : ∀ k t callable, (m.run inputs).tickets[k]? = some t → Used ((m.run inputs).step (.call (.publish k callable))) k
  /-- and runs none once that call has ended. -/
  spent : ∀ k more, Over (m.run inputs) k → k ∉ ((m.run inputs).invocations more).map (·.ticket)

/-- Tickets are single-use and ordered, whatever the calls, their order, and what the
hook and the callbacks do. -/
theorem tickets_in_order {prefixId : String} {maxSessions maxHandles leaseMs clock : Num} {g : CommandGuard}
    (hg : create prefixId maxSessions maxHandles leaseMs clock = .ok g) (inputs : List Input) :
    TicketsInOrder (.start g) inputs := by
  have tallied := (start_tallied (create_handles hg)).run inputs
  have once := (start_usedOnce g).run inputs
  rw [List.nil_append] at tallied once
  constructor
  · exact published_run _ inputs
  · exact fun a ha => (tallied.ran a ha).1
  · exact tallied.increasing
  · refine List.pairwise_map.2 (tallied.increasing.imp fun {a b} lt e => ?_)
    obtain ⟨handle, seq⟩ := Prod.mk.inj e
    exact absurd seq (lt handle).ne
  · exact tallied.counters
  · intro h st more st' found found'
    have past := tallied.inv.past found (P := Grown st) ⟨le_refl _, le_refl _⟩
    refine (past.run (fun st₁ st₂ step grown => ?_) more).state st' found'
    exact ⟨grown.received.trans step.received, grown.published.trans step.published⟩
  · exact (List.nodup_append.1 once.nodup).1
  · exact fun k t callable found => used_publish found callable
  · exact fun k more spent => spent.run more

theorem tickets_in_order_two_operators :
    create "guard" (some 2) (some 2) (some 250) (some 0) = .ok pairGuard ∧
      ((Machine.start pairGuard).invocations twoOperators).map (fun a => (a.ticket, a.handle, a.seq)) = [(0, "guard:3", 0)] ∧
      TicketsInOrder (.start pairGuard) twoOperators :=
  have created : create "guard" (some 2) (some 2) (some 250) (some 0) = .ok pairGuard := rfl
  ⟨created, by decide +kernel, tickets_in_order created twoOperators⟩

end RosBridge.Session
