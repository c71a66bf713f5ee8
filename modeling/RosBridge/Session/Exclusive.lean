import RosBridge.Session.Changes
import RosBridge.Session.GuardRuns
/-!
# The exclusive writer

`effect` sums up what one input can do to the registered handles, and `Inv.change`
reads it as a `Change` with the call that made it. So at most one handle of a topic
holds a lease, and an unexpired lease ends only by its own session's hand.
-/

namespace RosBridge.Session

open Lib Prog CommandGuard

/-- What an input does to the registered handles, with what the code has checked. -/
inductive Effect (m : Machine) (i : Input) : Table String HandleState → Prop where
  | same : Effect m i m.guard.handles
  | opened (identity : CommandIdentity) (leaseMs : Nat) (result : Except String Bool) (clock : Num)
      (frame : m.stack.head? = some (.openHandle identity leaseMs)) (answer : i = .answer result clock) :
      Effect m i (m.guard.handles.set identity.handle ⟨identity, leaseMs, none, -1, -1⟩)
  | armed (sessionId handle : String) (st : HandleState) (result : Except String Bool) (t : ℚ) (id : String)
      (frame : m.stack.head? = some (.arm sessionId handle)) (clock : i = .answer result (some t))
      (own : m.guard.handles.get? handle = some st) (owner : st.identity.sessionId = sessionId)
      (free : ∀ c ∈ m.guard.handles.values, busy st.identity.topic sessionId t c = false) :
      Effect m i (granted m.guard st.identity.topic handle ⟨id, t + st.leaseMs⟩)
  | noted (handle : String) (f : HandleState → HandleState)
      (identity : ∀ s, (f s).identity = s.identity) (lease : ∀ s, (f s).lease = s.lease) :
      Effect m i (m.guard.handles.modify handle f)
  | closed (sessionId handle : String) (st : HandleState) (call : m.acting i = some (.closeHandle sessionId handle))
      (own : m.guard.handles.get? handle = some st) (owner : st.identity.sessionId = sessionId) :
      Effect m i (m.guard.handles.erase handle)
  | revoked (sessionId : String) (call : m.acting i = some (.revokeSession sessionId)) :
      Effect m i (m.guard.handles.filter fun _ st => st.identity.sessionId ≠ sessionId)
  | shut (call : m.acting i = some .close) : Effect m i .empty

/-- The handle a frame will register. -/
def Suspended.pending : Suspended → Option String
  | .openHandle identity _ => some identity.handle
  | _ => none

/-- How an input moves the counter and the stack: an answer pops a frame, a call may
push one, whose handle is then the newest identifier. -/
structure StackMove (m : Machine) (i : Input) (m' : Machine) : Prop where
  prefixId : m'.guard.prefixId = m.guard.prefixId
  nextId : m.guard.nextId ≤ m'.guard.nextId
  answered : ∀ result clock, i = .answer result clock → m'.stack = m.stack.tail
  called : ∀ c, i = .call c → m'.stack = m.stack ∨ ∃ frame, m'.stack = frame :: m.stack ∧
    ∀ h, frame.pending = some h → h = idText m.guard.prefixId m'.guard.nextId ∧ m.guard.nextId < m'.guard.nextId

theorem StackMove.ofCall {m m' : Machine} {c : Call} (hp : m'.guard.prefixId = m.guard.prefixId)
    (hn : m.guard.nextId ≤ m'.guard.nextId)
    (hs : m'.stack = m.stack ∨ ∃ frame, m'.stack = frame :: m.stack ∧
      ∀ h, frame.pending = some h → h = idText m.guard.prefixId m'.guard.nextId ∧ m.guard.nextId < m'.guard.nextId) :
    StackMove m (.call c) m' := ⟨hp, hn, (fun _ _ h => by cases h), fun _ _ => hs⟩

/-- A part of a method that waits for the hook either throws or pushes its frame. -/
theorem ask_of_wp {α : Type} {m : Machine} {part : GuardM α} (frame : α → Suspended)
    {Q : α → CommandGuard → Prop} {E : String → CommandGuard → Prop} (h : wp part Q E m.guard) :
    (∃ a g, Q a g ∧ m.ask part frame = { m with guard := g, stack := frame a :: m.stack }) ∨
      ∃ e g, E e g ∧ m.ask part frame = { m with guard := g } := by
  unfold wp at h
  unfold Machine.ask
  split at h
  · exact .inl ⟨_, _, h, by simp only [*]⟩
  · exact .inr ⟨_, _, h, by simp only [*]⟩

/-- A part that only looks at the guard and waits. -/
theorem ask_quiet {α : Type} {m : Machine} {c : Call} {part : GuardM α} (frame : α → Suspended) {P : α → Prop}
    (h : wp part (fun a g => P a ∧ g = m.guard) (fun _ g => g = m.guard) m.guard) (hp : ∀ a, (frame a).pending = none) :
    (m.ask part frame).guard = m.guard ∧ StackMove m (.call c) (m.ask part frame) := by
  rcases ask_of_wp frame h with ⟨a, g, ⟨-, rfl⟩, e⟩ | ⟨_, g, rfl, e⟩ <;> rw [e]
  · exact ⟨rfl, .ofCall rfl (le_refl _) (.inr ⟨frame a, rfl, by simp [hp]⟩)⟩
  · exact ⟨rfl, .ofCall rfl (le_refl _) (.inl rfl)⟩

theorem after_cases {α : Type} {part : GuardM α} {g : CommandGuard} {Q : α → CommandGuard → Prop}
    {E : String → CommandGuard → Prop} (h : wp part Q E g) :
    (∃ a, Q a (part.after g)) ∨ ∃ e, E e (part.after g) := by
  rcases exec_cases h with ⟨a, g', hq, e⟩ | ⟨e', g', hq, e⟩ <;> unfold Prog.after <;> rw [e]
  · exact .inl ⟨a, hq⟩
  · exact .inr ⟨e', hq⟩

/-- The rest of a method runs only after the hook has answered `true`. -/
theorem authorized_then {α : Type} (answer : Except String Bool) {part : GuardM α} {g : CommandGuard}
    {Q : α → CommandGuard → Prop} {E : String → CommandGuard → Prop} (h : wp part Q E g) (he : ∀ e, E e g) :
    wp (do authorized answer; part) Q E g := by
  rw [wp_bind]
  refine wp_mono (authorized_spec answer g) ?_ ?_
  · rintro _ _ ⟨-, rfl⟩
    exact h
  · rintro e _ rfl
    exact he e

theorem call_effect (m : Machine) (c : Call) :
    Effect m (.call c) (m.call c).guard.handles ∧ StackMove m (.call c) (m.call c) := by
  have refused : ∀ g, g = m.guard → Effect m (.call c) g.handles ∧ StackMove m (.call c) { m with guard := g } := by
    rintro g rfl
    exact ⟨.same, .ofCall rfl (le_refl _) (.inl rfl)⟩
  cases c with
  | openSession epoch =>
    simp only [Machine.call]
    rcases after_cases (openSession_spec epoch m.guard) with ⟨id, -, -, -, e⟩ | ⟨_, e⟩
    · rw [e]; exact ⟨.same, .ofCall rfl (Nat.le_succ _) (.inl rfl)⟩
    · exact refused _ e
  | openHandle sessionId topic leaseMs =>
    simp only [Machine.call]
    rcases ask_of_wp (fun r => .openHandle r.1 r.2) (openHandleBegin_spec sessionId topic leaseMs m.guard) with
      ⟨r, g, ⟨-, -, hh, -, -, rfl⟩, e⟩ | ⟨_, g, e', e⟩ <;> rw [e]
    · refine ⟨.same, .ofCall rfl (Nat.le_succ _) (.inr ⟨_, rfl, ?_⟩)⟩
      rintro h he
      obtain rfl : r.1.handle = h := Option.some.inj he
      exact ⟨hh, Nat.lt_succ_self _⟩
    · exact refused _ e'
  | arm sessionId handle =>
    have := ask_quiet (c := .arm sessionId handle) (m := m) (P := fun _ => True) (fun _ => .arm sessionId handle)
      (by simpa using armBegin_spec sessionId handle m.guard) (fun _ => rfl)
    exact ⟨by simpa only [Machine.call, this.1] using Effect.same, this.2⟩
  | prepare request =>
    have := ask_quiet (c := .prepare request) (m := m) (fun r => .prepare request r.2)
      (prepareBegin_spec request m.guard) (fun _ => rfl)
    exact ⟨by simpa only [Machine.call, this.1] using Effect.same, this.2⟩
  | publish i callable =>
    simp only [Machine.call]
    split
    · exact refused _ rfl
    · next ticket _ =>
      split
      · exact refused _ rfl
      · split
        · obtain ⟨hg, hs⟩ := ask_quiet (c := .publish i true)
            (m := { m with tickets := m.tickets.set i { ticket with consumed := true } })
            (P := fun _ => True) (fun _ => .publish i ticket.saved ticket.seq)
            (by simpa using validateBegin_spec ticket.saved m.guard) (fun _ => rfl)
          exact ⟨by rw [hg]; exact .same, .ofCall hs.prefixId hs.nextId (hs.called _ rfl)⟩
        · exact ⟨.same, .ofCall rfl (le_refl _) (.inl rfl)⟩
  | closeHandle sessionId handle =>
    simp only [Machine.call]
    rcases after_cases (closeHandle_spec sessionId handle m.guard) with ⟨-, st, hst, hs, e⟩ | ⟨_, e⟩
    · rw [e]; exact ⟨.closed sessionId handle st rfl hst hs, .ofCall rfl (le_refl _) (.inl rfl)⟩
    · exact refused _ e
  | revokeSession sessionId => exact ⟨.revoked sessionId rfl, .ofCall rfl (le_refl _) (.inl rfl)⟩
  | close => exact ⟨.shut rfl, .ofCall rfl (le_refl _) (.inl rfl)⟩

theorem CommandGuard.Ticked.handles {g g' : CommandGuard} (h : Ticked g g') : g'.handles = g.handles := by
  obtain ⟨t, -, rfl⟩ := h
  rfl

theorem CommandGuard.Ticked.counter {g g' : CommandGuard} (h : Ticked g g') :
    g'.prefixId = g.prefixId ∧ g'.nextId = g.nextId := by
  obtain ⟨t, -, rfl⟩ := h
  exact ⟨rfl, rfl⟩

/-- `received` and `published` are all that a noted sequence number changes. -/
theorem CommandGuard.Noted.effect {m : Machine} {i : Input} {request : CommandRequest} {clock : Num} {f : HandleState → HandleState}
    {g : CommandGuard} (h : Noted m.guard request clock f g) (hi : ∀ s, (f s).identity = s.identity)
    (hl : ∀ s, (f s).lease = s.lease) :
    Effect m i g.handles ∧ g.prefixId = m.guard.prefixId ∧ m.guard.nextId ≤ g.nextId := by
  obtain ⟨t, st, lease, -, -, -, rfl⟩ := h
  exact ⟨.noted _ f hi hl, rfl, le_refl _⟩

theorem answer_effect (m : Machine) (result : Except String Bool) (clock : Num) :
    Effect m (.answer result clock) (m.step (.answer result clock)).guard.handles ∧
      StackMove m (.answer result clock) (m.step (.answer result clock)) := by
  have ticked : ∀ g, Ticked m.guard g →
      Effect m (.answer result clock) g.handles ∧ g.prefixId = m.guard.prefixId ∧ m.guard.nextId ≤ g.nextId := by
    rintro g h
    rw [h.handles]
    exact ⟨.same, h.counter.1, h.counter.2.ge⟩
  simp only [Machine.step]
  split
  · next hs => exact ⟨.same, rfl, le_refl _, fun _ _ _ => by rw [hs]; rfl, fun _ h => by cases h⟩
  · next frame stack hs =>
    have htail : stack = m.stack.tail := by rw [hs]; rfl
    have hhead : m.stack.head? = some frame := by rw [hs]; rfl
    -- Whatever the frame, it is popped: only the guard is left to describe.
    have pop : ∀ (g : CommandGuard) (m' : Machine), m'.guard = g → m'.stack = stack →
        (Effect m (.answer result clock) g.handles ∧ g.prefixId = m.guard.prefixId ∧ m.guard.nextId ≤ g.nextId) →
        Effect m (.answer result clock) g.handles ∧ StackMove m (.answer result clock) m' := by
      rintro _ m' rfl hm ⟨he, hp, hn⟩
      exact ⟨he, hp, hn, fun _ _ _ => hm.trans htail, fun _ h => by cases h⟩
    cases frame with
    | openHandle identity leaseMs =>
      refine pop _ _ rfl rfl ?_
      have spec := authorized_then result (E := fun _ => Ticked m.guard)
        (wp_mono (openHandleRest_spec identity leaseMs m.guard) (fun _ _ h => h) (fun _ _ h => h ▸ .refl _))
        (fun _ => .refl _)
      rcases after_cases spec with ⟨_, -, -, -, e⟩ | ⟨_, e⟩
      · simp only [Machine.resume]
        rw [e]; exact ⟨.opened identity leaseMs result clock hhead rfl, rfl, le_refl _⟩
      · exact ticked _ e
    | arm sessionId handle =>
      refine pop _ _ rfl rfl ?_
      rcases after_cases (authorized_then result (armRest_spec sessionId handle clock m.guard)
        (fun _ => .refl _)) with ⟨lease, st, t, hst, hsid, rfl, -, hfree, hl, e⟩ | ⟨_, e⟩
      · simp only [Machine.resume]
        rw [e, hl]
        exact ⟨.armed sessionId handle st result t _ hhead rfl hst hsid hfree, rfl, Nat.le_succ _⟩
      · exact ticked _ e
    | prepare saved seq =>
      rcases exec_cases (authorized_then result (prepareRest_spec saved seq clock m.guard)
        (fun _ => .refl _)) with ⟨_, g, hn, e⟩ | ⟨_, g, ht, e⟩ <;> simp only [Machine.resume, e]
      · exact pop g _ rfl rfl (hn.effect (fun _ => rfl) (fun _ => rfl))
      · exact pop g _ rfl rfl (ticked _ ht)
    | publish ticket saved seq =>
      rcases exec_cases (authorized_then result (publishRest_spec saved seq clock m.guard)
        (fun _ => .refl _)) with ⟨_, g, hn, e⟩ | ⟨_, g, ht, e⟩ <;> simp only [Machine.resume, e]
      · exact pop g _ rfl rfl (hn.effect (fun _ => rfl) (fun _ => rfl))
      · exact pop g _ rfl rfl (ticked _ ht)

/-- What one input does. -/
theorem effect (m : Machine) (i : Input) : Effect m i (m.step i).guard.handles ∧ StackMove m i (m.step i) := by
  cases i with
  | call c => exact call_effect m c
  | answer result clock => exact answer_effect m result clock

/-! ## The invariant -/

/-- `h` has been issued as an identifier. -/
def Issued (g : CommandGuard) (h : String) : Prop := ∃ n ≤ g.nextId, h = idText g.prefixId n

structure Inv (m : Machine) : Prop where
  /-- Registered handles are issued identifiers. -/
  keys : ∀ h st, m.guard.handles.get? h = some st → Issued m.guard h
  /-- A handle that waits for the hook of `open` is issued, and not registered yet. -/
  pending : ∀ h, h ∈ m.stack.filterMap Suspended.pending → Issued m.guard h ∧ m.guard.handles.get? h = none
  distinct : (m.stack.filterMap Suspended.pending).Nodup
  /-- At most one handle of a topic holds a lease. -/
  single : SingleWriter m.guard.handles

theorem Issued.mono {g g' : CommandGuard} {h : String} (hi : Issued g h) (hp : g'.prefixId = g.prefixId)
    (hn : g.nextId ≤ g'.nextId) : Issued g' h := by
  obtain ⟨n, hle, rfl⟩ := hi
  exact ⟨n, hle.trans hn, by rw [hp]⟩

theorem Inv.pending_fresh {m : Machine} (hi : Inv m) {n : Nat} (hn : m.guard.nextId < n) :
    m.guard.handles.get? (idText m.guard.prefixId n) = none ∧
      idText m.guard.prefixId n ∉ m.stack.filterMap Suspended.pending := by
  have unissued : ¬ Issued m.guard (idText m.guard.prefixId n) := by
    rintro ⟨k, hk, e⟩
    have := idText_inj e
    omega
  refine ⟨?_, fun h => unissued (hi.pending _ h).1⟩
  by_contra h
  obtain ⟨st, hst⟩ := Option.ne_none_iff_exists'.1 h
  exact unissued (hi.keys _ _ hst)

/-- The call and the reading behind a change. -/
inductive Accounts (m : Machine) (i : Input) : Cause → Prop where
  | quiet : Accounts m i .quiet
  | opened (identity : CommandIdentity) (leaseMs : Nat) (result : Except String Bool) (clock : Num)
      (answer : i = .answer result clock) (frame : m.stack.head? = some (.openHandle identity leaseMs)) :
      Accounts m i (.opened identity.handle)
  | armed (sessionId handle : String) (result : Except String Bool) (t : ℚ)
      (call : m.acting i = some (.arm sessionId handle)) (clock : i = .answer result (some t)) :
      Accounts m i (.armed sessionId handle t)
  | closed (sessionId handle : String) (call : m.acting i = some (.closeHandle sessionId handle)) :
      Accounts m i (.closed sessionId handle)
  | revoked (sessionId : String) (call : m.acting i = some (.revokeSession sessionId)) : Accounts m i (.revoked sessionId)
  | shut (call : m.acting i = some .close) : Accounts m i .shut

theorem Machine.acting_frame {m : Machine} {frame : Suspended} (hf : m.stack.head? = some frame)
    (result : Except String Bool) (clock : Num) : m.acting (.answer result clock) = some frame.call := by
  simp only [Machine.acting, hf, Option.map_some]

theorem Inv.change {m : Machine} (hi : Inv m) (i : Input) :
    ∃ cause, Change m.guard cause (m.step i).guard.handles ∧ Accounts m i cause := by
  obtain ⟨e, -⟩ := effect m i
  generalize (m.step i).guard.handles = after at e ⊢
  cases e with
  | same => exact ⟨_, .same, .quiet⟩
  | opened identity leaseMs result clock frame answer =>
    have fresh := (hi.pending identity.handle (List.mem_filterMap.2 ⟨_, List.mem_of_mem_head? frame, rfl⟩)).2
    exact ⟨_, .opened identity leaseMs fresh, .opened identity leaseMs result clock answer frame⟩
  | armed sessionId handle st result t id frame clock own owner free =>
    have call : m.acting i = some (.arm sessionId handle) := by
      rw [clock]
      exact Machine.acting_frame frame _ _
    exact ⟨_, .armed sessionId handle st t id own owner free, .armed sessionId handle result t call clock⟩
  | noted handle f identity lease => exact ⟨_, .noted handle f identity lease, .quiet⟩
  | closed sessionId handle st call own owner => exact ⟨_, .closed sessionId handle st own owner, .closed _ _ call⟩
  | revoked sessionId call => exact ⟨_, .revoked sessionId, .revoked _ call⟩
  | shut call => exact ⟨_, .shut, .shut call⟩

/-- A handle that no frame registers now stays unregistered. -/
theorem Inv.unregistered {m : Machine} (hi : Inv m) {i : Input} {h : String}
    (h₀ : m.guard.handles.get? h = none)
    (hne : ∀ result clock, i = .answer result clock → ∀ frame, m.stack.head? = some frame → frame.pending ≠ some h) :
    (m.step i).guard.handles.get? h = none := by
  obtain ⟨cause, c, acc⟩ := hi.change i
  by_contra hsome
  obtain ⟨st, hst⟩ := Option.ne_none_iff_exists'.1 hsome
  rcases c.origin hst with ⟨st₀, h₁, -⟩ | rfl
  · rw [h₀] at h₁
    cases h₁
  · cases acc with
    | opened identity leaseMs result clock answer frame => exact hne result clock answer _ frame rfl

theorem inv_step {m : Machine} (hi : Inv m) (i : Input) : Inv (m.step i) := by
  obtain ⟨-, move⟩ := effect m i
  obtain ⟨cause, change, acc⟩ := hi.change i
  have pending_call : ∀ c, i = .call c → ∀ h, h ∈ (m.step i).stack.filterMap Suspended.pending →
      h ∈ m.stack.filterMap Suspended.pending ∨
        h = idText m.guard.prefixId (m.step i).guard.nextId ∧ m.guard.nextId < (m.step i).guard.nextId := by
    intro c hc h hh
    rcases move.called c hc with hs | ⟨frame, hs, hframe⟩ <;> rw [hs] at hh
    · exact .inl hh
    · simp only [List.filterMap_cons] at hh
      split at hh
      · exact .inl hh
      · next k hk =>
        rcases List.mem_cons.1 hh with rfl | hh
        · exact .inr (hframe _ hk)
        · exact .inl hh
  have tail_sub : m.stack.tail.filterMap Suspended.pending ⊆ m.stack.filterMap Suspended.pending :=
    ((List.tail_sublist _).filterMap _).subset
  constructor
  · intro h st hst
    rcases change.origin hst with ⟨st₀, h₀, -⟩ | rfl
    · exact (hi.keys _ _ h₀).mono move.prefixId move.nextId
    · cases acc with
      | opened identity leaseMs _ _ _ frame =>
        refine Issued.mono (hi.pending _ ?_).1 move.prefixId move.nextId
        exact List.mem_filterMap.2 ⟨_, List.mem_of_mem_head? frame, rfl⟩
  · intro h hh
    cases i with
    | call c =>
      have quiet : ∀ result clock, Input.call c = .answer result clock → ∀ frame, m.stack.head? = some frame →
          frame.pending ≠ some h := fun _ _ he => by cases he
      rcases pending_call c rfl h hh with hold | ⟨rfl, hlt⟩
      · exact ⟨(hi.pending _ hold).1.mono move.prefixId move.nextId, hi.unregistered (hi.pending _ hold).2 quiet⟩
      · exact ⟨⟨_, le_refl _, by rw [move.prefixId]⟩, hi.unregistered (hi.pending_fresh hlt).1 quiet⟩
    | answer result clock =>
      rw [move.answered _ _ rfl] at hh
      refine ⟨(hi.pending _ (tail_sub hh)).1.mono move.prefixId move.nextId,
        hi.unregistered (hi.pending _ (tail_sub hh)).2 ?_⟩
      -- The answered frame's own handle is not among those that still wait.
      intro _ _ _ frame hf hp
      have hcons : m.stack = frame :: m.stack.tail := (List.cons_head?_tail hf).symm
      have := hi.distinct
      rw [hcons, List.filterMap_cons_some hp] at this
      exact (List.nodup_cons.1 this).1 hh
  · cases i with
    | call c =>
      rcases move.called c rfl with hs | ⟨frame, hs, hframe⟩ <;> rw [hs]
      · exact hi.distinct
      · simp only [List.filterMap_cons]
        split
        · exact hi.distinct
        · next k hk =>
          obtain ⟨rfl, hlt⟩ := hframe _ hk
          exact List.nodup_cons.2 ⟨(hi.pending_fresh hlt).2, hi.distinct⟩
    | answer result clock =>
      rw [move.answered _ _ rfl]
      exact hi.distinct.sublist ((List.tail_sublist _).filterMap _)
  · exact change.single hi.single

theorem inv_start {g : CommandGuard} (h : g.handles = .empty) : Inv (.start g) := by
  constructor <;> simp [Machine.start, SingleWriter, h]

theorem inv_run {m : Machine} (hi : Inv m) (inputs : List Input) : Inv (m.run inputs) := by
  induction inputs generalizing m with
  | nil => exact hi
  | cons i is ih => exact ih (inv_step hi i)

/-! ## How a lease ends -/

/-- The ways in which an input may end the lease that `st` holds on handle `h`. Only
`expired` is open to other sessions. -/
inductive Ends (m : Machine) (i : Input) (h : String) (st : HandleState) (lease : Lease) : Prop where
  | rearmed (handle : String) (call : m.acting i = some (.arm st.identity.sessionId handle))
  | expired (sessionId handle : String) (call : m.acting i = some (.arm sessionId handle))
      (result : Except String Bool) (t : ℚ) (clock : i = .answer result (some t)) (past : lease.expiresAt ≤ t)
  | closed (call : m.acting i = some (.closeHandle st.identity.sessionId h))
  | revoked (call : m.acting i = some (.revokeSession st.identity.sessionId))
  | shut (call : m.acting i = some .close)

theorem Inv.lease_end {m : Machine} (hi : Inv m) (i : Input) {h : String} {st : HandleState} {lease : Lease}
    (hst : m.guard.handles.get? h = some st) (hl : st.lease = some lease) :
    (m.step i).guard.leaseOf h = some lease ∨ Ends m i h st lease := by
  obtain ⟨cause, c, acc⟩ := hi.change i
  rcases c.lease_end hst hl with ⟨st', hst', -, hl'⟩ | ends
  · left
    rw [leaseOf, hst']
    exact hl'
  · right
    cases acc with
    | quiet | opened => exact ends.elim
    | armed sessionId handle result t call clock =>
      rcases ends with rfl | past
      · exact .rearmed handle call
      · exact .expired sessionId handle call result t clock past
    | closed sessionId handle call =>
      obtain ⟨rfl, rfl⟩ := ends
      exact .closed call
    | revoked sessionId call =>
      obtain rfl : sessionId = st.identity.sessionId := ends
      exact .revoked call
    | shut call => exact .shut call

/-! ## When a callback runs -/

/-- A frame of `publish` waits on a ticket that has been issued and is used up. -/
def TicketInv (m : Machine) : Prop :=
  ∀ k saved seq, .publish k saved seq ∈ m.stack → m.tickets[k]? = some ⟨saved, seq, true⟩

theorem ask_tickets {α : Type} (m : Machine) (part : GuardM α) (frame : α → Suspended) :
    (m.ask part frame).tickets = m.tickets ∧
      ((m.ask part frame).stack = m.stack ∨ ∃ a, (m.ask part frame).stack = frame a :: m.stack) := by
  unfold Machine.ask
  split
  · exact ⟨rfl, .inr ⟨_, rfl⟩⟩
  · exact ⟨rfl, .inl rfl⟩

/-- Waiting on a frame that is not a `publish` keeps the tickets of the waiting ones. -/
theorem TicketInv.ask {α : Type} {m : Machine} (hi : TicketInv m) (part : GuardM α) {frame : α → Suspended}
    (hf : ∀ a k saved seq, frame a = .publish k saved seq → m.tickets[k]? = some ⟨saved, seq, true⟩) :
    TicketInv (m.ask part frame) := by
  obtain ⟨ht, hs⟩ := ask_tickets m part frame
  intro k saved seq hmem
  rw [ht]
  rcases hs with hs | ⟨a, hs⟩ <;> rw [hs] at hmem
  · exact hi k saved seq hmem
  · rcases List.mem_cons.1 hmem with e | hmem
    · exact hf a k saved seq e.symm
    · exact hi k saved seq hmem

theorem ticketInv_call {m : Machine} (hi : TicketInv m) (c : Call) : TicketInv (m.call c) := by
  cases c with
  | openSession | closeHandle | revokeSession | close => exact hi
  | openHandle | arm | prepare => exact hi.ask _ (fun _ _ _ _ e => by cases e)
  | publish i callable =>
    simp only [Machine.call]
    split
    · exact hi
    · next ticket hticket =>
      split
      · exact hi
      · next unused =>
        have hi' : TicketInv { m with tickets := m.tickets.set i { ticket with consumed := true } } := by
          intro k saved seq hmem
          have hk := hi k saved seq hmem
          -- The ticket used up now is not one that a frame already waits on.
          have hne : i ≠ k := by
            rintro rfl
            rw [hticket] at hk
            exact unused (by rw [Option.some.inj hk])
          simp only [List.getElem?_set_ne hne, hk]
        split
        · refine hi'.ask _ ?_
          rintro _ k saved seq e
          cases e
          have hlt := (List.getElem?_eq_some_iff.1 hticket).1
          simp [hlt]
        · exact hi'

theorem ticketInv_step {m : Machine} (hi : TicketInv m) (i : Input) : TicketInv (m.step i) := by
  cases i with
  | call c => exact ticketInv_call hi c
  | answer result clock =>
    simp only [Machine.step]
    split
    · exact hi
    · next frame stack hs =>
      have tail : TicketInv { m with stack := stack } := fun k saved seq hmem =>
        hi k saved seq (by rw [hs]; exact List.mem_cons_of_mem _ hmem)
      cases frame with
      | openHandle | arm => exact tail
      | publish => simp only [Machine.resume]; split <;> exact tail
      | prepare saved seq =>
        simp only [Machine.resume]
        split
        · intro k saved' seq' hmem
          have hk := tail k saved' seq' hmem
          exact (List.getElem?_append_left (List.getElem?_eq_some_iff.1 hk).1).trans hk
        · exact tail

/-- What holds when a publish callback is called: the ticket's handle exists, belongs
to the request's session and epoch, and holds the single lease of its topic, which is
the one the request names and has not expired at the clock value just read. -/
structure Cleared (g : CommandGuard) (p : Publication) (st : HandleState) (lease : Lease) (t : ℚ) : Prop where
  clock : p.clock = some t
  now : g.lastTime = t
  valid : Valid g p.request t st lease
  single : ∀ h' st', g.handles.get? h' = some st' → st'.identity.topic = st.identity.topic → st'.lease.isSome →
    h' = p.request.handle

/-- The callbacks an input runs: none, or the one of the ticket that waited. -/
inductive Publishes (m : Machine) (i : Input) : Prop where
  | quiet (none : (m.step i).published = m.published)
  | callback (p : Publication) (k seq : Nat) (result : Except String Bool) (st : HandleState) (lease : Lease) (t : ℚ)
      (called : (m.step i).published = m.published ++ [p])
      (ticket : m.tickets[k]? = some ⟨p.request, seq, true⟩)
      (answer : i = .answer result (some t)) (acting : m.acting i = some (.publish k true))
      (cleared : Cleared (m.step i).guard p st lease t)

theorem CommandGuard.Valid.noted {g : CommandGuard} {request : CommandRequest} {t : ℚ} {st : HandleState} {lease : Lease}
    (hv : Valid g request t st lease) {f : HandleState → HandleState} (hid : ∀ s, (f s).identity = s.identity)
    (hl : ∀ s, (f s).lease = s.lease) :
    Valid { g with lastTime := t, handles := g.handles.modify request.handle f } request t (f st) lease where
  handle := by simp [Table.get?_modify, hv.handle]
  session := by rw [hid, hv.session]
  epoch := by rw [hid, hv.epoch]
  leaseId := hv.leaseId
  live := hv.live
  held := by rw [hl, hv.held]

theorem ask_published {α : Type} (m : Machine) (part : GuardM α) (frame : α → Suspended) :
    (m.ask part frame).published = m.published := by
  unfold Machine.ask
  split <;> rfl

theorem call_published (m : Machine) (c : Call) : (m.call c).published = m.published := by
  cases c with
  | openSession | closeHandle | revokeSession | close => rfl
  | openHandle | arm | prepare => exact ask_published _ _ _
  | publish i callable =>
    simp only [Machine.call]
    split
    · rfl
    · split
      · rfl
      · split
        · exact ask_published _ _ _
        · rfl

theorem Inv.publishes {m : Machine} (hi : Inv m) (ht : TicketInv m) (i : Input) : Publishes m i := by
  cases i with
  | call c => exact .quiet (call_published m c)
  | answer result clock =>
    have after := inv_step hi (.answer result clock)
    cases hs : m.stack with
    | nil => exact .quiet (by simp only [Machine.step, hs])
    | cons frame stack =>
      cases frame with
      | openHandle | arm => exact .quiet (by simp only [Machine.step, hs, Machine.resume])
      | prepare saved seq =>
        refine .quiet ?_
        simp only [Machine.step, hs, Machine.resume]
        split <;> rfl
      | publish k saved seq =>
        rcases exec_cases (authorized_then result (publishRest_spec saved seq clock m.guard)
          (fun _ => .refl _)) with ⟨_, g, ⟨t, st, lease, hc, hle, hv, rfl⟩, e⟩ | ⟨_, g, -, e⟩
        · have hstep : m.step (.answer result clock) = { m with
              stack := stack
              guard := { m.guard with
                lastTime := t
                handles := m.guard.handles.modify saved.handle fun s => { s with published := seq } }
              published := m.published ++ [⟨saved, clock⟩] } := by
            simp only [Machine.step, hs, Machine.resume, e]
          rw [hstep] at after
          have hv' := hv.noted (f := fun s => { s with published := (seq : Int) }) (fun _ => rfl) (fun _ => rfl)
          refine .callback ⟨saved, clock⟩ k seq result { st with published := seq } lease t (by rw [hstep]) ?_ (by rw [hc])
            (Machine.acting_frame (by rw [hs]; rfl) _ _) ?_
          · exact ht k saved seq (by rw [hs]; exact List.mem_cons_self)
          · rw [hstep]
            refine ⟨hc, rfl, hv', fun h' st' hst' htopic hl' => ?_⟩
            exact after.single h' saved.handle st' _ hst' hv'.handle htopic hl' (by simp [hv.held])
        · exact .quiet (by simp only [Machine.step, hs, Machine.resume, e])

theorem ticketInv_run {m : Machine} (hi : TicketInv m) (inputs : List Input) : TicketInv (m.run inputs) := by
  induction inputs generalizing m with
  | nil => exact hi
  | cons i is ih => exact ih (ticketInv_step hi i)

/-- A guard as it is constructed. -/
theorem create_spec {prefixId : String} {maxSessions maxHandles leaseMs clock : Num} {g : CommandGuard}
    (h : create prefixId maxSessions maxHandles leaseMs clock = .ok g) :
    g.handles = .empty ∧ g.sessions = .empty ∧ g.closed = false ∧ positiveLimit maxSessions = some g.options.maxSessions ∧
      positiveLimit maxHandles = some g.options.maxHandles := by
  unfold create at h
  split at h
  · next s n l sessions handles lease =>
    split at h
    · next pos =>
      rcases exec_cases (now_spec clock ⟨⟨s, n, l, pos⟩, prefixId, 0, 0, .empty, .empty, false⟩) with
        ⟨_, g', ⟨_, _, rfl⟩, e⟩ | ⟨_, g', rfl, e⟩
      · rw [e] at h
        obtain rfl := Except.ok.inj h
        exact ⟨rfl, rfl, rfl, sessions, handles⟩
      · rw [e] at h
        cases h
    · cases h
  · cases h

theorem create_handles {prefixId : String} {maxSessions maxHandles leaseMs clock : Num} {g : CommandGuard}
    (h : create prefixId maxSessions maxHandles leaseMs clock = .ok g) : g.handles = .empty := (create_spec h).1

/-- A topic has one lease at most; the next input leaves a lease alone unless it is
one of `Ends`; and it runs a callback only for a ticket that is `Cleared`. -/
structure ExclusiveWriter (m : Machine) : Prop where
  single : ∀ h h' st st', m.guard.handles.get? h = some st → m.guard.handles.get? h' = some st' →
    st.identity.topic = st'.identity.topic → st.lease.isSome → st'.lease.isSome → h = h'
  lasting : ∀ i h st lease, m.guard.handles.get? h = some st → st.lease = some lease →
    (m.step i).guard.leaseOf h = some lease ∨ Ends m i h st lease
  publishes : ∀ i, Publishes m i

/-- The writer is exclusive after any calls, of any sessions and also from inside the
hook. -/
theorem exclusive_writer {prefixId : String} {maxSessions maxHandles leaseMs clock : Num} {g : CommandGuard}
    (hg : create prefixId maxSessions maxHandles leaseMs clock = .ok g) (inputs : List Input) :
    ExclusiveWriter ((Machine.start g).run inputs) := by
  have hi := inv_run (inv_start (create_handles hg)) inputs
  have ht := ticketInv_run (m := .start g) (fun _ _ _ h => by cases h) inputs
  exact ⟨hi.single, fun i _ _ _ hst hl => hi.lease_end i hst hl, fun i => hi.publishes ht i⟩

/-- A guard for two sessions, two handles and leases of 250 ms. -/
def pairGuard : CommandGuard := ⟨⟨2, 2, 250, by decide⟩, "guard", 0, 0, .empty, .empty, false⟩

/-- An operator arms and publishes once; another one, with a handle on the same topic,
is refused while the lease lasts. -/
def twoOperators : List Input :=
  [.call (.openSession "a"), .call (.openSession "b"),
    .call (.openHandle "guard:1" "/cmd_vel" none), .answer (.ok true) none,
    .call (.openHandle "guard:2" "/cmd_vel" none), .answer (.ok true) none,
    .call (.arm "guard:1" "guard:3"), .answer (.ok true) (some 10),
    .call (.arm "guard:2" "guard:4"), .answer (.ok true) (some 20),
    .call (.prepare ⟨"guard:1", "a", "guard:3", "guard:5", "0"⟩), .answer (.ok true) (some 30),
    .call (.publish 0 true), .answer (.ok true) (some 40)]

theorem exclusive_writer_two_operators :
    create "guard" (some 2) (some 2) (some 250) (some 0) = .ok pairGuard ∧
      ((Machine.start pairGuard).run twoOperators).published.length = 1 ∧
      ExclusiveWriter ((Machine.start pairGuard).run twoOperators) :=
  have created : create "guard" (some 2) (some 2) (some 250) (some 0) = .ok pairGuard := rfl
  ⟨created, by decide +kernel, exclusive_writer created twoOperators⟩

end RosBridge.Session
