import RosBridge.Lib.Log
import RosBridge.Router.Inputs
import RosBridge.Router.Names
/-!
# Leases at the ROS call

The history tells which lease a ticket named when it was validated and everything that
can end a lease since. So a guarded publication that reaches ROS is made under that lease,
unless one of the hooks evaluated in between has ended it; and two sessions publish on one
output only with an arm in between that found the first one's lease over.
-/

namespace RosBridge.Router

open Lib Session Config Relation CommandGuard

variable {η : Type} {allow : Allow} {w w' : World η} {k : Nat}

/-- A note of something that can end the lease of a handle. -/
def Note.Ends (sessionId handle : String) (lease : Lease) : Note → Prop
  | .armed s _ t _ => s = sessionId ∨ lease.expiresAt ≤ t
  | .closedHandle s h => s = sessionId ∧ h = handle
  | .revoked s => s = sessionId
  | _ => False

/-- Nothing on a topic is leased to another session at time `t`. -/
def Unleased (g : CommandGuard) (topic sessionId : String) (t : ℚ) : Prop :=
  ∀ c ∈ g.handles.values, busy topic sessionId t c = false

/-- A lease after a change was there before it, or its session has just armed, with no
other session's lease on the topic. -/
theorem lease_source {g : CommandGuard} {cause : Cause} {hs : Table String HandleState} (c : Change g cause hs) {h : String}
    {st : HandleState} (found : hs.get? h = some st) (leased : st.lease.isSome) :
    (∃ st₀, g.handles.get? h = some st₀ ∧ st.identity = st₀.identity ∧ st₀.lease.isSome) ∨
      ∃ t, cause = .armed st.identity.sessionId h t ∧ Unleased g st.identity.topic st.identity.sessionId t := by
  cases c with
  | armed sessionId handle own t id hown owner free =>
    obtain ⟨st₀, h₀, rfl⟩ := (get?_granted _ _ _ _ _ _).1 found
    by_cases hh : h = handle
    · subst hh
      obtain rfl : own = st₀ := Option.some.inj (hown.symm.trans h₀)
      exact .inr ⟨t, by rw [owner], by rw [owner]; exact free⟩
    · refine .inl ⟨st₀, h₀, rfl, ?_⟩
      simp only [hh, if_false] at leased
      split at leased
      · cases leased
      · exact leased
  | same => exact .inl ⟨st, found, rfl, leased⟩
  | noted handle f identity lease =>
    rw [Table.get?_modify] at found
    split at found
    · obtain ⟨st₀, h₀, rfl⟩ := Option.map_eq_some_iff.1 found
      exact .inl ⟨st₀, h₀, identity st₀, lease st₀ ▸ leased⟩
    · exact .inl ⟨st, found, rfl, leased⟩
  | opened identity leaseMs fresh =>
    rw [Table.get?_set] at found
    split at found
    · obtain rfl := Option.some.inj found
      cases leased
    · exact .inl ⟨st, found, rfl, leased⟩
  | closed sessionId handle =>
    rw [Table.get?_erase] at found
    split at found
    · cases found
    · exact .inl ⟨st, found, rfl, leased⟩
  | revoked sessionId =>
    rw [Table.get?_filter] at found
    exact .inl ⟨st, (Option.filter_eq_some_iff.1 found).1, rfl, leased⟩
  | shut => simp at found

/-! ## What the history tells of the guard -/

/-- The notes of a step tell why the handles changed, and what was validated. -/
structure Told (g : CommandGuard) (cause : Cause) (notes : List Note) : Prop where
  ends : ∀ h st lease, cause.EndsLease h st lease → ∃ n ∈ notes, n.Ends st.identity.sessionId h lease
  armed : ∀ sessionId h t, cause = .armed sessionId h t → .armed sessionId h t g ∈ notes
  validated : ∀ request t g', .validated request t g' ∈ notes → notes = [.validated request t g'] ∧ cause = .quiet ∧ g' = g ∧
    ∃ st lease, Valid g request t st lease

/-- Nothing was validated and the handles stay. -/
theorem Told.quiet {g : CommandGuard} {notes : List Note} (none : ∀ request t g', .validated request t g' ∉ notes) :
    Told g .quiet notes :=
  ⟨fun _ _ _ h => h.elim, by simp, fun request t g' h => absurd h (none request t g')⟩

theorem Told.none {g : CommandGuard} : Told g .quiet [] := .quiet (by simp)

/-- One note that tells why the handles changed. -/
theorem Told.of_note {g : CommandGuard} {cause : Cause} {notes : List Note} {n : Note} (there : n ∈ notes)
    (ends : ∀ h st lease, cause.EndsLease h st lease → n.Ends st.identity.sessionId h lease)
    (armed : ∀ sessionId h t, cause ≠ .armed sessionId h t) (none : ∀ request t g', .validated request t g' ∉ notes) :
    Told g cause notes :=
  ⟨fun h st lease e => ⟨n, there, ends h st lease e⟩, fun s h t e => absurd e (armed s h t),
    fun request t g' h => absurd h (none request t g')⟩

theorem Step.told (s : Step allow w w') : ∃ cause notes, Change w.guard cause w'.guard.handles ∧
    w'.history = w.history ++ notes ∧ Told w.guard cause notes := by
  have revoked : ∀ sid, Change w.guard (.revoked sid) ((revokeSession sid).after w.guard).handles := by
    intro sid
    rw [revokeSession_after]
    exact .revoked sid
  cases s with
  | outside | mediaClosed | router | subscribed | constructed =>
    exact ⟨.quiet, [], .same, (List.append_nil _).symm, .quiet (by simp)⟩
  | asked | answered | flushing | refused | handedControl | handedData | published | torn =>
    exact ⟨.quiet, _, .same, rfl, .quiet (by simp)⟩
  | removed j stream sub q listeners notes found options streams left recorded =>
    refine ⟨.quiet, notes, .same, rfl, .quiet ?_⟩
    rcases recorded with rfl | rfl <;> simp
  | spoiled => exact ⟨.quiet, _, .same, rfl, .quiet (by simp)⟩
  | tended cause g notes tended =>
    refine ⟨cause, notes, tended.change, rfl, ?_⟩
    cases tended.recorded with
    | quiet => exact .quiet (by simp)
    | validated request t st lease valid now =>
      refine ⟨fun _ _ _ h => h.elim, by simp, fun request' t' g' h => ?_⟩
      obtain ⟨rfl, rfl, rfl⟩ : request' = request ∧ t' = t ∧ g' = w.guard := by simpa using h
      exact ⟨rfl, rfl, rfl, st, lease, valid⟩
    | armed sessionId handle t =>
      refine ⟨fun h st lease ends => ⟨_, List.mem_singleton_self _, ?_⟩, ?_, by simp⟩
      · exact ends
      · rintro _ _ _ ⟨⟩
        exact List.mem_singleton_self _
  | handleTaken sessionId handle st wild own owner =>
    refine ⟨.closed sessionId handle, _, .closed sessionId handle st own owner, rfl,
      .of_note (List.mem_singleton_self _) (fun h st lease e => ?_) (by simp) (by simp)⟩
    exact ⟨e.1, e.2⟩
  | sessionTaken sessionId wild =>
    exact ⟨.revoked sessionId, _, revoked sessionId, rfl,
      .of_note (List.mem_singleton_self _) (fun h st lease e => e) (by simp) (by simp)⟩
  | handleOpened j entry identity leaseMs n found direction guarded owner topic issued bound absent session capacity room =>
    refine ⟨.opened identity.handle, _, .opened identity leaseMs absent, rfl, ?_, ?_, ?_⟩
    · exact fun h st lease e => e.elim
    · simp
    · simp
  | handleClosed j handle p st found guarded own owner =>
    exact ⟨.closed (w.routers j).sessionId handle, _, .closed _ handle st own owner, rfl,
      .of_note (List.mem_singleton_self _) (fun h st lease e => e) (by simp) (by simp)⟩
  | closed j gone isOpen only all =>
    exact ⟨.revoked (w.routers j).sessionId, _, revoked _, rfl,
      .of_note (n := .revoked (w.routers j).sessionId) (by simp) (fun h st lease e => e) (by simp) (by simp)⟩

/-! ## What was validated -/

/-- The lease of a validated ticket is still held, or a note tells what can have ended it. -/
def Upheld (guard : CommandGuard) (request : CommandRequest) (st : HandleState) (lease : Lease) (after : List Note) : Prop :=
  (∃ n ∈ after, n.Ends request.sessionId request.handle lease) ∨
    ∃ st', guard.handles.get? request.handle = some st' ∧ st'.identity = st.identity ∧ st'.lease = some lease

/-- Every lease on the topic of a validated ticket that another session holds was armed
since, when no lease of yet another session was in force. -/
def Succeeded (guard : CommandGuard) (request : CommandRequest) (st : HandleState) (after : List Note) : Prop :=
  ∀ h st', guard.handles.get? h = some st' → st'.lease.isSome → st'.identity.topic = st.identity.topic →
    st'.identity.sessionId ≠ request.sessionId → ∃ t g, .armed st'.identity.sessionId h t g ∈ after ∧
      Unleased g st.identity.topic st'.identity.sessionId t

/-- What the history tells of the tickets that were validated. -/
structure Validated (w : World η) : Prop where
  single : SingleWriter w.guard.handles
  tickets : ∀ before request t g after, w.history = before ++ .validated request t g :: after → ∃ st lease,
    Valid g request t st lease ∧ Upheld w.guard request st lease after ∧ Succeeded w.guard request st after

theorem Upheld.step {g g' : CommandGuard} {cause : Cause} {notes after : List Note} {request : CommandRequest} {st : HandleState}
    {lease : Lease} (h : Upheld g request st lease after) (owner : st.identity.sessionId = request.sessionId)
    (change : Change g cause g'.handles) (told : Told g cause notes) : Upheld g' request st lease (after ++ notes) := by
  rcases h with ⟨n, hn, ends⟩ | ⟨st', found, identity, leased⟩
  · exact .inl ⟨n, List.mem_append_left _ hn, ends⟩
  · rcases change.lease_end found leased with ⟨st'', found', identity', leased'⟩ | ended
    · exact .inr ⟨st'', found', identity'.trans identity, leased'⟩
    · obtain ⟨n, hn, ends⟩ := told.ends _ _ _ ended
      refine .inl ⟨n, List.mem_append_right _ hn, ?_⟩
      rwa [identity, owner] at ends

theorem Succeeded.step {g g' : CommandGuard} {cause : Cause} {notes after : List Note} {request : CommandRequest}
    {st : HandleState} (h : Succeeded g request st after) (change : Change g cause g'.handles) (told : Told g cause notes) :
    Succeeded g' request st (after ++ notes) := by
  intro hd st' found leased topic other
  rcases lease_source change found leased with ⟨st₀, h₀, identity, leased₀⟩ | ⟨t, armed, unleased⟩
  · obtain ⟨t, g₀, there, unleased⟩ := h hd st₀ h₀ leased₀ (identity ▸ topic) (identity ▸ other)
    rw [identity]
    exact ⟨t, g₀, List.mem_append_left _ there, unleased⟩
  · exact ⟨t, g, List.mem_append_right _ (told.armed _ _ _ armed), topic ▸ unleased⟩

/-- At its validation a ticket's session alone holds a lease on the topic. -/
theorem alone_of_valid {g : CommandGuard} {request : CommandRequest} {t : ℚ} {st : HandleState} {lease : Lease}
    (valid : Valid g request t st lease) (single : SingleWriter g.handles) : Succeeded g request st [] := by
  intro h st' found leased topic other
  obtain rfl : h = request.handle := single h request.handle st' st found valid.handle topic leased (by simp [valid.held])
  obtain rfl : st = st' := Option.some.inj (valid.handle.symm.trans found)
  exact absurd valid.session other

theorem Step.validated (s : Step allow w w') (h : Validated w) : Validated w' := by
  obtain ⟨cause, notes, change, history, told⟩ := s.told
  refine ⟨change.single h.single, fun before request t g after e => ?_⟩
  rw [history] at e
  rcases append_split e with ⟨between, old, rfl⟩ | ⟨between, -, new⟩
  · obtain ⟨st, lease, valid, upheld, succeeded⟩ := h.tickets before request t g between old
    exact ⟨st, lease, valid, upheld.step valid.session change told, succeeded.step change told⟩
  · -- It is validated in this step, which does nothing else.
    obtain ⟨single, rfl, rfl, st, lease, valid⟩ := told.validated request t g (by simp [new])
    have last : after = [] := by
      rw [single] at new
      cases between with
      | nil => simpa using new.symm
      | cons => simp at new
    subst last
    have upheld : Upheld w.guard request st lease [] := .inr ⟨st, valid.handle, rfl, valid.held⟩
    exact ⟨st, lease, valid, upheld.step valid.session change .none, (alone_of_valid valid h.single).step change .none⟩

/-! ## Publishers and their handles -/

/-- The handle of a guarded publisher was opened for the output of its binding. -/
def Bound (w : World η) : Prop :=
  ∀ k h p st, (w.routers k).publishers.get? h = some p → p.guarded = true → w.guard.handles.get? h = some st →
    st.identity.sessionId = (w.routers k).sessionId → st.identity.topic = p.entry.binding.rosTopic

/-- A change of the publishers of one router, seen from any router. -/
theorem setRouter_publisher {j : Nat} {r : SessionRouter η} {h : String} {p : Publisher η}
    (found : ((w.setRouter j r).routers k).publishers.get? h = some p) :
    k = j ∧ r.publishers.get? h = some p ∨ (w.routers k).publishers.get? h = some p := by
  by_cases e : k = j
  · subst e
    rw [World.setRouter_self] at found
    exact .inl ⟨rfl, found⟩
  · rw [World.setRouter_ne _ _ e] at found
    exact .inr found

/-- Where a guarded publisher comes from: it was there, or its handle has just been opened. -/
theorem Step.publisher (s : Step allow w w') {h : String} {p : Publisher η} (found : (w'.routers k).publishers.get? h = some p)
    (guarded : p.guarded = true) :
    (∃ p₀, (w.routers k).publishers.get? h = some p₀ ∧ p₀.guarded = true ∧ p.entry = p₀.entry) ∨
      ∀ st, w'.guard.handles.get? h = some st → st.identity.topic = p.entry.binding.rosTopic := by
  have old : (w.routers k).publishers.get? h = some p →
      ∃ p₀, (w.routers k).publishers.get? h = some p₀ ∧ p₀.guarded = true ∧ p.entry = p₀.entry := fun found => ⟨p, found, guarded, rfl⟩
  have same : ∀ {j : Nat} {r : SessionRouter η}, r.publishers = (w.routers j).publishers →
      ((w.setRouter j r).routers k).publishers.get? h = some p →
      ∃ p₀, (w.routers k).publishers.get? h = some p₀ ∧ p₀.guarded = true ∧ p.entry = p₀.entry := by
    intro j r publishers found
    rcases setRouter_publisher found with ⟨rfl, here⟩ | here
    · exact old (publishers ▸ here)
    · exact old here
  cases s with
  | outside | mediaClosed | asked | answered | flushing | refused | tended | handleTaken | sessionTaken => exact .inl (old found)
  | router j r move =>
    rcases setRouter_publisher found with ⟨rfl, here⟩ | here
    · rcases move.publisher here with ⟨p₀, h₀, entry, guarded₀⟩ | ⟨-, unguarded⟩
      · exact .inl ⟨p₀, h₀, guarded₀ ▸ guarded, entry⟩
      · rw [unguarded] at guarded
        cases guarded
    · exact .inl (old here)
  | handleOpened j entry identity leaseMs n found' direction _ owner topic issued bound absent session capacity room =>
    rcases setRouter_publisher found with ⟨rfl, here⟩ | here
    · simp only [SessionRouter.advertise, Table.get?_set] at here
      split at here
      · next e =>
        obtain rfl := Option.some.inj here
        refine .inr fun st hst => ?_
        dsimp only at hst
        rw [e, Table.get?_set_self] at hst
        exact Option.some.inj hst ▸ topic
      · exact .inl (old here)
    · exact .inl (old here)
  | handleClosed j handle p' st found' _ own owner =>
    rcases setRouter_publisher found with ⟨rfl, here⟩ | here
    · simp only [SessionRouter.unadvertise, Table.get?_erase] at here
      split at here
      · cases here
      · exact .inl (old here)
    · exact .inl (old here)
  | subscribed j entry requestId r isOpen found' free room announced => exact .inl (same announced.same.2.1 found)
  | removed | spoiled | handedControl | handedData | published | torn => exact .inl (same (by rfl) found)
  | closed j gone isOpen only all =>
    rcases setRouter_publisher found with ⟨rfl, here⟩ | here
    · simp [SessionRouter.finished] at here
    · exact .inl (old here)
  | constructed r fresh isOpen capacity named =>
    rcases setRouter_publisher found with ⟨rfl, here⟩ | here
    · simp [fresh.publishers] at here
    · exact .inl (old here)

/-- A handle was there with the same identity, or a router has just opened it, with a
publisher of its own. -/
theorem Step.opener (s : Step allow w w') (sane : w.Sane) {h : String} {st : HandleState}
    (found : w'.guard.handles.get? h = some st) :
    (∃ st₀, w.guard.handles.get? h = some st₀ ∧ st.identity = st₀.identity) ∨
      ∃ j entry, j < w.born ∧ st.identity.sessionId = (w.routers j).sessionId ∧ st.identity.topic = entry.binding.rosTopic ∧
        w'.routers j = (w.routers j).advertise h entry := by
  have revoked : ∀ sid, ((revokeSession sid).after w.guard).handles.get? h = some st →
      ∃ st₀, w.guard.handles.get? h = some st₀ ∧ st.identity = st₀.identity := by
    intro sid found
    rw [revokeSession_after] at found
    exact ((Change.revoked (g := w.guard) sid).origin found).resolve_right (by simp)
  cases s with
  | handleOpened j entry identity leaseMs n found' direction guarded owner topic issued bound absent session capacity room =>
    dsimp only at found
    rw [Table.get?_set] at found
    split at found
    · next e =>
      obtain rfl := Option.some.inj found
      subst e
      exact .inr ⟨j, entry, sane.born_of_entry found', owner, topic, World.setRouter_self _ _ _⟩
    · exact .inl ⟨st, found, rfl⟩
  | tended cause g notes tended =>
    rcases tended.change.origin found with old | rfl
    · exact .inl old
    · cases tended.recorded
  | handleTaken sessionId handle st' wild own owner =>
    exact .inl (((Change.closed sessionId handle st' own owner).origin found).resolve_right (by simp))
  | handleClosed j handle p st' found' guarded own owner =>
    exact .inl (((Change.closed _ handle st' own owner).origin found).resolve_right (by simp))
  | sessionTaken sessionId wild => exact .inl (revoked sessionId found)
  | closed j gone isOpen only all => exact .inl (revoked _ found)
  | _ => exact .inl ⟨st, found, rfl⟩

theorem Step.bound (s : Step allow w w') (sane : w.Sane) (named : Named w) (h : Bound w) : Bound w' := by
  intro k hd p st found guarded held own
  rcases s.publisher found guarded with ⟨p₀, h₀, guarded₀, entry⟩ | new
  · have born : k < w.born := sane.born_of_entry ((sane.routers k).advertised hd p₀ h₀).1
    rw [(s.kept born).sessionId] at own
    rcases s.opener sane held with ⟨st₀, hst₀, identity⟩ | ⟨j, entry', bornj, owner, topic, advertised⟩
    · rw [entry, identity]
      exact h k hd p₀ st₀ h₀ guarded₀ hst₀ (by rw [← identity, own])
    · -- Sessions are of one router each, so the handle was opened for this publisher.
      obtain rfl : j = k := named.distinct j k bornj born (owner.symm.trans own)
      rw [advertised] at found
      simp only [SessionRouter.advertise, Table.get?_set_self] at found
      exact Option.some.inj found ▸ topic
  · exact new st held

/-! ## Publications -/

/-- The last ticket before a publication, with the handle and the lease it was validated
for and what only hooks have done since. -/
structure Ticketed (before : List Note) (request : CommandRequest) (st : HandleState) (lease : Lease) (after : List Note) : Prop where
  validated : ∃ earlier t g, before = earlier ++ .validated request t g :: after ∧ Valid g request t st lease
  hooks : ∀ n ∈ after, n.OfHook

/-- No hook has done what can end the lease of a ticket. -/
def Intact (request : CommandRequest) (lease : Lease) (after : List Note) : Prop :=
  ∀ n ∈ after, ¬n.Ends request.sessionId request.handle lease

/-- The guard holds a lease for the handle of a request, the only one on its topic. -/
structure Holds (guard : CommandGuard) (request : CommandRequest) (topic : String) (lease : Lease) : Prop where
  held : ∃ st, guard.handles.get? request.handle = some st ∧ st.identity.sessionId = request.sessionId ∧
    st.identity.topic = topic ∧ st.lease = some lease
  only : ∀ h st, guard.handles.get? h = some st → st.identity.topic = topic → st.lease.isSome → h = request.handle

/-- What is known of a publication: a guarded one is made with a ticket of its session, and
under the lease that the ticket named unless a hook can have ended it; and another session
that holds a lease on the topic of an earlier ticket has armed since. -/
def Published (before : List Note) : Note → Prop
  | .published _ sessionId binding request guard =>
    (binding.commandGuard.isSome → ∃ r st lease after, request = some r ∧ r.sessionId = sessionId ∧
      Ticketed before r st lease after ∧
        (Intact r lease after → st.identity.topic = binding.rosTopic ∧ Holds guard r binding.rosTopic lease)) ∧
    ∀ earlier r t g after, before = earlier ++ .validated r t g :: after → ∃ st lease,
      Valid g r t st lease ∧ Succeeded guard r st after
  | _ => True

structure Leased (w : World η) : Prop where
  named : Named w
  bound : Bound w
  validated : Validated w
  published : Logged Published w.history

/-- A note is not of a publication. -/
def Note.Silent (n : Note) : Prop := ∀ k sessionId binding request guard, n ≠ .published k sessionId binding request guard

/-- A step makes one publication or none. -/
theorem Step.publishing (s : Step allow w w') :
    (∃ notes, w'.history = w.history ++ notes ∧ ∀ n ∈ notes, n.Silent) ∨
      ∃ k handle p request, (w.routers k).closed = false ∧ (w.routers k).publishers.get? handle = some p ∧
        (p.guarded = true → ∃ r, request = some r ∧ r.sessionId = (w.routers k).sessionId ∧ r.handle = handle ∧ Cleared w.history r) ∧
        w'.history = w.history ++ [.published k (w.routers k).sessionId p.entry.binding request w.guard] := by
  cases s with
  | published k handle p t request isOpen found last answered guarded =>
    exact .inr ⟨k, handle, p, request, isOpen, found, guarded, rfl⟩
  | tended cause g notes tended => exact .inl ⟨notes, rfl, by cases tended.recorded <;> simp [Note.Silent]⟩
  | removed j stream sub q listeners notes found options streams left recorded =>
    exact .inl ⟨notes, rfl, by rcases recorded with rfl | rfl <;> simp [Note.Silent]⟩
  | outside | mediaClosed | router | subscribed | constructed => exact .inl ⟨[], (List.append_nil _).symm, by simp⟩
  | closed j gone isOpen only all => exact .inl ⟨[.shut j, .revoked (w.routers j).sessionId], rfl, by simp [Note.Silent]⟩
  | _ => exact .inl ⟨_, rfl, by simp [Note.Silent]⟩

theorem Step.leased (s : Step allow w w') (sane : w.Sane) (h : Leased w) : Leased w' := by
  refine ⟨s.named sane h.named, s.bound sane h.named h.bound, s.validated h.validated, ?_⟩
  rcases s.publishing with ⟨notes, history, silent⟩ | ⟨k, handle, p, request, -, found, guarded, history⟩
  · rw [history]
    refine h.published.append (logged_of_forall fun before n hn => ?_)
    cases n with
    | published k sessionId binding request guard => exact absurd rfl (silent _ hn k sessionId binding request guard)
    | _ => trivial
  rw [history]
  refine h.published.concat ⟨fun needed => ?_, fun earlier r t g after split => ?_⟩
  · have own : p.guarded = true := ((sane.routers k).advertised handle p found).2.trans needed
    obtain ⟨r, rfl, session, rfl, before, t, g, after, split, -, hooks⟩ := guarded own
    obtain ⟨st, lease, valid, upheld, -⟩ := h.validated.tickets before r t g after split
    refine ⟨r, st, lease, after, rfl, session, ⟨⟨before, t, g, split, valid⟩, hooks⟩, fun intact => ?_⟩
    rcases upheld with ⟨n, hn, ends⟩ | ⟨st', held, identity, leased⟩
    · exact absurd ends (intact n hn)
    · have owner : st'.identity.sessionId = r.sessionId := by rw [identity, valid.session]
      have topic : st'.identity.topic = p.entry.binding.rosTopic := h.bound k r.handle p st' found own held (owner.trans session)
      refine ⟨identity ▸ topic, ⟨st', held, owner, topic, leased⟩, fun h' other there same some => ?_⟩
      exact h.validated.single h' r.handle other st' there held (same.trans topic.symm) some (by simp [leased])
  · obtain ⟨st, lease, valid, -, succeeded⟩ := h.validated.tickets earlier r t g after split
    exact ⟨st, lease, valid, succeeded⟩

theorem start_leased (numbers : NumberText) {guard : CommandGuard} (media : MediaService) (sessions : guard.sessions = .empty)
    (handles : guard.handles = .empty) : Leased (World.start numbers guard media : World η) := by
  refine ⟨start_named numbers media sessions handles, ?_, ⟨?_, ?_⟩, logged_nil⟩
  · simp [Bound, World.start, handles]
  · simp [SingleWriter, World.start, handles]
  · simp [World.start]

theorem run_leased {prefixId : String} {maxSessions maxHandles leaseMs clock : Session.Num} {guard : CommandGuard}
    (created : create prefixId maxSessions maxHandles leaseMs clock = .ok guard) (numbers : NumberText) (media : MediaService)
    (inputs : List (Env η × Input η)) : Leased ((World.start numbers guard media).run inputs) := by
  have sane : (World.start numbers guard media : World η).Sane := start_sane numbers media (create_handles created)
  exact (run_goes_any sane inputs).inv (fun w w' sane h s => s.leased sane h) sane
    (start_leased numbers media (create_spec created).2.1 (create_handles created))

/-- In every run, whatever the hooks answer and do to the guard: a guarded publication is
made with a ticket that was validated for its session, after which only hooks ran, and
unless one of these can have ended its lease the guard holds it at the call, alone on the
output. At any time the lease of a validated ticket is held unless a note tells what can
have ended it, and another session with a lease on the topic has armed since. -/
theorem publications_leased {prefixId : String} {maxSessions maxHandles leaseMs clock : Session.Num} {guard : CommandGuard}
    (created : create prefixId maxSessions maxHandles leaseMs clock = .ok guard) (numbers : NumberText) (media : MediaService)
    (inputs : List (Env η × Input η)) : Logged Published ((World.start numbers guard media).run inputs).history ∧
      Validated ((World.start numbers guard media).run inputs) :=
  have leased := run_leased created numbers media inputs
  ⟨leased.published, leased.validated⟩

/-- A guarded output. -/
def guardedTopic : TopicBinding :=
  { plainTopic "/cmd" .webToRos (some ⟨100⟩) with access := some ⟨"operator", true⟩ }

/-- Two peers arm and publish on a guarded output, the second one when the lease of the
first is over. -/
def twoOperators : List (Env Json × Input Json) :=
  [(.calm 0, .construct (smallOptions [guardedTopic])),
    (.calm 0, .construct (smallOptions [guardedTopic])),
    (.calm 0, .receive 0 "ros.control.v1" (envelope "hello" [])),
    (.calm 0, .receive 1 "ros.control.v1" (envelope "hello" [])),
    (.calm 0, .receive 0 "ros.control.v1" (envelope "advertise" [("id", "1"), ("topic", "/cmd")])),
    (.calm 0, .receive 1 "ros.control.v1" (envelope "advertise" [("id", "1"), ("topic", "/cmd")])),
    (.calm 0, .receive 0 "ros.control.v1" (envelope "arm" [("id", "2"), ("handle", "g:3")])),
    (.calm 0, .receive 0 "ros.reliable.v1"
      (envelope "publish" [("handle", "g:3"), ("epoch", "e"), ("seq", "0"), ("lease_id", "g:5"), ("data", "go")])),
    (.calm 200, .receive 1 "ros.control.v1" (envelope "arm" [("id", "2"), ("handle", "g:4")])),
    (.calm 200, .receive 1 "ros.reliable.v1"
      (envelope "publish" [("handle", "g:4"), ("epoch", "e"), ("seq", "0"), ("lease_id", "g:6"), ("data", "stop")]))]

/-- A note of a guarded publication. -/
def Note.commands : Note → Bool
  | .published _ _ binding _ _ => binding.commandGuard.isSome
  | _ => false

theorem publications_leased_two :
    create "g" (some 2) (some 8) (some 250) (some 0) = .ok smallGuard ∧
      (smallBridge.run twoOperators).history.countP Note.commands = 2 ∧
      Logged Published (smallBridge.run twoOperators).history ∧ Validated (smallBridge.run twoOperators) :=
  have created : create "g" (some 2) (some 8) (some 250) (some 0) = .ok smallGuard := rfl
  ⟨created, by decide +kernel, publications_leased created plainNumbers noMedia twoOperators⟩

end RosBridge.Router
