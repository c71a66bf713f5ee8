import RosBridge.Session.CommandGuard
import Mathlib.Tactic.Linarith
/-!
# What each part of a guard method does

One lemma for each part: what it returns, and the guard it leaves when it returns and
when it throws. Later proofs use these and do not unfold the parts again.
-/

namespace RosBridge.Session.CommandGuard

open Lib Prog

theorem idText_inj {p : String} {n k : Nat} (h : idText p n = idText p k) : n = k := by
  have h : toString n = toString k := (String.append_right_inj _).1 h
  have := congrArg (fun s : String => Nat.ofDigitChars 10 s.toList 0) h
  simpa only [Nat.toString_eq_repr, Nat.toList_repr, Nat.ofDigitChars_ten_toDigits] using this

/-- The guard with another clock reading: all that a refused part may leave behind. -/
def Ticked (g g' : CommandGuard) : Prop := ∃ t, g.lastTime ≤ t ∧ g' = { g with lastTime := t }

theorem Ticked.refl (g : CommandGuard) : Ticked g g := ⟨g.lastTime, le_refl _, rfl⟩

theorem now_spec (clock : Num) (g : CommandGuard) :
    wp (now clock) (fun t g' => clock = some t ∧ g.lastTime ≤ t ∧ g' = { g with lastTime := t })
      (fun _ g' => g' = g) g := by
  unfold now
  split
  · simp
  · simp only [wp_bind, wp_get, wp_ite, wp_throw, wp_set, wp_pure, not_or, not_lt]
    exact ⟨fun _ => trivial, fun h => ⟨trivial, h.2, trivial⟩⟩

theorem authorized_spec (answer : Except String Bool) (g : CommandGuard) :
    wp (authorized answer) (fun _ g' => answer = .ok true ∧ g' = g) (fun _ g' => g' = g) g := by
  unfold authorized
  split <;> simp

theorem owned_spec (sessionId handle : String) (g : CommandGuard) :
    wp (owned sessionId handle)
      (fun st g' => g' = g ∧ g.handles.get? handle = some st ∧ st.identity.sessionId = sessionId)
      (fun _ g' => g' = g) g := by
  unfold owned assertOpen
  simp only [wp_bind, wp_get, wp_ite, wp_throw, wp_pure, implies_true, true_and]
  intro _
  split
  · simp
  · next st hst => simp [hst]

theorem openSession_spec (epoch : String) (g : CommandGuard) :
    wp (openSession epoch)
      (fun id g' => id = idText g.prefixId (g.nextId + 1) ∧ g.closed = false ∧ g.sessions.size < g.options.maxSessions ∧
        g' = { g with nextId := g.nextId + 1, sessions := g.sessions.set id epoch })
      (fun _ g' => g' = g) g := by
  simp only [openSession, assertOpen, issueId, wp_bind, wp_get, wp_ite, wp_throw, wp_pure, wp_modify, implies_true, true_and,
    Bool.not_eq_true, ge_iff_le, not_le]
  exact fun isOpen _ room => ⟨isOpen, room, trivial⟩

theorem openHandleBegin_spec (sessionId topic : String) (leaseMs : Option Num) (g : CommandGuard) :
    wp (openHandleBegin sessionId topic leaseMs)
      (fun r g' => r.1.sessionId = sessionId ∧ r.1.topic = topic ∧
        r.1.handle = idText g.prefixId (g.nextId + 1) ∧ g.sessions.get? sessionId = some r.1.epoch ∧
        positiveLimit (leaseMs.getD (some g.options.leaseMs)) = some r.2 ∧ g' = { g with nextId := g.nextId + 1 })
      (fun _ g' => g' = g) g := by
  unfold openHandleBegin assertOpen
  simp only [wp_bind, wp_get, wp_ite, wp_throw, wp_pure, implies_true, true_and]
  intro _
  split
  · simp
  · next ms hms =>
    split
    · simp
    · next epoch he => simp [issueId, he, hms]

theorem openHandleRest_spec (identity : CommandIdentity) (leaseMs : Nat) (g : CommandGuard) :
    wp (openHandleRest identity leaseMs)
      (fun id g' => id = identity.handle ∧ g.sessions.has identity.sessionId ∧ g.handles.size < g.options.maxHandles ∧
        g' = { g with handles := g.handles.set identity.handle ⟨identity, leaseMs, none, -1, -1⟩ })
      (fun _ g' => g' = g) g := by
  simp only [openHandleRest, wp_bind, wp_get, wp_ite, wp_throw, wp_set, wp_pure, Bool.not_eq_true', ge_iff_le, not_le,
    Bool.not_eq_false]
  exact ⟨fun _ => trivial, fun hs => ⟨fun _ => trivial, fun hn => ⟨trivial, hs, hn, trivial⟩⟩⟩

theorem armBegin_spec (sessionId handle : String) (g : CommandGuard) :
    wp (armBegin sessionId handle) (fun _ g' => g' = g) (fun _ g' => g' = g) g := by
  rw [armBegin, wp_bind]
  refine wp_mono (owned_spec sessionId handle g) ?_ (fun _ _ h => h)
  rintro st _ ⟨rfl, -⟩
  simp

/-- The handles after `arm` has granted lease `lease` to `handle`. -/
def granted (g : CommandGuard) (topic handle : String) (lease : Lease) : Table String HandleState :=
  (clearLeases topic g.handles).modify handle fun s => { s with lease := some lease }

theorem armRest_spec (sessionId handle : String) (clock : Num) (g : CommandGuard) :
    wp (armRest sessionId handle clock)
      (fun lease g' => ∃ st t, g.handles.get? handle = some st ∧ st.identity.sessionId = sessionId ∧
        clock = some t ∧ g.lastTime ≤ t ∧ (∀ c ∈ g.handles.values, busy st.identity.topic sessionId t c = false) ∧
        lease = ⟨idText g.prefixId (g.nextId + 1), t + st.leaseMs⟩ ∧
        g' = { g with lastTime := t, nextId := g.nextId + 1, handles := granted g st.identity.topic handle lease })
      (fun _ g' => Ticked g g') g := by
  rw [armRest, wp_bind]
  refine wp_mono (owned_spec sessionId handle g) ?_ ?_
  · rintro st _ ⟨rfl, hst, hsid⟩
    rw [wp_bind]
    refine wp_mono (now_spec clock _) ?_ ?_
    · rintro t _ ⟨rfl, ht, rfl⟩
      simp only [wp_bind, wp_get, wp_ite, wp_throw, wp_pure, wp_modify, List.any_eq_true, not_exists, not_and,
        Bool.not_eq_true, not_lt, issueId]
      refine ⟨fun _ => ⟨t, ht, rfl⟩, fun hfree => ⟨fun _ => ⟨t, ht, rfl⟩, fun _ => ?_⟩⟩
      exact ⟨st, t, hst, hsid, rfl, ht, hfree, rfl, rfl⟩
    · rintro e _ rfl
      exact .refl _
  · rintro e _ rfl
    exact .refl _

theorem validateBegin_spec (request : CommandRequest) (g : CommandGuard) :
    wp (validateBegin request) (fun _ g' => g' = g) (fun _ g' => g' = g) g :=
  armBegin_spec request.sessionId request.handle g

/-- What `validate` has checked: the request's handle, owner and epoch, and that the
handle holds the named lease, unexpired at `t`. -/
structure Valid (g : CommandGuard) (request : CommandRequest) (t : ℚ) (st : HandleState) (lease : Lease) : Prop where
  handle : g.handles.get? request.handle = some st
  session : st.identity.sessionId = request.sessionId
  epoch : st.identity.epoch = request.epoch
  leaseId : lease.id = request.leaseId
  live : t < lease.expiresAt
  held : st.lease = some lease

theorem validateRest_spec (request : CommandRequest) (clock : Num) (g : CommandGuard) :
    wp (validateRest request clock)
      (fun st g' => ∃ t lease, clock = some t ∧ g.lastTime ≤ t ∧ Valid g request t st lease ∧
        g' = { g with lastTime := t })
      (fun _ g' => Ticked g g') g := by
  rw [validateRest, wp_bind]
  refine wp_mono (owned_spec request.sessionId request.handle g) ?_ ?_
  · rintro st _ ⟨rfl, hst, hsid⟩
    simp only [wp_bind, wp_ite, wp_throw, not_not, ne_eq]
    refine ⟨fun _ => .refl _, fun hep => ?_⟩
    split
    · simp only [wp_throw]
      exact .refl _
    · next lease hl =>
      simp only [wp_bind, wp_ite, wp_throw, wp_pure, not_not]
      refine ⟨fun _ => .refl _, fun hid => ?_⟩
      refine wp_mono (now_spec clock _) ?_ ?_
      · rintro t _ ⟨rfl, ht, rfl⟩
        refine ⟨fun _ => ⟨t, ht, rfl⟩, fun hlt => ?_⟩
        exact ⟨t, lease, rfl, ht, ⟨hst, hsid, hep.symm, hid.symm, not_le.1 hlt, hl⟩, rfl⟩
      · rintro e _ rfl
        exact .refl _
  · rintro e _ rfl
    exact .refl _

theorem prepareBegin_spec (request : CommandRequest) (g : CommandGuard) :
    wp (prepareBegin request) (fun r g' => sequence request.seq = some r.2 ∧ g' = g) (fun _ g' => g' = g) g := by
  unfold prepareBegin
  split
  · simp
  · next seq hs =>
    rw [wp_bind]
    exact wp_mono (validateBegin_spec request g) (fun _ _ h => ⟨hs, h⟩) (fun _ _ h => h)

/-- `prepare` and `publish` end by noting a sequence number on the validated handle. -/
def Noted (g : CommandGuard) (request : CommandRequest) (clock : Num) (f : HandleState → HandleState)
    (g' : CommandGuard) : Prop :=
  ∃ t st lease, clock = some t ∧ g.lastTime ≤ t ∧ Valid g request t st lease ∧
    g' = { g with lastTime := t, handles := g.handles.modify request.handle f }

theorem prepareRest_spec (saved : CommandRequest) (seq : Nat) (clock : Num) (g : CommandGuard) :
    wp (prepareRest saved seq clock) (fun _ => Noted g saved clock fun s => { s with received := seq })
      (fun _ => Ticked g) g := by
  rw [prepareRest, wp_bind]
  refine wp_mono (validateRest_spec saved clock g) ?_ (fun _ _ h => h)
  rintro st _ ⟨t, lease, hc, ht, hv, rfl⟩
  simp only [wp_bind, wp_ite, wp_throw, wp_modify]
  exact ⟨fun _ => ⟨t, ht, rfl⟩, fun _ => ⟨t, st, lease, hc, ht, hv, rfl⟩⟩

theorem publishRest_spec (saved : CommandRequest) (seq : Nat) (clock : Num) (g : CommandGuard) :
    wp (publishRest saved seq clock) (fun _ => Noted g saved clock fun s => { s with published := seq })
      (fun _ => Ticked g) g := by
  rw [publishRest, wp_bind]
  refine wp_mono (validateRest_spec saved clock g) ?_ (fun _ _ h => h)
  rintro st _ ⟨t, lease, hc, ht, hv, rfl⟩
  simp only [wp_bind, wp_ite, wp_throw, wp_modify]
  exact ⟨fun _ => ⟨t, ht, rfl⟩, fun _ => ⟨t, st, lease, hc, ht, hv, rfl⟩⟩

theorem closeHandle_spec (sessionId handle : String) (g : CommandGuard) :
    wp (closeHandle sessionId handle)
      (fun _ g' => ∃ st, g.handles.get? handle = some st ∧ st.identity.sessionId = sessionId ∧
        g' = { g with handles := g.handles.erase handle })
      (fun _ g' => g' = g) g := by
  rw [closeHandle, wp_bind]
  refine wp_mono (owned_spec sessionId handle g) ?_ (fun _ _ h => h)
  rintro st _ ⟨rfl, hst, hsid⟩
  exact ⟨st, hst, hsid, rfl⟩

@[simp] theorem revokeSession_after (sessionId : String) (g : CommandGuard) :
    (revokeSession sessionId).after g = { g with
      sessions := g.sessions.erase sessionId
      handles := g.handles.filter fun _ st => st.identity.sessionId ≠ sessionId } := rfl

@[simp] theorem close_after (g : CommandGuard) :
    close.after g = { g with closed := true, sessions := .empty, handles := .empty } := rfl

end RosBridge.Session.CommandGuard
