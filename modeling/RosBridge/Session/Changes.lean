import RosBridge.Session.GuardSpecs
/-!
# What the registered handles can become

Every part of a guard method changes the handles in one of the ways of `Change`, with
what the code has checked before. That a topic has one lease at most (`SingleWriter`)
and how a lease can end (`Change.lease_end`) are facts about one change, whoever makes
it.
-/

namespace RosBridge.Session

open Lib CommandGuard

/-- Why the handles changed. -/
inductive Cause where
  | quiet
  | opened (handle : String)
  | armed (sessionId handle : String) (t : ℚ)
  | closed (sessionId handle : String)
  | revoked (sessionId : String)
  | shut

inductive Change (g : CommandGuard) : Cause → Table String HandleState → Prop where
  | same : Change g .quiet g.handles
  | noted (handle : String) (f : HandleState → HandleState)
      (identity : ∀ s, (f s).identity = s.identity) (lease : ∀ s, (f s).lease = s.lease) :
      Change g .quiet (g.handles.modify handle f)
  | opened (identity : CommandIdentity) (leaseMs : Nat) (fresh : g.handles.get? identity.handle = none) :
      Change g (.opened identity.handle) (g.handles.set identity.handle ⟨identity, leaseMs, none, -1, -1⟩)
  | armed (sessionId handle : String) (st : HandleState) (t : ℚ) (id : String)
      (own : g.handles.get? handle = some st) (owner : st.identity.sessionId = sessionId)
      (free : ∀ c ∈ g.handles.values, busy st.identity.topic sessionId t c = false) :
      Change g (.armed sessionId handle t) (granted g st.identity.topic handle ⟨id, t + st.leaseMs⟩)
  | closed (sessionId handle : String) (st : HandleState) (own : g.handles.get? handle = some st)
      (owner : st.identity.sessionId = sessionId) : Change g (.closed sessionId handle) (g.handles.erase handle)
  | revoked (sessionId : String) :
      Change g (.revoked sessionId) (g.handles.filter fun _ st => st.identity.sessionId ≠ sessionId)
  | shut : Change g .shut .empty

/-- At most one handle of a topic holds a lease. -/
def SingleWriter (hs : Table String HandleState) : Prop :=
  ∀ h h' st st', hs.get? h = some st → hs.get? h' = some st' → st.identity.topic = st'.identity.topic →
    st.lease.isSome → st'.lease.isSome → h = h'

/-- The causes that can end the lease of `st` on handle `h`. Other sessions only have
`armed`, once the lease is over. -/
def Cause.EndsLease (h : String) (st : HandleState) (lease : Lease) : Cause → Prop
  | .quiet | .opened _ => False
  | .armed sessionId _ t => sessionId = st.identity.sessionId ∨ lease.expiresAt ≤ t
  | .closed sessionId handle => sessionId = st.identity.sessionId ∧ handle = h
  | .revoked sessionId => sessionId = st.identity.sessionId
  | .shut => True

theorem get?_granted (g : CommandGuard) (topic handle : String) (lease : Lease) (h : String) (st : HandleState) :
    (granted g topic handle lease).get? h = some st ↔ ∃ st₀, g.handles.get? h = some st₀ ∧
      st = { st₀ with lease := if h = handle then some lease else if st₀.identity.topic = topic then none else st₀.lease } := by
  unfold granted clearLeases
  rw [Table.get?_modify, Table.get?_mapValues]
  cases g.handles.get? h with
  | none => simp
  | some st₀ =>
    by_cases hh : h = handle <;> by_cases ht : st₀.identity.topic = topic <;> simp [hh, ht, @eq_comm _ st]

namespace Change

variable {g : CommandGuard} {cause : Cause} {hs : Table String HandleState}

/-- A handle after a change was there before it with the same identity, or is the one
opened. -/
theorem origin (c : Change g cause hs) {h : String} {st : HandleState} (hst : hs.get? h = some st) :
    (∃ st₀, g.handles.get? h = some st₀ ∧ st.identity = st₀.identity) ∨ cause = .opened h := by
  cases c with
  | same => exact .inl ⟨st, hst, rfl⟩
  | noted handle f hi hl =>
    rw [Table.get?_modify] at hst
    split at hst
    · obtain ⟨st₀, h₀, rfl⟩ := Option.map_eq_some_iff.1 hst
      exact .inl ⟨st₀, h₀, hi st₀⟩
    · exact .inl ⟨st, hst, rfl⟩
  | opened identity leaseMs fresh =>
    rw [Table.get?_set] at hst
    split at hst
    · next hh => exact .inr (by rw [hh])
    · exact .inl ⟨st, hst, rfl⟩
  | armed _ _ _ _ _ _ _ _ =>
    obtain ⟨st₀, h₀, rfl⟩ := (get?_granted _ _ _ _ _ _).1 hst
    exact .inl ⟨st₀, h₀, rfl⟩
  | closed sessionId handle _ _ _ =>
    rw [Table.get?_erase] at hst
    split at hst
    · cases hst
    · exact .inl ⟨st, hst, rfl⟩
  | revoked sessionId =>
    rw [Table.get?_filter] at hst
    exact .inl ⟨st, (Option.filter_eq_some_iff.1 hst).1, rfl⟩
  | shut => simp at hst

/-- A lease after a change was there before it, or has just been granted, and then it
is the only one of its topic. -/
theorem lease_origin (c : Change g cause hs) {h : String} {st : HandleState} {lease : Lease}
    (hst : hs.get? h = some st) (hl : st.lease = some lease) :
    (∃ st₀, g.handles.get? h = some st₀ ∧ st.identity = st₀.identity ∧ st₀.lease = some lease) ∨
      ∀ h' st', hs.get? h' = some st' → st'.identity.topic = st.identity.topic → st'.lease.isSome → h' = h := by
  cases c with
  | same => exact .inl ⟨st, hst, rfl, hl⟩
  | noted handle f hi hf =>
    rw [Table.get?_modify] at hst
    split at hst
    · obtain ⟨st₀, h₀, rfl⟩ := Option.map_eq_some_iff.1 hst
      exact .inl ⟨st₀, h₀, hi st₀, (hf st₀).symm.trans hl⟩
    · exact .inl ⟨st, hst, rfl, hl⟩
  | opened identity leaseMs fresh =>
    rw [Table.get?_set] at hst
    split at hst
    · obtain rfl := Option.some.inj hst
      cases hl
    · exact .inl ⟨st, hst, rfl, hl⟩
  | armed sessionId handle own t id hown owner free =>
    obtain ⟨st₀, h₀, rfl⟩ := (get?_granted _ _ _ _ _ _).1 hst
    by_cases hh : h = handle
    · right
      rintro h' st' hst' htopic hsome
      obtain ⟨st₁, h₁, rfl⟩ := (get?_granted _ _ _ _ _ _).1 hst'
      have e₀ : own = st₀ := by
        rw [hh, hown] at h₀
        exact Option.some.inj h₀
      by_contra hne
      have hne' : h' ≠ handle := fun e => hne (e.trans hh.symm)
      simp only at htopic
      simp [hne', htopic, e₀] at hsome
    · refine .inl ⟨st₀, h₀, rfl, ?_⟩
      simp only [hh, if_false] at hl
      split at hl
      · cases hl
      · exact hl
  | closed sessionId handle _ _ _ =>
    rw [Table.get?_erase] at hst
    split at hst
    · cases hst
    · exact .inl ⟨st, hst, rfl, hl⟩
  | revoked sessionId =>
    rw [Table.get?_filter] at hst
    exact .inl ⟨st, (Option.filter_eq_some_iff.1 hst).1, rfl, hl⟩
  | shut => simp at hst

theorem single (c : Change g cause hs) (hg : SingleWriter g.handles) : SingleWriter hs := by
  intro h h' st st' hst hst' htopic hl hl'
  obtain ⟨lease, hl⟩ := Option.isSome_iff_exists.1 hl
  obtain ⟨lease', hl'⟩ := Option.isSome_iff_exists.1 hl'
  rcases c.lease_origin hst hl with ⟨st₀, h₀, hid, hl₀⟩ | only
  · rcases c.lease_origin hst' hl' with ⟨st₁, h₁, hid', hl₁⟩ | only
    · exact hg h h' st₀ st₁ h₀ h₁ (by rw [← hid, ← hid', htopic]) (by simp [hl₀]) (by simp [hl₁])
    · exact only h st hst htopic (by simp [hl])
  · exact (only h' st' hst' htopic.symm (by simp [hl'])).symm

/-- A change leaves a lease alone, or has a cause that may end it. -/
theorem lease_end (c : Change g cause hs) {h : String} {st : HandleState} {lease : Lease}
    (hst : g.handles.get? h = some st) (hl : st.lease = some lease) :
    (∃ st', hs.get? h = some st' ∧ st'.identity = st.identity ∧ st'.lease = some lease) ∨ cause.EndsLease h st lease := by
  cases c with
  | same => exact .inl ⟨st, hst, rfl, hl⟩
  | noted handle f hid hf =>
    left
    rw [Table.get?_modify]
    split
    · exact ⟨f st, by simp [hst], hid st, by rw [hf, hl]⟩
    · exact ⟨st, hst, rfl, hl⟩
  | opened identity leaseMs fresh =>
    left
    have hne : h ≠ identity.handle := by
      rintro rfl
      rw [fresh] at hst
      cases hst
    exact ⟨st, by rw [Table.get?_set_ne _ _ hne, hst], rfl, hl⟩
  | armed sessionId handle own t id hown owner free =>
    by_cases hs : st.identity.sessionId = sessionId
    · exact .inr (.inl hs.symm)
    · -- Another session armed: either a different topic, or this lease had expired.
      have hne : h ≠ handle := by
        rintro rfl
        rw [hown] at hst
        exact hs (Option.some.inj hst ▸ owner)
      by_cases ht : st.identity.topic = own.identity.topic
      · refine .inr (.inr (not_lt.1 fun hlt => ?_))
        have := free st (Table.mem_values_iff.2 ⟨h, hst⟩)
        simp [busy, ht, hs, hl, hlt] at this
      · exact .inl ⟨st, (get?_granted g own.identity.topic handle _ h _).2 ⟨st, hst, by simp [hne, ht]⟩, rfl, hl⟩
  | closed sessionId handle own hown owner =>
    by_cases hh : h = handle
    · obtain rfl : own = st := by
        rw [hh, hown] at hst
        exact Option.some.inj hst
      exact .inr ⟨owner.symm, hh.symm⟩
    · exact .inl ⟨st, by rw [Table.get?_erase, if_neg hh, hst], rfl, hl⟩
  | revoked sessionId =>
    by_cases hs : st.identity.sessionId = sessionId
    · exact .inr hs.symm
    · left
      refine ⟨st, ?_, rfl, hl⟩
      rw [Table.get?_filter, hst]
      simp [Option.filter, hs]
  | shut => exact .inr trivial

/-- A change without a cause, and arming, keep every handle. -/
theorem stays (c : Change g cause hs) (mild : cause = .quiet ∨ ∃ sessionId handle t, cause = .armed sessionId handle t)
    {h : String} {st : HandleState} (hst : g.handles.get? h = some st) :
    ∃ st', hs.get? h = some st' ∧ st'.identity = st.identity := by
  cases c with
  | same => exact ⟨st, hst, rfl⟩
  | noted handle f hid hf =>
    rw [Table.get?_modify]
    split
    · exact ⟨f st, by simp [hst], hid st⟩
    · exact ⟨st, hst, rfl⟩
  | armed sessionId handle own t id hown owner free =>
    exact ⟨_, (get?_granted g own.identity.topic handle _ h _).2 ⟨st, hst, rfl⟩, rfl⟩
  | opened | closed | revoked | shut => simp at mild

end Change

end RosBridge.Session
