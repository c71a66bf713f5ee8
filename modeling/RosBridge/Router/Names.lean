import RosBridge.Router.Turns
/-!
# Names

A session is named by the guard once and belongs to one router. Handles of the guard and
listeners belong to routers that were constructed.
-/

namespace RosBridge.Router

open Lib Session Config Relation CommandGuard

variable {η : Type} {allow : Allow} {w w' : World η} {k : Nat} {r : SessionRouter η}

structure Named (w : World η) : Prop where
  sessions : ∀ sessionId, w.guard.sessions.has sessionId → ∃ k, k < w.born ∧ (w.routers k).sessionId = sessionId
  issued : ∀ k, k < w.born → ∃ n, n ≤ w.guard.nextId ∧ (w.routers k).sessionId = idText w.guard.prefixId n
  distinct : ∀ j k, j < w.born → k < w.born → (w.routers j).sessionId = (w.routers k).sessionId → j = k
  owners : ∀ h st, w.guard.handles.get? h = some st → ∃ k, k < w.born ∧ (w.routers k).sessionId = st.identity.sessionId
  listeners : ∀ l ∈ w.listeners, l.1 < w.born

/-- Where a listener comes from. -/
theorem Step.listener (s : Step allow w w') {l : Nat × String} (h : l ∈ w'.listeners) :
    l ∈ w.listeners ∨ (w.routers l.1).closed = false := by
  have filtered : ∀ {k stream} {listeners : List (Nat × String)} {P : Prop},
      (listeners = w.listeners.filter (· ≠ (k, stream)) ∨ P ∧ listeners = w.listeners) → l ∈ listeners → l ∈ w.listeners := by
    intro k stream listeners P left h
    rcases left with rfl | ⟨-, rfl⟩
    · exact List.mem_of_mem_filter h
    · exact h
  cases s with
  | subscribed j entry requestId r isOpen found free room announced =>
    rcases List.mem_append.1 h with h | h
    · exact .inl h
    · obtain rfl := List.mem_singleton.1 h
      exact .inr isOpen
  | removed j stream sub q listeners notes found options streams left recorded => exact .inl (filtered left h)
  | spoiled j stream sub native q listeners found ready fits options streams left => exact .inl (filtered left h)
  | closed j gone isOpen only all => exact .inl (List.mem_of_mem_filter h)
  | _ => exact .inl h

/-- Where a session of the guard comes from. -/
theorem Step.session (s : Step allow w w') {sessionId : String} (h : w'.guard.sessions.has sessionId) :
    w.guard.sessions.has sessionId ∨ w'.born = w.born + 1 ∧ (w'.routers w.born).sessionId = sessionId := by
  have revoked : ∀ sid, ((revokeSession sid).after w.guard).sessions.has sessionId → w.guard.sessions.has sessionId := by
    intro sid h
    obtain ⟨e, he⟩ := Table.has_iff.1 h
    rw [revokeSession_after, Table.get?_erase] at he
    split at he
    · cases he
    · exact Table.has_iff.2 ⟨e, he⟩
  cases s with
  | tended cause g notes tended =>
    rw [tended.sessions] at h
    exact .inl h
  | sessionTaken sid wild => exact .inl (revoked sid h)
  | closed j gone isOpen only all => exact .inl (revoked _ h)
  | constructed r fresh isOpen capacity named =>
    obtain ⟨e, he⟩ := Table.has_iff.1 h
    rw [Table.get?_set] at he
    split at he
    · next own => exact .inr ⟨rfl, by simp [own]⟩
    · exact .inl (Table.has_iff.2 ⟨e, he⟩)
  | _ => exact .inl h

theorem Step.named (s : Step allow w w') (sane : w.Sane) (h : Named w) : Named w' := by
  obtain ⟨prefixId, nextId⟩ := s.onward
  have kept : ∀ k, k < w.born → (w'.routers k).sessionId = (w.routers k).sessionId := fun k hk => (s.kept hk).sessionId
  have issued : ∀ k, k < w.born → ∃ n, n ≤ w'.guard.nextId ∧ (w'.routers k).sessionId = idText w'.guard.prefixId n := by
    intro k hk
    obtain ⟨n, bound, e⟩ := h.issued k hk
    exact ⟨n, bound.trans nextId, by rw [kept k hk, e, prefixId]⟩
  -- The router that a step constructs gets an identifier that was not issued before.
  have new : ∀ k, ¬k < w.born → k < w'.born → k = w.born ∧ w'.guard.nextId = w.guard.nextId + 1 ∧
      (w'.routers k).sessionId = idText w.guard.prefixId (w.guard.nextId + 1) := by
    intro k old hk
    cases s with
    | constructed r fresh isOpen capacity named =>
      obtain rfl : k = w.born := by dsimp only at hk; omega
      exact ⟨rfl, rfl, by simp [named]⟩
    | _ => exact absurd hk old
  have fresh : ∀ j k, j < w.born → ¬k < w.born → k < w'.born → (w'.routers j).sessionId ≠ (w'.routers k).sessionId := by
    intro j k hj old hk e
    obtain ⟨n, bound, hn⟩ := h.issued j hj
    obtain ⟨-, -, hs⟩ := new k old hk
    rw [kept j hj, hn, hs] at e
    have := idText_inj e
    omega
  refine ⟨fun sid hs => ?_, fun k hk => ?_, fun j k hj hk e => ?_, fun hd st found => ?_, fun l hl => ?_⟩
  · rcases s.session hs with old | ⟨born, own⟩
    · obtain ⟨k, hk, e⟩ := h.sessions sid old
      exact ⟨k, hk.trans_le s.born, (kept k hk).trans e⟩
    · exact ⟨w.born, by omega, own⟩
  · by_cases old : k < w.born
    · exact issued k old
    · obtain ⟨-, next, e⟩ := new k old hk
      exact ⟨w.guard.nextId + 1, by omega, by rw [e, prefixId]⟩
  · by_cases oldj : j < w.born <;> by_cases oldk : k < w.born
    · exact h.distinct j k oldj oldk (by rwa [kept j oldj, kept k oldk] at e)
    · exact absurd e (fresh j k oldj oldk hk)
    · exact absurd e.symm (fresh k j oldk oldj hj)
    · rw [(new j oldj hj).1, (new k oldk hk).1]
  · rcases s.handle found with ⟨st₀, h₀, e⟩ | ⟨-, session, -⟩
    · obtain ⟨k, hk, own⟩ := h.owners hd st₀ h₀
      exact ⟨k, hk.trans_le s.born, by rw [kept k hk, own, e]⟩
    · obtain ⟨k, hk, own⟩ := h.sessions _ session
      exact ⟨k, hk.trans_le s.born, (kept k hk).trans own⟩
  · rcases s.listener hl with old | isOpen
    · exact (h.listeners l old).trans_le s.born
    · exact (sane.born isOpen).trans_le s.born

theorem start_named (numbers : NumberText) {guard : CommandGuard} (media : MediaService) (sessions : guard.sessions = .empty)
    (handles : guard.handles = .empty) : Named (World.start numbers guard media : World η) := by
  refine ⟨?_, ?_, ?_, ?_, ?_⟩ <;> simp [World.start, sessions, handles, Table.has]

end RosBridge.Router
