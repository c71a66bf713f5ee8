import RosBridge.Lib.Log
import RosBridge.Router.Inputs
import RosBridge.Router.Turns
/-!
# Revocation

Before anything reaches ROS and before any sample reaches a peer, the router's hook has
answered `true` and nothing else was asked since. What was queued on a stream that was
refused is never sent.
-/

namespace RosBridge.Router

open Lib Prog Session Config Relation CommandGuard

variable {η : Type} {allow : Allow} {w w' : World η} {k : Nat}

/-- What has happened before a publication and before a sample is given to `send`: the
hook has answered `true` for their binding, as the last thing or with only the same
stream's samples sent since, in the same flush; the router has not begun to close, and
the stream was not refused. -/
def Honoured (trace : List (Mark η)) (k : Nat) (before : List Note) : Note → Prop
  | .published j _ binding _ _ =>
    j = k → before.getLast? = some (.answered k binding.publicName .publish true) ∧ .shut k ∉ before
  | .handed j stream _ => j = k → stream ≠ "control" →
      (∃ entry, .opened stream entry ∈ trace ∧ Rechecked before k stream entry.binding.publicName) ∧
        .shut k ∉ before ∧ .refused k stream ∉ before
  | _ => True

/-- Notes about the end of a router or of one of its streams, and about its samples. -/
def Note.Concerns (k : Nat) : Note → Prop
  | .shut j | .refused j _ => j = k
  | .handed j stream _ => j = k ∧ stream ≠ "control"
  | _ => False

/-- The history and router `k` agree. -/
structure Agreed (w : World η) (k : Nat) : Prop where
  traced : (w.routers k).Traced
  born : ∀ n ∈ w.history, n.Concerns k → k < w.born
  shut : .shut k ∈ w.history → (w.routers k).closed = true
  refused : ∀ stream, .refused k stream ∈ w.history →
    (w.routers k).Issued stream ∧ (w.routers k).subscriptions.get? stream = none
  honoured : Logged (Honoured (w.routers k).trace k) w.history

/-- A longer trace knows the same streams. -/
theorem Honoured.mono {trace trace' : List (Mark η)} {before : List Note} {n : Note} (longer : trace <+: trace')
    (h : Honoured trace k before n) : Honoured trace' k before n := by
  cases n with
  | handed j stream accepted =>
    intro own data
    obtain ⟨⟨entry, opened, rechecked⟩, rest⟩ := h own data
    exact ⟨⟨entry, longer.subset opened, rechecked⟩, rest⟩
  | _ => exact h

/-- A turn of a router, with what it adds to the history. -/
theorem Agreed.turn {notes : List Note} (h : Agreed w k) (kept : w'.routers k = w.routers k ∨ Turn allow w k (w'.routers k))
    (born : w.born ≤ w'.born) (history : w'.history = w.history ++ notes)
    (concerned : ∀ n ∈ notes, n.Concerns k → k < w.born)
    (shut : .shut k ∈ notes → (w'.routers k).closed = true)
    (refused : ∀ stream, .refused k stream ∈ notes →
      (w'.routers k).Issued stream ∧ (w'.routers k).subscriptions.get? stream = none)
    (honoured : Logged (fun before => Honoured (w'.routers k).trace k (w.history ++ before)) notes) : Agreed w' k := by
  have keeps : (w.routers k).Kept (w'.routers k) := by
    rcases kept with same | turn
    · exact same ▸ .refl _
    · exact turn.kept
  have longer : (w.routers k).trace <+: (w'.routers k).trace := by
    rcases kept with same | turn
    · exact same ▸ List.prefix_rfl
    · exact turn.trace
  refine ⟨?_, ?_, ?_, ?_, ?_⟩
  · rcases kept with same | turn
    · exact same ▸ h.traced
    · exact turn.traced h.traced
  · intro n hn concerns
    rw [history] at hn
    rcases List.mem_append.1 hn with hn | hn
    · exact (h.born n hn concerns).trans_le born
    · exact (concerned n hn concerns).trans_le born
  · intro hn
    rw [history] at hn
    rcases List.mem_append.1 hn with hn | hn
    · exact keeps.closed (h.shut hn)
    · exact shut hn
  · intro stream hn
    rw [history] at hn
    rcases List.mem_append.1 hn with hn | hn
    · obtain ⟨issued, absent⟩ := h.refused stream hn
      refine ⟨issued.kept keeps, ?_⟩
      rcases kept with same | turn
      · rw [same]
        exact absent
      · by_contra there
        obtain ⟨sub, found⟩ := Option.ne_none_iff_exists'.1 there
        rcases turn.subscription found with ⟨sub₀, h₀, -⟩ | ⟨-, rfl, -⟩
        · rw [absent] at h₀
          cases h₀
        · exact (w.routers k).not_issued_nextStream issued
    · exact refused stream hn
  · rw [history]
    exact (h.honoured.mono fun _ _ _ => Honoured.mono longer).append honoured

/-- A turn that adds nothing of interest to the history. -/
theorem Agreed.quiet {notes : List Note} (h : Agreed w k) (kept : w'.routers k = w.routers k ∨ Turn allow w k (w'.routers k))
    (born : w.born ≤ w'.born) (history : w'.history = w.history ++ notes)
    (quiet : ∀ n ∈ notes, ¬n.Concerns k ∧ ∀ trace : List (Mark η), ∀ before, Honoured trace k before n) : Agreed w' k := by
  refine h.turn kept born history (fun n hn c => absurd c (quiet n hn).1) (fun hn => absurd rfl (quiet _ hn).1)
    (fun _ hn => absurd rfl (quiet _ hn).1) (logged_of_forall fun before n hn => (quiet n hn).2 _ _)

/-- Nothing is known of a router before it is constructed. -/
theorem Agreed.constructed (h : Agreed w k) (born : Born w w' k) (history : w'.history = w.history) : Agreed w' k := by
  have unknown : ∀ n ∈ w.history, ¬n.Concerns k := fun n hn c => Nat.lt_irrefl k (born.number ▸ h.born n hn c)
  refine ⟨⟨?_⟩, ?_, ?_, ?_, ?_⟩
  · simp [born.fresh.subscriptions]
  · intro n hn c
    exact absurd c (unknown n (history ▸ hn))
  · intro hn
    exact (unknown (.shut k) (history ▸ hn) rfl).elim
  · intro stream hn
    exact (unknown (.refused k stream) (history ▸ hn) rfl).elim
  · rw [history]
    refine h.honoured.mono fun before n hn honoured => ?_
    cases n with
    | handed j stream accepted => exact fun own data => absurd ⟨own, data⟩ (unknown _ hn)
    | _ => exact honoured

/-- A stream that is gone is refused. -/
theorem Agreed.refusal {j : Nat} {stream : String} (h : Agreed w k)
    (kept : w'.routers k = w.routers k ∨ Turn allow w k (w'.routers k)) (later : w.born ≤ w'.born)
    (history : w'.history = w.history ++ [.refused j stream])
    (gone : j = k → k < w.born ∧ (w'.routers k).Issued stream ∧ (w'.routers k).subscriptions.get? stream = none) :
    Agreed w' k := by
  refine h.turn kept later history ?_ (by simp) ?_ (logged_singleton trivial)
  · intro n hn own
    obtain rfl := List.mem_singleton.1 hn
    exact (gone own).1
  · intro s hs
    obtain ⟨rfl, rfl⟩ : k = j ∧ s = stream := by simpa using hs
    exact (gone rfl).2

/-- A router begins to close. -/
theorem Agreed.ending {j : Nat} {notes : List Note} (h : Agreed w k)
    (kept : w'.routers k = w.routers k ∨ Turn allow w k (w'.routers k)) (later : w.born ≤ w'.born)
    (history : w'.history = w.history ++ notes) (only : ∀ n ∈ notes, n = .shut j ∨ ∃ sessionId, n = .revoked sessionId)
    (shut : j = k → k < w.born ∧ (w'.routers k).closed = true) : Agreed w' k := by
  refine h.turn kept later history (fun n hn own => ?_) (fun hn => ?_) (fun stream hn => ?_)
    (logged_of_forall fun before n hn => ?_)
  · rcases only n hn with rfl | ⟨sessionId, rfl⟩
    · exact (shut own).1
    · exact own.elim
  · rcases only _ hn with own | ⟨sessionId, e⟩
    · exact (shut (Note.shut.inj own).symm).2
    · cases e
  · rcases only _ hn with e | ⟨sessionId, e⟩ <;> cases e
  · rcases only n hn with rfl | ⟨sessionId, rfl⟩ <;> trivial

theorem Step.agreed (s : Step allow w w') (sane : w.Sane) (h : Agreed w k) : Agreed w' k := by
  have later := s.born
  rcases or_assoc.2 (s.turn k) with kept | born
  · cases s with
    | outside | mediaClosed | router | subscribed | constructed =>
      refine h.quiet kept later (List.append_nil _).symm ?_
      simp
    | asked | answered | flushing | handleTaken | sessionTaken | handleOpened | handleClosed | handedControl =>
      exact h.quiet kept later rfl (by simp [Note.Concerns, Honoured])
    | tended cause g notes tended =>
      refine h.quiet kept later rfl ?_
      cases tended.recorded <;> simp [Note.Concerns, Honoured]
    | refused j stream absent issued born =>
      refine h.refusal kept later rfl ?_
      rintro rfl
      exact ⟨born, issued, absent⟩
    | removed j stream sub q listeners notes found options streams left recorded =>
      rcases recorded with rfl | rfl
      · refine h.quiet kept later rfl ?_
        simp
      · refine h.refusal kept later rfl ?_
        rintro rfl
        dsimp only
        rw [World.setRouter_self]
        exact ⟨sane.born_of_subscription found, (sane.routers j).issued stream sub found, by simp [SessionRouter.unsubscribe]⟩
    | spoiled j stream sub native q listeners found ready fits options streams left =>
      refine h.refusal kept later rfl ?_
      rintro rfl
      dsimp only
      rw [World.setRouter_self]
      exact ⟨sane.born_of_subscription found, (sane.routers j).issued stream sub found, by simp [SessionRouter.unsubscribe]⟩
    | handedData j stream sub next accepted q found isOpen idle sent rechecked =>
      refine h.turn kept later rfl ?_ (by simp) (by simp) (logged_singleton ?_)
      · intro n hn own
        obtain rfl := List.mem_singleton.1 hn
        exact own.1 ▸ sane.born_of_subscription found
      · rintro rfl data
        dsimp only
        rw [World.setRouter_self, List.append_nil]
        refine ⟨⟨sub.entry, by simp [SessionRouter.marked, h.traced.opened stream sub found], rechecked⟩, fun shut => ?_, fun refused => ?_⟩
        · rw [h.shut shut] at isOpen
          cases isOpen
        · rw [(h.refused stream refused).2] at found
          cases found
    | published j handle p t request isOpen found last answered guarded =>
      refine h.turn kept later rfl (by simp [Note.Concerns]) (by simp) (by simp) (logged_singleton ?_)
      rintro rfl
      rw [List.append_nil]
      refine ⟨answered, fun shut => ?_⟩
      rw [h.shut shut] at isOpen
      cases isOpen
    | closed j gone isOpen only all =>
      refine h.ending (j := j) kept later rfl (by simp) ?_
      rintro rfl
      exact ⟨sane.born isOpen, by simp [World.finish, SessionRouter.finished]⟩
    | torn j v f marks isOpen video torn less marked =>
      refine h.ending (j := j) kept later rfl (by simp) ?_
      rintro rfl
      exact ⟨sane.born isOpen, by simp⟩
  · refine h.constructed born ?_
    cases s with
    | constructed => rfl
    | _ => exact absurd born.born (by rw [born.number]; exact Nat.ne_of_lt (Nat.lt_succ_self _))

theorem start_agreed (numbers : NumberText) (guard : CommandGuard) (media : MediaService) (k : Nat) :
    Agreed (World.start numbers guard media : World η) k := by
  refine ⟨⟨?_⟩, ?_, ?_, ?_, logged_nil⟩ <;> simp [World.start, SessionRouter.vacant]

/-- In every run, whatever the hooks answer and whichever routers they close. -/
theorem revocation_honoured {prefixId : String} {maxSessions maxHandles leaseMs clock : Session.Num} {guard : CommandGuard}
    (created : create prefixId maxSessions maxHandles leaseMs clock = .ok guard) (numbers : NumberText) (media : MediaService)
    (inputs : List (Env η × Input η)) (k : Nat) :
    Logged (Honoured (((World.start numbers guard media).run inputs).routers k).trace k)
      ((World.start numbers guard media).run inputs).history := by
  have sane : (World.start numbers guard media : World η).Sane := start_sane numbers media (create_handles created)
  exact ((run_goes_any sane inputs).inv (P := fun w => Agreed w k) (fun w w' sane h s => s.agreed sane h) sane
    (start_agreed numbers guard media k)).honoured

/-- A note of a publication. -/
def Note.isPublished : Note → Bool
  | .published .. => true
  | _ => false

theorem revocation_honoured_small :
    create "g" (some 2) (some 8) (some 250) (some 0) = .ok smallGuard ∧
      (smallBridge.run smallVisit).history.any Note.isPublished = true ∧
      Logged (Honoured ((smallBridge.run smallVisit).routers 0).trace 0) (smallBridge.run smallVisit).history :=
  have created : create "g" (some 2) (some 8) (some 250) (some 0) = .ok smallGuard := rfl
  ⟨created, by decide +kernel, revocation_honoured created plainNumbers noMedia smallVisit 0⟩

end RosBridge.Router
