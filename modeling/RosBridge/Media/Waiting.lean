import RosBridge.Media.Encoders
/-!
# A waiting viewer is served

A start gives up when it resumes and nobody is watching, but the phase stays
`starting`, and `add` does not start anything in that phase. A viewer of a starting or
active source is served all along a run exactly when nobody is added to a source whose
start gave up (`served_iff`).
-/

namespace RosBridge.Media

open Relation Lib Books

variable {ν : Type} [DecidableEq ν]

/-- A suspended `begin` that creates an encoder when it resumes, at once or when the
release it waits for is over, if nothing else happens. -/
def WillStart (s : SourceSystem ν) : Prop :=
  (0 < s.ready ∧ (s.run [Event.resume.alone]).source = some s.created) ∨
    ∃ e ∈ s.waiting, e ∈ s.releasing ∧ (s.run [(Event.stopped e).alone, Event.resume.alone]).source = some s.created

/-- The viewers of a starting or active source have an encoder or a pending start. -/
def Served (s : SourceSystem ν) : Prop :=
  (s.phase = .starting ∨ s.phase = .active) → s.viewers ≠ [] → s.source.isSome ∨ WillStart s

/-- Still starting, with no encoder and no call of `begin` that could create one. -/
def GaveUp (s : SourceSystem ν) : Prop := s.phase = .starting ∧ s.source = none ∧ s.waiting = [] ∧ s.ready = 0

theorem GaveUp.unserved {s : SourceSystem ν} (up : GaveUp s) (viewers : s.viewers ≠ []) : ¬Served s := by
  obtain ⟨phase, source, waiting, ready⟩ := up
  intro served
  rcases served (.inl phase) viewers with hs | ⟨hr, -⟩ | ⟨e, he, -⟩
  · simp [source] at hs
  · exact Nat.lt_irrefl 0 (ready ▸ hr)
  · simp [waiting] at he

/-- Nobody is added to a source whose start gave up, unless they leave again when they
are told its phase. -/
def Wanted (s : SourceSystem ν) (i : Input ν) : Prop :=
  ∀ v, i.event = .add v → GaveUp s → v ∈ i.told v .starting

/-! ## The invariant -/

structure Attended (b : Books ν) : Prop where
  active : b.phase = .active → b.source ≠ none
  release : ∀ e ∈ b.release, e ∈ b.releasing
  waiting : ∀ e ∈ b.waiting, e ∈ b.releasing
  served : b.phase = .starting → b.viewers ≠ [] → b.source ≠ none ∨ b.waiting ≠ [] ∨ 0 < b.ready

omit [DecidableEq ν] in
theorem Attended.finish {b : Books ν} (h : Attended b) {phase : VideoState} (terminal : phase = .idle ∨ phase = .failed) :
    Attended (b.finish phase) where
  active hp := by rcases terminal with rfl | rfl <;> cases hp
  release e he := by
    simp only [Books.finish, List.mem_append, Option.mem_toList]
    cases hs : b.source with
    | none => exact .inl (h.release e (by simpa [Books.finish, hs] using he))
    | some e' => exact .inr (by simpa [Books.finish, hs] using he)
  waiting e he := List.mem_append_left _ (h.waiting e he)
  served hp := by rcases terminal with rfl | rfl <;> cases hp

omit [DecidableEq ν] in
theorem Attended.leave {b : Books ν} (h : Attended b) {viewers : List ν} (sub : viewers ⊆ b.viewers) :
    Attended { b with viewers := viewers } where
  active := h.active
  release := h.release
  waiting := h.waiting
  served hp hv := h.served hp fun hnil => hv (List.eq_nil_of_subset_nil (hnil ▸ sub))

omit [DecidableEq ν] in
theorem Attended.follows {b b' : Books ν} (h : Attended b) (f : ReflTransGen Follow b b') : Attended b' := by
  induction f with
  | refl => exact h
  | tail _ f ih =>
    cases f with
    | leave viewers sub => exact ih.leave sub
    | activate e source phase => exact ⟨fun _ => by simp [source], ih.release, ih.waiting, fun hp => by cases hp⟩
    | finish phase terminal => exact ih.finish terminal

omit [DecidableEq ν] in
/-- `beginRest`, whatever was served before it. -/
theorem Attended.rest {b b' : Books ν} (active : b.phase = .active → b.source ≠ none)
    (release : ∀ e ∈ b.release, e ∈ b.releasing) (waiting : ∀ e ∈ b.waiting, e ∈ b.releasing) (r : Rest b b') :
    Attended b' := by
  cases r with
  | quit unwanted =>
    exact ⟨active, release, waiting, fun hp hv => absurd unwanted (not_or.2 ⟨not_not.2 hp, hv⟩)⟩
  | create phase wanted =>
    exact ⟨fun _ => by simp [Books.create], release, waiting, fun _ _ => .inl (by simp [Books.create])⟩

omit [DecidableEq ν] in
theorem Attended.begins {b b' : Books ν} (release : ∀ e ∈ b.release, e ∈ b.releasing)
    (waiting : ∀ e ∈ b.waiting, e ∈ b.releasing) (start : Begin b b') : Attended b' := by
  cases start with
  | wait viewers sub e hr =>
    refine ⟨by simp, release, ?_, fun _ _ => .inr (.inl (by simp))⟩
    intro e' he'
    rcases List.mem_append.1 he' with he' | he'
    · exact waiting e' he'
    · rw [List.mem_singleton] at he'
      exact release e' (he' ▸ hr)
  | rest viewers sub hr _ rest =>
    exact Attended.rest (b := { b with phase := .starting, viewers := viewers }) (by simp) release waiting rest

omit [DecidableEq ν] in
theorem Attended.turn {event : Event ν} {b b' : Books ν} (h : Attended b)
    (held : ∀ v, event = .add v → b.phase = .starting → b.source ≠ none ∨ b.waiting ≠ [] ∨ 0 < b.ready)
    (t : Turn b event b') : Attended b' := by
  cases t with
  | quiet => exact h
  | join v viewers new phase => exact ⟨h.active, h.release, h.waiting, fun hp _ => held v rfl hp⟩
  | start v viewers _ phase start => exact Attended.begins (b := { b with viewers := viewers }) h.release h.waiting start
  | stopped e waited =>
    refine ⟨h.active, by simp, ?_, fun hp hv => ?_⟩
    · intro e' he'
      rw [List.mem_filter] at he' ⊢
      exact ⟨h.waiting e' he'.1, he'.2⟩
    · rcases h.served hp hv with hs | hw | hr
      · exact .inl hs
      · -- A call that waited for this encoder is ready now; one that waits for another still waits.
        by_cases hall : ∀ w ∈ b.waiting, w = e
        · obtain ⟨w, hmem⟩ := List.exists_mem_of_ne_nil _ hw
          have : 0 < b.waiting.count e := List.count_pos_iff.2 (hall w hmem ▸ hmem)
          exact .inr (.inr (Nat.add_pos_right _ this))
        · push Not at hall
          obtain ⟨w, hmem, hne⟩ := hall
          exact .inr (.inl (List.ne_nil_of_mem (List.mem_filter.2 ⟨hmem, by simpa using hne⟩)))
      · exact .inr (.inr (Nat.add_pos_left hr _))
  | resume _ ready rest =>
    exact Attended.rest (b := { b with ready := b.ready - 1 }) h.active h.release h.waiting rest
  | close =>
    have h₁ : Attended ({ b with viewers := [] } : Books ν) := h.leave (List.nil_subset _)
    have h₂ := h₁.finish (.inl rfl : VideoState.idle = .idle ∨ VideoState.idle = .failed)
    exact ⟨h₂.active, h₂.release, h₂.waiting, h₂.served⟩
  | closing call on frame => exact ⟨h.active, h.release, h.waiting, h.served⟩
  | closed call on frame ended => exact ⟨h.active, h.release, h.waiting, h.served⟩

/-! ## A pending start creates an encoder -/

theorem run_resume {s : SourceSystem ν} (phase : s.phase = .starting) (viewers : s.viewers ≠ []) (ready : 0 < s.ready) :
    (s.run [Event.resume.alone]).source = some s.created := by
  have hstep : s.step Event.resume.alone = Event.resume.alone.port.beginRest { s with ready := s.ready - 1 } :=
    (Input.port_resume _ s).trans (if_neg (Nat.pos_iff_ne_zero.1 ready))
  show (s.step Event.resume.alone).source = _
  rw [hstep, Input.port_beginRest, if_neg (not_or.2 ⟨not_not.2 phase, viewers⟩)]
  rfl

theorem Attended.serves {s : SourceSystem ν} (h : Attended s.books) : Served s := by
  intro phase viewers
  rcases phase with hp | hp
  · rcases h.served hp viewers with hs | hw | hr
    · exact .inl (Option.isSome_iff_ne_none.2 hs)
    · obtain ⟨e, he⟩ := List.exists_mem_of_ne_nil _ hw
      refine .inr (.inr ⟨e, he, h.waiting e he, ?_⟩)
      have waited : e ∈ s.releasing := h.waiting e he
      have count : 0 < s.waiting.count e := List.count_pos_iff.2 he
      have hstep : s.step (Event.stopped e).alone = s.stopped e := rfl
      show ((s.step (Event.stopped e).alone).run [Event.resume.alone]).source = some s.created
      rw [hstep, SourceSystem.stopped, if_neg (not_not.2 waited)]
      exact run_resume hp viewers (Nat.add_pos_right _ count)
    · exact .inr (.inl ⟨hr, run_resume hp viewers hr⟩)
  · exact .inl (Option.isSome_iff_ne_none.2 (h.active hp))

/-! ## Joining a source that gave up -/

theorem foldl_remove_other {v : ν} {l : List ν} (h : v ∉ l) {s : SourceSystem ν} (hs : s.viewers = [v]) :
    l.foldl SourceSystem.remove s = s := by
  induction l with
  | nil => rfl
  | cons w l ih =>
    rw [List.mem_cons, not_or] at h
    have : s.remove w = s := by
      rw [SourceSystem.remove, if_pos (by simp [hs, Ne.symm h.1])]
    rw [List.foldl_cons, this, ih h.2]

theorem foldl_remove_self {v : ν} {l : List ν} (h : v ∈ l) {s : SourceSystem ν} (hs : s.viewers = [v]) :
    (l.foldl SourceSystem.remove s).viewers = [] := by
  obtain ⟨before, after, rfl, hb⟩ := List.eq_append_cons_of_mem h
  rw [List.foldl_append, foldl_remove_other hb hs, List.foldl_cons]
  have gone : (s.remove v).viewers = [] := by
    simp only [SourceSystem.remove, hs, List.mem_singleton, not_true, if_false, List.erase_cons_head]
    split <;> rfl
  obtain ⟨vs, sub, left⟩ := left_foldl SourceSystem.remove left_remove after (s.remove v)
  have hv : (after.foldl SourceSystem.remove (s.remove v)).viewers = vs := congrArg Books.viewers left
  rw [hv]
  exact List.eq_nil_of_subset_nil (gone ▸ sub)

/-- In a source that gave up, `add` tells the viewer `starting`, and that is all. -/
theorem add_gaveUp {s : SourceSystem ν} (h : Attended s.books) (up : GaveUp s) (i : Input ν) (v : ν) :
    ∃ w : SourceSystem ν, w.books = { s.books with viewers := [v] } ∧
      i.port.add v s = (i.told v .starting).foldl SourceSystem.remove w := by
  obtain ⟨phase, source, waiting, ready⟩ := up
  have nobody : s.viewers = [] := by
    by_contra hv
    rcases h.served phase hv with hs | hw | hr
    · exact hs source
    · exact hw waiting
    · exact Nat.lt_irrefl 0 (ready ▸ hr)
  refine ⟨{ s.cancel s.cancelGrace with viewers := [v], cancelGrace := none }, rfl, ?_⟩
  rw [Input.port_add, if_neg (by simp [phase]), if_neg (by simp [phase])]
  simp only [nobody, List.not_mem_nil, if_false, List.nil_append]
  show (i.told v s.phase).foldl _ _ = _
  rw [phase]

theorem Attended.step {s : SourceSystem ν} {i : Input ν} (h : Attended s.books) (wanted : Wanted s i) :
    Attended (s.step i).books := by
  by_cases up : ∃ v, i.event = .add v ∧ GaveUp s
  · obtain ⟨v, hi, up⟩ := up
    obtain ⟨w, hw, e⟩ := add_gaveUp h up i v
    have hstep : s.step i = (i.told v .starting).foldl SourceSystem.remove w := by
      rw [SourceSystem.step, hi]
      exact e
    have hv : w.viewers = [v] := congrArg Books.viewers hw
    have gone := foldl_remove_self (wanted v hi up) hv
    obtain ⟨vs, -, left⟩ := left_foldl SourceSystem.remove left_remove (i.told v .starting) w
    rw [← hstep] at gone left
    have hvs : vs = [] := (congrArg Books.viewers left).symm.trans gone
    rw [left, hw, hvs]
    exact h.leave (List.nil_subset _)
  · push Not at up
    obtain ⟨mid, t, f⟩ := books_step s i
    refine (h.turn (fun v hi phase => ?_) t).follows f
    by_contra none
    push Not at none
    exact up v hi ⟨phase, none.1, none.2.1, Nat.le_zero.1 none.2.2⟩

/-- A viewer that joins a source that gave up, and stays, is not served. -/
theorem Attended.unserved {s : SourceSystem ν} {i : Input ν} (h : Attended s.books) (unwanted : ¬Wanted s i) :
    ¬Served (s.step i) := by
  unfold Wanted at unwanted
  push Not at unwanted
  obtain ⟨v, hi, up, stays⟩ := unwanted
  obtain ⟨w, hw, e⟩ := add_gaveUp h up i v
  have hv : w.viewers = [v] := congrArg Books.viewers hw
  have hstep : s.step i = w := by
    rw [SourceSystem.step, hi]
    exact e.trans (foldl_remove_other stays hv)
  rw [hstep]
  obtain ⟨phase, source, waiting, ready⟩ := up
  have up' : GaveUp w := ⟨(congrArg Books.phase hw).trans phase, (congrArg Books.source hw).trans source,
    (congrArg Books.waiting hw).trans waiting, (congrArg Books.ready hw).trans ready⟩
  exact up'.unserved (by simp [hv])

/-! ## Along a run -/

/-- Every waiting viewer is served all along a run exactly when no input of the run adds
a viewer to a source that gave up. -/
theorem served_iff (options : VideoSourceOptions) (inputs : List (Input ν)) :
    (∀ pre, pre <+: inputs → Served ((SourceSystem.init options).run pre)) ↔
      Along SourceSystem.step Wanted (.init options) inputs := by
  have attended : Attended (SourceSystem.init options : SourceSystem ν).books :=
    { active := by simp [SourceSystem.books, SourceSystem.init]
      release := by simp [SourceSystem.books, SourceSystem.init]
      waiting := by simp [SourceSystem.books, SourceSystem.init]
      served := by simp [SourceSystem.books, SourceSystem.init] }
  exact along_iff SourceSystem.step (I := fun s : SourceSystem ν => Attended s.books) (G := Served)
    (fun _ h => h.serves) (fun _ _ h wanted => h.step wanted) (fun _ _ h unwanted => h.unserved unwanted) attended inputs

/-- The second viewer leaves while its start waits for the first encoder's release; the
start gives up, and the third viewer is told `starting`. -/
def latecomer : List (Input Nat) :=
  [.add 1, .packet 0 keyframe, .remove 1, .advance 2000, .fire 1,
    .add 2, .remove 2, .stopped 0, .resume, .add 3].map Event.alone

theorem latecomer_unserved : ¬Served ((SourceSystem.init exampleOptions).run latecomer) := by
  have state : ((SourceSystem.init exampleOptions).run latecomer).books =
      ⟨.starting, [3], none, none, 1, [], [], [], 0, []⟩ := by decide +kernel
  generalize (SourceSystem.init exampleOptions).run latecomer = s at state
  obtain ⟨phase, viewers, source, -, -, -, -, waiting, ready, -⟩ := (Books.mk.injEq ..).mp state
  have up : GaveUp s := ⟨phase, source, waiting, ready⟩
  exact up.unserved (by simp [viewers])

end RosBridge.Media
