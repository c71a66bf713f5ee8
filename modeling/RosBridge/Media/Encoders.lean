import RosBridge.Media.Books
/-!
# One encoder per track

A track has one encoder at a time exactly as long as no start resumes into a track that
is already claimed (`one_encoder_iff`). Two starts can be waiting for one release: the
first to resume creates an encoder and leaves the phase as it was, so the second
creates another and the first is lost.
-/

namespace RosBridge.Media

open Relation Lib Books

variable {ν : Type}

/-- At most one encoder is live, and the source knows it. -/
def OneEncoder (s : SourceSystem ν) : Prop :=
  s.live.length ≤ 1 ∧ ∀ e ∈ s.live, s.source = some e ∨ s.release = some e

/-- A start that resumes and will go on finds no encoder. -/
def Unclaimed (s : SourceSystem ν) (i : Input ν) : Prop :=
  i.event = .resume → 0 < s.ready → s.phase = .starting → s.viewers ≠ [] → s.source = none ∧ s.release = none

/-! ## The invariant -/

/-- The live encoder is the current one or the one being released, and never are there
both. -/
structure Sole (b : Books ν) : Prop where
  terminal : b.phase = .idle ∨ b.phase = .failed → b.source = none
  apart : b.source = none ∨ b.release = none
  live : b.live = b.source.toList ++ b.release.toList
  releasing : b.releasing = b.release.toList

theorem Sole.finish {b : Books ν} (h : Sole b) (phase : VideoState) : Sole (b.finish phase) where
  terminal _ := rfl
  apart := .inl rfl
  live := by
    have := h.live
    rcases h.apart with hs | hr <;> simp_all [Books.finish]
  releasing := by
    have := h.releasing
    rcases h.apart with hs | hr <;> simp_all [Books.finish]

theorem Sole.follow {b b' : Books ν} (h : Sole b) (f : Follow b b') : Sole b' := by
  cases f with
  | leave viewers sub => exact ⟨h.terminal, h.apart, h.live, h.releasing⟩
  | activate e source phase => exact ⟨by simp, h.apart, h.live, h.releasing⟩
  | finish phase terminal => exact h.finish phase

theorem Sole.follows {b b' : Books ν} (h : Sole b) (f : ReflTransGen Follow b b') : Sole b' := by
  induction f with
  | refl => exact h
  | tail _ f ih => exact ih.follow f

/-- `beginRest` where the track holds no encoder. -/
theorem Sole.rest {b b' : Books ν} (h : Sole b)
    (free : b.phase = .starting → b.viewers ≠ [] → b.source = none ∧ b.release = none) (r : Rest b b') : Sole b' := by
  cases r with
  | quit unwanted => exact h
  | create phase wanted =>
    obtain ⟨hs, hr⟩ := free phase wanted
    refine ⟨by simp [Books.create, phase], .inr hr, ?_, h.releasing⟩
    simp [Books.create, h.live, hs, hr]

theorem Sole.begins {b b' : Books ν} (h : Sole b) (phase : b.phase = .idle ∨ b.phase = .failed) (start : Begin b b') : Sole b' := by
  have hs := h.terminal phase
  cases start with
  | wait viewers sub encoder release => exact ⟨by simp, .inl hs, h.live, h.releasing⟩
  | rest viewers sub release _ rest =>
    have h₁ : Sole { b with phase := .starting, viewers := viewers } := ⟨by simp, .inl hs, h.live, h.releasing⟩
    exact h₁.rest (fun _ _ => ⟨hs, release⟩) rest

theorem Sole.stopped {b : Books ν} (h : Sole b) {encoder : Nat} (waited : encoder ∈ b.releasing) :
    b.release = some encoder ∧ b.source = none := by
  rw [h.releasing] at waited
  have hr : b.release = some encoder := by simpa using waited
  exact ⟨hr, h.apart.resolve_right (by simp [hr])⟩

theorem Sole.turn {event : Event ν} {b b' : Books ν} (h : Sole b)
    (free : event = .resume → 0 < b.ready → b.phase = .starting → b.viewers ≠ [] → b.source = none ∧ b.release = none)
    (t : Turn b event b') : Sole b' := by
  cases t with
  | quiet => exact h
  | join v viewers new phase => exact ⟨h.terminal, h.apart, h.live, h.releasing⟩
  | start v viewers _ phase start =>
    have h₁ : Sole { b with viewers := viewers } := ⟨h.terminal, h.apart, h.live, h.releasing⟩
    exact h₁.begins phase start
  | stopped e waited =>
    obtain ⟨hr, hs⟩ := h.stopped waited
    refine ⟨h.terminal, .inr rfl, ?_, ?_⟩
    · simp [h.live, hs, hr]
    · simp [h.releasing, hr]
  | resume _ ready rest =>
    have h₁ : Sole { b with ready := b.ready - 1 } := ⟨h.terminal, h.apart, h.live, h.releasing⟩
    exact h₁.rest (free rfl ready) rest
  | close =>
    have h₁ : Sole ({ b with viewers := [] } : Books ν) := ⟨h.terminal, h.apart, h.live, h.releasing⟩
    have h₂ := h₁.finish .idle
    exact ⟨h₂.terminal, h₂.apart, h₂.live, h₂.releasing⟩
  | closing call on frame => exact ⟨h.terminal, h.apart, h.live, h.releasing⟩
  | closed call on frame ended => exact ⟨h.terminal, h.apart, h.live, h.releasing⟩

theorem Sole.one {s : SourceSystem ν} (h : Sole s.books) : OneEncoder s := by
  have hl : s.live = s.source.toList ++ s.release.toList := h.live
  rcases h.apart with hs | hr
  · have hs : s.source = none := hs
    rw [hs] at hl
    cases hr : s.release <;> simp [OneEncoder, hl, hr]
  · have hr : s.release = none := hr
    rw [hr] at hl
    cases hs : s.source <;> simp [OneEncoder, hl, hs]

/-! ## The condition is exact -/

theorem follows_live {b b' : Books ν} (f : ReflTransGen Follow b b') :
    b'.live = b.live ∧ b'.created = b.created ∧ b'.closes = b.closes := by
  induction f with
  | refl => exact ⟨rfl, rfl, rfl⟩
  | tail _ f ih => cases f <;> exact ih

variable [DecidableEq ν]

theorem Sole.step {s : SourceSystem ν} {i : Input ν} (h : Sole s.books) (free : Unclaimed s i) : Sole (s.step i).books := by
  obtain ⟨mid, t, f⟩ := books_step s i
  exact (h.turn free t).follows f

/-- A start that resumes into a claimed track makes a second live encoder. -/
theorem Sole.two {s : SourceSystem ν} {i : Input ν} (h : Sole s.books) (claimed : ¬Unclaimed s i) :
    ¬OneEncoder (s.step i) := by
  unfold Unclaimed at claimed
  push Not at claimed
  obtain ⟨resume, ready, phase, wanted, held⟩ := claimed
  have hstep : s.step i = i.port.beginRest { s with ready := s.ready - 1 } := by
    rw [SourceSystem.step, resume]
    exact (Input.port_resume i s).trans (if_neg (Nat.pos_iff_ne_zero.1 ready))
  obtain ⟨mid, rest, f⟩ := books_beginRest i { s with ready := s.ready - 1 }
  have live : mid.live = s.live ++ [s.created] := by
    cases rest with
    | quit unwanted => exact absurd unwanted (not_or.2 ⟨not_not.2 phase, wanted⟩)
    | create => rfl
  have hl : (s.step i).live = s.live ++ [s.created] := by
    rw [← live, hstep]
    exact (follows_live f).1
  have hs : s.live = s.source.toList ++ s.release.toList := h.live
  have : s.live ≠ [] := by
    intro hnil
    rw [hnil, eq_comm, List.append_eq_nil_iff] at hs
    exact held (by simpa using hs.1) (by simpa using hs.2)
  rintro ⟨one, -⟩
  rw [hl, List.length_append, List.length_singleton] at one
  exact this (List.eq_nil_of_length_eq_zero (by omega))

/-! ## After close -/

/-- After the call of `close` number `call`, while nobody is added: nothing can start,
and what the call still has to wait for is the release that is going on. -/
structure Shut (call : Nat) (b : Books ν) : Prop where
  sole : Sole b
  viewers : b.viewers = []
  phase : b.phase = .idle ∨ b.phase = .failed
  frame : ∃ f, b.closes[call]? = some f ∧ match f with
    | .finishing _ => True
    | .releasing on => b.release = none ∨ b.release = on
    | .done => b.release = none

omit [DecidableEq ν] in
theorem Shut.source {call : Nat} {b : Books ν} (h : Shut call b) : b.source = none := h.sole.terminal h.phase

omit [DecidableEq ν] in
theorem Shut.follows {call : Nat} {b b' : Books ν} (h : Shut call b) (f : ReflTransGen Follow b b') : Shut call b' := by
  induction f with
  | refl => exact h
  | tail _ f ih =>
    have hs := ih.source
    cases f with
    | leave viewers sub =>
      exact ⟨⟨ih.sole.terminal, ih.sole.apart, ih.sole.live, ih.sole.releasing⟩,
        List.eq_nil_of_subset_nil (ih.viewers ▸ sub), ih.phase, ih.frame⟩
    | activate e source phase =>
      rw [hs] at source
      cases source
    | finish phase terminal =>
      refine ⟨ih.sole.finish phase, by simp [Books.finish, ih.viewers], terminal, ?_⟩
      have : ∀ b : Books ν, b.source = none → (b.finish phase).release = b.release := by
        intro b hb
        simp [Books.finish, hb]
      rw [this _ hs]
      exact ih.frame

omit [DecidableEq ν] in
theorem Shut.turn {call : Nat} {event : Event ν} {b b' : Books ν} (h : Shut call b)
    (noAdd : ∀ v, event ≠ .add v) (t : Turn b event b') : Shut call b' ∧ b'.created = b.created := by
  have sole : Sole b' := by
    refine h.sole.turn (fun _ _ phase => ?_) t
    rcases h.phase with hp | hp <;> rw [hp] at phase <;> cases phase
  obtain ⟨f, hf, wait⟩ := h.frame
  cases t with
  | quiet => exact ⟨h, rfl⟩
  | join v viewers new phase => exact absurd rfl (noAdd v)
  | start v viewers _ phase start => exact absurd rfl (noAdd v)
  | stopped e waited =>
    refine ⟨⟨sole, h.viewers, h.phase, f, hf, ?_⟩, rfl⟩
    cases f <;> simp
  | resume _ ready rest =>
    cases rest with
    | quit unwanted => exact ⟨⟨sole, h.viewers, h.phase, f, hf, wait⟩, rfl⟩
    | create phase wanted => exact absurd h.viewers wanted
  | close =>
    have hlt := (List.getElem?_eq_some_iff.1 hf).1
    refine ⟨⟨sole, rfl, .inl rfl, f, (List.getElem?_append_left hlt).trans hf, ?_⟩, rfl⟩
    simpa [Books.finish, h.source] using wait
  | closing j on frame =>
    refine ⟨⟨sole, h.viewers, h.phase, ?_⟩, rfl⟩
    have hlt := (List.getElem?_eq_some_iff.1 frame).1
    by_cases hj : j = call
    · subst hj
      exact ⟨.releasing b.release, by simp [hlt], .inr rfl⟩
    · exact ⟨f, (List.getElem?_set_ne hj).trans hf, wait⟩
  | closed j on frame ended =>
    refine ⟨⟨sole, h.viewers, h.phase, ?_⟩, rfl⟩
    have hlt := (List.getElem?_eq_some_iff.1 frame).1
    by_cases hj : j = call
    · subst hj
      obtain rfl : f = .releasing on := Option.some.inj (hf.symm.trans frame)
      refine ⟨.done, by simp [hlt], wait.elim id fun hr => ?_⟩
      -- What it waited for has stopped, so it is not being released any more.
      cases hon : on with
      | none => rw [hr, hon]
      | some e => exact absurd (by rw [h.sole.releasing, hr, hon]; simp) (ended e (by simp [hon]))
    · exact ⟨f, (List.getElem?_set_ne hj).trans hf, wait⟩

omit [DecidableEq ν] in
theorem done_turn {call : Nat} {event : Event ν} {b b' : Books ν} (t : Turn b event b')
    (done : b.closes[call]? = some .done) : b'.closes[call]? = some .done := by
  cases t with
  | quiet | join | stopped => exact done
  | start v viewers _ phase start =>
    cases start with
    | wait => exact done
    | rest viewers sub release _ rest => cases rest <;> exact done
  | resume _ ready rest => cases rest <;> exact done
  | close => exact (List.getElem?_append_left (List.getElem?_eq_some_iff.1 done).1).trans done
  | closing j on frame | closed j on frame =>
    have hj : j ≠ call := by
      rintro rfl
      rw [frame] at done
      cases done
    exact (List.getElem?_set_ne hj).trans done

/-- What a step leaves of a call of `close`: it stays shut, and done if it was. -/
theorem Shut.step {call : Nat} {s : SourceSystem ν} {i : Input ν} (h : Shut call s.books) (noAdd : ∀ v, i.event ≠ .add v) :
    Shut call (s.step i).books ∧ (s.step i).created = s.created ∧
      (s.closes[call]? = some .done → (s.step i).closes[call]? = some .done) := by
  obtain ⟨mid, t, f⟩ := books_step s i
  obtain ⟨hm, hc⟩ := h.turn noAdd t
  obtain ⟨-, created, closes⟩ := follows_live f
  refine ⟨hm.follows f, created.trans hc, fun done => ?_⟩
  have : (s.step i).closes = mid.closes := closes
  rw [this]
  exact done_turn t done

theorem Shut.run {call : Nat} {s : SourceSystem ν} (h : Shut call s.books) {inputs : List (Input ν)}
    (noAdd : ∀ i ∈ inputs, ∀ v, i.event ≠ .add v) :
    Shut call (s.run inputs).books ∧ (s.run inputs).created = s.created ∧
      (s.closes[call]? = some .done → (s.run inputs).closes[call]? = some .done) := by
  induction inputs generalizing s with
  | nil => exact ⟨h, rfl, id⟩
  | cons i is ih =>
    obtain ⟨h₁, hc, hd⟩ := h.step (noAdd i List.mem_cons_self)
    obtain ⟨h₂, hc', hd'⟩ := ih h₁ fun j hj => noAdd j (List.mem_cons_of_mem _ hj)
    exact ⟨h₂, hc'.trans hc, hd' ∘ hd⟩

theorem Sole.close {s : SourceSystem ν} (h : Sole s.books) (i : Input ν) (hi : i.event = .close) :
    Shut s.closes.length (s.step i).books := by
  have hb : (s.step i).books = _ := (congrArg SourceSystem.books (by rw [SourceSystem.step, hi]; rfl)).trans (books_close i s)
  have sole : Sole (s.step i).books := h.step fun he => by rw [hi] at he; cases he
  rw [hb] at sole ⊢
  exact ⟨sole, rfl, .inl rfl, .finishing s.source, by simp, trivial⟩

/-- Once a call of `close` is done and nobody was added since, no encoder is live and
none is created any more. -/
def CloseReleases (s : SourceSystem ν) (inputs : List (Input ν)) : Prop :=
  ∀ before turn between after, inputs = before ++ turn :: (between ++ after) → turn.event = .close →
    (∀ i ∈ between ++ after, ∀ v, i.event ≠ .add v) →
    (s.run (before ++ turn :: between)).closes[(s.run before).closes.length]? = some .done →
    (s.run (before ++ turn :: between)).live = [] ∧ (s.run inputs).live = [] ∧
      (s.run inputs).created = (s.run (before ++ turn :: between)).created

omit [DecidableEq ν] in
theorem Shut.live {call : Nat} {s : SourceSystem ν} (h : Shut call s.books) (done : s.closes[call]? = some .done) :
    s.live = [] := by
  obtain ⟨f, hf, wait⟩ := h.frame
  obtain rfl : f = .done := Option.some.inj (hf.symm.trans done)
  have hs : s.source = none := h.source
  have hr : s.release = none := wait
  have hl : s.live = s.source.toList ++ s.release.toList := h.sole.live
  simp [hl, hs, hr]

/-! ## Along a run -/

omit [DecidableEq ν] in
theorem sole_init (options : VideoSourceOptions) : Sole (SourceSystem.init options : SourceSystem ν).books :=
  ⟨fun _ => rfl, .inl rfl, rfl, rfl⟩

theorem closeReleases {s : SourceSystem ν} (h : Sole s.books) {inputs : List (Input ν)}
    (free : Along SourceSystem.step Unclaimed s inputs) : CloseReleases s inputs := by
  rintro before turn between after rfl isClose noAdd done
  have h₁ : Sole (s.run before).books :=
    ((along_append _ _ _).1 free).1.inv (I := fun s => Sole s.books) (fun _ _ h free => h.step free) h
  have h₂ : Shut (s.run before).closes.length ((s.run before).step turn).books := h₁.close turn isClose
  obtain ⟨h₃, -, -⟩ := h₂.run fun i hi => noAdd i (List.mem_append_left after hi)
  obtain ⟨h₄, created, stays⟩ := h₃.run fun i hi => noAdd i (List.mem_append_right between hi)
  simp only [SourceSystem.run, List.foldl_append, List.foldl_cons] at *
  exact ⟨h₃.live done, h₄.live (stays done), created⟩

/-- The track has one encoder at a time all along a run, and none after `close`,
exactly when no start of the run resumes into a claimed track. -/
theorem one_encoder_iff (options : VideoSourceOptions) (inputs : List (Input ν)) :
    ((∀ pre, pre <+: inputs → OneEncoder ((SourceSystem.init options).run pre)) ∧
      CloseReleases (.init options) inputs) ↔ Along SourceSystem.step Unclaimed (.init options) inputs := by
  have sole : Sole (SourceSystem.init options : SourceSystem ν).books := sole_init options
  have exact_ := along_iff SourceSystem.step (I := fun s : SourceSystem ν => Sole s.books) (G := OneEncoder)
    (fun _ h => h.one) (fun _ _ h free => h.step free) (fun _ _ h claimed => h.two claimed) sole inputs
  exact ⟨fun h => exact_.1 h.1, fun h => ⟨exact_.2 h, closeReleases sole h⟩⟩

/-- Settings of the repository's examples, with a shorter grace window. -/
def exampleOptions : VideoSourceOptions := ⟨⟨5000, 5000, 2000, 200, by decide⟩, 30, by decide⟩

def keyframe : RtpPacket := ⟨[0x80, 96, 0, 0, 0, 0, 0, 0, 0, 0, 0, 0, 0x67], by decide⟩

/-- Two viewers come and go while the first encoder is being released: both starts wait
for it, and both go on. -/
def twoStarts : List (Input Nat) :=
  [.add 1, .packet 0 keyframe, .remove 1, .advance 2000, .fire 1,
    .add 2, .remove 2, .advance 4000, .fire 3, .add 3, .stopped 0, .resume, .resume].map Event.alone

theorem two_encoders : ¬OneEncoder ((SourceSystem.init exampleOptions).run twoStarts) := by
  have : ((SourceSystem.init exampleOptions).run twoStarts).live = [1, 2] := by decide +kernel
  simp [OneEncoder, this]

end RosBridge.Media
