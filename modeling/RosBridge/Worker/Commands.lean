import RosBridge.Worker.Reports
/-!
# What a worker obeys

The first line of a worker is the request, then come keyframes and at most one shutdown. A
process has obeyed as many of them as it has read (`Stage`).
-/

namespace RosBridge.Worker

open Lib

/-- A report that explains why a process has ended. -/
def Report.explains (report : Report) : Prop := report.cause.isSome ∨ report.acknowledges = some .probeResult

def Process.Explained (w : Process) : Prop := ∃ r ∈ w.reports, r.explains

/-- Commands on their way to a process. -/
def commands (t : Texts) (keyframes : Nat) (asked : Bool) : List (List UInt8) :=
  List.replicate keyframes (t.stringify Link.keyframe) ++ if asked then [t.stringify Link.shutdown] else []

/-- How far a process is with `first` and then the commands: `requested` keyframes, and the shutdown if it
was asked for. -/
def Stage (t : Texts) (first : List UInt8) (requested : Nat) (asked : Bool) (w : Process) : Prop :=
  match w.phase with
  | .waiting => w.input = first :: commands t requested asked ∧ w.keyframes = 0 ∧ w.stopping = false
  | .starting => w.input = commands t requested asked ∧ w.keyframes = 0 ∧ w.stopping = false
  | .streaming => w.keyframes ≤ requested ∧
    (w.reading = true ∧ w.input = commands t (requested - w.keyframes) asked ∧ w.stopping = false ∨
      w.reading = false ∧ w.keyframes = requested ∧ w.input = [] ∧ w.stopping = true ∧ asked = true)
  | .ended killed => w.keyframes ≤ requested ∧ (killed = false → asked = true ∨ w.Explained)

/-- A message of the bridge is read as it was meant. -/
def Understands (t : Texts) (m : Json) : Prop := t.loads (t.stringify m) = some m

structure Obedient (t : Texts) : Prop where
  keyframe : Understands t Link.keyframe
  shutdown : Understands t Link.shutdown
  short : ∀ m ∈ [Link.keyframe, Link.shutdown], (t.stringify m).length + 1 ≤ maxLineBytes

section Obeying

variable {t : Texts} {track : String} {first : List UInt8} {requested : Nat} {asked : Bool} {w : Process}

theorem Stage.keyframes_le (h : Stage t first requested asked w) : w.keyframes ≤ requested := by
  unfold Stage at h
  split at h
  · omega
  · omega
  · exact h.1
  · exact h.1

theorem stage_emit (report : Report) (explained : asked = true ∨ w.Explained ∨ report.explains) (bound : w.keyframes ≤ requested) :
    Stage t first requested asked (w.emit t track report).exit := by
  refine ⟨bound, fun _ => ?_⟩
  rcases explained with ask | ⟨r, mem, explains⟩ | explains
  · exact .inl ask
  · exact .inr ⟨r, List.mem_append_left _ mem, explains⟩
  · exact .inr ⟨report, List.mem_append_right _ (by simp), explains⟩

theorem stage_raised (cause : String) (bound : w.keyframes ≤ requested) : Stage t first requested asked (w.raised t track cause) :=
  stage_emit _ (.inr (.inr (.inl rfl))) bound

theorem stage_finish {leave : Process.Leave} (explained : leave = .returns → asked = true ∨ w.Explained) (teardown : Option String)
    (bound : w.keyframes ≤ requested) : Stage t first requested asked (w.finish t track leave teardown) := by
  unfold Process.finish
  cases teardown with
  | some cause => exact stage_raised cause bound
  | none =>
    cases leave with
    | returns => exact stage_emit .stopped ((explained rfl).imp_right .inl) bound
    | raises cause => exact stage_raised cause bound
    | interrupted => exact ⟨bound, fun killed => by cases killed⟩

theorem stage_control (obedient : Obedient t) (hung : w.hungUp = asked) (phase : w.phase = .streaming) (reading : w.reading = true)
    (h : Stage t first requested asked w) : Stage t first requested asked (w.control t track) := by
  unfold Stage at h
  rw [phase] at h
  obtain ⟨bound, ⟨-, input, going⟩ | ⟨stopped, -⟩⟩ := h
  · unfold commands at input
    cases left : requested - w.keyframes with
    | succ n =>
      rw [left, List.replicate_succ, List.cons_append] at input
      have short := obedient.short Link.keyframe (by simp)
      have read : w.control t track = { w with input := commands t n asked, keyframes := w.keyframes + 1 } := by
        unfold Process.control
        rw [input]
        dsimp only
        rw [if_neg (Nat.not_lt.2 short), obedient.keyframe]
        simp [Link.keyframe, Link.message, List.lookup_cons, Process.isVersion, count, contractVersion, commands]
      rw [read]
      unfold Stage
      rw [phase]
      refine ⟨by dsimp only; omega, .inl ⟨reading, ?_, going⟩⟩
      dsimp only
      congr 1
      omega
    | zero =>
      rw [left, List.replicate_zero, List.nil_append] at input
      cases asked with
      | false =>
        have same : w.control t track = w := by
          unfold Process.control
          simp [input, hung]
        rw [same]
        unfold Stage
        rw [phase]
        refine ⟨bound, .inl ⟨reading, ?_, going⟩⟩
        rw [input, commands, left]
        rfl
      | true =>
        have short := obedient.short Link.shutdown (by simp)
        have read : w.control t track = { w with input := [], reading := false, stopping := true } := by
          unfold Process.control
          simp only [if_true] at input
          rw [input]
          dsimp only
          rw [if_neg (Nat.not_lt.2 short), obedient.shutdown]
          simp [Link.shutdown, Link.message, List.lookup_cons, Process.isVersion, count, contractVersion]
        rw [read]
        unfold Stage
        rw [phase]
        exact ⟨bound, .inr ⟨rfl, by dsimp only; omega, rfl, rfl, rfl⟩⟩
  · rw [reading] at stopped
    cases stopped

theorem stage_pass (phase : w.phase = .streaming) (p : Process.Pass) (h : Stage t first requested asked w) :
    Stage t first requested asked (w.pass t track p) := by
  have bound := h.keyframes_le
  unfold Stage at h
  rw [phase] at h
  unfold Process.pass
  split
  · next stopping =>
    refine stage_finish (fun _ => ?_) _ bound
    obtain ⟨-, ⟨-, -, going⟩ | ⟨-, -, -, -, ask⟩⟩ := h
    · rw [going] at stopping
      cases stopping
    · exact .inl ask
  · next going =>
    have spun : Stage t first requested asked (w.spin p.frame) := by
      unfold Process.spin
      split
      · unfold Stage
        rw [phase]
        exact h
      · unfold Stage
        dsimp only
        rw [phase]
        exact h
    have streams : (w.spin p.frame).phase = .streaming := by
      unfold Process.spin
      split <;> exact phase
    dsimp only
    split
    · exact stage_finish (fun e => by cases e) _ spun.keyframes_le
    · refine stage_finish (fun _ => .inr ⟨_, List.mem_append_right _ (List.mem_singleton_self _), .inl rfl⟩) _ spun.keyframes_le
    · split
      · unfold Stage at spun ⊢
        rw [streams] at spun
        dsimp only [Process.emit]
        rw [streams]
        exact spun
      · exact spun

theorem main_request {streams : Bool} {binding : Config.VideoBinding} (request : Understands t (Link.request streams binding))
    (trial : Trial) (raises : Option String) : w.main t track (t.stringify (Link.request streams binding)) trial raises =
      if streams then w.setUp t track (specification binding) raises else w.answer t track (specification binding) trial := by
  unfold Understands at request
  unfold Process.main
  rw [request]
  cases streams <;> simp [Link.request, Link.message, List.lookup_cons, Process.isVersion, count, contractVersion]

/-- The first line is a request of the bridge. -/
theorem stage_main {streams : Bool} {binding : Config.VideoBinding} (request : Understands t (Link.request streams binding))
    (trial : Trial) (raises : Option String) (input : w.input = commands t requested asked) (none : w.keyframes = 0)
    (going : w.stopping = false) :
    Stage t first requested asked (w.main t track (t.stringify (Link.request streams binding)) trial raises) := by
  have bound : w.keyframes ≤ requested := by omega
  rw [main_request request]
  cases streams with
  | false =>
    have backend : (do asText (← item (← item (specification binding) "encoder") "backend") : Except String String) =
        .ok (backendName binding.encoder.backend) := by
      simp only [item_encoder]
      rfl
    simp only [Bool.false_eq_true, if_false, Process.answer, backend]
    split
    · next found _ => exact stage_emit (.probed _ found) (.inr (.inr (.inr rfl))) bound
    · next cause _ => exact stage_emit (.unprobed _ cause) (.inr (.inr (.inl rfl))) bound
  | true =>
    simp only [if_true, Process.setUp]
    split
    · exact stage_raised _ bound
    · exact ⟨input, none, going⟩

theorem stage_act {streams : Bool} {binding : Config.VideoBinding} (request : Understands t (Link.request streams binding))
    (obedient : Obedient t) (hung : w.hungUp = asked) (act : Process.Act)
    (h : Stage t (t.stringify (Link.request streams binding)) requested asked w) :
    Stage t (t.stringify (Link.request streams binding)) requested asked (w.act t track act) := by
  have bound := h.keyframes_le
  cases act with
  | main trial raises =>
    simp only [Process.act]
    split
    · next phase =>
      unfold Stage at h
      rw [phase] at h
      obtain ⟨input, none, going⟩ := h
      rw [input]
      exact stage_main request trial raises rfl none going
    · exact h
  | announce =>
    simp only [Process.act]
    split
    · next phase =>
      unfold Stage at h
      rw [phase] at h
      obtain ⟨input, none, going⟩ := h
      exact ⟨bound, .inl ⟨rfl, by simpa [Process.emit, none] using input, going⟩⟩
    · exact h
  | packet bytes =>
    simp only [Process.act]
    split
    · unfold Process.forward
      dsimp only
      split <;> exact h
    · exact h
  | control =>
    simp only [Process.act]
    split
    · next streaming => exact stage_control obedient hung streaming.1 streaming.2 h
    · exact h
  | pass p =>
    simp only [Process.act]
    split
    · next phase => exact stage_pass phase p h
    · exact h
  | interrupt teardown =>
    simp only [Process.act]
    split
    · exact stage_finish (fun e => by cases e) teardown bound
    · exact h
  | kill =>
    simp only [Process.act]
    split
    · exact h
    · exact ⟨bound, fun killed => by cases killed⟩

/-- A process that is gone does nothing. -/
theorem act_ended {killed : Bool} (gone : w.phase = .ended killed) (act : Process.Act) : w.act t track act = w := by
  cases act <;> simp [Process.act, gone]

end Obeying

end RosBridge.Worker
