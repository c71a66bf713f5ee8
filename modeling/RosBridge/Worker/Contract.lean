import Mathlib.Data.List.Induction
import RosBridge.Worker.Commands
/-!
# The contract between the bridge and a worker

In every run of a source and its process (`contract_kept`) the bridge reads what the worker
has said and nothing else, and the worker obeys what the bridge has said and nothing else.
-/

namespace RosBridge.Worker

open Lib Prog Media Supervised

/-! ## Runs -/

/-- The bridge hears of the worker, and the worker of the bridge. -/
structure Sound (t : Texts) (track : String) (first : List UInt8) (l : Link) : Prop where
  reading : Reading t track l
  child : l.source.control.inner.child = !l.source.control.inner.stopping
  hungUp : l.process.hungUp = l.source.control.inner.stopping
  stage : Stage t first l.requested l.source.control.inner.stopping l.process

section Running

variable {t : Texts} {track : String} {streams : Bool} {binding : Config.VideoBinding} {l : Link}

/-- Reports and packets are not taken back. -/
theorem step_grows (l : Link) (move : Link.Move) : l.process.reports <+: (l.step t track move).process.reports ∧
    l.process.packets <+: (l.step t track move).process.packets := by
  cases move with
  | act act =>
    obtain ⟨⟨rs, reports, -⟩, ⟨ps, fs, packets, -⟩, -⟩ := act_writes t track l.process act
    exact ⟨⟨rs, reports.symm⟩, ⟨ps, packets.symm⟩⟩
  | exit =>
    simp only [Link.step]
    split
    · split <;> exact ⟨List.prefix_rfl, List.prefix_rfl⟩
    · exact ⟨List.prefix_rfl, List.prefix_rfl⟩
  | requestKeyframe =>
    simp only [Link.step]
    split <;> exact ⟨List.prefix_rfl, List.prefix_rfl⟩
  | stop =>
    simp only [Link.step]
    split <;> exact ⟨List.prefix_rfl, List.prefix_rfl⟩
  | read | readMedia => exact ⟨List.prefix_rfl, List.prefix_rfl⟩

theorem stop_after (s : Supervision) : Supervised.stop.after s = if s.child then { s with child := false, stopping := true } else s := by
  obtain ⟨child, stopping, settled, outcome, calls⟩ := s
  cases child <;> rfl

theorem commands_succ (n : Nat) : commands t n false ++ [t.stringify Link.keyframe] = commands t (n + 1) false := by
  simp [commands, List.replicate_succ']

theorem commands_asked (n : Nat) : commands t n false ++ [t.stringify Link.shutdown] = commands t n true := by
  simp [commands]

/-- The bridge sends one more command. -/
theorem Stage.sent {first : List UInt8} {n m : Nat} {asked : Bool} {w : Process} (h : Stage t first n false w) {line : List UInt8}
    (later : n ≤ m) (sent : ∀ k, k ≤ n → commands t (n - k) false ++ [line] = commands t (m - k) asked) (hungUp : Bool) :
    Stage t first m asked { w with input := w.input ++ [line], hungUp } := by
  have all := sent 0 (Nat.zero_le n)
  unfold Stage at h ⊢
  dsimp only
  split at h
  · obtain ⟨input, rest⟩ := h
    refine ⟨?_, rest⟩
    rw [input, List.cons_append]
    exact congrArg (first :: ·) all
  · obtain ⟨input, rest⟩ := h
    refine ⟨?_, rest⟩
    rw [input]
    exact all
  · obtain ⟨bound, ⟨reading, input, going⟩ | ⟨-, -, -, -, ask⟩⟩ := h
    · refine ⟨bound.trans later, .inl ⟨reading, ?_, going⟩⟩
      rw [input]
      exact sent w.keyframes bound
    · cases ask
  · exact ⟨h.1.trans later, fun killed => .inr ((h.2 killed).resolve_left Bool.false_ne_true)⟩

theorem sound_step (request : Understands t (Link.request streams binding)) (obedient : Obedient t)
    (carried : ∀ r ∈ l.process.reports, r.Carried t track) (h : Sound t track (t.stringify (Link.request streams binding)) l) (move : Link.Move) :
    Sound t track (t.stringify (Link.request streams binding)) (l.step t track move) := by
  cases move with
  | act act =>
    have writes := act_writes t track l.process act
    refine ⟨h.reading.wrote writes fun killed gone => by rw [act_ended gone, gone], h.child, writes.hungUp.trans h.hungUp, ?_⟩
    exact stage_act request obedient h.hungUp act h.stage
  | read n =>
    obtain ⟨reading, child, stopping⟩ := h.reading.read carried n
    refine ⟨reading, ?_, h.hungUp.trans stopping.symm, ?_⟩
    · rw [child, stopping]
      exact h.child
    · rw [stopping]
      exact h.stage
  | readMedia n =>
    obtain ⟨reading, child, stopping⟩ := h.reading.readMedia n
    refine ⟨reading, ?_, h.hungUp.trans stopping.symm, ?_⟩
    · rw [child, stopping]
      exact h.child
    · rw [stopping]
      exact h.stage
  -- The exit is heard once, and may come before the last reports are read.
  | exit =>
    simp only [Link.step]
    split
    · next killed gone =>
      split
      · exact h
      · rw [step_exit]
        have heard := h.reading.heard.failed (.inr (.exit killed gone))
        obtain ⟨child, stopping⟩ := settle_child l.source.control.inner (.failed exitError)
        refine ⟨⟨h.reading.control, h.reading.media, heard⟩, ?_, h.hungUp.trans stopping.symm, ?_⟩
        · dsimp only
          rw [child, stopping]
          exact h.child
        · dsimp only
          rw [stopping]
          exact h.stage
    · exact h
  | requestKeyframe =>
    simp only [Link.step]
    split
    · next child =>
      have going : l.source.control.inner.stopping = false := by simpa [child] using h.child
      refine ⟨⟨h.reading.control, h.reading.media, h.reading.heard.alike rfl rfl rfl⟩, h.child, h.hungUp, ?_⟩
      have stage := h.stage
      dsimp only
      rw [going] at stage ⊢
      refine stage.sent (Nat.le_succ _) (fun k bound => ?_) _
      rw [commands_succ]
      congr 1
      omega
    · exact h
  | stop =>
    have heard := h.reading.heard.stop
    rw [stop_after] at heard
    simp only [Link.step]
    rw [step_stop, stop_after]
    split
    · next child =>
      have going : l.source.control.inner.stopping = false := by simpa [child] using h.child
      have stage := h.stage
      rw [going] at stage
      rw [if_pos child] at heard
      refine ⟨⟨h.reading.control, h.reading.media, heard.alike rfl rfl rfl⟩, rfl, rfl, ?_⟩
      exact stage.sent (Nat.le_refl _) (fun k _ => commands_asked _) true
    · exact ⟨⟨h.reading.control, h.reading.media, h.reading.heard⟩, h.child, h.hungUp, h.stage⟩

theorem begin_sound (t : Texts) (track : String) (request : Json) : Sound t track (t.stringify request) (.begin t request) := by
  have heard : Heard track [] (Fault t track (.spawned (t.stringify request))) .begin := by
    refine ⟨fun event done => ?_, fun error done => ?_, fun some => ?_⟩
    · cases done
    · cases done
    · cases some
  exact ⟨⟨⟨[], [], rfl, .short rfl⟩, ⟨[], [], none, rfl, rfl, start_given⟩, heard⟩, rfl, rfl, ⟨rfl, rfl, rfl⟩⟩

theorem run_sound (request : Understands t (Link.request streams binding)) (obedient : Obedient t) (moves : List Link.Move)
    (carried : ∀ r ∈ ((Link.begin t (Link.request streams binding)).run t track moves).process.reports, r.Carried t track) :
    Sound t track (t.stringify (Link.request streams binding)) ((Link.begin t (Link.request streams binding)).run t track moves) := by
  unfold Link.run at carried ⊢
  induction moves using List.reverseRecOn with
  | nil => exact begin_sound t track _
  | append_singleton moves move ih =>
    rw [List.foldl_append] at carried ⊢
    obtain ⟨reports, -⟩ := step_grows (moves.foldl (Link.step t track) (Link.begin t (Link.request streams binding))) move
    have carried := fun r mem => carried r (reports.subset mem)
    exact sound_step request obedient carried (ih carried) move

/-! ## Ending -/

/-- A step of the process that nothing outside makes it take. -/
def Process.Act.own : Process.Act → Bool
  | .interrupt _ => false
  | .kill => false
  | _ => true

/-- A pass in which nothing happens. -/
def Process.Pass.quiet : Process.Pass := ⟨none, none, none, false, none⟩

/-- What a process can reach on its own. -/
def CanEnd (t : Texts) (track : String) (w : Process) : Prop :=
  ∃ acts : List Process.Act, (∀ act ∈ acts, act.own = true) ∧
    ∃ killed, (acts.foldl (Process.act t track) w).phase = .ended killed

theorem CanEnd.after {w : Process} {act : Process.Act} (h : CanEnd t track (w.act t track act)) (own : act.own = true) :
    CanEnd t track w := by
  obtain ⟨acts, all, ended⟩ := h
  exact ⟨act :: acts, List.forall_mem_cons.2 ⟨own, all⟩, ended⟩

theorem control_reads {w : Process} {line : List UInt8} {rest : List (List UInt8)} (input : w.input = line :: rest) :
    (w.control t track).input = rest ∧ (w.control t track).phase = w.phase ∧ (w.control t track).hungUp = w.hungUp := by
  unfold Process.control
  rw [input]
  dsimp only
  split
  · exact ⟨rfl, rfl, rfl⟩
  · split
    · split
      · split <;> exact ⟨rfl, rfl, rfl⟩
      · exact ⟨rfl, rfl, rfl⟩
    · exact ⟨rfl, rfl, rfl⟩

theorem streaming_ends (obedient : Obedient t) {first : List UInt8} {n : Nat} {w : Process} (hung : w.hungUp = true)
    (phase : w.phase = .streaming) (h : Stage t first n true w) : CanEnd t track w := by
  induction size : w.input.length generalizing w with
  | zero =>
    have empty := List.length_eq_zero_iff.1 size
    have stage := h
    unfold Stage at stage
    rw [phase] at stage
    obtain ⟨-, ⟨-, input, -⟩ | ⟨-, -, -, stopping, -⟩⟩ := stage
    · simp [empty, commands] at input
    · refine ⟨[.pass .quiet], by simp [Process.Act.own], false, ?_⟩
      simp [Process.act, phase, Process.pass, stopping, Process.finish, Process.Pass.quiet, Process.exit]
  | succ size ih =>
    have stage := h
    unfold Stage at stage
    rw [phase] at stage
    obtain ⟨-, ⟨reading, -, -⟩ | ⟨-, -, input, -, -⟩⟩ := stage
    · obtain ⟨line, rest, input⟩ := List.exists_cons_of_length_eq_add_one size
      obtain ⟨input', phase', hung'⟩ := @control_reads t track w line rest input
      have next : w.act t track .control = w.control t track := by simp [Process.act, phase, reading]
      have later : CanEnd t track (w.act t track .control) := by
        rw [next]
        refine ih (hung'.trans hung) (phase'.trans phase) (stage_control obedient hung phase reading h) ?_
        rw [input']
        rw [input] at size
        exact Nat.succ.inj size
      exact later.after rfl
    · simp [input] at size

/-- The first line is read once. -/
theorem main_leaves {w : Process} (line : List UInt8) (trial : Trial) (raises : Option String) :
    (w.main t track line trial raises).phase ≠ .waiting := by
  unfold Process.main Process.answer Process.setUp
  split
  · split
    · split
      · split
        · simp [Process.exit]
        · split <;> simp [Process.exit]
      · dsimp only
        split <;> simp [Process.raised, Process.exit]
      · simp [Process.raised, Process.exit]
      · simp [Process.exit]
    · simp [Process.exit]
  · simp [Process.exit]

/-- A trial that comes to nothing. -/
def Trial.vain : Trial := ⟨none, none, true, [], none⟩

theorem Sound.ends (request : Understands t (Link.request streams binding)) (obedient : Obedient t)
    (h : Sound t track (t.stringify (Link.request streams binding)) l) (asked : l.source.control.inner.stopping = true) :
    CanEnd t track l.process := by
  have stage := h.stage
  have hung := h.hungUp
  rw [asked] at stage hung
  generalize l.process = w at stage hung
  have streams_end : ∀ w : Process, w.hungUp = true → w.phase = .streaming →
      Stage t (t.stringify (Link.request streams binding)) l.requested true w → CanEnd t track w :=
    fun w hung phase stage => streaming_ends obedient hung phase stage
  have starting_ends : ∀ w : Process, w.hungUp = true → w.phase = .starting →
      Stage t (t.stringify (Link.request streams binding)) l.requested true w → CanEnd t track w := by
    intro w hung phase stage
    have writes := act_writes t track w .announce
    have started : (w.act t track .announce).phase = .streaming := by simp [Process.act, phase]
    have next : CanEnd t track (w.act t track .announce) :=
      streams_end _ (writes.hungUp.trans hung) started (stage_act request obedient hung .announce stage)
    exact next.after rfl
  cases phase : w.phase with
  | ended killed => exact ⟨[], by simp, killed, phase⟩
  | streaming => exact streams_end w hung phase stage
  | starting => exact starting_ends w hung phase stage
  | waiting =>
    have writes := act_writes t track w (.main .vain none)
    have next : Stage t _ l.requested true (w.act t track (.main .vain none)) :=
      stage_act request obedient hung (.main .vain none) stage
    have later : CanEnd t track (w.act t track (.main .vain none)) := by
      cases phase' : (w.act t track (.main .vain none)).phase with
      | ended killed => exact ⟨[], by simp, killed, phase'⟩
      | streaming => exact streams_end _ (writes.hungUp.trans hung) phase' next
      | starting => exact starting_ends _ (writes.hungUp.trans hung) phase' next
      | waiting =>
        unfold Stage at stage
        rw [phase] at stage
        simp only [Process.act, phase, if_true, stage.1] at phase'
        exact absurd phase' (main_leaves _ _ _)
    exact later.after rfl

/-! ## The contract -/

/-- What the bridge and a worker may rely on. -/
structure Kept (t : Texts) (track : String) (l : Link) : Prop where
  /-- No packet is lost, torn or made up before one of no permitted length. -/
  packets : l.source.media.packets <+: l.process.packets.takeWhile (Framed ·)
  /-- An acknowledgement is one of the worker. -/
  answered : ∀ event, l.source.control.inner.outcome = some (.ok event) →
    ∃ r ∈ l.process.reports, r.acknowledges.isSome ∧ event = r.message track
  /-- A failure is one that the worker has told, its end, a report too long or a packet of no
  permitted length. -/
  rejected : ∀ error, l.source.control.inner.outcome = some (.error error) →
    (∃ r ∈ l.process.reports, r.cause = some error) ∨ Fault t track l.process error
  reported : 0 < l.source.control.inner.onFailedCalls →
    (∃ r ∈ l.process.reports, r.cause.isSome) ∨ ∃ error, Fault t track l.process error
  /-- A keyframe is made only when it was asked for, and every request is served before the
  stop. -/
  keyframes : l.process.keyframes ≤ l.requested ∧
    (l.process.phase = .streaming → l.process.input = [] → l.process.keyframes = l.requested)
  /-- The control thread goes on until the bridge stops the worker. -/
  listens : l.process.phase = .streaming → l.process.reading = false →
    l.source.control.inner.stopping = true ∧ l.process.stopping = true
  /-- A worker that nobody has stopped ends with an explanation. -/
  explains : l.process.phase = .ended false → l.source.control.inner.stopping = true ∨ l.process.Explained
  /-- A worker that was stopped can end on its own. -/
  ends : l.source.control.inner.stopping = true → CanEnd t track l.process

/-- In every run of a source and its process, whatever its pipeline and ROS do, as far as each side
reads the texts of the other as they were meant. -/
theorem contract_kept (binding : Config.VideoBinding) (streams : Bool) (request : Understands t (Link.request streams binding))
    (obedient : Obedient t) (moves : List Link.Move)
    (carried : ∀ r ∈ ((Link.begin t (Link.request streams binding)).run t binding.name moves).process.reports,
      r.Carried t binding.name) :
    Kept t binding.name ((Link.begin t (Link.request streams binding)).run t binding.name moves) := by
  have sound := run_sound request obedient moves carried
  generalize (Link.begin t (Link.request streams binding)).run t binding.name moves = l at carried sound
  have stage := sound.stage
  refine ⟨sound.reading.packets, sound.reading.heard.answered, sound.reading.heard.rejected, sound.reading.heard.reported,
    ⟨stage.keyframes_le, fun phase input => ?_⟩, fun phase idle => ?_, fun phase => ?_, sound.ends request obedient⟩
  · unfold Stage at stage
    rw [phase] at stage
    obtain ⟨bound, ⟨-, waiting, -⟩ | ⟨-, all, -⟩⟩ := stage
    · rw [input] at waiting
      have none : l.requested - l.process.keyframes = 0 ∧ l.source.control.inner.stopping = false := by
        simpa [commands] using congrArg List.length waiting.symm
      omega
    · exact all
  · unfold Stage at stage
    rw [phase] at stage
    obtain ⟨-, ⟨reading, -⟩ | ⟨-, -, -, stopping, asked⟩⟩ := stage
    · rw [idle] at reading
      cases reading
    · exact ⟨asked, stopping⟩
  · unfold Stage at stage
    rw [phase] at stage
    exact stage.2 rfl

end Running

/-! ## A camera -/

/-- A message as it is written. -/
structure Written where
  op : String
  message : Json
  text : String

def Written.bytes (w : Written) : List UInt8 := w.text.toByteArray.data.toList

def textOf (lines : List Written) (m : Json) : List UInt8 :=
  ((lines.find? fun w => (property "op" m).toOption.any (isString w.op)).map Written.bytes).getD []

def readOf (lines : List Written) (line : List UInt8) : Option Json := (lines.find? fun w => w.bytes = line).map Written.message

/-- Lines with texts of their own are told apart. -/
theorem readOf_bytes {lines : List Written} (distinct : (lines.map Written.bytes).Nodup) {w : Written} (mem : w ∈ lines) :
    readOf lines w.bytes = some w.message := by
  induction lines with
  | nil => cases mem
  | cons first rest ih =>
    rw [List.map_cons, List.nodup_cons] at distinct
    rcases List.mem_cons.1 mem with rfl | mem
    · simp [readOf]
    · have other : first.bytes ≠ w.bytes := fun same => distinct.1 (same ▸ List.mem_map_of_mem mem)
      rw [readOf, List.find?_cons_of_neg (by simpa using other)]
      exact ih distinct.2 mem

/-- What the bridge sends for a camera. -/
def frontCommands : List Written :=
  [⟨"start", Link.request true (App.cameraBinding "front"), "\x7b\"v\":1,\"op\":\"start\",\"spec\":\x7b\"ros_topic\":\"/camera\"," ++
      "\"ros_qos\":\x7b\"reliability\":\"best_effort\",\"depth\":1\x7d,\"input\":\x7b\"encoding\":\"rgb8\",\"width\":1280," ++
      "\"height\":720,\"framerate\":30\x7d,\"encoder\":\x7b\"backend\":\"l4t_v4l2\",\"bitrate\":4000000," ++
      "\"keyframe_interval\":30,\"profile\":\"constrained_baseline\"\x7d\x7d\x7d"⟩,
    ⟨"force_keyframe", Link.keyframe, "\x7b\"v\":1,\"op\":\"force_keyframe\"\x7d"⟩,
    ⟨"shutdown", Link.shutdown, "\x7b\"v\":1,\"op\":\"shutdown\"\x7d"⟩]

/-- What its worker emits. -/
def frontReports : List Written :=
  [⟨"started", Report.message "front" .started,
      "\x7b\"v\": 1, \"op\": \"started\", \"track\": \"front\", \"payload_type\": 96\x7d"⟩,
    ⟨"stopped", Report.message "front" .stopped, "\x7b\"v\": 1, \"op\": \"stopped\", \"track\": \"front\"\x7d"⟩]

def frontTexts : Texts := ⟨textOf frontCommands, readOf frontCommands, textOf frontReports, readOf frontReports⟩

/-- One packet, one keyframe, and a stop; everything arrives in pieces. -/
def frontMoves : List Link.Move :=
  [.act (.main .vain none), .act (.packet (List.replicate 12 0)), .readMedia 7, .act .announce, .read 5, .read 100, .readMedia 7,
    .requestKeyframe, .stop, .act .control, .act .control, .act (.pass .quiet), .exit, .read 100]

def frontLink : Link :=
  (Link.begin frontTexts (Link.request true (App.cameraBinding "front"))).run frontTexts (App.cameraBinding "front").name frontMoves

theorem frontCommands_understood {w : Written} (mem : w ∈ frontCommands) (text : textOf frontCommands w.message = w.bytes) :
    Understands frontTexts w.message := by
  change readOf frontCommands (textOf frontCommands w.message) = _
  rw [text]
  exact readOf_bytes (by decide +kernel) mem

theorem frontReports_carried {w : Written} {r : Report} (mem : w ∈ frontReports) (same : w.message = r.message "front")
    (text : textOf frontReports w.message = w.bytes) (line : newline ∉ w.bytes) (filled : w.bytes ≠ []) :
    r.Carried frontTexts "front" := by
  have dumps : frontTexts.dumps (r.message "front") = w.bytes := same ▸ text
  refine ⟨dumps ▸ line, dumps ▸ filled, ?_⟩
  rw [dumps, ← same]
  exact readOf_bytes (by decide +kernel) mem

theorem frontTexts_obedient : Obedient frontTexts where
  keyframe := frontCommands_understood (List.mem_cons_of_mem _ List.mem_cons_self) (by decide +kernel)
  shutdown := frontCommands_understood (List.mem_cons_of_mem _ (List.mem_cons_of_mem _ List.mem_cons_self)) (by decide +kernel)
  short := by decide +kernel

theorem frontLink_carried : ∀ r ∈ frontLink.process.reports, r.Carried frontTexts "front" := by
  have reports : frontLink.process.reports = [.started, .stopped] := by decide +kernel
  rw [reports, List.forall_mem_cons, List.forall_mem_singleton]
  exact ⟨frontReports_carried List.mem_cons_self rfl (by decide +kernel) (by decide +kernel) (by decide +kernel),
    frontReports_carried (List.mem_cons_of_mem _ List.mem_cons_self) rfl (by decide +kernel) (by decide +kernel) (by decide +kernel)⟩

theorem contract_kept_front : frontLink.source.media.packets = [List.replicate 12 0] ∧ frontLink.process.keyframes = 1 ∧
    Kept frontTexts (App.cameraBinding "front").name frontLink :=
  ⟨by decide +kernel, by decide +kernel, contract_kept (App.cameraBinding "front") true
    (frontCommands_understood List.mem_cons_self (by decide +kernel)) frontTexts_obedient frontMoves frontLink_carried⟩

end RosBridge.Worker
