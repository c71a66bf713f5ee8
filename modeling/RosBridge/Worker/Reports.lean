import RosBridge.Media.Worker
import RosBridge.Worker.Process
/-!
# What the bridge reads of a worker

A supervised source of `media/worker.ts` and a process of `media_worker.py`, with what is on
its way between them: the bytes that the process has written arrive in pieces of any size,
the exit may overtake them, and the commands of the bridge wait for the control thread. The
bridge reads exactly what the process has written, in order (`Reading`).
-/

namespace RosBridge.Worker

open Lib Prog Media Supervised

/-- A source and its process. -/
structure Link where
  process : Process
  source : Supervised.Worker Supervision
  /-- The calls of `requestKeyframe` that found the process. -/
  requested : Nat
  /-- The exit was reported. -/
  departed : Bool

namespace Link

/-- A message of the bridge. -/
def message (op : String) (fields : List (String × Json)) : Json := .object (("v", count 1) :: ("op", .string op) :: fields)

def keyframe : Json := message "force_keyframe" []

def shutdown : Json := message "shutdown" []

/-- The request of `start`, or of `probe`. -/
def request (streams : Bool) (binding : Config.VideoBinding) : Json :=
  message (if streams then "start" else "probe") [("spec", specification binding)]

inductive Move where
  | act (act : Process.Act)
  /-- So many bytes of the output, or of the media output, arrive. -/
  | read (n : Nat)
  | readMedia (n : Nat)
  | exit
  | requestKeyframe
  | stop

section Moving

variable (t : Texts) (track : String)

def step (l : Link) : Move → Link
  | .act act => { l with process := l.process.act t track act }
  | .read n =>
    let chunk := l.process.output.take n
    { l with
      process := { l.process with output := l.process.output.drop n }
      source := Supervised.step t.parse supervise l.source (.output chunk) }
  | .readMedia n =>
    let chunk := l.process.media.take n
    { l with
      process := { l.process with media := l.process.media.drop n }
      source := Supervised.step t.parse supervise l.source (.rtp chunk) }
  | .exit =>
    match l.process.phase with
    | .ended _ => if l.departed then l else { l with source := Supervised.step t.parse supervise l.source .exit, departed := true }
    | _ => l
  | .requestKeyframe =>
    if l.source.control.inner.child then
      { l with process := { l.process with input := l.process.input ++ [t.stringify keyframe] }, requested := l.requested + 1 }
    else l
  | .stop =>
    let l := if l.source.control.inner.child then
      { l with process := { l.process with input := l.process.input ++ [t.stringify shutdown], hungUp := true } } else l
    { l with source := Supervised.step t.parse supervise l.source .stop }

/-- `begin`, with its request. -/
def begin (request : Json) : Link := ⟨.spawned (t.stringify request), ⟨⟨[], .begin⟩, .start⟩, 0, false⟩

def run (l : Link) (moves : List Move) : Link := moves.foldl (step t track) l

end Moving

end Link

/-! ## Reports -/

/-- The failure that a report tells. -/
def Report.cause : Report → Option String
  | .unprobed _ cause => some cause
  | .mismatched => some "unsupported contract version"
  | .failed cause => some cause
  | _ => none

def Report.acknowledges : Report → Option Answer
  | .probed .. => some .probeResult
  | .started => some .started
  | _ => none

/-- What the bridge makes of a report. -/
def Report.signal (track : String) (report : Report) : Option Supervised.Signal :=
  match report.cause, report.acknowledges with
  | some cause, _ => some (.failed cause)
  | none, some answer => some (.answered answer (report.message track))
  | none, none => none

/-- A report gets through: its text is one line, and reads as it was meant. -/
structure Report.Carried (t : Texts) (track : String) (report : Report) : Prop where
  line : newline ∉ t.dumps (report.message track)
  filled : t.dumps (report.message track) ≠ []
  parsed : t.parse (t.dumps (report.message track)) = some (report.message track)

theorem Report.Carried.signal {t : Texts} {track : String} {report : Report} (h : report.Carried t track) :
    lineSignal t.parse (t.dumps (report.message track)) = .ok (report.signal track) := by
  unfold lineSignal
  rw [h.parsed]
  cases report <;>
    simp [Report.message, Report.signal, Report.cause, Report.acknowledges, property, List.lookup_cons, isNumber, isString,
      Supervised.isTrue, causeOf, count, Worker.contractVersion, Supervised.contractVersion, bind, Except.bind, pure, Except.pure]

/-! ## What is read -/

section Reading

variable {σ τ α : Type} {onLine : List UInt8 → Prog σ String Unit} {f : σ → List UInt8 → σ} {ls : List (List UInt8)}
  {left : List UInt8}

theorem exec_zoom {part : σ → τ} {update : σ → τ → σ} {m : Prog τ String α} {s : σ} {outcome : Except String α} {u : τ}
    (ran : m.exec (part s) = (outcome, u)) : (zoom part update m).exec s = (outcome, update s u) := by
  rw [zoom, exec_bind_ok (exec_get s), ran]
  cases outcome <;> rfl

/-- A callback that never throws sees the lines one after the other. -/
theorem lineLoop_lines (calls : ∀ line ∈ ls, ∀ s, (onLine line).exec s = (.ok (), f s line)) (filled : ∀ line ∈ ls, line ≠ [])
    {fuel : Nat} {r : LineReader σ} (reads : Reads lining r.pending ls none left) (enough : r.pending.length < fuel) :
    (lineLoop onLine fuel).exec r = (.ok (), ⟨left, ls.foldl f r.inner⟩) := by
  -- On the fuel: each line that is cut off makes the rest shorter.
  induction fuel generalizing r ls with
  | zero => exact absurd enough (Nat.not_lt_zero _)
  | succ fuel ih =>
    rw [lineLoop, exec_bind_ok (exec_get r)]
    cases reads with
    | short cut =>
      change firstLine r.pending = .short at cut
      rw [cut]
      rfl
    | @item _ rest _ line others _ cut reads =>
      have shorter := lining.shrinks cut
      change firstLine r.pending = .item line rest at cut
      rw [List.forall_mem_cons] at calls filled
      have moved : (modify fun r => { r with pending := rest } : Prog (LineReader σ) String Unit).exec r =
        (.ok (), ⟨rest, r.inner⟩) := rfl
      have called : (when (0 < line.length) (zoom LineReader.inner (fun r inner => { r with inner }) (onLine line))).exec
          (⟨rest, r.inner⟩ : LineReader σ) = (.ok (), ⟨rest, f r.inner line⟩) := by
        rw [when, if_pos (List.length_pos_iff.2 filled.1)]
        exact exec_zoom (calls.1 r.inner)
      rw [cut]
      dsimp only
      rw [exec_bind_ok moved, exec_bind_ok called]
      exact ih calls.2 filled.2 reads (by dsimp only; omega)

/-- A chunk is an error when it leaves more than is permitted. -/
theorem lines_lines (calls : ∀ line ∈ ls, ∀ s, (onLine line).exec s = (.ok (), f s line)) (filled : ∀ line ∈ ls, line ≠ [])
    {chunk : List UInt8} {r : LineReader σ} (reads : Reads lining (r.pending ++ chunk) ls none left) :
    (lines onLine chunk).exec r =
      (if left.length > Media.maxLineBytes then .error lineError else .ok (), ⟨left, ls.foldl f r.inner⟩) := by
  have looped := @lineLoop_lines σ onLine f ls left calls filled _ ⟨r.pending ++ chunk, r.inner⟩ reads (Nat.lt_succ_self _)
  have added : (modify fun r => { r with pending := r.pending ++ chunk } : Prog (LineReader σ) String Unit).exec r =
    (.ok (), ⟨r.pending ++ chunk, r.inner⟩) := rfl
  rw [lines, exec_bind_ok added, exec_bind_ok (exec_get _), exec_bind_ok looped, exec_bind_ok (exec_get _), throwIf]
  split <;> rfl

/-- What a source makes of one line. -/
def hear (parse : List UInt8 → Option Json) (s : Supervision) (line : List UInt8) : Supervision :=
  match lineSignal parse line with
  | .ok (some signal) => settle s signal
  | _ => s

/-- What is pending of a stream of whole lines is the beginning of one of them. -/
theorem pending_short {rest : List UInt8} {limit : Nat} (reads : Reads lining (left ++ rest) ls none []) (whole : newline ∉ left)
    (short : ∀ line ∈ ls, line.length ≤ limit) : left.length ≤ limit := by
  obtain ⟨-, text, -, -⟩ := of_reads reads
  rw [List.append_nil] at text
  cases ls with
  | nil =>
    obtain rfl := (List.append_eq_nil_iff.1 text).1
    exact Nat.zero_le _
  | cons line others =>
    rw [printed_cons] at text
    rcases List.append_eq_append_iff.1 text with ⟨more, rfl, -⟩ | ⟨more, rfl, tail⟩
    -- The rest ends within the first line of the reports to come.
    · have := short _ List.mem_cons_self
      rw [List.length_append] at this
      omega
    · cases more with
      | nil =>
        rw [List.append_nil]
        exact short _ List.mem_cons_self
      | cons c cs =>
        obtain rfl := (List.cons.inj tail).1
        exact absurd (List.mem_append_right _ List.mem_cons_self) whole

end Reading

/-! ## What is made of it -/

def exitError : String := "worker exited before it was asked to stop"

/-- What the bridge may hold against a process that has not told it: its end, a report beyond
the limit of a line, a packet of no permitted length. -/
inductive Fault (t : Texts) (track : String) (w : Process) : String → Prop where
  | exit (killed : Bool) (gone : w.phase = .ended killed) : Fault t track w exitError
  | line (report : Report) (written : report ∈ w.reports) (long : Media.maxLineBytes < (t.dumps (report.message track)).length) :
      Fault t track w lineError
  | packet (bytes : List UInt8) (written : bytes ∈ w.packets) (unframed : ¬Framed bytes) : Fault t track w rangeError

/-- What the bridge has made of a worker rests on a report of it, or on one of these faults. -/
structure Heard (track : String) (reports : List Report) (fault : String → Prop) (s : Supervision) : Prop where
  answered : ∀ event, s.outcome = some (.ok event) → ∃ r ∈ reports, r.acknowledges.isSome ∧ event = r.message track
  rejected : ∀ error, s.outcome = some (.error error) → (∃ r ∈ reports, r.cause = some error) ∨ fault error
  reported : 0 < s.onFailedCalls → (∃ r ∈ reports, r.cause.isSome) ∨ ∃ error, fault error

section Hearing

variable {track : String} {reports reports' : List Report} {fault fault' : String → Prop} {s : Supervision}

theorem Heard.mono (h : Heard track reports fault s) (more : reports <+: reports') (later : ∀ error, fault error → fault' error) :
    Heard track reports' fault' s := by
  refine ⟨fun event done => ?_, fun error done => ?_, fun some => ?_⟩
  · obtain ⟨r, mem, known⟩ := h.answered event done
    exact ⟨r, more.subset mem, known⟩
  · rcases h.rejected error done with ⟨r, mem, known⟩ | known
    · exact .inl ⟨r, more.subset mem, known⟩
    · exact .inr (later error known)
  · rcases h.reported some with ⟨r, mem, known⟩ | ⟨error, known⟩
    · exact .inl ⟨r, more.subset mem, known⟩
    · exact .inr ⟨error, later error known⟩

theorem Heard.failed (h : Heard track reports fault s) {error : String} (told : (∃ r ∈ reports, r.cause = some error) ∨ fault error) :
    Heard track reports fault (settle s (.failed error)) := by
  have some : (∃ r ∈ reports, r.cause.isSome) ∨ ∃ error, fault error := by
    rcases told with ⟨r, mem, cause⟩ | known
    · exact .inl ⟨r, mem, by simp [cause]⟩
    · exact .inr ⟨error, known⟩
  obtain ⟨child, stopping, settled, outcome, calls⟩ := s
  cases stopping
  · cases settled
    · refine ⟨fun event done => (by cases done), fun other done => ?_, h.reported⟩
      obtain rfl := Except.error.inj (Option.some.inj done)
      exact told
    · exact ⟨h.answered, h.rejected, fun _ => some⟩
  · exact h

theorem Heard.acknowledged (h : Heard track reports fault s) {answer : Answer} {event : Json}
    (told : ∃ r ∈ reports, r.acknowledges.isSome ∧ event = r.message track) :
    Heard track reports fault (settle s (.answered answer event)) := by
  obtain ⟨child, stopping, settled, outcome, calls⟩ := s
  cases settled
  · refine ⟨fun other done => ?_, fun error done => (by cases done), h.reported⟩
    obtain rfl := Except.ok.inj (Option.some.inj done)
    exact told
  · exact h

/-- The line of a report is read as this report. -/
theorem Heard.hear {t : Texts} (h : Heard track reports fault s) {r : Report} (mem : r ∈ reports) (carried : r.Carried t track) :
    Heard track reports fault (hear t.parse s (t.dumps (r.message track))) := by
  unfold Worker.hear
  rw [carried.signal]
  unfold Report.signal
  cases cause : r.cause with
  | some error => exact h.failed (.inl ⟨r, mem, cause⟩)
  | none =>
    cases answer : r.acknowledges with
    | some answer => exact h.acknowledged ⟨r, mem, by simp [answer], rfl⟩
    | none => exact h

theorem Heard.hears {t : Texts} (carried : ∀ r ∈ reports, r.Carried t track) {ls : List (List UInt8)}
    (texts : ∀ line ∈ ls, ∃ r ∈ reports, line = t.dumps (r.message track)) (h : Heard track reports fault s) :
    Heard track reports fault (ls.foldl (Worker.hear t.parse) s) := by
  induction ls generalizing s with
  | nil => exact h
  | cons line ls ih =>
    rw [List.forall_mem_cons] at texts
    obtain ⟨⟨r, mem, rfl⟩, texts⟩ := texts
    exact ih texts (h.hear mem (carried r mem))

theorem Heard.stop (h : Heard track reports fault s) : Heard track reports fault (Supervised.stop.after s) := by
  obtain ⟨child, stopping, settled, outcome, calls⟩ := s
  cases child <;> exact ⟨h.answered, h.rejected, h.reported⟩

end Hearing

/-! ## What is written -/

/-- What a process adds to its reports and packets it writes. -/
structure Writes (t : Texts) (track : String) (w w' : Process) : Prop where
  reports : ∃ new, w'.reports = w.reports ++ new ∧ w'.output = w.output ++ printed (new.map fun r => t.dumps (r.message track))
  packets : ∃ new framings, w'.packets = w.packets ++ new ∧ new.mapM Media.write = some framings ∧
    w'.media = w.media ++ framings.flatten
  hungUp : w'.hungUp = w.hungUp

namespace Writes

variable {t : Texts} {track : String} {w w' w'' : Process}

/-- What is neither a report nor a packet. -/
theorem still (reports : w'.reports = w.reports) (packets : w'.packets = w.packets) (output : w'.output = w.output)
    (media : w'.media = w.media) (hungUp : w'.hungUp = w.hungUp) : Writes t track w w' :=
  ⟨⟨[], by simp [reports], by simp [output]⟩, ⟨[], [], by simp [packets], rfl, by simp [media]⟩, hungUp⟩

theorem trans (h : Writes t track w w') (h' : Writes t track w' w'') : Writes t track w w'' := by
  obtain ⟨⟨rs, reports, output⟩, ⟨ps, fs, packets, framed, media⟩, hungUp⟩ := h
  obtain ⟨⟨rs', reports', output'⟩, ⟨ps', fs', packets', framed', media'⟩, hungUp'⟩ := h'
  refine ⟨⟨rs ++ rs', ?_, ?_⟩, ⟨ps ++ ps', fs ++ fs', ?_, ?_, ?_⟩, hungUp'.trans hungUp⟩
  · rw [reports', reports, List.append_assoc]
  · rw [output', output, List.append_assoc, printed, printed, printed, ← List.flatten_append, ← List.map_append, ← List.map_append]
  · rw [packets', packets, List.append_assoc]
  · rw [List.mapM_append, framed, framed']
    rfl
  · rw [media', media, List.append_assoc, List.flatten_append]

theorem emit (report : Report) (w : Process) : Writes t track w (w.emit t track report) :=
  ⟨⟨[report], rfl, by simp [Process.emit, printed]⟩, ⟨[], [], by simp [Process.emit], rfl, by simp [Process.emit]⟩, rfl⟩

theorem exit (h : Writes t track w w') : Writes t track w w'.exit := h.trans (still rfl rfl rfl rfl rfl)

theorem raised (cause : String) (h : Writes t track w w') : Writes t track w (w'.raised t track cause) :=
  (h.trans (emit _ _)).exit

theorem finish (leave : Process.Leave) (teardown : Option String) (h : Writes t track w w') :
    Writes t track w (w'.finish t track leave teardown) := by
  unfold Process.finish
  cases teardown with
  | some cause => exact h.raised cause
  | none =>
    have said := h.trans (emit .stopped w')
    cases leave with
    | returns => exact said.exit
    | raises cause => exact said.raised cause
    | interrupted => exact said.trans (still rfl rfl rfl rfl rfl)

end Writes

section Acting

variable (t : Texts) (track : String) (w : Process)

theorem main_writes (line : List UInt8) (trial : Trial) (raises : Option String) :
    Writes t track w (w.main t track line trial raises) := by
  have same : Writes t track w w := .still rfl rfl rfl rfl rfl
  unfold Process.main Process.answer Process.setUp
  split
  · split
    · split
      · split
        · exact same.exit
        · split
          · exact (Writes.emit _ _).exit
          · exact (Writes.emit _ _).exit
      · dsimp only
        split
        · exact same.raised _
        · exact .still rfl rfl rfl rfl rfl
      · exact same.raised _
      · exact same.exit
    · exact (Writes.emit _ _).exit
  · exact same.exit

theorem control_writes : Writes t track w (w.control t track) := by
  have same : Writes t track w w := .still rfl rfl rfl rfl rfl
  have stop : ∀ w' : Process, Writes t track w w' → Writes t track w { w' with reading := false, stopping := true } :=
    fun w' h => h.trans (.still rfl rfl rfl rfl rfl)
  unfold Process.control
  dsimp only
  split
  · split
    · exact stop w same
    · exact same
  · next line rest _ =>
    have read : Writes t track w { w with input := rest } := .still rfl rfl rfl rfl rfl
    split
    · exact stop _ (read.trans (.emit _ _))
    · split
      · split
        · split
          · exact .still rfl rfl rfl rfl rfl
          · exact stop _ read
          · exact stop _ read
          · exact read
          · exact .still rfl rfl rfl rfl rfl
        · exact stop _ (read.trans (.emit _ _))
      · exact .still rfl rfl rfl rfl rfl

theorem pass_writes (p : Process.Pass) : Writes t track w (w.pass t track p) := by
  have same : Writes t track w w := .still rfl rfl rfl rfl rfl
  have spun : Writes t track w (w.spin p.frame) := by
    unfold Process.spin
    split
    · exact same
    · exact .still rfl rfl rfl rfl rfl
  unfold Process.pass
  split
  · exact same.finish _ _
  · dsimp only
    split
    · exact spun.finish _ _
    · exact (spun.trans (.emit _ _)).finish _ _
    · split
      · exact spun.trans (.emit _ _)
      · exact spun

theorem forward_writes (packet : List UInt8) : Writes t track w (w.forward packet) := by
  unfold Process.forward
  dsimp only
  split
  · next framed written =>
    exact ⟨⟨[], by simp, by simp⟩, ⟨[packet], [framed], rfl, by simp [written], by simp⟩, rfl⟩
  · exact .still rfl rfl rfl rfl rfl

end Acting

/-- A process writes by its reports and packets only. -/
theorem act_writes (t : Texts) (track : String) (w : Process) (act : Process.Act) : Writes t track w (w.act t track act) := by
  have same : Writes t track w w := .still rfl rfl rfl rfl rfl
  cases act with
  | main trial raises =>
    simp only [Process.act]
    split
    · split
      · split
        · exact same.exit
        · exact same
      · next line rest _ =>
        have read : Writes t track w { w with input := rest } := .still rfl rfl rfl rfl rfl
        exact read.trans (main_writes t track _ line trial raises)
    · exact same
  | announce =>
    simp only [Process.act]
    split
    · exact (Writes.emit .started w).trans (.still rfl rfl rfl rfl rfl)
    · exact same
  | packet bytes =>
    simp only [Process.act]
    split
    · exact forward_writes t track w bytes
    · exact same
  | control =>
    simp only [Process.act]
    split
    · exact control_writes t track w
    · exact same
  | pass p =>
    simp only [Process.act]
    split
    · exact pass_writes t track w p
    · exact same
  | interrupt teardown =>
    simp only [Process.act]
    split
    · exact same.finish _ _
    · exact same
  | kill =>
    simp only [Process.act]
    split
    · exact same
    · exact .still rfl rfl rfl rfl rfl

/-! ## Both directions -/

/-- A fault stays one. -/
theorem Fault.later {t : Texts} {track : String} {w w' : Process} {error : String} (fault : Fault t track w error)
    (reports : w.reports <+: w'.reports) (packets : w.packets <+: w'.packets)
    (gone : ∀ killed, w.phase = .ended killed → w'.phase = .ended killed) : Fault t track w' error := by
  cases fault with
  | exit killed ended => exact .exit killed (gone killed ended)
  | line report written long => exact .line report (reports.subset written) long
  | packet bytes written unframed => exact .packet bytes (packets.subset written) unframed

/-- A process with the same reports, packets and phase. -/
theorem Heard.alike {t : Texts} {track : String} {w w' : Process} {s : Supervision} (h : Heard track w.reports (Fault t track w) s)
    (reports : w'.reports = w.reports) (packets : w'.packets = w.packets) (phase : w'.phase = w.phase) :
    Heard track w'.reports (Fault t track w') s := by
  refine h.mono (reports ▸ List.prefix_rfl) fun error fault => ?_
  exact fault.later (reports ▸ List.prefix_rfl) (packets ▸ List.prefix_rfl) fun killed ended => phase.trans ended

/-- The bridge has read a beginning of what the process has written. -/
structure Reading (t : Texts) (track : String) (l : Link) : Prop where
  control : ∃ done ls, done ++ l.process.output = printed (l.process.reports.map fun r => t.dumps (r.message track)) ∧
    Reads lining done ls none l.source.control.pending
  media : ∃ done framings e, l.process.packets.mapM Media.write = some framings ∧ done ++ l.process.media = framings.flatten ∧
    l.source.media.Given done e
  heard : Heard track l.process.reports (Fault t track l.process) l.source.control.inner

section Reads

variable {t : Texts} {track : String} {l : Link}

theorem Reading.wrote (h : Reading t track l) {w : Process} (writes : Writes t track l.process w)
    (gone : ∀ killed, l.process.phase = .ended killed → w.phase = .ended killed) : Reading t track { l with process := w } := by
  obtain ⟨⟨rs, reports, output⟩, ⟨ps, fs, packets, framed, media⟩, -⟩ := writes
  have later : ∀ error, Fault t track l.process error → Fault t track w error :=
    fun _ fault => fault.later ⟨rs, reports.symm⟩ ⟨ps, packets.symm⟩ gone
  refine ⟨?_, ?_, h.heard.mono ⟨rs, reports.symm⟩ later⟩
  · obtain ⟨done, ls, text, reads⟩ := h.control
    refine ⟨done, ls, ?_, reads⟩
    rw [reports, output, ← List.append_assoc, text, printed, printed, printed, ← List.flatten_append, ← List.map_append,
      ← List.map_append]
  · obtain ⟨done, framings, e, all, text, given⟩ := h.media
    refine ⟨done, framings ++ fs, e, ?_, ?_, given⟩
    · rw [packets, List.mapM_append, all, framed]
      rfl
    · rw [media, ← List.append_assoc, text, List.flatten_append]

variable {parse : List UInt8 → Option Json} {source : Supervised.Worker Supervision} {chunk : List UInt8}

/-- What a source makes of an error that a reader throws. -/
def complain (s : Supervision) : Except String Unit → Supervision
  | .ok () => s
  | .error error => settle s (.failed error)

theorem exec_inside (error : String) (w : Supervised.Worker Supervision) : (inside (supervise.signal (.failed error))).exec w =
    (.ok (), { w with control.inner := settle w.control.inner (.failed error) }) := by
  have signal := exec_signal (.failed error) w.control.inner
  exact @exec_zoom _ _ _ (fun w : Supervised.Worker Supervision => w.control.inner) _ _ w _ _ signal

theorem step_output {control : LineReader Supervision} {outcome : Except String Unit}
    (ran : (lines (onLine parse supervise) chunk).exec source.control = (outcome, control)) :
    Supervised.step parse supervise source (.output chunk) =
      { source with control := { control with inner := complain control.inner outcome } } := by
  have inside : (zoom Supervised.Worker.control (fun w control => { w with control })
      (lines (onLine parse supervise) chunk)).exec source = (outcome, { source with control }) := exec_zoom ran
  rw [Supervised.step, after, handle, exec_tryCatch, inside]
  cases outcome with
  | ok => rfl
  | error error => exact congrArg Prod.snd (exec_inside error _)

theorem step_rtp {media : Deframer} {outcome : Except String Unit} (ran : (feed chunk).exec source.media = (outcome, media)) :
    Supervised.step parse supervise source (.rtp chunk) =
      { source with media, control.inner := complain source.control.inner outcome } := by
  have inside : (zoom Supervised.Worker.media (fun w media => { w with media }) (feed chunk)).exec source =
      (outcome, { source with media }) := exec_zoom ran
  rw [Supervised.step, after, handle, exec_tryCatch, inside]
  cases outcome with
  | ok => rfl
  | error error => exact congrArg Prod.snd (exec_inside error _)

theorem step_exit : Supervised.step parse supervise source .exit =
    { source with control.inner := settle source.control.inner (.failed exitError) } :=
  congrArg Prod.snd (exec_inside exitError source)

theorem step_stop : Supervised.step parse supervise source .stop =
    { source with control.inner := Supervised.stop.after source.control.inner } := by
  obtain ⟨⟨pending, ⟨child, stopping, settled, outcome, calls⟩⟩, media⟩ := source
  cases child <;> rfl

/-- What arrives does not stop a source. -/
theorem hear_child (s : Supervision) (line : List UInt8) :
    (hear parse s line).child = s.child ∧ (hear parse s line).stopping = s.stopping := by
  unfold hear
  split
  · exact settle_child s _
  · exact ⟨rfl, rfl⟩

theorem hears_child (s : Supervision) (ls : List (List UInt8)) :
    (ls.foldl (hear parse) s).child = s.child ∧ (ls.foldl (hear parse) s).stopping = s.stopping := by
  induction ls generalizing s with
  | nil => exact ⟨rfl, rfl⟩
  | cons line ls ih =>
    obtain ⟨child, stopping⟩ := ih (hear parse s line)
    obtain ⟨child', stopping'⟩ := @hear_child parse s line
    exact ⟨child.trans child', stopping.trans stopping'⟩

theorem complain_child (s : Supervision) (outcome : Except String Unit) :
    (complain s outcome).child = s.child ∧ (complain s outcome).stopping = s.stopping := by
  cases outcome with
  | ok => exact ⟨rfl, rfl⟩
  | error error => exact settle_child s _

/-- An error of a reader is one of the faults. -/
theorem Heard.complains {reports : List Report} {fault : String → Prop} {s : Supervision} (h : Heard track reports fault s)
    {outcome : Except String Unit} (known : ∀ error, outcome = .error error → fault error) :
    Heard track reports fault (complain s outcome) := by
  cases outcome with
  | ok => exact h
  | error error => exact h.failed (.inr (known error rfl))

theorem Reading.read (h : Reading t track l) (carried : ∀ r ∈ l.process.reports, r.Carried t track) (n : Nat) :
    Reading t track (l.step t track (.read n)) ∧
      (l.step t track (.read n)).source.control.inner.child = l.source.control.inner.child ∧
      (l.step t track (.read n)).source.control.inner.stopping = l.source.control.inner.stopping := by
  obtain ⟨done, ls, text, reads⟩ := h.control
  set texts := l.process.reports.map fun r => t.dumps (r.message track) with htexts
  have report : ∀ line ∈ texts, ∃ r ∈ l.process.reports, line = t.dumps (r.message track) := by
    intro line mem
    obtain ⟨r, there, rfl⟩ := List.mem_map.1 mem
    exact ⟨r, there, rfl⟩
  -- All that was printed reads as the reports, and what has arrived is the beginning of it.
  have whole : Reads lining ((done ++ l.process.output.take n) ++ l.process.output.drop n) texts none [] := by
    rw [List.append_assoc, List.take_append_drop, text, ← List.append_nil (printed texts)]
    refine reads_printed (fun line mem => ?_) (by simp)
    obtain ⟨r, there, rfl⟩ := report line mem
    exact (carried r there).line
  obtain ⟨first, mid, rest, now, later, split⟩ := whole.split
  obtain ⟨more, left, next⟩ := exists_reads (l.source.control.pending ++ l.process.output.take n)
  obtain ⟨rfl, -, rfl⟩ := now.unique (reads.append next)
  have new : ∀ line ∈ more, ∃ r ∈ l.process.reports, line = t.dumps (r.message track) :=
    fun line mem => report line (split ▸ List.mem_append_left _ (List.mem_append_right _ mem))
  -- The limit is passed only by a report that is that long itself.
  have known : ∀ error, (if mid.length > Media.maxLineBytes then .error lineError else .ok () : Except String Unit) = .error error →
      Fault t track l.process error := by
    intro error thrown
    split at thrown
    · next long =>
      obtain rfl := Except.error.inj thrown
      by_contra unknown
      refine absurd (pending_short later (of_reads next).2.2.2 fun line mem => ?_) (Nat.not_le.2 long)
      obtain ⟨r, there, rfl⟩ := report line (split ▸ List.mem_append_right _ mem)
      exact Nat.not_lt.1 fun beyond => unknown (.line r there beyond)
    · cases thrown
  have calls : ∀ line ∈ more, ∀ s, (onLine t.parse supervise line).exec s = (.ok (), hear t.parse s line) := by
    intro line mem s
    obtain ⟨r, there, rfl⟩ := new line mem
    unfold onLine hear
    rw [(carried r there).signal]
    cases r.signal track with
    | none => rfl
    | some signal => exact exec_signal signal s
  have filled : ∀ line ∈ more, line ≠ [] := by
    intro line mem
    obtain ⟨r, there, rfl⟩ := new line mem
    exact (carried r there).filled
  have ran := lines_lines calls filled next
  rw [Link.step, step_output ran]
  have heard := (h.heard.hears carried new).complains known
  refine ⟨⟨⟨done ++ l.process.output.take n, ls ++ more, ?_, now⟩, h.media, heard.alike rfl rfl rfl⟩, ?_⟩
  · rw [List.append_assoc, List.take_append_drop]
    exact text
  · obtain ⟨child, stopping⟩ := @hears_child t.parse l.source.control.inner more
    obtain ⟨child', stopping'⟩ := complain_child (more.foldl (hear t.parse) l.source.control.inner) _
    exact ⟨child'.trans child, stopping'.trans stopping⟩

/-- What was given of the written packets is as they are. -/
theorem given_written {d : Deframer} {done media : List UInt8} {packets framings : List (List UInt8)} {e : Option String}
    (written : packets.mapM Media.write = some framings) (text : done ++ media = framings.flatten) (given : d.Given done e) :
    d.packets <+: packets.takeWhile (Framed ·) ∧ ∀ error, e = some error → error = rangeError ∧ ∃ packet ∈ packets, ¬Framed packet := by
  obtain ⟨e', left, whole, invalid⟩ := reads_all_written written
  rw [← text] at whole
  refine ⟨given.begins whole, fun error thrown => invalid error ?_⟩
  rw [Deframer.Given, thrown] at given
  exact (whole.unique (given.stuck media)).2.1

theorem Reading.readMedia (h : Reading t track l) (n : Nat) :
    Reading t track (l.step t track (.readMedia n)) ∧
      (l.step t track (.readMedia n)).source.control.inner.child = l.source.control.inner.child ∧
      (l.step t track (.readMedia n)).source.control.inner.stopping = l.source.control.inner.stopping := by
  obtain ⟨done, framings, e, written, text, given⟩ := h.media
  obtain ⟨e', next, outcome⟩ := feed_given given (l.process.media.take n)
  have later : (done ++ l.process.media.take n) ++ l.process.media.drop n = framings.flatten := by
    rw [List.append_assoc, List.take_append_drop, text]
  have known : ∀ error, Outcome e' = .error error → Fault t track l.process error := by
    intro error thrown
    cases e' with
    | none => cases thrown
    | some err =>
      obtain rfl := Except.error.inj thrown
      obtain ⟨rfl, packet, mem, unframed⟩ := (given_written written later next).2 err rfl
      exact .packet packet mem unframed
  rw [Link.step, step_rtp (Prod.ext outcome rfl)]
  exact ⟨⟨h.control, ⟨_, framings, e', written, later, next⟩, (h.heard.complains known).alike rfl rfl rfl⟩, complain_child _ _⟩

/-- The packets that the bridge has are the first ones that the process has written. -/
theorem Reading.packets (h : Reading t track l) : l.source.media.packets <+: l.process.packets.takeWhile (Framed ·) := by
  obtain ⟨done, framings, e, written, text, given⟩ := h.media
  exact (given_written written text given).1

end Reads

end RosBridge.Worker
