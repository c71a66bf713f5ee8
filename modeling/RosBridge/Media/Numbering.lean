import Mathlib.Data.List.Nodup
import RosBridge.Media.Encoders
/-!
# The numbering of a track

`VideoSource.renumber`, over the life of a source: whatever encoders come and go, the
packets of the track are numbered one by one, the timestamps keep their distances within
an encoder, and a new encoder goes on one frame after the last packet.
-/

namespace RosBridge.Media

/-- A packet of an encoder, and what the track makes of it. -/
structure Emission where
  encoder : Nat
  original : RtpPacket
  emitted : RtpPacket

variable {ν : Type}

/-! ## What a source emits -/

namespace SourceSystem

/-- A signal of an encoder emits its packet, unless the encoder is superseded. -/
def emission (s : SourceSystem ν) (encoder : Nat) (signal : Signal) : List Emission :=
  match signal with
  | .packet packet => if s.source = some encoder then [⟨encoder, packet, (s.renumber packet).2⟩] else []
  | .failed => []

variable [DecidableEq ν] (i : Input ν)

/-- What one viewer was sent. -/
def writtenTo (s : SourceSystem ν) (viewer : ν) : List RtpPacket := (s.written.filter (·.1 = viewer)).map (·.2)

/-- The signals of an encoder, one after the other. -/
def emissions (encoder : Nat) : List Signal → SourceSystem ν → List Emission
  | [], _ => []
  | signal :: signals, s => s.emission encoder signal ++ emissions encoder signals (i.port.signal encoder s signal)

/-- What `beginRest` emits. -/
def begun (s : SourceSystem ν) : List Emission :=
  if s.phase ≠ .starting ∨ s.viewers = [] then [] else s.create.emissions i s.created i.startup

/-- What `requestKeyframe` emits. -/
def asked (s : SourceSystem ν) : List Emission :=
  if !s.elapsed s.lastKeyframeAt s.options.settings.pliMinIntervalMs then []
  else match s.source with
    | none => []
    | some encoder =>
      emissions i encoder i.keyframe { s with lastKeyframeAt := some s.now, keyframeRequests := s.keyframeRequests + 1 }

/-- What `beginStart` emits. -/
def opened (s : SourceSystem ν) : List Emission :=
  let s := (i.port.notify { s with phase := .starting }).armStart
  match s.release with
  | some _ => []
  | none => s.begun i

/-- The first lines of `add`. -/
def joined (s : SourceSystem ν) (viewer : ν) : SourceSystem ν :=
  { s.cancel s.cancelGrace with
    viewers := if viewer ∈ s.viewers then s.viewers else s.viewers ++ [viewer]
    cancelGrace := none }

/-- What one turn emits, in this order. -/
def emitting (s : SourceSystem ν) : List Emission :=
  match i.event with
  | .add viewer =>
    if s.phase = .idle ∨ s.phase = .failed then (s.joined viewer).opened i
    else if s.phase = .active then (s.joined viewer).asked i else []
  | .requestKeyframe => s.asked i
  | .packet encoder packet => s.emission encoder (.packet packet)
  | .resume => if s.ready = 0 then [] else begun i { s with ready := s.ready - 1 }
  | _ => []

/-- What the track emits along a run. -/
def track : List (Input ν) → SourceSystem ν → List Emission
  | [], _ => []
  | i :: inputs, s => s.emitting i ++ track inputs (s.step i)

end SourceSystem

/-! ## The numbering -/

/-- The timestamp of the last packet, 0 before the first. -/
def lastStamp (log : List Emission) : UInt32 := (log.getLast?.map (·.emitted.timestamp)).getD 0

/-- One frame of the track, in ticks of the clock. -/
def frameStep (options : VideoSourceOptions) : UInt32 := UInt32.ofInt (mathRound (90000 / options.framerate))

/-- A packet that goes on after those before it. -/
structure Continues (options : VideoSourceOptions) (before : List Emission) (e : Emission) : Prop where
  sequence : e.emitted.sequenceNumber = UInt16.ofNat before.length
  first : (∀ e' ∈ before, e'.encoder ≠ e.encoder) → e.emitted.timestamp = lastStamp before + frameStep options
  spacing : ∀ e' ∈ before, e'.encoder = e.encoder →
    e.emitted.timestamp - e'.emitted.timestamp = e.original.timestamp - e'.original.timestamp
  rest : e.original.SameBut e.emitted

/-- Every packet goes on after those before it. -/
def Continuous (options : VideoSourceOptions) (log : List Emission) : Prop :=
  ∀ before e after, log = before ++ e :: after → Continues options before e

theorem Continuous.snoc {options : VideoSourceOptions} {log : List Emission} {e : Emission} (h : Continuous options log)
    (next : Continues options log e) : Continuous options (log ++ [e]) := by
  intro before e' after split
  rcases List.eq_nil_or_concat after with rfl | ⟨after, last, rfl⟩
  · obtain ⟨rfl, same⟩ := List.append_inj_left' split rfl, List.append_inj_right' split rfl
    obtain rfl := (List.cons.inj same).1
    exact next
  · rw [List.concat_eq_append] at split
    have split : log ++ [e] = (before ++ e' :: after) ++ [last] := by
      rw [split, List.append_assoc]
      rfl
    exact h before e' after (List.append_inj_left' split rfl)

/-- From `s` to `s'` the numbering stays, and the encoder stays or goes. -/
structure Calm (s s' : SourceSystem ν) : Prop where
  options : s'.options = s.options
  sequence : s'.sequence = s.sequence
  packets : s'.packets = s.packets
  emitted : s'.emitted = s.emitted
  origin : s'.origin = s.origin
  shift : s'.shift = s.shift
  created : s'.created = s.created
  written : s'.written = s.written
  source : ∀ encoder, s'.source = some encoder → s.source = some encoder
  viewers : s.viewers.Nodup → s'.viewers.Nodup

/-- The encoder stays. -/
structure Still (s s' : SourceSystem ν) : Prop extends Calm s s' where
  kept : s'.source = s.source

theorem Still.refl (s : SourceSystem ν) : Still s s := ⟨⟨rfl, rfl, rfl, rfl, rfl, rfl, rfl, rfl, fun _ h => h, id⟩, rfl⟩

theorem Calm.trans {s s' s'' : SourceSystem ν} (h : Calm s s') (h' : Calm s' s'') : Calm s s'' :=
  ⟨h'.options.trans h.options, h'.sequence.trans h.sequence, h'.packets.trans h.packets, h'.emitted.trans h.emitted,
    h'.origin.trans h.origin, h'.shift.trans h.shift, h'.created.trans h.created, h'.written.trans h.written,
    fun encoder here => h.source encoder (h'.source encoder here), h'.viewers ∘ h.viewers⟩

theorem Still.trans {s s' s'' : SourceSystem ν} (h : Still s s') (h' : Still s' s'') : Still s s'' :=
  ⟨h.toCalm.trans h'.toCalm, h'.kept.trans h.kept⟩

/-! ## One packet -/

variable {s s' : SourceSystem ν}

/-- What `renumber` makes of a packet depends on the numbering alone. -/
theorem renumber_congr (options : s'.options = s.options) (sequence : s'.sequence = s.sequence) (emitted : s'.emitted = s.emitted)
    (origin : s'.origin = s.origin) (shift : s'.shift = s.shift) (packet : RtpPacket) :
    (s'.renumber packet).2 = (s.renumber packet).2 := by
  unfold SourceSystem.renumber
  rw [origin]
  cases s.origin with
  | none => simp only [options, sequence, emitted]
  | some origin => simp only [sequence, shift]

/-- The shift of the encoder, from its first packet on. -/
def nextShift (s : SourceSystem ν) (packet : RtpPacket) : UInt32 :=
  match s.origin with
  | some _ => s.shift
  | none => s.emitted + frameStep s.options - packet.timestamp

theorem renumber_snd (s : SourceSystem ν) (packet : RtpPacket) : (s.renumber packet).2 =
    (packet.withTimestamp (packet.timestamp + nextShift s packet)).withSequence (UInt16.ofNat s.sequence) := by
  unfold SourceSystem.renumber nextShift
  cases s.origin <;> rfl

theorem renumber_stamp (s : SourceSystem ν) (packet : RtpPacket) :
    (s.renumber packet).2.timestamp = packet.timestamp + nextShift s packet := by
  rw [renumber_snd]
  exact RtpPacket.timestamp_renumbered _ _ _

theorem renumber_fst (s : SourceSystem ν) (packet : RtpPacket) : ∃ origin, (s.renumber packet).1 = { s with
    emitted := packet.timestamp + nextShift s packet
    sequence := s.sequence + 1
    origin := some origin
    shift := nextShift s packet } := by
  unfold SourceSystem.renumber nextShift
  cases origin : s.origin with
  | none => exact ⟨packet.timestamp, rfl⟩
  | some origin' =>
    refine ⟨origin', ?_⟩
    simp only [origin]

theorem add_sub_add_right_uint32 (a b c : UInt32) : (a + c) - (b + c) = a - b := by
  apply UInt32.toBitVec_inj.1
  simp only [UInt32.toBitVec_sub, UInt32.toBitVec_add]
  bv_omega

theorem fanOut_eq (s : SourceSystem ν) (packet : RtpPacket) : s.fanOut packet =
    { (({ s with packets := s.packets + 1 } : SourceSystem ν).renumber packet).1 with
      written := (({ s with packets := s.packets + 1 } : SourceSystem ν).renumber packet).1.written ++
        (({ s with packets := s.packets + 1 } : SourceSystem ν).renumber packet).1.viewers.map
          (·, (({ s with packets := s.packets + 1 } : SourceSystem ν).renumber packet).2) } := rfl

variable [DecidableEq ν] {options : VideoSourceOptions} {log : List Emission}

/-- A source against what its track has emitted. -/
structure Numbered (options : VideoSourceOptions) (s : SourceSystem ν) (log : List Emission) : Prop where
  same : s.options = options
  sequence : s.sequence = log.length
  packets : s.packets = log.length
  last : s.emitted = lastStamp log
  issued : ∀ e ∈ log, e.encoder < s.created
  current : ∀ encoder, s.source = some encoder → encoder < s.created
  fresh : ∀ encoder, s.source = some encoder → s.origin = none → ∀ e ∈ log, e.encoder ≠ encoder
  started : ∀ encoder origin, s.source = some encoder → s.origin = some origin → ∃ e ∈ log, e.encoder = encoder
  shifted : ∀ encoder origin, s.source = some encoder → s.origin = some origin →
    ∀ e ∈ log, e.encoder = encoder → e.emitted.timestamp = e.original.timestamp + s.shift
  written : ∀ x ∈ s.written, ∃ e ∈ log, x.2 = e.emitted
  viewers : s.viewers.Nodup
  ordered : ∀ viewer, (s.writtenTo viewer).Sublist (log.map (·.emitted))
  continuous : Continuous options log

theorem Numbered.calm (h : Numbered options s log) (calm : Calm s s') : Numbered options s' log := by
  constructor
  · rw [calm.options, h.same]
  · rw [calm.sequence, h.sequence]
  · rw [calm.packets, h.packets]
  · rw [calm.emitted, h.last]
  · rw [calm.created]
    exact h.issued
  · rw [calm.created]
    exact fun encoder here => h.current encoder (calm.source encoder here)
  · rw [calm.origin]
    exact fun encoder here => h.fresh encoder (calm.source encoder here)
  · rw [calm.origin]
    exact fun encoder origin here => h.started encoder origin (calm.source encoder here)
  · rw [calm.origin, calm.shift]
    exact fun encoder origin here => h.shifted encoder origin (calm.source encoder here)
  · rw [calm.written]
    exact h.written
  · exact calm.viewers h.viewers
  · unfold SourceSystem.writtenTo
    rw [calm.written]
    exact h.ordered
  · exact h.continuous

/-- A new encoder. -/
theorem Numbered.create (h : Numbered options s log) : Numbered options s.create log := by
  refine ⟨h.same, h.sequence, h.packets, h.last, fun e mem => Nat.lt_succ_of_lt (h.issued e mem), fun encoder here => ?_,
    fun encoder here _ e mem => ?_, fun encoder origin _ absent => ?_, fun encoder origin _ absent => ?_, h.written, h.viewers, h.ordered, h.continuous⟩
  · obtain rfl := Option.some.inj here
    exact Nat.lt_succ_self _
  · obtain rfl := Option.some.inj here
    exact Nat.ne_of_lt (h.issued e mem)
  · cases absent
  · cases absent

/-- A packet is written once to each viewer. -/
theorem written_once {viewers : List ν} (nodup : viewers.Nodup) (packet : RtpPacket) (viewer : ν) :
    (((viewers.map (·, packet)).filter (·.1 = viewer)).map (·.2)).Sublist [packet] := by
  have same : ((viewers.map (·, packet)).filter (·.1 = viewer)).map (·.2) = List.replicate (viewers.count viewer) packet := by
    have own : viewers.filter ((fun x : ν × RtpPacket => decide (x.1 = viewer)) ∘ (·, packet)) = List.replicate (viewers.count viewer) viewer :=
      List.filter_eq viewer
    rw [List.filter_map, List.map_map, own, List.map_replicate]
    rfl
  rw [same]
  exact (List.replicate_sublist_replicate packet).2 (List.nodup_iff_count_le_one.1 nodup viewer)

/-- The packets of an encoder so far have the shift of its next one. -/
theorem Numbered.before (h : Numbered options s log) {encoder : Nat} (source : s.source = some encoder) (packet : RtpPacket)
    {e : Emission} (mem : e ∈ log) (own : e.encoder = encoder) :
    e.emitted.timestamp = e.original.timestamp + nextShift s packet := by
  unfold nextShift
  cases origin : s.origin with
  | none => exact absurd own (h.fresh encoder source origin e mem)
  | some origin' => exact h.shifted encoder origin' source origin e mem own

/-- The next packet goes on after those before it. -/
theorem Numbered.continues (h : Numbered options s log) {encoder : Nat} (source : s.source = some encoder) (packet : RtpPacket) :
    Continues options log ⟨encoder, packet, (s.renumber packet).2⟩ := by
  constructor
  · rw [renumber_snd, ← h.sequence]
    exact RtpPacket.sequenceNumber_renumbered _ _ _
  · intro first
    show (s.renumber packet).2.timestamp = _
    -- The origin is set with the first packet of an encoder.
    have unset : s.origin = none := by
      cases origin : s.origin with
      | none => rfl
      | some origin' =>
        obtain ⟨e, mem, own⟩ := h.started encoder origin' source origin
        exact absurd own (first e mem)
    rw [renumber_stamp, nextShift, unset, ← h.last, ← h.same]
    show packet.timestamp + (s.emitted + frameStep s.options - packet.timestamp) = _
    rw [UInt32.add_comm, UInt32.sub_add_cancel]
  · intro e mem own
    show (s.renumber packet).2.timestamp - _ = packet.timestamp - _
    rw [renumber_stamp, h.before source packet mem own]
    exact add_sub_add_right_uint32 _ _ _
  · rw [renumber_snd]
    exact RtpPacket.sameBut_renumbered _ _ _

/-- A packet is counted, renumbered and written. -/
theorem Numbered.fanOut (h : Numbered options s log) {encoder : Nat} (source : s.source = some encoder) (packet : RtpPacket) :
    Numbered options (s.fanOut packet) (log ++ [⟨encoder, packet, (s.renumber packet).2⟩]) := by
  obtain ⟨origin, here⟩ := renumber_fst { s with packets := s.packets + 1 } packet
  -- Counting the packet first makes no difference to its number and stamp.
  have same : (({ s with packets := s.packets + 1 } : SourceSystem ν).renumber packet).2 = (s.renumber packet).2 := by
    apply renumber_congr <;> rfl
  have fanned : s.fanOut packet = { s with
      packets := s.packets + 1
      emitted := packet.timestamp + nextShift s packet
      sequence := s.sequence + 1
      origin := some origin
      shift := nextShift s packet
      written := s.written ++ s.viewers.map (·, (s.renumber packet).2) } := by
    rw [fanOut_eq, here, same]
    rfl
  rw [fanned]
  constructor
  · exact h.same
  · rw [List.length_append]
    exact congrArg (· + 1) h.sequence
  · rw [List.length_append]
    exact congrArg (· + 1) h.packets
  · unfold lastStamp
    rw [List.getLast?_append, List.getLast?_singleton]
    exact (renumber_stamp s packet).symm
  · intro e mem
    rcases List.mem_append.1 mem with old | new
    · exact h.issued e old
    · rw [List.mem_singleton.1 new]
      exact h.current encoder source
  · exact h.current
  · intro _ _ absent
    cases absent
  · intro encoder' _ here' _
    exact ⟨_, List.mem_append_right _ List.mem_cons_self, Option.some.inj (source.symm.trans here')⟩
  · intro encoder' _ here' _ e mem own
    obtain rfl : encoder = encoder' := Option.some.inj (source.symm.trans here')
    rcases List.mem_append.1 mem with old | new
    · exact h.before source packet old own
    · rw [List.mem_singleton.1 new]
      exact renumber_stamp s packet
  · intro x mem
    rcases List.mem_append.1 mem with old | new
    · obtain ⟨e, mem, same⟩ := h.written x old
      exact ⟨e, List.mem_append_left _ mem, same⟩
    · obtain ⟨v, -, rfl⟩ := List.mem_map.1 new
      exact ⟨_, List.mem_append_right _ List.mem_cons_self, rfl⟩
  · exact h.viewers
  · intro viewer
    unfold SourceSystem.writtenTo
    rw [List.filter_append, List.map_append, List.map_append]
    exact (h.ordered viewer).append (written_once h.viewers _ viewer)
  · exact h.continuous.snoc (h.continues source packet)

/-! ## Turns -/

theorem still_remove (s : SourceSystem ν) (viewer : ν) : Still s (s.remove viewer) := by
  unfold SourceSystem.remove
  split
  · exact .refl s
  · dsimp only
    split <;> exact ⟨⟨rfl, rfl, rfl, rfl, rfl, rfl, rfl, rfl, fun _ h => h, (·.erase _)⟩, rfl⟩

omit [DecidableEq ν] in
theorem still_foldl {α : Type} (f : SourceSystem ν → α → SourceSystem ν) (h : ∀ s a, Still s (f s a)) (l : List α)
    (s : SourceSystem ν) : Still s (l.foldl f s) := by
  induction l generalizing s with
  | nil => exact .refl s
  | cons a l ih => exact (h s a).trans (ih (f s a))

theorem still_told (i : Input ν) (v : ν) (state : VideoState) (s : SourceSystem ν) : Still s (i.port.told v state s) :=
  still_foldl _ still_remove _ s

theorem still_notify (i : Input ν) (s : SourceSystem ν) : Still s (i.port.notify s) := by
  refine still_foldl (fun w v => if v ∈ (i.port.view w).viewers then i.port.told v (i.port.view w).phase w else w) ?_ _ s
  intro s v
  split
  · exact still_told i v _ s
  · exact .refl s

/-- `finish` gives the encoder up and leaves the numbering alone. -/
theorem calm_finish (i : Input ν) (phase : VideoState) (s : SourceSystem ν) : Calm s (i.port.finish phase s) := by
  simp only [Port.finish, Input.port_view, Input.port_modify]
  generalize hw : ({ (s.cancel s.cancelStart).cancel s.cancelGrace with
    cancelStart := none, cancelGrace := none, source := none, phase := phase,
    failedAt := if phase = .failed then some s.now else s.failedAt } : SourceSystem ν) = w
  have first : Calm s w := by
    rw [← hw]
    exact ⟨rfl, rfl, rfl, rfl, rfl, rfl, rfl, rfl, fun _ h => (by cases h), id⟩
  have told := first.trans (still_notify i w).toCalm
  generalize i.port.notify w = w' at told
  have left : Calm s (if phase = .failed then { w' with viewers := [] } else w') := by
    split
    · exact told.trans ⟨rfl, rfl, rfl, rfl, rfl, rfl, rfl, rfl, fun _ h => h, fun _ => List.nodup_nil⟩
    · exact told
  cases s.source with
  | none => exact left
  | some encoder => exact left.trans ⟨rfl, rfl, rfl, rfl, rfl, rfl, rfl, rfl, fun _ h => h, id⟩

theorem port_deliver (i : Input ν) (packet : RtpPacket) (s : SourceSystem ν) : i.port.deliver packet s =
    (if s.phase = .starting then i.port.notify { s.cancel s.cancelStart with cancelStart := none, phase := .active }
      else s).fanOut packet := rfl

theorem numbered_deliver (i : Input ν) (h : Numbered options s log) {encoder : Nat} (source : s.source = some encoder) (packet : RtpPacket) :
    Numbered options (i.port.deliver packet s) (log ++ [⟨encoder, packet, (s.renumber packet).2⟩]) := by
  rw [port_deliver]
  have fanned : ∀ w, Still s w → Numbered options (w.fanOut packet) (log ++ [⟨encoder, packet, (s.renumber packet).2⟩]) := by
    intro w still
    have out := renumber_congr still.options still.sequence still.emitted still.origin still.shift packet
    have next := (h.calm still.toCalm).fanOut (still.kept.trans source) packet
    rwa [out] at next
  apply fanned
  by_cases starting : s.phase = .starting
  · rw [if_pos starting]
    have first : Still s { s.cancel s.cancelStart with cancelStart := none, phase := .active } :=
      ⟨⟨rfl, rfl, rfl, rfl, rfl, rfl, rfl, rfl, fun _ h => h, id⟩, rfl⟩
    exact first.trans (still_notify i _)
  · rw [if_neg starting]
    exact .refl s

theorem numbered_signal (i : Input ν) (h : Numbered options s log) (encoder : Nat) (signal : Signal) :
    Numbered options (i.port.signal encoder s signal) (log ++ s.emission encoder signal) := by
  rw [Input.port_signal]
  unfold SourceSystem.emission
  cases signal with
  | packet packet =>
    by_cases source : s.source = some encoder
    · rw [if_neg (not_not.2 source)]
      dsimp only
      rw [if_pos source]
      exact numbered_deliver i h source packet
    · rw [if_pos source]
      dsimp only
      rw [if_neg source, List.append_nil]
      exact h
  | failed =>
    dsimp only
    rw [List.append_nil]
    split
    · exact h
    · exact h.calm (calm_finish i .failed s)

theorem numbered_signals (i : Input ν) (encoder : Nat) (signals : List Signal) (h : Numbered options s log) :
    Numbered options (signals.foldl (i.port.signal encoder) s) (log ++ s.emissions i encoder signals) := by
  induction signals generalizing s log with
  | nil =>
    unfold SourceSystem.emissions
    rw [List.append_nil]
    exact h
  | cons signal signals ih =>
    unfold SourceSystem.emissions
    rw [← List.append_assoc]
    exact ih (numbered_signal i h encoder signal)

theorem numbered_beginRest (i : Input ν) (h : Numbered options s log) : Numbered options (i.port.beginRest s) (log ++ s.begun i) := by
  rw [Input.port_beginRest]
  unfold SourceSystem.begun
  split
  · rw [List.append_nil]
    exact h
  · exact numbered_signals i s.created i.startup h.create

theorem numbered_requestKeyframe (i : Input ν) (h : Numbered options s log) :
    Numbered options (i.port.requestKeyframe s) (log ++ s.asked i) := by
  rw [Input.port_requestKeyframe]
  unfold SourceSystem.asked
  have counted : Numbered options { s with lastKeyframeAt := some s.now, keyframeRequests := s.keyframeRequests + 1 } log :=
    h.calm ⟨rfl, rfl, rfl, rfl, rfl, rfl, rfl, rfl, fun _ h => h, id⟩
  split
  · rw [List.append_nil]
    exact h
  · cases source : s.source with
    | none =>
      dsimp only
      rw [List.append_nil]
      simp only [source] at counted
      exact counted
    | some encoder =>
      have signals := numbered_signals i encoder i.keyframe counted
      simp only [source] at signals
      exact signals

theorem numbered_beginStart (i : Input ν) (h : Numbered options s log) : Numbered options (i.port.beginStart s) (log ++ s.opened i) := by
  simp only [Port.beginStart, Input.port_view, Input.port_modify, SourceSystem.opened]
  have first : Calm s { s with phase := .starting } := ⟨rfl, rfl, rfl, rfl, rfl, rfl, rfl, rfl, fun _ h => h, id⟩
  have told := first.trans (still_notify i _).toCalm
  have armed : Numbered options (i.port.notify { s with phase := .starting }).armStart log :=
    (h.calm told).calm ⟨rfl, rfl, rfl, rfl, rfl, rfl, rfl, rfl, fun _ h => h, id⟩
  generalize (i.port.notify { s with phase := .starting }).armStart = w at armed
  cases w.release with
  | some encoder =>
    dsimp only
    rw [List.append_nil]
    exact armed.calm ⟨rfl, rfl, rfl, rfl, rfl, rfl, rfl, rfl, fun _ h => h, id⟩
  | none => exact numbered_beginRest i armed

theorem calm_fire (i : Input ν) (timer : Nat) (s : SourceSystem ν) : Calm s (i.port.fire timer s) := by
  unfold Port.fire
  split
  · exact (Still.refl s).toCalm
  · next t _ =>
    have gone : Calm s { s with timers := s.timers.filter fun t => t.id ≠ timer } :=
      ⟨rfl, rfl, rfl, rfl, rfl, rfl, rfl, rfl, fun _ h => h, id⟩
    refine gone.trans ?_
    rw [Input.port_modify]
    cases t.kind with
    | grace =>
      refine Calm.trans ?_ (calm_finish i .idle _)
      exact ⟨rfl, rfl, rfl, rfl, rfl, rfl, rfl, rfl, fun _ h => h, id⟩
    | start => exact calm_finish i .failed _

theorem calm_refused (i : Input ν) (encoder : Nat) (s : SourceSystem ν) : Calm s (i.port.refused encoder s) := by
  unfold Port.refused
  split
  · exact (Still.refl s).toCalm
  · refine Calm.trans ?_ (calm_finish i .failed _)
    exact ⟨rfl, rfl, rfl, rfl, rfl, rfl, rfl, rfl, fun _ h => h, id⟩

omit [DecidableEq ν] in
theorem calm_stopped (encoder : Nat) (s : SourceSystem ν) : Calm s (s.stopped encoder) := by
  unfold SourceSystem.stopped
  split <;> exact ⟨rfl, rfl, rfl, rfl, rfl, rfl, rfl, rfl, fun _ h => h, id⟩

omit [DecidableEq ν] in
theorem calm_advanceClose (call : Nat) (s : SourceSystem ν) : Calm s (s.advanceClose call) := by
  unfold SourceSystem.advanceClose
  split
  · split <;> exact ⟨rfl, rfl, rfl, rfl, rfl, rfl, rfl, rfl, fun _ h => h, id⟩
  · split <;> exact ⟨rfl, rfl, rfl, rfl, rfl, rfl, rfl, rfl, fun _ h => h, id⟩
  · exact (Still.refl s).toCalm

theorem port_add_joined (i : Input ν) (viewer : ν) (s : SourceSystem ν) : i.port.add viewer s =
    if s.phase = .idle ∨ s.phase = .failed then i.port.beginStart (s.joined viewer)
    else i.port.told viewer (if s.phase = .active then i.port.requestKeyframe (s.joined viewer) else s.joined viewer).phase
      (if s.phase = .active then i.port.requestKeyframe (s.joined viewer) else s.joined viewer) := rfl

theorem SourceSystem.nodup_joined (s : SourceSystem ν) (viewer : ν) (nodup : s.viewers.Nodup) : (s.joined viewer).viewers.Nodup := by
  show (if viewer ∈ s.viewers then s.viewers else s.viewers ++ [viewer]).Nodup
  split
  · exact nodup
  · next absent => exact List.Nodup.append nodup (List.nodup_singleton viewer) (List.disjoint_singleton.2 absent)

theorem numbered_step (i : Input ν) (h : Numbered options s log) : Numbered options (s.step i) (log ++ s.emitting i) := by
  have calm : ∀ s', Calm s s' → Numbered options s' (log ++ []) := by
    intro s' calm
    rw [List.append_nil]
    exact h.calm calm
  unfold SourceSystem.step Port.step SourceSystem.emitting
  cases i.event with
  | add viewer =>
    dsimp only
    have joined : Numbered options (s.joined viewer) log :=
      h.calm ⟨rfl, rfl, rfl, rfl, rfl, rfl, rfl, rfl, fun _ h => h, s.nodup_joined viewer⟩
    rw [port_add_joined]
    by_cases terminal : s.phase = .idle ∨ s.phase = .failed
    · rw [if_pos terminal, if_pos terminal]
      exact numbered_beginStart i joined
    · rw [if_neg terminal, if_neg terminal]
      by_cases active : s.phase = .active
      · rw [if_pos active, if_pos active]
        exact (numbered_requestKeyframe i joined).calm (still_told i viewer _ _).toCalm
      · rw [if_neg active, if_neg active, List.append_nil]
        exact joined.calm (still_told i viewer _ _).toCalm
  | remove viewer => exact calm _ (still_remove s viewer).toCalm
  | requestKeyframe => exact numbered_requestKeyframe i h
  | close =>
    dsimp only
    have shut : Calm s ({ s with viewers := [] } : SourceSystem ν) :=
      ⟨rfl, rfl, rfl, rfl, rfl, rfl, rfl, rfl, fun _ h => h, fun _ => List.nodup_nil⟩
    refine calm _ ((shut.trans (calm_finish i .idle _)).trans ?_)
    exact ⟨rfl, rfl, rfl, rfl, rfl, rfl, rfl, rfl, fun _ h => h, id⟩
  | fire timer => exact calm _ (calm_fire i timer s)
  | packet encoder packet => exact numbered_signal i h encoder (.packet packet)
  | failure encoder => exact numbered_signal i h encoder .failed
  | started encoder => exact calm _ ⟨rfl, rfl, rfl, rfl, rfl, rfl, rfl, rfl, fun _ h => h, id⟩
  | refused encoder => exact calm _ (calm_refused i encoder s)
  | stopped encoder => exact calm _ (calm_stopped encoder s)
  | resume =>
    dsimp only
    rw [Input.port_resume]
    split
    · rw [List.append_nil]
      exact h
    · have next : Numbered options { s with ready := s.ready - 1 } log := h.calm ⟨rfl, rfl, rfl, rfl, rfl, rfl, rfl, rfl, fun _ h => h, id⟩
      exact numbered_beginRest i next
  | closing call => exact calm _ (calm_advanceClose call s)
  | advance now => exact calm _ ⟨rfl, rfl, rfl, rfl, rfl, rfl, rfl, rfl, fun _ h => h, id⟩

theorem numbered_init (options : VideoSourceOptions) : Numbered options (SourceSystem.init options : SourceSystem ν) [] := by
  refine ⟨rfl, rfl, rfl, rfl, fun e mem => (by cases mem), fun encoder here => (by cases here), fun encoder here => (by cases here),
    fun encoder origin here => (by cases here), fun encoder origin here => (by cases here), fun x mem => (by cases mem), List.nodup_nil, fun viewer => .refl [], ?_⟩
  intro before e after split
  cases before <;> cases split

theorem numbered_run (inputs : List (Input ν)) (h : Numbered options s log) : Numbered options (s.run inputs) (log ++ SourceSystem.track inputs s) := by
  induction inputs generalizing s log with
  | nil =>
    unfold SourceSystem.track
    rw [List.append_nil]
    exact h
  | cons i inputs ih =>
    unfold SourceSystem.track
    rw [← List.append_assoc]
    exact ih (numbered_step i h)

/-- Through all encoders of a source, the packets of its track are numbered one by one
from 0, keep the distances of their timestamps within an encoder, and go on one frame
after the last packet with a new one. All other bytes stay. Each viewer gets some of
these packets, in their order. -/
theorem track_continuous (options : VideoSourceOptions) (inputs : List (Input ν)) :
    let s := (SourceSystem.init options : SourceSystem ν)
    let log := SourceSystem.track inputs s
    (∀ before e after, log = before ++ e :: after →
      e.emitted.sequenceNumber = UInt16.ofNat before.length ∧
      ((∀ e' ∈ before, e'.encoder ≠ e.encoder) → e.emitted.timestamp =
        (before.getLast?.map (·.emitted.timestamp)).getD 0 + UInt32.ofInt (mathRound (90000 / options.framerate))) ∧
      (∀ e' ∈ before, e'.encoder = e.encoder →
        e.emitted.timestamp - e'.emitted.timestamp = e.original.timestamp - e'.original.timestamp) ∧
      e.emitted.bytes.length = e.original.bytes.length ∧
      ∀ n, n < 2 ∨ 8 ≤ n → e.emitted.bytes[n]? = e.original.bytes[n]?) ∧
      (s.run inputs).packets = log.length ∧ (∀ x ∈ (s.run inputs).written, ∃ e ∈ log, x.2 = e.emitted) ∧
      ∀ viewer, ((s.run inputs).writtenTo viewer).Sublist (log.map (·.emitted)) := by
  intro s log
  have h : Numbered options (s.run inputs) log := numbered_run inputs (numbered_init options)
  refine ⟨fun before e after split => ?_, h.packets, h.written, h.ordered⟩
  have next := h.continuous before e after split
  exact ⟨next.sequence, next.first, next.spacing, next.rest.length, next.rest.bytes⟩

/-- A packet of nothing but a header, with a small timestamp. -/
def headerAt (timestamp : UInt8) : RtpPacket := ⟨[0x80, 96, 0, 0, 0, 0, 0, timestamp, 0, 0, 0, 0], Nat.le_refl 12⟩

/-- An encoder fails after two packets, and the next one goes on with a third. A second
viewer has joined in between. -/
def oneRestart : List (Input Nat) :=
  [.add 1, .packet 0 (headerAt 7), .add 2, .packet 0 (headerAt 9), .failure 0, .add 1, .stopped 0, .resume,
    .packet 1 (headerAt 200)].map Event.alone

theorem track_continuous_restart : ∃ e₀ e₁ e₂, SourceSystem.track oneRestart (.init exampleOptions) = [e₀, e₁, e₂] ∧
    e₀.encoder = 0 ∧ e₁.encoder = 0 ∧ e₂.encoder = 1 ∧ e₂.emitted.sequenceNumber = 2 ∧
    e₁.emitted.timestamp - e₀.emitted.timestamp = 2 ∧ e₂.emitted.timestamp = e₁.emitted.timestamp + 3000 ∧
    ((SourceSystem.init exampleOptions).run oneRestart).packets = 3 ∧
    (((SourceSystem.init exampleOptions).run oneRestart).writtenTo 2).Sublist [e₀.emitted, e₁.emitted, e₂.emitted] := by
  obtain ⟨numbered, packets, -, ordered⟩ := track_continuous exampleOptions oneRestart
  have encoders : (SourceSystem.track oneRestart (.init exampleOptions)).map (·.encoder) = [0, 0, 1] := by decide +kernel
  have stamps : (SourceSystem.track oneRestart (.init exampleOptions)).map (·.original.timestamp) = [7, 9, 200] := by decide +kernel
  obtain ⟨e₀, e₁, e₂, log⟩ := List.length_eq_three.1 ((List.length_map _).symm.trans (congrArg List.length encoders))
  rw [log] at packets ordered encoders stamps
  obtain ⟨first, second, third⟩ : e₀.encoder = 0 ∧ e₁.encoder = 0 ∧ e₂.encoder = 1 := by simpa using encoders
  obtain ⟨stamp₀, stamp₁, -⟩ : e₀.original.timestamp = 7 ∧ e₁.original.timestamp = 9 ∧ e₂.original.timestamp = 200 := by simpa using stamps
  have apart : e₁.original.timestamp - e₀.original.timestamp = 2 := by
    rw [stamp₀, stamp₁]
    decide
  obtain ⟨-, -, spacing, -⟩ := numbered [e₀] e₁ [e₂] log
  obtain ⟨sequence, fresh, -⟩ := numbered [e₀, e₁] e₂ [] log
  have frame : UInt32.ofInt (mathRound (90000 / exampleOptions.framerate)) = 3000 := by decide +kernel
  have restart : e₂.emitted.timestamp = e₁.emitted.timestamp + 3000 :=
    (fresh (by simp [first, second, third])).trans (congrArg (e₁.emitted.timestamp + ·) frame)
  exact ⟨e₀, e₁, e₂, log, first, second, third, sequence, (spacing e₀ (by simp) (first.trans second.symm)).trans apart, restart, packets,
    ordered 2⟩

end RosBridge.Media
