import Mathlib.Data.List.Chain
import RosBridge.Lib.Runs
import RosBridge.Media.Frames
import RosBridge.Media.Rtp
/-!
# Playing a recording

`parse` and the player of `media/fixture.ts`. A recording is a sequence of packets, each
preceded by its length; packets of one timestamp are a frame, which is held for the gap
to the next. The player numbers and stamps what it plays anew. Where `parse` reads a
recording as it was made: `faithful_iff`.
-/

namespace RosBridge.Media.Fixture

open Lib

def rtpHeaderBytes : Nat := 12

def fuA : UInt8 := 28

def nalSps : UInt8 := 7

def clockHz : ℚ := 90000

/-- The type of the NAL unit that a packet carries, whole or a fragment of. -/
def original (packet : RtpPacket) : UInt8 :=
  let type := packet.bytes.getD rtpHeaderBytes 0 &&& 0x1f
  if type = fuA then packet.bytes.getD (rtpHeaderBytes + 1) 0 &&& 0x1f else type

def startsDecoding (packet : RtpPacket) : Bool := original packet == nalSps

/-- Packets that share a timestamp, as `parse` collects them. -/
structure Group where
  packets : List RtpPacket
  keyframe : Bool
  timestamp : UInt32
  some : packets ≠ []
  stamped : ∀ packet ∈ packets, packet.timestamp = timestamp
  joins : keyframe = packets.any startsDecoding

/-- A frame of one packet. -/
def Group.single (packet : RtpPacket) : Group :=
  ⟨[packet], startsDecoding packet, packet.timestamp, List.cons_ne_nil _ _, by simp, by simp⟩

/-- One packet more with the timestamp of the others. -/
def Group.push (current : Group) (packet : RtpPacket) (same : current.timestamp = packet.timestamp) : Group where
  packets := current.packets ++ [packet]
  keyframe := current.keyframe || startsDecoding packet
  timestamp := current.timestamp
  some := by simp
  stamped := by
    intro p mem
    rcases List.mem_append.1 mem with mem | mem
    · exact current.stamped p mem
    · rw [List.mem_singleton.1 mem, same]
  joins := by simp [current.joins]

/-- A packet joins the last frame or begins another. -/
def collect (frames : List Group) (packet : RtpPacket) : List Group :=
  match frames.getLast? with
  | some current =>
    if same : current.timestamp = packet.timestamp then frames.dropLast ++ [current.push packet same]
    else frames ++ [.single packet]
  | none => frames ++ [.single packet]

def framedError : String := "fixture is not a framed RTP recording"

theorem complete_of {length : Nat} {packet : List UInt8} (good : ¬(length < rtpHeaderBytes + 1 ∨ packet.length ≠ length)) :
    12 ≤ packet.length := by
  unfold rtpHeaderBytes at good
  omega

/-- The loop of `parse` from what lies at the offset on; it ends before `fuel` does when
that exceeds the bytes. -/
def parseLoop : Nat → List UInt8 → List Group → Except String (List Group)
  | 0, _, frames => .ok frames
  | fuel + 1, high :: low :: bytes, frames =>
    let length := readUInt16BE high low
    let packet := bytes.take length
    if bad : length < rtpHeaderBytes + 1 ∨ packet.length ≠ length then .error framedError
    else parseLoop fuel (bytes.drop length) (collect frames ⟨packet, complete_of bad⟩)
  | _ + 1, _, frames => .ok frames

/-- A decodable unit, and how long it is held. -/
structure Frame where
  packets : List RtpPacket
  keyframe : Bool
  delayMs : Nat
  some : packets ≠ []
  joins : keyframe = packets.any startsDecoding
  held : 1 ≤ delayMs

/-- The gaps between the frames in milliseconds. -/
def gaps (frames : List Group) : List ℚ :=
  List.zipWith (fun frame previous => ((frame.timestamp.toNat : ℚ) - previous.timestamp.toNat) / (clockHz / 1000)) frames.tail frames

/-- The last frame, which has no gap, reuses the previous one. -/
def delay (gaps : List ℚ) (index : Nat) : Nat :=
  (max 1 (mathRound (gaps[index]?.getD (gaps.getLast?.getD 1)))).toNat

theorem one_le_delay (gaps : List ℚ) (index : Nat) : 1 ≤ delay gaps index := by
  unfold delay
  omega

def played (frames : List Group) : List Frame :=
  frames.mapIdx fun index frame =>
    ⟨frame.packets, frame.keyframe, delay (gaps frames) index, frame.some, frame.joins, one_le_delay _ _⟩

/-- Frames in playback order, of which one is a point to join at. -/
structure Recording where
  frames : List Frame
  joinable : frames.any (·.keyframe) = true

theorem played_getElem? (frames : List Group) (index : Nat) : (played frames)[index]? = frames[index]?.map fun frame =>
    ⟨frame.packets, frame.keyframe, delay (gaps frames) index, frame.some, frame.joins, one_le_delay _ _⟩ :=
  List.getElem?_mapIdx

theorem played_any (frames : List Group) : (played frames).any (·.keyframe) = frames.any (·.keyframe) := by
  have same : (played frames).map (·.keyframe) = frames.map (·.keyframe) := by
    apply List.ext_getElem?
    intro index
    rw [List.getElem?_map, List.getElem?_map, played_getElem?, Option.map_map]
    rfl
  have all := congrArg (List.any · id) same
  rwa [List.any_map, List.any_map] at all

def parse (fixture : List UInt8) : Except String Recording := do
  let frames ← parseLoop (fixture.length + 1) fixture []
  if joinable : frames.any (·.keyframe) then return ⟨played frames, (played_any frames).trans joinable⟩
  else throw "fixture contains no keyframe"

/-- The indices of the frames a decoder can join at. -/
def Recording.keyframes (recording : Recording) : List Nat :=
  recording.frames.zipIdx.flatMap fun (frame, index) => if frame.keyframe then [index] else []

theorem Recording.mem_keyframes {recording : Recording} {index : Nat} :
    index ∈ recording.keyframes ↔ ∃ frame, recording.frames[index]? = some frame ∧ frame.keyframe = true := by
  unfold keyframes
  simp only [List.mem_flatMap, Prod.exists, List.mem_zipIdx_iff_getElem?]
  constructor
  · intro h
    obtain ⟨frame, i, found, mem⟩ := h
    cases key : frame.keyframe with
    | true =>
      rw [key, if_pos rfl, List.mem_singleton] at mem
      exact ⟨frame, mem ▸ found, key⟩
    | false =>
      rw [key, if_neg Bool.false_ne_true] at mem
      cases mem
  · intro h
    obtain ⟨frame, found, key⟩ := h
    exact ⟨frame, index, found, by rw [if_pos key]; exact List.mem_singleton_self _⟩

theorem Recording.keyframes_ne_nil (recording : Recording) : recording.keyframes ≠ [] := by
  obtain ⟨frame, mem, key⟩ := List.any_eq_true.1 recording.joinable
  obtain ⟨index, found⟩ := List.mem_iff_getElem?.1 mem
  exact List.ne_nil_of_mem (Recording.mem_keyframes.2 ⟨frame, found, key⟩)

/-! ## The player -/

/-- A frame that has been played: what of the recording, and the packets handed on. -/
structure Played where
  frame : Frame
  packets : List RtpPacket

/-- The variables of a source that has started, with what it has played. -/
structure Player where
  recording : Recording
  cursor : Nat
  sequence : Nat
  timestamp : UInt32
  played : List Played

/-- The copy of a packet that is handed on. -/
def rewrite (sequence : Nat) (timestamp : UInt32) (packet : RtpPacket) : RtpPacket :=
  (packet.withSequence (UInt16.ofNat sequence)).withTimestamp timestamp

/-- The packets of a frame as they are handed on. -/
def copies (sequence : Nat) (timestamp : UInt32) (packets : List RtpPacket) : List RtpPacket :=
  (packets.zipIdx sequence).map fun (packet, sequence) => rewrite sequence timestamp packet

/-- Emit one frame; the next call is scheduled for when it has been held. -/
def play (p : Player) : Player :=
  match p.recording.frames[p.cursor]? with
  | none => p
  | some frame =>
    { p with
      cursor := (p.cursor + 1) % p.recording.frames.length
      sequence := p.sequence + frame.packets.length
      timestamp := p.timestamp + UInt32.ofInt (mathRound (frame.delayMs * (clockHz / 1000)))
      played := p.played ++ [⟨frame, copies p.sequence p.timestamp frame.packets⟩] }

/-- `start` of a source that has not played yet. -/
def start (fixture : List UInt8) : Except String Player := do
  let recording ← parse fixture
  return play ⟨recording, 0, 0, 0, []⟩

def requestKeyframe (p : Player) : Player :=
  { p with cursor := (p.recording.keyframes.find? (p.cursor ≤ ·)).getD (p.recording.keyframes.head p.recording.keyframes_ne_nil) }

inductive Input where
  | tick
  | requestKeyframe

def Player.step (p : Player) : Input → Player
  | .tick => play p
  | .requestKeyframe => Fixture.requestKeyframe p

def Player.run (p : Player) (inputs : List Input) : Player := inputs.foldl Player.step p

/-! ## A packet handed on -/

section Rewrite

variable (sequence : Nat) (timestamp : UInt32) (packet : RtpPacket)

theorem timestamp_rewrite : (rewrite sequence timestamp packet).timestamp = timestamp := by
  have room := (packet.withSequence (UInt16.ofNat sequence)).complete
  exact readUInt32BE_write _ timestamp (by omega)

/-- The timestamp does not overlap the sequence number. -/
theorem sequenceNumber_rewrite : (rewrite sequence timestamp packet).sequenceNumber = UInt16.ofNat sequence := by
  have room := packet.complete
  have numbered := readUInt16BEAt_write packet.bytes (UInt16.ofNat sequence) (by omega : 2 + 2 ≤ packet.bytes.length)
  refine Eq.trans ?_ numbered
  show readUInt16BEAt (writeUInt32BE (writeUInt16BE packet.bytes (UInt16.ofNat sequence) 2) timestamp 4) 2 = _
  unfold readUInt16BEAt
  rw [writeUInt32BE_outside _ _ (by omega), writeUInt32BE_outside _ _ (by omega)]

theorem original_rewrite : original (rewrite sequence timestamp packet) = original packet := by
  have same : ∀ n, 8 ≤ n → (rewrite sequence timestamp packet).bytes[n]? = packet.bytes[n]? := by
    intro n beyond
    show (writeUInt32BE (writeUInt16BE packet.bytes (UInt16.ofNat sequence) 2) timestamp 4)[n]? = _
    rw [writeUInt32BE_outside _ _ (by omega), writeUInt16BE_outside _ _ (by omega)]
  unfold original
  rw [List.getD_eq_getElem?_getD, List.getD_eq_getElem?_getD, List.getD_eq_getElem?_getD, List.getD_eq_getElem?_getD,
    same _ (by decide), same _ (by decide)]

end Rewrite

/-! ## Rounding -/

theorem clockHz_ms : clockHz / 1000 = 90 := by
  unfold clockHz
  norm_num

/-- A gap of so many ticks of the clock, in milliseconds. -/
theorem mathRound_ticks (n : ℤ) : mathRound (n / (clockHz / 1000)) = (n + 45) / 90 := by
  rw [clockHz_ms, mathRound, Int.floor_eq_iff]
  have lower : 90 * ((n + 45) / 90) ≤ n + 45 := by omega
  have upper : n + 45 < 90 * ((n + 45) / 90) + 90 := by omega
  have lower' : (90 : ℚ) * ((n + 45) / 90 : ℤ) ≤ n + 45 := by exact_mod_cast lower
  have upper' : (n : ℚ) + 45 < 90 * ((n + 45) / 90 : ℤ) + 90 := by exact_mod_cast upper
  constructor <;> linarith

/-- So many milliseconds in ticks of the clock. -/
theorem ticks_of_ms (ms : Nat) : UInt32.ofInt (mathRound (ms * (clockHz / 1000))) = UInt32.ofNat (90 * ms) := by
  have whole : mathRound (ms * (clockHz / 1000)) = (90 * ms : Nat) := by
    rw [clockHz_ms, mathRound, Int.floor_eq_iff]
    push_cast
    constructor <;> linarith
  have small : ((90 * ms : Nat) % (2 : ℤ) ^ 32).toNat = (90 * ms) % 2 ^ 32 := by omega
  rw [whole, UInt32.ofInt, small]
  exact UInt32.ofNat_mod_size

/-! ## What is played -/

/-- The milliseconds for which these frames are held. -/
def heldFor (frames : List Played) : Nat := (frames.map (·.frame.delayMs)).sum

/-- A player between its steps. -/
structure Player.Playing (p : Player) : Prop where
  within : p.cursor < p.recording.frames.length
  counted : p.sequence = (p.played.flatMap (·.packets)).length
  numbered : ∀ i packet, (p.played.flatMap (·.packets))[i]? = some packet → packet.sequenceNumber = UInt16.ofNat i
  clock : p.timestamp = UInt32.ofNat (90 * heldFor p.played)
  stamped : ∀ k frame, p.played[k]? = some frame → ∀ packet ∈ frame.packets,
    packet.timestamp = UInt32.ofNat (90 * heldFor (p.played.take k))
  some : ∀ frame ∈ p.played, frame.packets ≠ []

theorem copies_getElem? (sequence : Nat) (timestamp : UInt32) (packets : List RtpPacket) (i : Nat) :
    (copies sequence timestamp packets)[i]? = packets[i]?.map fun packet => rewrite (sequence + i) timestamp packet := by
  rw [copies, List.getElem?_map, List.getElem?_zipIdx, Option.map_map]
  rfl

theorem length_copies (sequence : Nat) (timestamp : UInt32) (packets : List RtpPacket) :
    (copies sequence timestamp packets).length = packets.length := by simp [copies]

/-- A copy is a rewritten packet. -/
theorem of_mem_copies {sequence : Nat} {timestamp : UInt32} {packets : List RtpPacket} {packet : RtpPacket}
    (mem : packet ∈ copies sequence timestamp packets) : packet.timestamp = timestamp := by
  obtain ⟨⟨p, n⟩, -, rfl⟩ := List.mem_map.1 mem
  exact timestamp_rewrite n timestamp p

theorem play_frame {p : Player} {frame : Frame} (found : p.recording.frames[p.cursor]? = some frame) :
    play p = { p with
      cursor := (p.cursor + 1) % p.recording.frames.length
      sequence := p.sequence + frame.packets.length
      timestamp := p.timestamp + UInt32.ofNat (90 * frame.delayMs)
      played := p.played ++ [⟨frame, copies p.sequence p.timestamp frame.packets⟩] } := by
  unfold play
  rw [found, ← ticks_of_ms]

theorem heldFor_append (frames : List Played) (last : Played) : heldFor (frames ++ [last]) = heldFor frames + last.frame.delayMs := by
  simp [heldFor]

theorem play_playing {p : Player} (h : p.Playing) : (play p).Playing := by
  obtain ⟨within, counted, numbered, clock, stamped, some⟩ := h
  have found := List.getElem?_eq_getElem within
  set frame := p.recording.frames[p.cursor] with hframe
  rw [play_frame found]
  refine ⟨?_, ?_, ?_, ?_, ?_, ?_⟩
  · exact Nat.mod_lt _ (by omega)
  · simp [counted, length_copies]
  · intro i packet here
    rw [List.flatMap_append, List.flatMap_singleton] at here
    by_cases old : i < (p.played.flatMap (·.packets)).length
    · rw [List.getElem?_append_left old] at here
      exact numbered i packet here
    · rw [List.getElem?_append_right (Nat.le_of_not_lt old), copies_getElem?] at here
      obtain ⟨original, -, rfl⟩ := Option.map_eq_some_iff.1 here
      rw [sequenceNumber_rewrite, counted, Nat.add_sub_cancel' (Nat.le_of_not_lt old)]
  · show p.timestamp + _ = _
    rw [heldFor_append, Nat.mul_add, UInt32.ofNat_add, clock]
  · intro k later here packet mem
    by_cases old : k < p.played.length
    · rw [List.getElem?_append_left old] at here
      rw [List.take_append_of_le_length (Nat.le_of_lt old)]
      exact stamped k later here packet mem
    · have same : k = p.played.length := by
        have := (List.getElem?_eq_some_iff.1 here).1
        rw [List.length_append, List.length_singleton] at this
        omega
      subst same
      rw [List.getElem?_append_right (Nat.le_refl _), Nat.sub_self] at here
      obtain rfl := Option.some.inj here
      rw [List.take_left, ← clock]
      exact of_mem_copies mem
  · intro later mem
    rcases List.mem_append.1 mem with mem | mem
    · exact some later mem
    · rw [List.mem_singleton.1 mem]
      apply List.ne_nil_of_length_pos
      rw [length_copies]
      exact List.length_pos_iff.2 frame.some

/-- The next keyframe, or the first. -/
theorem requestKeyframe_cursor (p : Player) : (requestKeyframe p).cursor ∈ p.recording.keyframes := by
  unfold requestKeyframe
  cases found : p.recording.keyframes.find? (p.cursor ≤ ·) with
  | none =>
    exact List.head_mem _
  | some index =>
    exact List.mem_of_find?_eq_some found

theorem requestKeyframe_frame (p : Player) :
    ∃ frame, (requestKeyframe p).recording.frames[(requestKeyframe p).cursor]? = some frame ∧ frame.keyframe = true :=
  Recording.mem_keyframes.1 (requestKeyframe_cursor p)

theorem requestKeyframe_playing {p : Player} (h : p.Playing) : (requestKeyframe p).Playing := by
  obtain ⟨frame, found, -⟩ := requestKeyframe_frame p
  exact { h with within := (List.getElem?_eq_some_iff.1 found).1 }

theorem step_playing (p : Player) (input : Input) (h : p.Playing) : (p.step input).Playing := by
  cases input with
  | tick => exact play_playing h
  | requestKeyframe => exact requestKeyframe_playing h

theorem run_playing {p : Player} (h : p.Playing) (inputs : List Input) : (p.run inputs).Playing :=
  foldl_inv step_playing h inputs

theorem start_playing {fixture : List UInt8} {p : Player} (h : start fixture = .ok p) : p.Playing := by
  unfold start at h
  cases parsed : parse fixture with
  | error e =>
    rw [parsed] at h
    cases h
  | ok recording =>
    rw [parsed] at h
    cases h
    apply play_playing
    refine ⟨?_, rfl, by simp, rfl, by simp, by simp⟩
    obtain ⟨frame, mem, -⟩ := List.any_eq_true.1 recording.joinable
    exact List.length_pos_of_mem mem

/-- Frames played one after the other as one stream. -/
structure Continuous (frames : List Played) : Prop where
  numbered : ∀ i packet, (frames.flatMap (·.packets))[i]? = some packet → packet.sequenceNumber = UInt16.ofNat i
  shared : ∀ frame ∈ frames, ∀ p ∈ frame.packets, ∀ q ∈ frame.packets, p.timestamp = q.timestamp
  advances : ∀ k frame next, frames[k]? = some frame → frames[k + 1]? = some next → ∀ p ∈ frame.packets, ∀ q ∈ next.packets,
    q.timestamp = p.timestamp + UInt32.ofNat (90 * frame.frame.delayMs)
  held : ∀ frame ∈ frames, 1 ≤ frame.frame.delayMs ∧ frame.packets ≠ []

theorem Player.Playing.continuous {p : Player} (h : p.Playing) : Continuous p.played := by
  refine ⟨h.numbered, ?_, ?_, fun frame mem => ⟨frame.frame.held, h.some frame mem⟩⟩
  · intro frame mem a inA b inB
    obtain ⟨k, here⟩ := List.mem_iff_getElem?.1 mem
    rw [h.stamped k frame here a inA, h.stamped k frame here b inB]
  · intro k frame next here there a inA b inB
    have sum : heldFor (p.played.take (k + 1)) = heldFor (p.played.take k) + frame.frame.delayMs := by
      rw [List.take_add_one, here, Option.toList_some, heldFor_append]
    rw [h.stamped k frame here a inA, h.stamped (k + 1) next there b inB, sum, Nat.mul_add, UInt32.ofNat_add]

/-- What a player does on ticks of its timer and requests in any order. -/
structure Playback (p : Player) : Prop where
  within : ∀ inputs, (p.run inputs).cursor < (p.run inputs).recording.frames.length
  continuous : ∀ inputs, Continuous (p.run inputs).played
  seeks : ∀ inputs, ∃ last, (p.run (inputs ++ [.requestKeyframe, .tick])).played = (p.run inputs).played ++ [last] ∧
    ∃ packet ∈ last.packets, original packet = nalSps

theorem Player.Playing.playback {p : Player} (h : p.Playing) : Playback p := by
  refine ⟨fun inputs => (run_playing h inputs).within, fun inputs => (run_playing h inputs).continuous, fun inputs => ?_⟩
  set q := p.run inputs with hq
  obtain ⟨frame, found, key⟩ := requestKeyframe_frame q
  have run : p.run (inputs ++ [.requestKeyframe, .tick]) = play (requestKeyframe q) := by
    rw [hq, Player.run, List.foldl_append]
    rfl
  refine ⟨_, by rw [run, play_frame found]; rfl, ?_⟩
  rw [frame.joins] at key
  obtain ⟨packet, mem, sps⟩ := List.any_eq_true.1 key
  obtain ⟨i, here⟩ := List.mem_iff_getElem?.1 mem
  have copied := copies_getElem? (requestKeyframe q).sequence (requestKeyframe q).timestamp frame.packets i
  rw [here, Option.map_some] at copied
  refine ⟨_, List.mem_of_getElem? copied, ?_⟩
  rw [original_rewrite]
  exact eq_of_beq sps

/-! ## What a recording consists of -/

/-- The wire form of packets. -/
def framing (packets : List RtpPacket) : List UInt8 := packets.flatMap fun packet =>
  UInt8.ofNat (packet.bytes.length / 256) :: UInt8.ofNat (packet.bytes.length % 256) :: packet.bytes

/-- A length that `parse` permits and two bytes can hold. -/
def Fits (packet : RtpPacket) : Prop := rtpHeaderBytes + 1 ≤ packet.bytes.length ∧ packet.bytes.length < 65536

/-- Packets that a decoder can join among. -/
structure Recorded (packets : List RtpPacket) : Prop where
  fits : ∀ packet ∈ packets, Fits packet
  joins : ∃ packet ∈ packets, original packet = nalSps

@[simp] theorem framing_nil : framing [] = [] := rfl

theorem framing_cons (packet : RtpPacket) (packets : List RtpPacket) (tail : List UInt8) :
    framing (packet :: packets) ++ tail = UInt8.ofNat (packet.bytes.length / 256) :: UInt8.ofNat (packet.bytes.length % 256) ::
      (packet.bytes ++ (framing packets ++ tail)) := by
  simp [framing]

/-- A packet in front is read. -/
theorem parseLoop_cons (fuel : Nat) {packet : RtpPacket} (fits : Fits packet) (rest : List UInt8) (frames : List Group) :
    parseLoop (fuel + 1) (UInt8.ofNat (packet.bytes.length / 256) :: UInt8.ofNat (packet.bytes.length % 256) ::
      (packet.bytes ++ rest)) frames = parseLoop fuel rest (collect frames packet) := by
  have length := readUInt16BE_ofNat fits.2
  have good : ¬(packet.bytes.length < rtpHeaderBytes + 1 ∨ packet.bytes.length ≠ packet.bytes.length) := by
    have := fits.1
    omega
  conv_lhs => unfold parseLoop
  simp only [length, List.take_left, List.drop_left]
  rw [dif_neg good]

theorem parseLoop_framing {packets : List RtpPacket} (fits : ∀ packet ∈ packets, Fits packet) {tail : List UInt8}
    (short : tail.length ≤ 1) {fuel : Nat} (enough : (framing packets ++ tail).length < fuel) (frames : List Group) :
    parseLoop fuel (framing packets ++ tail) frames = .ok (packets.foldl collect frames) := by
  induction packets generalizing fuel frames with
  | nil =>
    cases fuel with
    | zero => exact absurd enough (Nat.not_lt_zero _)
    | succ fuel =>
      match tail, short with
      | [], _ => rfl
      | [_], _ => rfl
  | cons packet packets ih =>
    rw [List.forall_mem_cons] at fits
    rw [framing_cons] at enough ⊢
    cases fuel with
    | zero => exact absurd enough (Nat.not_lt_zero _)
    | succ fuel =>
      rw [parseLoop_cons fuel fits.1]
      apply ih fits.2
      simp only [List.length_cons, List.length_append] at enough ⊢
      omega

/-- What the loop reads is packets, with at most one byte after them. -/
theorem of_parseLoop {fuel : Nat} {rest : List UInt8} {frames frames' : List Group} (enough : rest.length < fuel)
    (parsed : parseLoop fuel rest frames = .ok frames') :
    ∃ packets tail, (∀ packet ∈ packets, Fits packet) ∧ tail.length ≤ 1 ∧ rest = framing packets ++ tail ∧
      frames' = packets.foldl collect frames := by
  induction fuel generalizing rest frames with
  | zero => exact absurd enough (Nat.not_lt_zero _)
  | succ fuel ih =>
    match rest, parsed, enough with
    | [], parsed, _ =>
      cases parsed
      exact ⟨[], [], by simp, by simp, rfl, rfl⟩
    | [byte], parsed, _ =>
      cases parsed
      exact ⟨[], [byte], by simp, by simp, rfl, rfl⟩
    | high :: low :: bytes, parsed, enough =>
      unfold parseLoop at parsed
      dsimp only at parsed
      split at parsed
      · cases parsed
      · next good =>
        have shorter : (bytes.drop (readUInt16BE high low)).length < fuel := by
          rw [List.length_drop]
          simp only [List.length_cons] at enough
          omega
        obtain ⟨packets, tail, fits, short, text, result⟩ := ih shorter parsed
        have length : (bytes.take (readUInt16BE high low)).length = readUInt16BE high low := by
          by_contra other
          exact good (.inr other)
        have bounds : readUInt16BE high low < 65536 ∧ UInt8.ofNat (readUInt16BE high low / 256) = high ∧
            UInt8.ofNat (readUInt16BE high low % 256) = low := by
          have h := high.toNat_lt
          have l := low.toNat_lt
          refine ⟨?_, ?_, ?_⟩
          · unfold readUInt16BE
            omega
          · have : readUInt16BE high low / 256 = high.toNat := by
              unfold readUInt16BE
              omega
            rw [this, UInt8.ofNat_toNat]
          · have : readUInt16BE high low % 256 = low.toNat := by
              unfold readUInt16BE
              omega
            rw [this, UInt8.ofNat_toNat]
        refine ⟨⟨_, complete_of good⟩ :: packets, tail, ?_, short, ?_, result⟩
        · rw [List.forall_mem_cons]
          refine ⟨⟨?_, ?_⟩, fits⟩
          · rw [length]
            omega
          · rw [length]
            exact bounds.1
        · rw [framing_cons]
          dsimp only
          rw [length, bounds.2.1, bounds.2.2, ← text, List.take_append_drop]

/-! ## Frames -/

/-- The second timestamp is not before the first, or their gap rounds to a millisecond. -/
def Forward (a b : UInt32) : Prop := a ≤ b ∨ (b - a).toNat < 135

/-- Packets and the frames they are collected in. -/
structure Collected (packets : List RtpPacket) (frames : List Group) : Prop where
  flat : frames.flatMap (·.packets) = packets
  chain : frames.IsChain (fun a b => Forward a.timestamp b.timestamp) ↔ packets.IsChain fun a b => Forward a.timestamp b.timestamp
  last : frames.getLast?.map (·.timestamp) = packets.getLast?.map (·.timestamp)

/-- One element more in a chain of timestamps. -/
theorem isChain_concat {α : Type} (f : α → UInt32) (xs : List α) (x : α) :
    (xs ++ [x]).IsChain (fun a b => Forward (f a) (f b)) ↔
      xs.IsChain (fun a b => Forward (f a) (f b)) ∧ ∀ stamp ∈ xs.getLast?.map f, Forward stamp (f x) := by
  rw [List.isChain_append]
  simp

theorem collected_concat {packets : List RtpPacket} {frames : List Group} (h : Collected packets frames) (packet : RtpPacket) :
    Collected (packets ++ [packet]) (collect frames packet) := by
  obtain ⟨flat, chain, last⟩ := h
  have single : Collected (packets ++ [packet]) (frames ++ [.single packet]) := by
    refine ⟨?_, ?_, ?_⟩
    · rw [List.flatMap_append, flat]
      rfl
    · rw [isChain_concat Group.timestamp, isChain_concat RtpPacket.timestamp, chain, last]
      rfl
    · simp [Group.single]
  unfold collect
  split
  · next current found =>
    split
    · next same =>
      obtain ⟨front, rfl⟩ := List.getLast?_eq_some_iff.1 found
      have stamp : packets.getLast?.map (·.timestamp) = some packet.timestamp := by
        rw [← last, found, Option.map_some, same]
      rw [List.dropLast_concat]
      refine ⟨?_, ?_, ?_⟩
      · rw [← flat]
        simp [Group.push]
      · have unchanged : (front ++ [current.push packet same]).IsChain (fun a b => Forward a.timestamp b.timestamp) ↔
            (front ++ [current]).IsChain (fun a b => Forward a.timestamp b.timestamp) := by
          rw [isChain_concat Group.timestamp, isChain_concat Group.timestamp]
          rfl
        rw [unchanged, chain, isChain_concat RtpPacket.timestamp, stamp]
        simp [Forward]
      · simpa [Group.push] using same
    · exact single
  · exact single

theorem collected (packets : List RtpPacket) : Collected packets (packets.foldl collect []) := by
  induction packets using List.reverseRecOn with
  | nil => exact ⟨rfl, by simp, rfl⟩
  | append_singleton packets packet ih =>
    rw [List.foldl_append]
    exact collected_concat ih packet

/-- A frame is a keyframe when one of the packets is, of all frames together. -/
theorem Collected.joins {packets : List RtpPacket} {frames : List Group} (h : Collected packets frames) :
    frames.any (·.keyframe) = true ↔ ∃ packet ∈ packets, original packet = nalSps := by
  rw [← h.flat]
  simp only [List.any_eq_true, List.mem_flatMap]
  constructor
  · intro key
    obtain ⟨frame, mem, key⟩ := key
    rw [frame.joins] at key
    obtain ⟨packet, inside, sps⟩ := List.any_eq_true.1 key
    exact ⟨packet, ⟨frame, mem, inside⟩, eq_of_beq sps⟩
  · intro sps
    obtain ⟨packet, ⟨frame, mem, inside⟩, sps⟩ := sps
    refine ⟨frame, mem, ?_⟩
    rw [frame.joins]
    exact List.any_eq_true.2 ⟨packet, inside, beq_of_eq sps⟩

theorem parse_framing {packets : List RtpPacket} (recorded : Recorded packets) {t : List UInt8} (short : t.length ≤ 1) :
    ∃ recording, parse (framing packets ++ t) = .ok recording ∧ recording.frames = played (packets.foldl collect []) := by
  have joinable := (collected packets).joins.2 recorded.joins
  unfold parse
  rw [parseLoop_framing recorded.fits short (Nat.lt_succ_self _)]
  exact ⟨_, dif_pos joinable, rfl⟩

theorem of_parse {fixture : List UInt8} {recording : Recording} (parsed : parse fixture = .ok recording) :
    ∃ packets tail, Recorded packets ∧ tail.length ≤ 1 ∧ fixture = framing packets ++ tail ∧
      recording.frames = played (packets.foldl collect []) := by
  unfold parse at parsed
  cases loop : parseLoop (fixture.length + 1) fixture [] with
  | error e =>
    rw [loop] at parsed
    cases parsed
  | ok frames =>
    rw [loop] at parsed
    obtain ⟨packets, tail, fits, short, text, rfl⟩ := of_parseLoop (Nat.lt_succ_self _) loop
    change (if joinable : _ then _ else _) = _ at parsed
    split at parsed
    · next joinable =>
      cases parsed
      exact ⟨packets, tail, ⟨fits, (collected packets).joins.1 joinable⟩, short, text, rfl⟩
    · cases parsed

theorem RtpPacket_ext {p q : RtpPacket} (h : p.bytes = q.bytes) : p = q := by
  cases p
  cases q
  cases h
  rfl

/-- A buffer is framed in one way, but for a byte that is left over. -/
theorem framing_inj {ps qs : List RtpPacket} {t t' : List UInt8} (fits : ∀ p ∈ ps, Fits p) (fits' : ∀ q ∈ qs, Fits q)
    (short : t.length ≤ 1) (short' : t'.length ≤ 1) (same : framing ps ++ t = framing qs ++ t') : ps = qs ∧ t = t' := by
  induction ps generalizing qs with
  | nil =>
    cases qs with
    | nil => exact ⟨rfl, same⟩
    | cons q qs =>
      have := congrArg List.length same
      rw [framing_cons] at this
      simp only [framing_nil, List.nil_append, List.length_cons] at this
      omega
  | cons p ps ih =>
    cases qs with
    | nil =>
      have := congrArg List.length same
      rw [framing_cons] at this
      simp only [framing_nil, List.nil_append, List.length_cons] at this
      omega
    | cons q qs =>
      rw [List.forall_mem_cons] at fits fits'
      rw [framing_cons, framing_cons] at same
      obtain ⟨high, same⟩ := List.cons.inj same
      obtain ⟨low, same⟩ := List.cons.inj same
      have lengths : p.bytes.length = q.bytes.length := by
        have h := readUInt16BE_ofNat fits.1.2
        rw [high, low, readUInt16BE_ofNat fits'.1.2] at h
        exact h.symm
      obtain ⟨bytes, rest⟩ := List.append_inj same lengths
      obtain ⟨rfl, rfl⟩ := ih fits.2 fits'.2 rest
      exact ⟨by rw [RtpPacket_ext bytes], rfl⟩

/-! ## How long a frame is held -/

/-- The gap between two timestamps of 32 bits, in whole milliseconds and at least one. -/
def heldGap (a b : UInt32) : Nat := (max 1 (mathRound ((b - a).toNat / (clockHz / 1000)))).toNat

/-- The gap of two timestamps as `parse` computes it. -/
def readGap (a b : UInt32) : Nat := (max 1 (mathRound (((b.toNat : ℚ) - a.toNat) / (clockHz / 1000)))).toNat

theorem readGap_iff (a b : UInt32) : readGap a b = heldGap a b ↔ Forward a b := by
  have read : mathRound (((b.toNat : ℚ) - a.toNat) / (clockHz / 1000)) = ((b.toNat : ℤ) - a.toNat + 45) / 90 := by
    rw [← mathRound_ticks]
    push_cast
    rfl
  have held : mathRound ((b - a).toNat / (clockHz / 1000)) = (((b - a).toNat : ℤ) + 45) / 90 := mathRound_ticks _
  unfold readGap heldGap Forward
  rw [read, held, UInt32.le_iff_toNat_le]
  have difference := UInt32.toNat_sub b a
  have := a.toNat_lt
  have := b.toNat_lt
  omega

theorem delay_of {frames : List Group} {index : Nat} {frame next : Group} (here : frames[index]? = some frame)
    (there : frames[index + 1]? = some next) : delay (gaps frames) index = readGap frame.timestamp next.timestamp := by
  have gap : (gaps frames)[index]? = some (((next.timestamp.toNat : ℚ) - frame.timestamp.toNat) / (clockHz / 1000)) := by
    rw [gaps, List.getElem?_zipWith, List.getElem?_tail, here, there]
  rw [delay, gap, Option.getD_some, readGap]

/-- Each frame but the last is held for the gap to the next. -/
def Holds (frames : List Frame) : Prop :=
  ∀ i frame next, frames[i]? = some frame → frames[i + 1]? = some next → ∀ p ∈ frame.packets, ∀ q ∈ next.packets,
    frame.delayMs = heldGap p.timestamp q.timestamp

theorem holds_iff (frames : List Group) :
    Holds (played frames) ↔ frames.IsChain fun a b => Forward a.timestamp b.timestamp := by
  rw [List.isChain_iff_getElem]
  constructor
  · intro holds i small
    have here := List.getElem?_eq_getElem (Nat.lt_of_succ_lt small)
    have there := List.getElem?_eq_getElem small
    set frame := frames[i]
    set next := frames[i + 1]
    obtain ⟨p, inside⟩ := List.exists_mem_of_ne_nil _ frame.some
    obtain ⟨q, inside'⟩ := List.exists_mem_of_ne_nil _ next.some
    have held := holds i _ _ (by rw [played_getElem?, here]; rfl) (by rw [played_getElem?, there]; rfl) p inside q inside'
    rw [← readGap_iff, ← delay_of here there, ← frame.stamped p inside, ← next.stamped q inside']
    exact held
  · intro chain i frame next here there p inside q inside'
    rw [played_getElem?] at here there
    obtain ⟨group, found, rfl⟩ := Option.map_eq_some_iff.1 here
    obtain ⟨group', found', rfl⟩ := Option.map_eq_some_iff.1 there
    obtain ⟨small, rfl⟩ := List.getElem?_eq_some_iff.1 found
    obtain ⟨small', rfl⟩ := List.getElem?_eq_some_iff.1 found'
    have forward := (readGap_iff _ _).2 (chain i small')
    rw [(frames[i]).stamped p inside, (frames[i + 1]).stamped q inside', ← forward]
    exact delay_of found found'

/-! ## A recording read as it was made -/

/-- `parse` accepts exactly the recordings, the frames are held as recorded, and the player
plays them as one stream. -/
structure Faithful (fixture : List UInt8) : Prop where
  accepts : (∃ recording, parse fixture = .ok recording) ↔ ∃ packets, Recorded packets ∧ fixture = framing packets
  holds : ∀ recording, parse fixture = .ok recording → Holds recording.frames
  plays : ∀ p, start fixture = .ok p → Playback p

/-- No recording with one byte more, and no recording whose timestamps go back over a gap
of more than a millisecond. -/
structure Unbroken (fixture : List UInt8) : Prop where
  whole : ∀ packets stray, Recorded packets → fixture ≠ framing packets ++ [stray]
  forward : ∀ packets, Recorded packets → fixture = framing packets →
    packets.IsChain fun a b => Forward a.timestamp b.timestamp

theorem Faithful.whole {packets : List RtpPacket} {stray : UInt8} (h : Faithful (framing packets ++ [stray])) :
    ¬Recorded packets := by
  intro recorded
  obtain ⟨recording, parsed, -⟩ := parse_framing recorded (t := [stray]) (Nat.le_refl _)
  obtain ⟨packets', recorded', same⟩ := h.accepts.1 ⟨recording, parsed⟩
  rw [← List.append_nil (framing packets')] at same
  cases (framing_inj recorded.fits recorded'.fits (Nat.le_refl _) (Nat.zero_le _) same).2

theorem Faithful.forward {packets : List RtpPacket} (h : Faithful (framing packets)) (recorded : Recorded packets) :
    packets.IsChain fun a b => Forward a.timestamp b.timestamp := by
  obtain ⟨recording, parsed, frames⟩ := parse_framing recorded (t := []) (Nat.zero_le _)
  rw [List.append_nil] at parsed
  have held := h.holds recording parsed
  rw [frames, holds_iff] at held
  exact (collected packets).chain.1 held

theorem faithful_iff (fixture : List UInt8) : Faithful fixture ↔ Unbroken fixture := by
  constructor
  · intro faithful
    constructor
    · rintro packets stray recorded rfl
      exact faithful.whole recorded
    · rintro packets recorded rfl
      exact faithful.forward recorded
  · rintro ⟨whole, forward⟩
    have read : ∀ recording, parse fixture = .ok recording →
        ∃ packets, Recorded packets ∧ fixture = framing packets ∧ recording.frames = played (packets.foldl collect []) := by
      intro recording parsed
      obtain ⟨packets, tail, recorded, short, text, frames⟩ := of_parse parsed
      match tail, short with
      | [], _ => exact ⟨packets, recorded, by rw [text, List.append_nil], frames⟩
      | [stray], _ => exact absurd text (whole packets stray recorded)
    refine ⟨⟨?_, ?_⟩, ?_, fun p started => (start_playing started).playback⟩
    · rintro ⟨recording, parsed⟩
      obtain ⟨packets, recorded, text, -⟩ := read recording parsed
      exact ⟨packets, recorded, text⟩
    · rintro ⟨packets, recorded, rfl⟩
      obtain ⟨recording, parsed, -⟩ := parse_framing recorded (t := []) (Nat.zero_le _)
      exact ⟨recording, by rwa [List.append_nil] at parsed⟩
    · intro recording parsed
      obtain ⟨packets, recorded, text, frames⟩ := read recording parsed
      rw [frames, holds_iff, (collected packets).chain]
      exact forward packets recorded text

/-- A packet of 13 bytes with a timestamp and a type of NAL unit. -/
def shortPacket (timestamp : UInt32) (type : UInt8) : RtpPacket :=
  (⟨List.replicate 12 0 ++ [type], by simp⟩ : RtpPacket).withTimestamp timestamp

/-- A recording with one byte too many is accepted; and one that crosses the wrap of its
timestamps 3000 ticks on holds the frame for one millisecond. -/
theorem not_faithful :
    ¬Faithful (framing [shortPacket 0 7] ++ [0]) ∧ ¬Faithful (framing [shortPacket 4294966296 7, shortPacket 2000 7]) := by
  have recorded : ∀ packets, (∀ p ∈ packets, Fits p ∧ original p = nalSps) → packets ≠ [] → Recorded packets := by
    intro packets each some
    obtain ⟨p, mem⟩ := List.exists_mem_of_ne_nil _ some
    exact ⟨fun p mem => (each p mem).1, p, mem, (each p mem).2⟩
  have fits : ∀ stamp, Fits (shortPacket stamp 7) := by
    intro stamp
    simp [Fits, shortPacket, RtpPacket.withTimestamp, writeUInt32BE, rtpHeaderBytes]
  constructor
  · intro faithful
    apply faithful.whole
    apply recorded _ _ (List.cons_ne_nil _ _)
    intro p mem
    obtain rfl := List.mem_singleton.1 mem
    exact ⟨fits 0, by decide⟩
  · intro faithful
    have chain := faithful.forward (recorded _ ?_ (List.cons_ne_nil _ _))
    · have first : (shortPacket 4294966296 7).timestamp = 4294966296 := by decide
      have second : (shortPacket 2000 7).timestamp = 2000 := by decide
      have step := (List.isChain_cons_cons.1 chain).1
      rw [Forward, first, second] at step
      revert step
      decide
    · intro p mem
      simp only [List.mem_cons, List.not_mem_nil, or_false] at mem
      rcases mem with rfl | rfl
      · exact ⟨fits _, by decide⟩
      · exact ⟨fits _, by decide⟩

end RosBridge.Media.Fixture
