import Mathlib.Data.List.Infix
import RosBridge.Lib.Chunks
import RosBridge.Lib.Program
/-!
# RTP packets from a worker

`frames` of `media/worker.ts` and the `write` of `media_worker.py` that it reads: each
packet is preceded by its length in two bytes. A feed adds a chunk to what is pending
and delivers every complete packet.
-/

namespace RosBridge.Media

open Lib Prog

def minPacketBytes : Nat := 12

def maxPacketBytes : Nat := 1500

/-- `struct.pack('>H', len(packet)) + packet`, which fails for a length of more than 16 bits. -/
def write (packet : List UInt8) : Option (List UInt8) :=
  if packet.length < 65536 then
    some (UInt8.ofNat (packet.length / 256) :: UInt8.ofNat (packet.length % 256) :: packet)
  else none

/-- `readUInt16BE(0)` of a buffer that starts with these bytes. -/
def readUInt16BE (high low : UInt8) : Nat := 256 * high.toNat + low.toNat

/-- What stands at the front of the pending bytes. -/
def frame : List UInt8 → Front UInt8 (List UInt8) String
  | high :: low :: bytes =>
    let length := readUInt16BE high low
    if length < minPacketBytes ∨ length > maxPacketBytes then .invalid "worker sent an out-of-range RTP length"
    else if bytes.length < length then .short
    else .item (bytes.take length) (bytes.drop length)
  | _ => .short

/-- What a deframer holds, with the packets it has delivered. -/
structure Deframer where
  pending : List UInt8
  packets : List (List UInt8)

def Deframer.start : Deframer := ⟨[], []⟩

/-- The loop of a feed; it ends before `fuel` does when that exceeds the bytes pending. -/
def deliverLoop : Nat → Prog Deframer String Unit
  | 0 => pure ()
  | fuel + 1 => do
    match frame (← get).pending with
    | .short => pure ()
    | .invalid e => throw e
    | .item packet rest =>
      modify fun d => ⟨rest, d.packets ++ [packet]⟩
      deliverLoop fuel

/-- The function that `frames` returns. -/
def feed (chunk : List UInt8) : Prog Deframer String Unit := do
  modify fun d => { d with pending := d.pending ++ chunk }
  deliverLoop ((← get).pending.length + 1)

/-- Feed chunks one after the other; whether each feed returned. -/
def feeds : List (List UInt8) → Deframer → List (Except String Unit) × Deframer
  | [], d => ([], d)
  | chunk :: chunks, d =>
    let fed := (feed chunk).exec d
    let rest := feeds chunks fed.2
    (fed.1 :: rest.1, rest.2)

/-! ## Reading -/

theorem frame_length {xs packet rest : List UInt8} (h : frame xs = .item packet rest) :
    minPacketBytes ≤ packet.length ∧ packet.length ≤ maxPacketBytes ∧ rest.length < xs.length := by
  unfold frame at h
  split at h
  · next high low bytes =>
    dsimp only at h
    split_ifs at h with bad short
    obtain ⟨rfl, rfl⟩ := Front.item.inj h
    simp only [List.length_take, List.length_drop, List.length_cons]
    omega
  · cases h

theorem frame_append (ys : List UInt8) {xs packet rest : List UInt8} (h : frame xs = .item packet rest) :
    frame (xs ++ ys) = .item packet (rest ++ ys) := by
  unfold frame at h
  split at h
  · next high low bytes =>
    dsimp only at h
    split_ifs at h with bad short
    obtain ⟨rfl, rfl⟩ := Front.item.inj h
    have enough : readUInt16BE high low ≤ bytes.length := Nat.le_of_not_lt short
    have long : ¬(bytes ++ ys).length < readUInt16BE high low := by
      rw [List.length_append]
      omega
    rw [List.cons_append, List.cons_append, frame, if_neg bad, if_neg long, List.take_append_of_le_length enough,
      List.drop_append_of_le_length enough]
  · cases h

theorem frame_invalid_append (ys : List UInt8) {xs : List UInt8} {e : String} (h : frame xs = .invalid e) :
    frame (xs ++ ys) = .invalid e := by
  unfold frame at h
  split at h
  · next high low bytes =>
    dsimp only at h
    split_ifs at h with bad short
    rw [List.cons_append, List.cons_append, frame, if_pos bad]
    exact h
  · cases h

/-- The format of the stream of a worker. -/
def framing : Cutter UInt8 (List UInt8) String where
  cut := frame
  shrinks h := (frame_length h).2.2
  item_append ys h := frame_append ys h
  invalid_append ys h := frame_invalid_append ys h

/-- What a feed comes to. -/
def Outcome (e : Option String) : Except String Unit :=
  match e with
  | none => .ok ()
  | some e => .error e

/-- The loop reads what is pending. -/
theorem deliverLoop_reads (fuel : Nat) (d : Deframer) (enough : d.pending.length < fuel) :
    ∃ packets e left, Reads framing d.pending packets e left ∧
      (deliverLoop fuel).exec d = (Outcome e, ⟨left, d.packets ++ packets⟩) := by
  induction fuel generalizing d with
  | zero => omega
  | succ fuel ih =>
    have here : (get : Prog Deframer String Deframer).exec d = (.ok d, d) := rfl
    rw [deliverLoop, exec_bind_ok here]
    cases h : frame d.pending with
    | short => exact ⟨[], none, d.pending, .short h, by simp [Outcome]⟩
    | invalid e => exact ⟨[], some e, d.pending, .invalid h, by simp [Outcome]⟩
    | item packet rest =>
      have shorter := (frame_length h).2.2
      obtain ⟨packets, e, left, reads, ends⟩ := ih ⟨rest, d.packets ++ [packet]⟩ (by dsimp only; omega)
      refine ⟨packet :: packets, e, left, .item h reads, ?_⟩
      have moved : (modify fun d => ⟨rest, d.packets ++ [packet]⟩ : Prog Deframer String Unit).exec d =
        (.ok (), ⟨rest, d.packets ++ [packet]⟩) := rfl
      dsimp only
      rw [exec_bind_ok moved, ends]
      simp

theorem feed_reads (chunk : List UInt8) (d : Deframer) :
    ∃ packets e left, Reads framing (d.pending ++ chunk) packets e left ∧
      (feed chunk).exec d = (Outcome e, ⟨left, d.packets ++ packets⟩) := by
  set d' : Deframer := { d with pending := d.pending ++ chunk } with hd'
  have added : (modify fun d => { d with pending := d.pending ++ chunk } : Prog Deframer String Unit).exec d = (.ok (), d') := rfl
  have here : (get : Prog Deframer String Deframer).exec d' = (.ok d', d') := rfl
  obtain ⟨packets, e, left, reads, ends⟩ := deliverLoop_reads (d'.pending.length + 1) d' (Nat.lt_succ_self _)
  refine ⟨packets, e, left, reads, ?_⟩
  rw [feed, exec_bind_ok added, exec_bind_ok here, ends]

/-- A deframer that has been given the stream `s`. -/
def Deframer.Given (d : Deframer) (s : List UInt8) (e : Option String) : Prop := Reads framing s d.packets e d.pending

theorem start_given : Deframer.start.Given [] none := .short rfl

theorem feed_given {d : Deframer} {s : List UInt8} {e : Option String} (h : d.Given s e) (chunk : List UInt8) :
    ∃ e', ((feed chunk).exec d).2.Given (s ++ chunk) e' ∧ ((feed chunk).exec d).1 = Outcome e' := by
  obtain ⟨packets, e', left, reads, ends⟩ := feed_reads chunk d
  rw [ends]
  cases e with
  | none => exact ⟨e', h.append reads, rfl⟩
  | some err =>
    -- The invalid length is still in front, so the feed delivers nothing.
    obtain ⟨rfl, rfl, rfl⟩ := reads.unique (h.again.stuck chunk)
    refine ⟨some err, ?_, rfl⟩
    have stuck := h.stuck chunk
    rw [Deframer.Given, List.append_nil]
    exact stuck

/-- Every feed comes to what reading the stream so far at once comes to. -/
theorem feeds_given {d : Deframer} {s : List UInt8} {e : Option String} (h : d.Given s e) (chunks : List (List UInt8)) :
    (∃ e', (feeds chunks d).2.Given (s ++ chunks.flatten) e') ∧ (feeds chunks d).1.length = chunks.length ∧
      ∀ i < chunks.length, ∃ (d' : Deframer) (e' : Option String),
        d'.Given (s ++ (chunks.take (i + 1)).flatten) e' ∧ (feeds chunks d).1[i]? = some (Outcome e') := by
  induction chunks generalizing d s e with
  | nil =>
    refine ⟨⟨e, ?_⟩, rfl, fun i hi => absurd hi (Nat.not_lt_zero i)⟩
    rw [List.flatten_nil, List.append_nil]
    exact h
  | cons chunk chunks ih =>
    obtain ⟨e₁, given, outcome⟩ := feed_given h chunk
    obtain ⟨⟨e', all⟩, length, each⟩ := ih given
    refine ⟨⟨e', ?_⟩, congrArg Nat.succ length, fun i hi => ?_⟩
    · rw [List.flatten_cons, ← List.append_assoc]
      exact all
    · cases i with
      | zero =>
        refine ⟨((feed chunk).exec d).2, e₁, ?_, congrArg some outcome⟩
        rw [List.take_succ_cons, List.take_zero, List.flatten_singleton]
        exact given
      | succ i =>
        obtain ⟨d', e₂, given', found⟩ := each i (Nat.lt_of_succ_lt_succ hi)
        refine ⟨d', e₂, ?_, found⟩
        rw [List.take_succ_cons, List.flatten_cons, ← List.append_assoc]
        exact given'

/-- The stream a deframer has been given determines it. -/
theorem Deframer.Given.unique {d d' : Deframer} {s : List UInt8} {e e' : Option String} (h : d.Given s e) (h' : d'.Given s e') :
    d = d' ∧ e = e' := by
  obtain ⟨packets, error, left⟩ := Reads.unique h h'
  refine ⟨?_, error⟩
  cases d
  cases d'
  simp_all

/-! ## What a worker writes -/

theorem readUInt16BE_ofNat {n : Nat} (h : n < 65536) : readUInt16BE (UInt8.ofNat (n / 256)) (UInt8.ofNat (n % 256)) = n := by
  simp only [readUInt16BE, UInt8.toNat_ofNat']
  omega

/-- A packet of a permitted length. -/
def Framed (packet : List UInt8) : Prop := minPacketBytes ≤ packet.length ∧ packet.length ≤ maxPacketBytes

instance (packet : List UInt8) : Decidable (Framed packet) := inferInstanceAs (Decidable (_ ∧ _))

/-- A written packet is read back. -/
theorem frame_write {packet bytes : List UInt8} (framed : Framed packet) (written : write packet = some bytes) (rest : List UInt8) :
    frame (bytes ++ rest) = .item packet rest := by
  obtain ⟨lower, upper⟩ := framed
  unfold write at written
  split at written
  · next small =>
    obtain rfl := Option.some.inj written
    have length := readUInt16BE_ofNat small
    rw [List.cons_append, List.cons_append, frame, length, if_neg (by omega), if_neg (by simp), List.take_left, List.drop_left]
  · cases written

/-- Written packets are read before whatever follows them. -/
theorem reads_written {packets framings : List (List UInt8)} (framed : ∀ packet ∈ packets, Framed packet)
    (written : packets.mapM write = some framings) {tail left : List UInt8} {more : List (List UInt8)} {e : Option String}
    (reads : Reads framing tail more e left) : Reads framing (framings.flatten ++ tail) (packets ++ more) e left := by
  induction packets generalizing framings with
  | nil =>
    obtain rfl : framings = [] := by simpa using written
    exact reads
  | cons packet packets ih =>
    rw [List.mapM_cons] at written
    obtain ⟨bytes, first, written⟩ := Option.bind_eq_some_iff.1 written
    obtain ⟨others, following, written⟩ := Option.bind_eq_some_iff.1 written
    obtain rfl := Option.some.inj written
    rw [List.flatten_cons, List.append_assoc]
    refine .item (frame_write (framed packet List.mem_cons_self) first _) (ih ?_ following)
    exact fun p hp => framed p (List.mem_cons_of_mem _ hp)

/-! ## A length out of range -/

/-- Two bytes that are no length of a packet. -/
def OutOfRange (high low : UInt8) : Prop := readUInt16BE high low < minPacketBytes ∨ readUInt16BE high low > maxPacketBytes

instance (high low : UInt8) : Decidable (OutOfRange high low) := inferInstanceAs (Decidable (_ ∨ _))

def rangeError : String := "worker sent an out-of-range RTP length"

theorem frame_outOfRange {high low : UInt8} (bad : OutOfRange high low) (rest : List UInt8) :
    frame (high :: low :: rest) = .invalid rangeError := by
  rw [frame]
  exact if_pos bad

/-- A written packet of no permitted length stays in the way. -/
theorem frame_write_unframed {packet bytes : List UInt8} (unframed : ¬Framed packet) (written : write packet = some bytes)
    (rest : List UInt8) : frame (bytes ++ rest) = .invalid rangeError := by
  unfold write at written
  split at written
  · next small =>
    obtain rfl := Option.some.inj written
    have bad : OutOfRange (UInt8.ofNat (packet.length / 256)) (UInt8.ofNat (packet.length % 256)) := by
      unfold OutOfRange
      rw [readUInt16BE_ofNat small]
      unfold Framed at unframed
      omega
    exact frame_outOfRange bad (packet ++ rest)
  · cases written

theorem two_le_of_invalid {xs : List UInt8} {e : String} (h : frame xs = .invalid e) : 2 ≤ xs.length := by
  unfold frame at h
  split at h
  · simp
  · cases h

section Bad

variable {packets framings : List (List UInt8)} (framed : ∀ packet ∈ packets, Framed packet)
  (written : packets.mapM write = some framings) {high low : UInt8} (bad : OutOfRange high low) {rest p q : List UInt8}

include framed written bad

/-- A stream that contains the length is stuck there. -/
theorem reads_bad (rest : List UInt8) :
    Reads framing (framings.flatten ++ high :: low :: rest) packets (some rangeError) (high :: low :: rest) := by
  have tail : Reads framing (high :: low :: rest) [] (some rangeError) (high :: low :: rest) :=
    .invalid (frame_outOfRange bad rest)
  have whole := reads_written framed written tail
  rwa [List.append_nil] at whole

/-- Before the length is complete nothing is wrong. -/
theorem reads_before {ps : List (List UInt8)} {e : Option String} {left : List UInt8}
    (cut : p ++ q = framings.flatten ++ high :: low :: rest) (short : p.length < framings.flatten.length + 2)
    (reads : Reads framing p ps e left) : e = none := by
  cases e with
  | none => rfl
  | some err =>
    have stuck := reads.stuck q
    rw [cut] at stuck
    obtain ⟨-, -, same⟩ := stuck.unique (reads_bad framed written bad rest)
    have two : 2 ≤ left.length := by
      cases reads.again with
      | invalid cut => exact two_le_of_invalid cut
    have lengths := congrArg List.length cut
    have lefts := congrArg List.length same
    simp only [List.length_append, List.length_cons] at lengths lefts
    omega

/-- From then on nothing is read. -/
theorem reads_after {ps : List (List UInt8)} {e : Option String} {left : List UInt8}
    (cut : p ++ q = framings.flatten ++ high :: low :: rest) (long : framings.flatten.length + 2 ≤ p.length)
    (reads : Reads framing p ps e left) : ps = packets ∧ e = some rangeError := by
  -- The bytes given include the length that is out of range.
  obtain ⟨more, rfl⟩ : ∃ more, p = framings.flatten ++ high :: low :: more := by
    rw [List.append_eq_append_iff] at cut
    rcases cut with ⟨as, framings_eq, -⟩ | ⟨bs, rfl, tail⟩
    · have := congrArg List.length framings_eq
      rw [List.length_append] at this
      omega
    · cases bs with
      | nil =>
        rw [List.append_nil] at long
        omega
      | cons b bs =>
        cases bs with
        | nil =>
          rw [List.length_append, List.length_singleton] at long
          omega
        | cons b' bs =>
          obtain ⟨rfl, rfl, -⟩ : high = b ∧ low = b' ∧ rest = bs ++ q := by simpa using tail
          exact ⟨bs, rfl⟩
  obtain ⟨rfl, rfl, -⟩ := reads.unique (reads_bad framed written bad more)
  exact ⟨rfl, rfl⟩

end Bad

/-- What a worker writes is read up to the first packet of no permitted length. -/
theorem reads_all_written {packets framings : List (List UInt8)} (written : packets.mapM write = some framings) :
    ∃ e left, Reads framing framings.flatten (packets.takeWhile (Framed ·)) e left ∧
      ∀ err, e = some err → err = rangeError ∧ ∃ packet ∈ packets, ¬Framed packet := by
  induction packets generalizing framings with
  | nil =>
    obtain rfl : framings = [] := by simpa using written
    exact ⟨none, [], .short rfl, by simp⟩
  | cons packet packets ih =>
    rw [List.mapM_cons] at written
    obtain ⟨bytes, first, written⟩ := Option.bind_eq_some_iff.1 written
    obtain ⟨others, following, written⟩ := Option.bind_eq_some_iff.1 written
    obtain rfl := Option.some.inj written
    rw [List.flatten_cons]
    by_cases framed : Framed packet
    · obtain ⟨e, left, reads, invalid⟩ := ih following
      rw [List.takeWhile_cons, decide_eq_true framed]
      refine ⟨e, left, .item (frame_write framed first _) reads, fun err some => ?_⟩
      obtain ⟨same, bad, mem, unframed⟩ := invalid err some
      exact ⟨same, bad, List.mem_cons_of_mem _ mem, unframed⟩
    · rw [List.takeWhile_cons, decide_eq_false framed]
      refine ⟨some rangeError, _, .invalid (frame_write_unframed framed first _), fun err some => ?_⟩
      exact ⟨(Option.some.inj some).symm, packet, List.mem_cons_self, framed⟩

/-! ## Any chunking -/

/-- Written packets are delivered however they are cut; the packets and what is pending
depend on the stream alone; and from the feed that completes a length out of range on
every feed throws and delivers nothing. -/
theorem frames_any_chunking :
    (∀ packets framings chunks, (∀ packet ∈ packets, Framed packet) → packets.mapM write = some framings →
      chunks.flatten = framings.flatten →
        (feeds chunks .start).2 = ⟨[], packets⟩ ∧ ∀ outcome ∈ (feeds chunks .start).1, outcome = .ok ()) ∧
    (∀ chunks chunks', chunks.flatten = chunks'.flatten → (feeds chunks .start).2 = (feeds chunks' .start).2) ∧
    ∀ packets framings high low rest pre chunk post, (∀ packet ∈ packets, Framed packet) → packets.mapM write = some framings →
      OutOfRange high low → (pre ++ chunk :: post).flatten = framings.flatten ++ high :: low :: rest →
      pre.flatten.length < framings.flatten.length + 2 → framings.flatten.length + 2 ≤ (pre ++ [chunk]).flatten.length →
        (feeds (pre ++ chunk :: post) .start).1 =
          List.replicate pre.length (.ok ()) ++ List.replicate (post.length + 1) (.error rangeError) ∧
        (feeds (pre ++ [chunk]) .start).2.packets = packets ∧ (feeds (pre ++ chunk :: post) .start).2.packets = packets := by
  refine ⟨fun packets framings chunks framed written cut => ?_, fun chunks chunks' cut => ?_,
    fun packets framings high low rest pre chunk post framed written bad cut short long => ?_⟩
  -- Every framing is given: an error would have been thrown by the whole, too.
  · have whole := reads_written framed written (.short rfl : Reads framing [] [] none [])
    rw [List.append_nil, List.append_nil] at whole
    have delivered : (⟨[], packets⟩ : Deframer).Given chunks.flatten none := cut ▸ whole
    obtain ⟨⟨e, all⟩, length, each⟩ := feeds_given start_given chunks
    refine ⟨(all.unique delivered).1, fun outcome mem => ?_⟩
    obtain ⟨i, hi, rfl⟩ := List.mem_iff_getElem.1 mem
    obtain ⟨d, e', given, found⟩ := each i (length ▸ hi)
    rw [List.getElem?_eq_getElem hi] at found
    rw [Option.some.inj found]
    cases e' with
    | none => rfl
    | some err =>
      have stuck := Reads.stuck given (chunks.drop (i + 1)).flatten
      rw [List.nil_append, ← List.flatten_append, List.take_append_drop] at stuck
      cases (stuck.unique delivered).2.1
  · obtain ⟨⟨e, all⟩, -⟩ := feeds_given start_given chunks
    obtain ⟨⟨e', all'⟩, -⟩ := feeds_given start_given chunks'
    rw [cut] at all
    exact (all.unique all').1
  · have after : ∀ chunks q, chunks.flatten ++ q = framings.flatten ++ high :: low :: rest →
        framings.flatten.length + 2 ≤ chunks.flatten.length → (feeds chunks .start).2.packets = packets := by
      intro chunks q cut long
      obtain ⟨⟨e, all⟩, -⟩ := feeds_given start_given chunks
      exact (reads_after framed written bad cut long all).1
    have longer : (pre ++ [chunk]).flatten.length ≤ (pre ++ chunk :: post).flatten.length := by simp
    refine ⟨?_, after _ post.flatten ?_ long, after _ [] ?_ (Nat.le_trans long longer)⟩
    · obtain ⟨-, length, each⟩ := feeds_given start_given (pre ++ chunk :: post)
      apply List.ext_getElem?
      intro i
      by_cases hi : i < (pre ++ chunk :: post).length
      · obtain ⟨d, e, given, found⟩ := each i hi
        rw [found]
        have whole : ((pre ++ chunk :: post).take (i + 1)).flatten ++ ((pre ++ chunk :: post).drop (i + 1)).flatten =
            framings.flatten ++ high :: low :: rest := by
          rw [← List.flatten_append, List.take_append_drop, cut]
        -- The chunks before the length is complete, and those from there on.
        by_cases early : i < pre.length
        · have within : ((pre ++ chunk :: post).take (i + 1)).flatten.length ≤ pre.flatten.length := by
            rw [List.take_append_of_le_length early]
            exact (List.take_prefix (i + 1) pre).flatten.length_le
          have fine := reads_before framed written bad whole (Nat.lt_of_le_of_lt within short) given
          rw [fine, List.getElem?_append_left (by simpa using early), List.getElem?_replicate_of_lt early]
          rfl
        · have prefixed : (pre ++ [chunk]) <+: (pre ++ chunk :: post).take (i + 1) := by
            rw [List.prefix_take_iff]
            exact ⟨⟨post, by simp⟩, by simp; omega⟩
          have thrown := reads_after framed written bad whole (Nat.le_trans long prefixed.flatten.length_le) given
          have late : i - pre.length < post.length + 1 := by
            rw [List.length_append, List.length_cons] at hi
            omega
          rw [thrown.2, List.getElem?_append_right (by simpa using early), List.length_replicate,
            List.getElem?_replicate_of_lt late]
          rfl
      · rw [List.getElem?_eq_none (by omega), List.getElem?_eq_none]
        simp at hi ⊢
        omega
    · rw [← cut]
      simp
    · rw [← cut, List.append_nil]

/-- One packet cut inside its length, then a length of 5. -/
theorem frames_any_chunking_cut :
    (feeds [[0], [12, 7], List.replicate 11 7] .start).2 = ⟨[], [List.replicate 12 7]⟩ ∧
      (feeds [[0], 12 :: List.replicate 12 7 ++ [0], [5], [0, 12]] .start).1 =
        [.ok (), .ok (), .error rangeError, .error rangeError] ∧
      (feeds [[0], 12 :: List.replicate 12 7 ++ [0], [5], [0, 12]] .start).2.packets = [List.replicate 12 7] := by
  have framed : ∀ packet ∈ [List.replicate 12 (7 : UInt8)], Framed packet := by decide
  have written : [List.replicate 12 (7 : UInt8)].mapM write = some [0 :: 12 :: List.replicate 12 7] := by decide
  have bad := frames_any_chunking.2.2 _ _ 0 5 [0, 12] [[0], 12 :: List.replicate 12 7 ++ [0]] [5] [[0, 12]] framed written
    (by decide) (by decide) (by decide) (by decide)
  exact ⟨(frames_any_chunking.1 _ _ [[0], [12, 7], List.replicate 11 7] framed written (by decide)).1, bad.1, bad.2.2⟩

end RosBridge.Media
