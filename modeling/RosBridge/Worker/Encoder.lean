import Mathlib.Data.List.GetD
import Mathlib.Data.Nat.Bitwise
import Mathlib.Tactic.Common
/-!
# Frames for the encoder

`Encoder.push` of `media_worker.py`. A frame has three strides: the tight one of its
pixels, the one that ROS pads to and the one of the negotiated caps, aligned to four
bytes. What the pipeline does with a buffer belongs to GStreamer: `Appsrc` is what it
says about itself and about a buffer.
-/

namespace RosBridge.Worker

/-- `sensor_msgs/msg/Image`. -/
structure Image where
  encoding : String
  width : Nat
  height : Nat
  isBigendian : Nat
  step : Nat
  data : List UInt8

/-- The answers of appsrc during one push. -/
structure Appsrc where
  currentLevelBuffers : Nat
  maxBuffers : Nat
  /-- `push-buffer` returns `Gst.FlowReturn.OK`. -/
  accepts : Bool

structure Encoder where
  encodingName : String
  bytesPerPixel : Nat
  width : Nat
  height : Nat
  framesIn : Nat
  framesInvalid : Nat
  framesDropped : Nat
  /-- The buffers handed to appsrc, in order. -/
  pushed : List (List UInt8)

/-- ROS image encodings this worker accepts, with their bytes per pixel. -/
def encodings : List (String × Nat) := [("rgb8", 3), ("bgr8", 3), ("mono8", 1)]

namespace Encoder

/-- The encoder of one track before its first frame; `none` for an encoding that is not in
the table. -/
def create (encoding : String) (width height : Nat) : Option Encoder :=
  (encodings.lookup encoding).map fun bytesPerPixel => ⟨encoding, bytesPerPixel, width, height, 0, 0, 0, []⟩

def expectedStep (e : Encoder) : Nat := e.width * e.bytesPerPixel

/-- `(expected_step + 3) & ~3`. -/
def gstStep (e : Encoder) : Nat := Nat.ldiff (e.expectedStep + 3) 3

/-- `data[start:stop]`. -/
def slice (data : List UInt8) (start stop : Nat) : List UInt8 := (data.drop start).take (stop - start)

/-- Replace ROS row padding with the stride required by the negotiated caps. -/
def repack (e : Encoder) (step : Nat) (data : List UInt8) : List UInt8 :=
  let padding := List.replicate (e.gstStep - e.expectedStep) 0
  (List.range e.height).flatMap fun row => slice data (row * step) (row * step + e.expectedStep) ++ padding

/-- What `push` checks of a message. -/
def Refuses (e : Encoder) (message : Image) : Prop :=
  message.encoding ≠ e.encodingName ∨ message.width ≠ e.width ∨ message.height ≠ e.height ∨ message.isBigendian ≠ 0 ∨
    message.step < e.expectedStep ∨ message.data.length ≠ message.step * message.height

instance (e : Encoder) (message : Image) : Decidable (e.Refuses message) := by
  unfold Refuses
  infer_instance

/-- The buffer of a valid message. -/
def bufferOf (e : Encoder) (message : Image) : List UInt8 :=
  if message.step ≠ e.gstStep then e.repack message.step message.data else message.data

/-- Validate one ROS image and hand it to the encoder. -/
def push (e : Encoder) (source : Appsrc) (message : Image) : Bool × Encoder :=
  let e := { e with framesIn := e.framesIn + 1 }
  if e.Refuses message then (false, { e with framesInvalid := e.framesInvalid + 1 })
  else
    let data := e.bufferOf message
    -- A queue already at its limit means this push displaces the frame in it.
    let e := if source.currentLevelBuffers ≥ source.maxBuffers then { e with framesDropped := e.framesDropped + 1 } else e
    let e := { e with pushed := e.pushed ++ [data] }
    if source.accepts then (true, e) else (false, { e with framesInvalid := e.framesInvalid + 1 })

/-- The frames of a run, one after the other, with what `push` returned for each. -/
def pushAll (e : Encoder) : List (Appsrc × Image) → List Bool × Encoder
  | [] => ([], e)
  | (source, message) :: rest =>
    let first := e.push source message
    let others := first.2.pushAll rest
    (first.1 :: others.1, others.2)

/-! ## Strides -/

section Strides

variable (e : Encoder)

theorem gstStep_eq : e.gstStep = (e.expectedStep + 3) / 4 * 4 := by
  unfold gstStep
  refine Nat.eq_of_testBit_eq fun i => ?_
  have four : (e.expectedStep + 3) / 4 * 4 = ((e.expectedStep + 3) >>> 2) <<< 2 := by
    rw [Nat.shiftRight_eq_div_pow, Nat.shiftLeft_eq]
  rw [four, Nat.testBit_ldiff, Nat.testBit_shiftLeft, Nat.testBit_shiftRight]
  have low : Nat.testBit 3 i = decide (i < 2) := by
    have := Nat.testBit_two_pow_sub_one 2 i
    simpa using this
  rw [low]
  by_cases h : i < 2
  · simp [h]
  · have up : 2 + (i - 2) = i := by omega
    simp [h, up, not_lt.1 h]

/-- The least multiple of four that holds the pixels of a row. -/
theorem gstStep_least : e.expectedStep ≤ e.gstStep ∧ 4 ∣ e.gstStep ∧ ∀ n, 4 ∣ n → e.expectedStep ≤ n → e.gstStep ≤ n := by
  rw [gstStep_eq]
  refine ⟨by omega, by omega, ?_⟩
  intro n divides fits
  omega

theorem length_rows {α : Type} {row : Nat → List α} {stride height : Nat} (lengths : ∀ r < height, (row r).length = stride) :
    ((List.range height).flatMap row).length = height * stride := by
  induction height with
  | zero => simp
  | succ height ih =>
    rw [List.range_succ, List.flatMap_append, List.flatMap_singleton, List.length_append, ih fun r h => lengths r (by omega),
      lengths height (by omega), Nat.succ_mul]

/-- Byte `c` of row `r`, in rows of one length. -/
theorem getElem?_rows {α : Type} {row : Nat → List α} {stride height : Nat} (lengths : ∀ r < height, (row r).length = stride)
    {r c : Nat} (hr : r < height) (hc : c < stride) :
    ((List.range height).flatMap row)[r * stride + c]? = (row r)[c]? := by
  induction height with
  | zero => omega
  | succ height ih =>
    have before := length_rows fun r (h : r < height) => lengths r (by omega)
    rw [List.range_succ, List.flatMap_append, List.flatMap_singleton]
    by_cases last : r = height
    · subst last
      rw [List.getElem?_append_right (by omega), before]
      congr 1
      omega
    · have inside : r * stride + c < height * stride := by
        have := Nat.mul_le_mul_right stride (show r + 1 ≤ height by omega)
        rw [Nat.succ_mul] at this
        omega
      rw [List.getElem?_append_left (by omega)]
      exact ih (fun r h => lengths r (by omega)) (by omega)

variable {step : Nat} {data : List UInt8}

/-- A row of a repacked frame. -/
theorem length_row {r : Nat} (wide : e.expectedStep ≤ step) (length : data.length = step * e.height) (hr : r < e.height) :
    (slice data (r * step) (r * step + e.expectedStep) ++ List.replicate (e.gstStep - e.expectedStep) 0).length = e.gstStep := by
  have inside : (r + 1) * step ≤ e.height * step := Nat.mul_le_mul_right step hr
  rw [Nat.succ_mul] at inside
  have := e.gstStep_least.1
  rw [List.length_append, List.length_replicate, slice, List.length_take, List.length_drop, length, Nat.mul_comm step]
  omega

theorem length_repack (wide : e.expectedStep ≤ step) (length : data.length = step * e.height) :
    (e.repack step data).length = e.gstStep * e.height := by
  unfold repack
  rw [length_rows fun r h => e.length_row wide length h, Nat.mul_comm]

theorem getElem?_repack (wide : e.expectedStep ≤ step) (length : data.length = step * e.height) {r c : Nat}
    (hr : r < e.height) (hc : c < e.expectedStep) : (e.repack step data)[r * e.gstStep + c]? = data[r * step + c]? := by
  unfold repack
  have := e.gstStep_least.1
  rw [getElem?_rows (fun r h => e.length_row wide length h) hr (by omega)]
  have inside : (r + 1) * step ≤ e.height * step := Nat.mul_le_mul_right step hr
  rw [Nat.succ_mul] at inside
  rw [List.getElem?_append_left, slice, List.getElem?_take_of_lt (by omega), List.getElem?_drop]
  rw [slice, List.length_take, List.length_drop, length, Nat.mul_comm step]
  omega

end Strides

/-! ## Pushes -/

section Pushes

variable (e : Encoder) (source : Appsrc) (message : Image)

/-- Every call is counted, and every refusal. -/
theorem push_counts : (e.push source message).2.framesIn = e.framesIn + 1 ∧
    (e.push source message).2.framesInvalid = e.framesInvalid + if (e.push source message).1 then 0 else 1 := by
  unfold push
  dsimp only
  split_ifs <;> simp_all

theorem push_refused (refused : e.Refuses message) :
    (e.push source message).1 = false ∧ (e.push source message).2.pushed = e.pushed := by
  have refused' : Refuses { e with framesIn := e.framesIn + 1 } message := refused
  unfold push
  rw [if_pos refused']
  exact ⟨rfl, rfl⟩

theorem push_valid (valid : ¬e.Refuses message) : (e.push source message).1 = source.accepts ∧
    (e.push source message).2.pushed = e.pushed ++ [e.bufferOf message] := by
  have valid' : ¬Refuses { e with framesIn := e.framesIn + 1 } message := valid
  unfold push
  rw [if_neg valid']
  dsimp only
  constructor
  · cases accepted : source.accepts <;> simp
  · split_ifs <;> rfl

/-- It has every pixel where the caps expect it. -/
theorem bufferOf_spec (valid : ¬e.Refuses message) : (e.bufferOf message).length = e.gstStep * e.height ∧
    ∀ r < e.height, ∀ c < e.expectedStep,
      (e.bufferOf message)[r * e.gstStep + c]? = message.data[r * message.step + c]? ∧ r * message.step + c < message.data.length := by
  simp only [Refuses, not_or, not_not, not_lt] at valid
  obtain ⟨-, -, height, -, wide, length⟩ := valid
  rw [height] at length
  have inside : ∀ r < e.height, ∀ c < e.expectedStep, r * message.step + c < message.data.length := by
    intro r hr c hc
    have rows : (r + 1) * message.step ≤ e.height * message.step := Nat.mul_le_mul_right _ hr
    rw [Nat.succ_mul] at rows
    rw [length, Nat.mul_comm message.step]
    omega
  unfold bufferOf
  split
  · refine ⟨e.length_repack wide length, fun r hr c hc => ⟨e.getElem?_repack wide length hr hc, inside r hr c hc⟩⟩
  · next aligned =>
    -- The rows are aligned as they come.
    have same : message.step = e.gstStep := not_not.1 aligned
    refine ⟨by rw [length, same], fun r hr c hc => ⟨by rw [same], inside r hr c hc⟩⟩

end Pushes

/-- The results and the counters of a run. -/
theorem pushAll_counts (e : Encoder) (frames : List (Appsrc × Image)) :
    (e.pushAll frames).1.length = frames.length ∧ (e.pushAll frames).2.framesIn = e.framesIn + frames.length ∧
      (e.pushAll frames).2.framesInvalid = e.framesInvalid + (e.pushAll frames).1.count false := by
  induction frames generalizing e with
  | nil => exact ⟨rfl, rfl, rfl⟩
  | cons frame rest ih =>
    obtain ⟨count, invalid⟩ := e.push_counts frame.1 frame.2
    obtain ⟨length, counts, refused⟩ := ih (e.push frame.1 frame.2).2
    rw [pushAll]
    refine ⟨congrArg (· + 1) length, ?_, ?_⟩
    · dsimp only
      rw [List.length_cons]
      omega
    · dsimp only
      rw [List.count_cons]
      cases accepted : (e.push frame.1 frame.2).1 <;> simp [accepted] at invalid ⊢ <;> omega

/-- A frame reaches the encoder with every pixel in its place or not at all, and the
counters say how many came and how many were refused. -/
theorem push_keeps_pixels (e : Encoder) :
    (e.expectedStep ≤ e.gstStep ∧ 4 ∣ e.gstStep ∧ ∀ n, 4 ∣ n → e.expectedStep ≤ n → e.gstStep ≤ n) ∧
    (∀ source message, ¬e.Refuses message → (e.push source message).1 = source.accepts ∧
      ∃ buffer, (e.push source message).2.pushed = e.pushed ++ [buffer] ∧ buffer.length = e.gstStep * e.height ∧
        ∀ r < e.height, ∀ c < e.width * e.bytesPerPixel,
          buffer[r * e.gstStep + c]? = message.data[r * message.step + c]? ∧ r * message.step + c < message.data.length) ∧
    (∀ source message, e.Refuses message →
      (e.push source message).1 = false ∧ (e.push source message).2.pushed = e.pushed) ∧
    ∀ frames, (e.pushAll frames).2.framesIn = e.framesIn + frames.length ∧
      (e.pushAll frames).2.framesInvalid = e.framesInvalid + (e.pushAll frames).1.count false := by
  refine ⟨e.gstStep_least, fun source message valid => ?_, fun source message => e.push_refused source message, fun frames => ?_⟩
  · obtain ⟨accepted, pushed⟩ := e.push_valid source message valid
    exact ⟨accepted, _, pushed, e.bufferOf_spec message valid⟩
  · exact (e.pushAll_counts frames).2

/-- Two rows of one pixel that ROS pads to five bytes. -/
def twoPixels : Image := ⟨"rgb8", 1, 2, 0, 5, [1, 2, 3, 9, 9, 4, 5, 6, 9, 9]⟩

def twoPixelEncoder : Encoder := ⟨"rgb8", 3, 1, 2, 0, 0, 0, []⟩

theorem push_keeps_two_pixels : ∃ buffer, (twoPixelEncoder.push ⟨0, 1, true⟩ twoPixels).2.pushed = [buffer] ∧
    buffer.length = 8 ∧ buffer[4]? = some 4 := by
  obtain ⟨-, kept, -⟩ := push_keeps_pixels twoPixelEncoder
  obtain ⟨-, buffer, pushed, length, pixels⟩ := kept ⟨0, 1, true⟩ twoPixels (by decide)
  have aligned : twoPixelEncoder.gstStep = 4 := gstStep_eq _
  have second := (pixels 1 (by decide) 0 (by decide)).1
  rw [aligned] at length second
  exact ⟨buffer, pushed, length, second⟩

end Encoder

end RosBridge.Worker
