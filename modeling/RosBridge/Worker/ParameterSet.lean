import Mathlib.Tactic.Common
/-!
# The first parameter set

`_first_parameter_set` of `media_worker.py`: the profile that the probe compares is read
from the first packet that looks like an SPS, whole or fragmented. A fragment is taken
for the beginning whichever it is, and a fragment without its header raises
(`reads_beginning_iff`).
-/

namespace RosBridge.Worker

/-- `(profile_idc, profile_iop, level_idc)`. -/
abbrev Parameters := UInt8 × UInt8 × UInt8

/-- `data[i]`. -/
def index (data : List UInt8) (i : Nat) : Except String UInt8 :=
  match data[i]? with
  | some byte => .ok byte
  | none => .error "IndexError"

/-- The body of the loop: what one packet carries. -/
def parameters (packet : List UInt8) : Except String (Option Parameters) := do
  let payload := packet.drop 12
  match payload with
  | [] => return none
  | first :: _ =>
    let kind := first &&& 0x1f
    -- A whole SPS carries its fields directly; a fragmented one carries them after the FU header.
    let body ← if kind = 7 then pure (some (payload.drop 1))
      else if kind = 28 then do
        if (← index payload 1) &&& 0x1f = 7 then pure (some (payload.drop 2)) else pure none
      else pure none
    match body with
    | some (profileIdc :: profileIop :: levelIdc :: _) => return some (profileIdc, profileIop, levelIdc)
    | _ => return none

/-- Read the profile from the first SPS the encoder emitted. -/
def firstParameterSet : List (List UInt8) → Except String (Option Parameters)
  | [] => .ok none
  | packet :: packets =>
    match parameters packet with
    | .error e => .error e
    | .ok (some found) => .ok (some found)
    | .ok none => firstParameterSet packets

/-! ## What a packet carries -/

/-- The three bytes after the NAL header, of a packet that carries the beginning of an SPS:
a whole NAL unit, or the fragment with the start bit. -/
def beginning (packet : List UInt8) : Option Parameters :=
  match packet.drop 12 with
  | first :: a :: b :: c :: rest =>
    if first &&& 0x1f = 7 then some (a, b, c)
    else if first &&& 0x1f = 28 ∧ a &&& 0x1f = 7 ∧ a &&& 0x80 ≠ 0 then rest.head?.map fun d => (b, c, d)
    else none
  | _ => none

/-- A fragment that ends before its FU header. -/
def headless (packet : List UInt8) : Bool :=
  match packet.drop 12 with
  | [first] => first &&& 0x1f = 28
  | _ => false

/-- A fragment of an SPS that is not its beginning, with three bytes to read. -/
def later (packet : List UInt8) : Bool :=
  match packet.drop 12 with
  | first :: header :: _ :: _ :: _ :: _ => first &&& 0x1f = 28 ∧ header &&& 0x1f = 7 ∧ header &&& 0x80 = 0
  | _ => false

section Packet

variable (packet : List UInt8)

theorem parameters_spec :
    (∀ found, beginning packet = some found → parameters packet = .ok (some found)) ∧
    (headless packet = true → parameters packet = .error "IndexError") ∧
    (later packet = true → beginning packet = none ∧ ∃ found, parameters packet = .ok (some found)) ∧
    (beginning packet = none → headless packet = false → later packet = false → parameters packet = .ok none) := by
  unfold parameters beginning headless later
  generalize packet.drop 12 = payload
  cases payload with
  | nil => simp [pure, Except.pure]
  | cons first tail =>
    by_cases whole : first &&& 0x1f = 7
    · match tail with
      | [] | [_] | [_, _] => simp [whole, pure, Except.pure, bind, Except.bind]
      | a :: b :: c :: rest => cases rest <;> simp [whole, pure, Except.pure, bind, Except.bind]
    · by_cases fragment : first &&& 0x1f = 28
      · match tail with
        | [] => simp [fragment, index, bind, Except.bind]
        | [a] | [a, b] | [a, b, c] => by_cases sps : a &&& 0x1f = 7 <;> simp [fragment, sps, index, pure, Except.pure, bind, Except.bind]
        | a :: b :: c :: d :: rest =>
          by_cases sps : a &&& 0x1f = 7
          · by_cases start : a &&& 0x80 = 0 <;> simp [fragment, sps, start, index, pure, Except.pure, bind, Except.bind]
          · simp [fragment, sps, index, pure, Except.pure, bind, Except.bind]
      · match tail with
        | [] | [_] | [_, _] | [_, _, _] => simp [whole, fragment, pure, Except.pure, bind, Except.bind]
        | a :: b :: c :: d :: rest => simp [whole, fragment, pure, Except.pure, bind, Except.bind]

end Packet

/-- The packet that a scan stops at. -/
def stopsAt (packets : List (List UInt8)) : Option (List UInt8) := packets.find? fun packet => parameters packet ≠ .ok none

/-- A scan returns the first beginning of an SPS, and does not stop at a later fragment,
exactly when every packet before that beginning is neither headless nor a later fragment. -/
theorem reads_beginning_iff (packets : List (List UInt8)) :
    (firstParameterSet packets = .ok (packets.findSome? beginning) ∧ ∀ packet, stopsAt packets = some packet → later packet = false) ↔
      ∀ packet ∈ packets.takeWhile fun packet => (beginning packet).isNone, headless packet = false ∧ later packet = false := by
  induction packets with
  | nil => simp [firstParameterSet, stopsAt]
  | cons packet packets ih =>
    obtain ⟨begins, raises, misread, passes⟩ := parameters_spec packet
    cases first : beginning packet with
    | some found =>
      -- The scan ends here.
      have read := begins found first
      have proper : later packet = false := by
        rw [← Bool.not_eq_true]
        intro isLater
        rw [(misread isLater).1] at first
        cases first
      simp [firstParameterSet, stopsAt, first, read, proper]
    | none =>
      rw [List.takeWhile_cons_of_pos (by simp [first]), List.forall_mem_cons]
      cases isHeadless : headless packet with
      | true =>
        have read := raises isHeadless
        simp [firstParameterSet, read]
      | false =>
        cases isLater : later packet with
        | true =>
          obtain ⟨-, found, read⟩ := misread isLater
          have here : stopsAt (packet :: packets) = some packet := by simp [stopsAt, read]
          simp [here, isLater]
        | false =>
          have read := passes first isHeadless isLater
          have skips : stopsAt (packet :: packets) = stopsAt packets := by simp [stopsAt, read]
          rw [skips, firstParameterSet, read, List.findSome?_cons_of_isNone (by simp [first])]
          simpa using ih

/-- A fragment with nothing after its indicator raises, and the second half of an SPS is
read as its beginning. -/
theorem reads_beginning_fails :
    (¬∀ packets : List (List UInt8), (∀ packet ∈ packets, 12 ≤ packet.length) →
      firstParameterSet packets = .ok (packets.findSome? beginning)) ∧
    firstParameterSet [List.replicate 12 0 ++ [28]] = .error "IndexError" ∧
    firstParameterSet [List.replicate 12 0 ++ [28, 7, 1, 2, 3]] = .ok (some (1, 2, 3)) := by
  refine ⟨fun claim => ?_, by decide, by decide⟩
  have read := claim [List.replicate 12 0 ++ [28]] (by decide)
  exact absurd read (by decide)

end RosBridge.Worker
