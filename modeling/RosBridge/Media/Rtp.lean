import Mathlib.Data.Rat.Floor
import Mathlib.Tactic.Common
/-!
# RTP packets

The header fields `media/source.ts` reads and rewrites, at the byte level of a Node
`Buffer`.
-/

namespace RosBridge.Media

/-- A complete RTP packet: at least the fixed header. -/
structure RtpPacket where
  bytes : List UInt8
  complete : 12 ≤ bytes.length
  deriving DecidableEq

/-- `buffer.readUInt32BE(offset)`. -/
def readUInt32BE (bytes : List UInt8) (offset : Nat) : UInt32 :=
  UInt32.ofNat ((((bytes[offset]?.getD 0).toNat * 256 + (bytes[offset + 1]?.getD 0).toNat) * 256 +
    (bytes[offset + 2]?.getD 0).toNat) * 256 + (bytes[offset + 3]?.getD 0).toNat)

/-- `buffer.readUInt16BEAt(offset)`. -/
def readUInt16BEAt (bytes : List UInt8) (offset : Nat) : UInt16 :=
  UInt16.ofNat ((bytes[offset]?.getD 0).toNat * 256 + (bytes[offset + 1]?.getD 0).toNat)

/-- `buffer.writeUInt32BE(value, offset)`. -/
def writeUInt32BE (bytes : List UInt8) (value : UInt32) (offset : Nat) : List UInt8 :=
  (((bytes.set offset (UInt8.ofNat (value.toNat / 16777216))).set (offset + 1) (UInt8.ofNat (value.toNat / 65536))).set
    (offset + 2) (UInt8.ofNat (value.toNat / 256))).set (offset + 3) (UInt8.ofNat value.toNat)

/-- `buffer.writeUInt16BE(value, offset)`. -/
def writeUInt16BE (bytes : List UInt8) (value : UInt16) (offset : Nat) : List UInt8 :=
  (bytes.set offset (UInt8.ofNat (value.toNat / 256))).set (offset + 1) (UInt8.ofNat value.toNat)

namespace RtpPacket

def timestamp (packet : RtpPacket) : UInt32 := readUInt32BE packet.bytes 4

def sequenceNumber (packet : RtpPacket) : UInt16 := readUInt16BEAt packet.bytes 2

def withTimestamp (packet : RtpPacket) (value : UInt32) : RtpPacket :=
  ⟨writeUInt32BE packet.bytes value 4, by simp [writeUInt32BE, packet.complete]⟩

def withSequence (packet : RtpPacket) (value : UInt16) : RtpPacket :=
  ⟨writeUInt16BE packet.bytes value 2, by simp [writeUInt16BE, packet.complete]⟩

end RtpPacket

/-! ## Reading what was written -/

theorem digits_of_two (n : Nat) : n / 256 % 256 * 256 + n % 256 = n % 65536 := by omega

theorem digits_of_four (n : Nat) : (((n / 16777216 % 256) * 256 + n / 65536 % 256) * 256 + n / 256 % 256) * 256 + n % 256 =
    n % 4294967296 := by omega

theorem readUInt32BE_write (bytes : List UInt8) (value : UInt32) {offset : Nat} (room : offset + 4 ≤ bytes.length) :
    readUInt32BE (writeUInt32BE bytes value offset) offset = value := by
  have h0 : offset < bytes.length := by omega
  have h1 : offset + 1 < bytes.length := by omega
  have h2 : offset + 2 < bytes.length := by omega
  have h3 : offset + 3 < bytes.length := by omega
  unfold readUInt32BE writeUInt32BE
  have b0 : ∀ a b c d : UInt8, ((((bytes.set offset a).set (offset + 1) b).set (offset + 2) c).set (offset + 3) d)[offset]? = some a := by
    intro a b c d
    rw [List.getElem?_set_ne (by omega), List.getElem?_set_ne (by omega), List.getElem?_set_ne (by omega), List.getElem?_set_self h0]
  have b1 : ∀ a b c d : UInt8, ((((bytes.set offset a).set (offset + 1) b).set (offset + 2) c).set (offset + 3) d)[offset + 1]? = some b := by
    intro a b c d
    rw [List.getElem?_set_ne (by omega), List.getElem?_set_ne (by omega), List.getElem?_set_self (by rwa [List.length_set])]
  have b2 : ∀ a b c d : UInt8, ((((bytes.set offset a).set (offset + 1) b).set (offset + 2) c).set (offset + 3) d)[offset + 2]? = some c := by
    intro a b c d
    rw [List.getElem?_set_ne (by omega), List.getElem?_set_self (by rwa [List.length_set, List.length_set])]
  have b3 : ∀ a b c d : UInt8, ((((bytes.set offset a).set (offset + 1) b).set (offset + 2) c).set (offset + 3) d)[offset + 3]? = some d := by
    intro a b c d
    rw [List.getElem?_set_self (by rwa [List.length_set, List.length_set, List.length_set])]
  rw [b0, b1, b2, b3]
  simp only [Option.getD_some, UInt8.toNat_ofNat']
  rw [digits_of_four]
  apply UInt32.toNat_inj.1
  rw [UInt32.toNat_ofNat', Nat.mod_eq_of_lt (Nat.mod_lt _ (by decide)), Nat.mod_eq_of_lt value.toNat_lt]

theorem readUInt16BEAt_write (bytes : List UInt8) (value : UInt16) {offset : Nat} (room : offset + 2 ≤ bytes.length) :
    readUInt16BEAt (writeUInt16BE bytes value offset) offset = value := by
  have h0 : offset < bytes.length := by omega
  have h1 : offset + 1 < bytes.length := by omega
  unfold readUInt16BEAt writeUInt16BE
  have b0 : ∀ a b : UInt8, ((bytes.set offset a).set (offset + 1) b)[offset]? = some a := by
    intro a b
    rw [List.getElem?_set_ne (by omega), List.getElem?_set_self h0]
  have b1 : ∀ a b : UInt8, ((bytes.set offset a).set (offset + 1) b)[offset + 1]? = some b := by
    intro a b
    rw [List.getElem?_set_self (by rwa [List.length_set])]
  rw [b0, b1]
  simp only [Option.getD_some, UInt8.toNat_ofNat']
  rw [digits_of_two]
  apply UInt16.toNat_inj.1
  rw [UInt16.toNat_ofNat', Nat.mod_eq_of_lt (Nat.mod_lt _ (by decide)), Nat.mod_eq_of_lt value.toNat_lt]

/-- The other bytes stay. -/
theorem writeUInt32BE_outside (bytes : List UInt8) (value : UInt32) {offset n : Nat} (outside : n < offset ∨ offset + 4 ≤ n) :
    (writeUInt32BE bytes value offset)[n]? = bytes[n]? := by
  unfold writeUInt32BE
  rw [List.getElem?_set_ne (by omega), List.getElem?_set_ne (by omega), List.getElem?_set_ne (by omega),
    List.getElem?_set_ne (by omega)]

theorem writeUInt16BE_outside (bytes : List UInt8) (value : UInt16) {offset n : Nat} (outside : n < offset ∨ offset + 2 ≤ n) :
    (writeUInt16BE bytes value offset)[n]? = bytes[n]? := by
  unfold writeUInt16BE
  rw [List.getElem?_set_ne (by omega), List.getElem?_set_ne (by omega)]

namespace RtpPacket

variable (packet : RtpPacket) (stamp : UInt32) (number : UInt16)

theorem sequenceNumber_renumbered : ((packet.withTimestamp stamp).withSequence number).sequenceNumber = number := by
  have room := (packet.withTimestamp stamp).complete
  exact readUInt16BEAt_write _ number (by omega)

/-- The two fields do not overlap. -/
theorem timestamp_renumbered : ((packet.withTimestamp stamp).withSequence number).timestamp = stamp := by
  have room := packet.complete
  have stamped : readUInt32BE (writeUInt32BE packet.bytes stamp 4) 4 = stamp := readUInt32BE_write _ stamp (by omega)
  refine Eq.trans ?_ stamped
  show readUInt32BE (writeUInt16BE (writeUInt32BE packet.bytes stamp 4) number 2) 4 = _
  unfold readUInt32BE
  rw [writeUInt16BE_outside _ _ (by omega), writeUInt16BE_outside _ _ (by omega), writeUInt16BE_outside _ _ (by omega),
    writeUInt16BE_outside _ _ (by omega)]

/-- Two packets that differ in the sequence number and in the timestamp only. -/
structure SameBut (packet packet' : RtpPacket) : Prop where
  length : packet'.bytes.length = packet.bytes.length
  bytes : ∀ n, n < 2 ∨ 8 ≤ n → packet'.bytes[n]? = packet.bytes[n]?

theorem sameBut_renumbered : SameBut packet ((packet.withTimestamp stamp).withSequence number) := by
  constructor
  · simp [withSequence, withTimestamp, writeUInt16BE, writeUInt32BE]
  · intro n outside
    show (writeUInt16BE (writeUInt32BE packet.bytes stamp 4) number 2)[n]? = _
    rw [writeUInt16BE_outside _ _ (by omega), writeUInt32BE_outside _ _ (by omega)]

end RtpPacket

/-- `Math.round`: to the nearest integer, halves up. -/
def mathRound (x : ℚ) : ℤ := ⌊x + 1 / 2⌋

end RosBridge.Media
