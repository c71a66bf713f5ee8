import RosBridge.Codec.Laws
import RosBridge.Ros.Representation
/-!
# Trees on both sides of the addon

What `convert` of `rosRepresentation` makes of a decoded value: towards ROS its native
representation, whatever it is, and from ROS the value again, unless one of its byte arrays
is too long for the codec that checks them (`represent_spec`).
-/

namespace RosBridge.RosJson

open Lib Prog Session

mutual

/-- `value` with bytes as number arrays. -/
def plain : Value → Value
  | .bytes bytes => numbers bytes
  | .array isPlain items => .array isPlain (plainItems items)
  | .object isPlain properties => .object isPlain (plainMembers properties)
  | value => value

def plainItems : List Value → List Value
  | [] => []
  | item :: items => plain item :: plainItems items

def plainMembers : List (JsString × Value) → List (JsString × Value)
  | [] => []
  | (name, value) :: properties => (name, plain value) :: plainMembers properties

end

theorem plainItems_eq (items : List Value) : plainItems items = items.map plain := by
  induction items with
  | nil => rfl
  | cons item items ih => rw [plainItems, ih, List.map_cons]

theorem plainMembers_eq (properties : List (JsString × Value)) :
    plainMembers properties = properties.map fun p => (p.1, plain p.2) := by
  induction properties with
  | nil => rfl
  | cons p properties ih => rw [plainMembers, ih, List.map_cons]

/-! ## Objects -/

/-- The properties of an object without repeated names. -/
theorem lookup_of_nodup {properties : List (JsString × Value)} (nodup : (properties.map (·.1)).Nodup) :
    ∀ p ∈ properties, properties.lookup p.1 = some p.2 := by
  intro p hp
  induction properties with
  | nil => cases hp
  | cons q rest ih =>
    rw [List.map_cons, List.nodup_cons] at nodup
    rw [List.lookup_cons]
    rcases List.mem_cons.1 hp with rfl | hp
    · simp
    · have other : p.1 ≠ q.1 := fun e => nodup.1 (e ▸ List.mem_map_of_mem hp)
      rw [beq_eq_false_iff_ne.2 other]
      exact ih nodup.2 hp

theorem entries_of_nodup {properties : List (JsString × Value)} (nodup : (properties.map (·.1)).Nodup) :
    entries properties = properties := by
  rw [entries, keys, nodup.dedup, List.filterMap_map]
  calc properties.filterMap ((fun name => (properties.lookup name).map (name, ·)) ∘ (·.1))
      = properties.filterMap some := List.filterMap_congr fun p hp => by simp [lookup_of_nodup nodup p hp]
    _ = properties := List.filterMap_some

/-- One entry a key. -/
theorem entries_eq (properties : List (JsString × Value)) :
    entries properties = (keys properties).map fun name => (name, (properties.lookup name).getD .null) := by
  rw [entries, ← List.filterMap_eq_map]
  refine List.filterMap_congr fun name h => ?_
  obtain ⟨v, hv⟩ := mem_keys.1 h
  simp [hv]

theorem representMember_of_mem {limits : CodecOptions} {fromRos : Bool} {fields : List (JsString × Field)}
    {p : JsString × Field} (nodup : (fields.map (·.1)).Nodup) (hp : p ∈ fields) (item : Value) :
    representMember limits fromRos fields p.1 item = represent limits fromRos p.2 item := by
  induction fields with
  | nil => cases hp
  | cons q rest ih =>
    rw [List.map_cons, List.nodup_cons] at nodup
    rw [representMember]
    rcases List.mem_cons.1 hp with rfl | hp
    · rw [if_pos rfl]
    · have other : q.1 ≠ p.1 := fun e => nodup.1 (e ▸ List.mem_map_of_mem hp)
      rw [if_neg other]
      exact ih nodup.2 hp

/-! ## The native representation -/

@[simp] theorem wp_visited {limits : CodecOptions} {Q : Unit → Nat → Prop} {R : Prop} {c : Nat} :
    wp (visited limits) Q (fun _ _ => R) c ↔ (c + 1 ≤ limits.maxNodes → Q () (c + 1)) ∧ (¬c + 1 ≤ limits.maxNodes → R) := by
  simp only [visited, wp_bind, wp_modify, wp_get, wp_throwIf, not_le, not_lt]
  exact And.comm

/-- Items that are visited one after the other, each within what is left. -/
theorem visits_spec {ι α β : Type} {xs : List ι} {h : ι → α} {f : α → Visit β} {g : ι → β} {n : ι → Nat} {K : ι → Prop}
    {m : Nat} (each : ∀ x ∈ xs, ∀ c, c + n x ≤ m →
      wp (f (h x)) (fun v c' => v = g x ∧ c' = c + n x ∧ K x) (fun _ _ => ¬K x) c) :
    ∀ c, c + (xs.map n).sum ≤ m →
      wp ((xs.map h).mapM f) (fun vs c' => vs = xs.map g ∧ c' = c + (xs.map n).sum ∧ ∀ x ∈ xs, K x)
        (fun _ _ => ¬∀ x ∈ xs, K x) c := by
  induction xs with
  | nil => exact fun _ _ => ⟨rfl, rfl, fun _ h => by cases h⟩
  | cons x xs ih =>
    intro c fits
    rw [List.map_cons, List.sum_cons] at fits
    simp only [List.map_cons, List.mapM_cons, wp_bind, List.sum_cons, List.forall_mem_cons]
    refine wp_mono (each x List.mem_cons_self c (by omega)) ?_ fun _ _ broken all => broken all.1
    rintro v _ ⟨rfl, rfl, first⟩
    refine wp_mono (ih (fun y hy => each y (List.mem_cons_of_mem x hy)) (c + n x) (by omega)) ?_
      fun _ _ broken all => broken all.2
    rintro vs _ ⟨rfl, rfl, rest⟩
    exact ⟨rfl, by omega, first, rest⟩

/-! ## Leaves -/

section Integers

/-- The forms in which the addon delivers a 64-bit integer. -/
inductive Delivered (z : ℤ) : Value → Prop
  | bigint : Delivered z (.bigint z)
  | decimal : Delivered z (.string (utf16 (decimalText z)))
  | number (safe : z.natAbs ≤ maxSafeInteger) : Delivered z (.number (.finite z))

variable {signed : Bool} {z : ℤ} {value result : Value}

/-- The codec of a 64-bit leaf. -/
def integerCodec (signed : Bool) : Codec := ⟨.integer 64 signed, ⟨32, 4096, 16384, 16384, 32768, true⟩⟩

theorem integerCodec_created : createCodec (.integer 64 signed) {} = .ok (integerCodec signed) := rfl

/-- It is within its limits on depth and nodes. -/
theorem integerCodec_convert {encode : Bool} : (integerCodec signed).convert value encode = .ok result ↔
    Typed (integerCodec signed).options encode (.integer 64 signed) value ∧ result = converted encode (.integer 64 signed) value := by
  have distinct : (integerCodec signed).schema.Distinct := trivial
  refine (convert_eq_ok_iff distinct).trans (and_congr_left fun _ => ⟨fun accepted => accepted.1, fun typed => ⟨typed, ?_, ?_⟩⟩)
  · exact Nat.zero_le 32
  · exact show 0 + 1 ≤ 32768 by decide

theorem integerCodec_encode (range : InRange 64 signed z) :
    (integerCodec signed).encode (.bigint z) = .ok (.string (utf16 (decimalText z))) :=
  integerCodec_convert.2 ⟨.nativeInteger rfl signed z range, rfl⟩

theorem integerCodec_decode (range : InRange 64 signed z) :
    (integerCodec signed).decode (.string (utf16 (decimalText z))) = .ok (.bigint z) := by
  refine integerCodec_convert.2 ⟨.wireInteger rfl signed z range, ?_⟩
  simp [converted, convertedScalar, integerValue, chars_decimalText, bigInt_decimalText]

/-- An integer in range is accepted in all of them. -/
theorem nativeInteger_of_range (delivered : Delivered z value) (range : InRange 64 signed z) :
    nativeInteger signed value = .ok (.bigint z) := by
  cases delivered with
  | bigint =>
    simp only [nativeInteger, integerCodec_created, integerCodec_encode range, bind, Except.bind]
    exact integerCodec_decode range
  | decimal =>
    simp only [nativeInteger, integerCodec_created, bind, Except.bind]
    exact integerCodec_decode range
  | number safe =>
    have safe : isSafeInteger (z : ℚ) = true := by simp [isSafeInteger, safe]
    rw [nativeInteger, if_pos safe]
    rfl

/-- Only a number may be out of range here. -/
theorem eq_bigint_of_nativeInteger (delivered : Delivered z value) (accepted : nativeInteger signed value = .ok result) :
    result = .bigint z := by
  cases delivered with
  | bigint =>
    simp only [nativeInteger, integerCodec_created, bind, Except.bind] at accepted
    cases encoded : (integerCodec signed).encode (.bigint z) with
    | error e =>
      rw [encoded] at accepted
      cases accepted
    | ok wire =>
      obtain ⟨typed, -⟩ := integerCodec_convert.1 encoded
      have range : InRange 64 signed z := by
        cases typed
        assumption
      obtain rfl : Value.string _ = wire := Except.ok.inj ((integerCodec_encode range).symm.trans encoded)
      rw [encoded] at accepted
      exact (Except.ok.inj ((integerCodec_decode range).symm.trans accepted)).symm
  | decimal =>
    simp only [nativeInteger, integerCodec_created, bind, Except.bind] at accepted
    obtain ⟨-, rfl⟩ := integerCodec_convert.1 accepted
    simp [converted, convertedScalar, integerValue, chars_decimalText, bigInt_decimalText]
  | number safe =>
    have safe : isSafeInteger (z : ℚ) = true := by simp [isSafeInteger, safe]
    rw [nativeInteger, if_pos safe] at accepted
    exact (Except.ok.inj accepted).symm

end Integers

section Bytes

theorem uint8Array_numbers (b : List UInt8) : uint8Array (numbers b) = .bytes b := by
  have each : ∀ byte : UInt8, UInt8.ofNat ((byte.toNat : ℚ).num.toNat) = byte := by
    intro byte
    rw [Rat.num_natCast, Int.toNat_natCast, UInt8.ofNat_toNat]
  rw [numbers, uint8Array, List.map_map]
  exact congrArg Value.bytes ((List.map_congr_left fun byte _ => each byte).trans b.map_id)

/-- The codec that checks the numbers of a byte array has the default limit on nodes. -/
def numbersCodec (bounds : LengthBounds) (maxBytes : Nat) : Codec :=
  ⟨.array bounds (.integer 8 false), ⟨32, maxBytes, 16384, 16384, 32768, true⟩⟩

theorem numbersCodec_created {bounds : LengthBounds} {maxBytes : Nat} (valid : bounds.Valid)
    (safe : 0 < maxBytes ∧ maxBytes ≤ maxSafeInteger) :
    createCodec (.array bounds (.integer 8 false)) { maxArrayLength := some (some (maxBytes : ℚ)) } =
      .ok (numbersCodec bounds maxBytes) := by
  have merged : codecOptions { maxArrayLength := some (some (maxBytes : ℚ)) } = .ok (numbersCodec bounds maxBytes).options := by
    simp only [codecOptions, limit, positiveLimit_natCast safe.1 safe.2]
    rfl
  have taken : wp (snapshot (numbersCodec bounds maxBytes).options (.array bounds (.integer 8 false)) 0)
      (fun field _ => field = .array bounds (.integer 8 false)) (fun _ _ => False) 0 := by
    simp [snapshot, wp_lengths, valid, numbersCodec]
  obtain ⟨field, c, rfl, ran⟩ | ⟨e, c, never, -⟩ := exec_cases taken
  · simp only [createCodec, merged, snapshotSchema, ran, bind, Except.bind]
    rfl
  · exact never.elim

/-- Its elements are numbers of one byte each. -/
theorem typed_numbers {options : CodecOptions} {bounds : LengthBounds} {b : List UInt8}
    (length : bounds.Allows options.maxArrayLength b.length) :
    Typed options true (.array bounds (.integer 8 false)) (numbers b) := by
  refine .array bounds _ _ (by simpa using length) fun item h => ?_
  obtain ⟨byte, -, rfl⟩ := List.mem_map.1 h
  have small := byte.toNat_lt
  exact .integer 8 false byte.toNat (by decide) ⟨by simp [minimum], by simp [maximum]; omega⟩

theorem nodes_numbers (bounds : LengthBounds) (b : List UInt8) : nodes (.array bounds (.integer 8 false)) (numbers b) = 1 + b.length := by
  rw [numbers, nodes, List.map_map]
  have ones : (nodes (.integer 8 false)) ∘ (fun byte : UInt8 => Value.number (.finite byte.toNat)) = fun _ => 1 := rfl
  simp [ones]

/-- A byte array comes back unless the codec of its numbers has too few nodes. -/
theorem nativeBytes_numbers {bounds : LengthBounds} {maxBytes : Nat} {b : List UInt8} (valid : bounds.Valid)
    (safe : 0 < maxBytes ∧ maxBytes ≤ maxSafeInteger) (length : bounds.Allows maxBytes b.length) :
    (b.length ≤ 32767 → nativeBytes bounds maxBytes (numbers b) = .ok (.bytes b)) ∧
      (¬b.length ≤ 32767 → ∃ e, nativeBytes bounds maxBytes (numbers b) = .error e) := by
  have distinct : (numbersCodec bounds maxBytes).schema.Distinct := trivial
  have count := nodes_numbers bounds b
  have flat : height (.array bounds (.integer 8 false)) (numbers b) ≤ 32 := by
    rw [numbers, height, foldr_max_le]
    intro item h
    obtain ⟨byte, -, rfl⟩ := List.mem_map.1 h
    simp [height]
  have same : converted true (.array bounds (.integer 8 false)) (numbers b) = numbers b := by
    rw [numbers, converted, List.map_map]
    rfl
  have first := @numbersCodec_created bounds _ valid safe
  constructor
  · intro short
    have encoded : (numbersCodec bounds maxBytes).encode (numbers b) = .ok (numbers b) :=
      (convert_eq_ok_iff distinct).2 ⟨⟨typed_numbers length, by simpa [numbersCodec] using flat, by simp [numbersCodec, count]; omega⟩, same.symm⟩
    simp only [nativeBytes, first, encoded, bind, Except.bind, pure, Except.pure, uint8Array_numbers]
  · intro long
    cases encoded : (numbersCodec bounds maxBytes).encode (numbers b) with
    | error e => exact ⟨e, by simp only [nativeBytes, first, encoded, bind, Except.bind]⟩
    | ok result =>
      obtain ⟨⟨-, -, fits⟩, -⟩ := (convert_eq_ok_iff distinct).1 encoded
      simp only [numbersCodec, count] at fits
      omega

end Bytes

/-! ## Trees -/

mutual

/-- The size of the longest byte array in a value. -/
def longest : Field → Value → Nat
  | .bytes _, .bytes bytes => bytes.length
  | .array _ element, .array _ items => (items.map (longest element)).foldr max 0
  | .object fields, .object _ properties => longestFields fields properties
  | _, _ => 0

def longestFields : List (JsString × Field) → List (JsString × Value) → Nat
  | [], _ => 0
  | (name, field) :: rest, properties =>
    max (longest field ((properties.lookup name).getD .null)) (longestFields rest properties)

end

theorem longestFields_eq (fields : List (JsString × Field)) (properties : List (JsString × Value)) :
    longestFields fields properties = (fields.map fun p => longest p.2 ((properties.lookup p.1).getD .null)).foldr max 0 := by
  induction fields with
  | nil => rfl
  | cons p rest ih => rw [longestFields, List.map_cons, List.foldr_cons, ih]

theorem longestFields_le {fields : List (JsString × Field)} {properties : List (JsString × Value)} {n : Nat} :
    longestFields fields properties ≤ n ↔ ∀ p ∈ fields, longest p.2 ((properties.lookup p.1).getD .null) ≤ n := by
  rw [longestFields_eq, foldr_max_le]

/-- A value of a codec as it is, or as it is represented in the addon. -/
def side (native : Bool) (value : Value) : Value := if native then plain value else value

@[simp] theorem side_array (native isPlain : Bool) (items : List Value) :
    side native (.array isPlain items) = .array isPlain (items.map (side native)) := by
  cases native with
  | true => rw [side, if_pos rfl, plain, plainItems_eq]; rfl
  | false => exact congrArg (Value.array isPlain) items.map_id.symm

@[simp] theorem side_object (native isPlain : Bool) (properties : List (JsString × Value)) :
    side native (.object isPlain properties) = .object isPlain (properties.map fun p => (p.1, side native p.2)) := by
  cases native with
  | true => rw [side, if_pos rfl, plain, plainMembers_eq]; rfl
  | false => exact congrArg (Value.object isPlain) properties.map_id.symm

/-- What comes from the addon may be too long. -/
def Comes (fromRos : Bool) (field : Field) (value : Value) : Prop := fromRos = true → longest field value ≤ 32767

section Represent

variable {options : CodecOptions} {fromRos : Bool}

/-- A field without fields of its own. -/
theorem represent_leaf {field : Field} {value : Value} (same : side fromRos value = side (!fromRos) value)
    (visits : represent options fromRos field (side fromRos value) = do visited options; return side fromRos value)
    (short : Comes fromRos field value) (c : Nat) (fits : c + 1 ≤ options.maxNodes) :
    wp (represent options fromRos field (side fromRos value))
      (fun v c' => v = side (!fromRos) value ∧ c' = c + 1 ∧ Comes fromRos field value)
      (fun _ _ => ¬Comes fromRos field value) c := by
  rw [visits, wp_bind, wp_visited]
  exact ⟨fun _ => ⟨same, rfl, short⟩, fun beyond => absurd fits beyond⟩

/-- A 64-bit integer is a bigint on both sides. -/
theorem represent_integer (signed : Bool) {z : ℤ} (range : InRange 64 signed z) (c : Nat) (fits : c + 1 ≤ options.maxNodes) :
    wp (represent options fromRos (.integer 64 signed) (.bigint z))
      (fun v c' => v = .bigint z ∧ c' = c + 1 ∧ Comes fromRos (.integer 64 signed) (.bigint z))
      (fun _ _ => ¬Comes fromRos (.integer 64 signed) (.bigint z)) c := by
  have short : Comes fromRos (.integer 64 signed) (.bigint z) := fun _ => Nat.zero_le _
  rw [represent, wp_bind, wp_visited]
  refine ⟨fun _ => ?_, fun beyond => absurd fits beyond⟩
  split
  · rw [nativeInteger_of_range .bigint range]
    exact ⟨rfl, rfl, short⟩
  · exact ⟨rfl, rfl, short⟩

/-- A byte array comes back from the addon unless it is too long. -/
theorem represent_bytes {bounds : LengthBounds} {b : List UInt8} (valid : bounds.Valid)
    (safe : 0 < options.maxByteLength ∧ options.maxByteLength ≤ maxSafeInteger)
    (length : bounds.Allows options.maxByteLength b.length) (c : Nat) (fits : c + 1 ≤ options.maxNodes) :
    wp (represent options fromRos (.bytes bounds) (side fromRos (.bytes b)))
      (fun v c' => v = side (!fromRos) (.bytes b) ∧ c' = c + 1 ∧ Comes fromRos (.bytes bounds) (.bytes b))
      (fun _ _ => ¬Comes fromRos (.bytes bounds) (.bytes b)) c := by
  cases fromRos with
  | false =>
    have bytes : side false (.bytes b) = .bytes b := rfl
    rw [bytes, represent, wp_bind, wp_visited]
    exact ⟨fun _ => ⟨rfl, rfl, fun h => by cases h⟩, fun beyond => absurd fits beyond⟩
  | true =>
    have numbers : side true (.bytes b) = numbers b := rfl
    have visits : represent options true (.bytes bounds) (RosJson.numbers b) =
        visited options >>= fun _ => Prog.ofExcept (nativeBytes bounds options.maxByteLength (RosJson.numbers b)) := by
      rw [RosJson.numbers, represent]
      · rfl
      · intro bytes h
        cases h
    obtain ⟨back, refused⟩ := nativeBytes_numbers valid safe length
    rw [numbers, visits, wp_bind, wp_visited]
    refine ⟨fun _ => ?_, fun beyond => absurd fits beyond⟩
    by_cases short : b.length ≤ 32767
    · rw [back short]
      exact ⟨rfl, rfl, fun _ => short⟩
    · obtain ⟨e, failed⟩ := refused short
      rw [failed]
      exact fun comes => short (comes rfl)

/-- A decoded value passes from one side to the other, visiting each of its fields once. -/
theorem represent_spec {encode : Bool} {field : Field} {wire : Value} (typed : Typed options encode field wire)
    (decoding : encode = false) (distinct : field.Distinct) (bounded : field.Bounded)
    (safe : 0 < options.maxByteLength ∧ options.maxByteLength ≤ maxSafeInteger) :
    ∀ c, c + nodes field wire ≤ options.maxNodes →
      wp (represent options fromRos field (side fromRos (converted false field wire)))
        (fun v c' => v = side (!fromRos) (converted false field wire) ∧ c' = c + nodes field wire ∧
          Comes fromRos field (converted false field wire))
        (fun _ _ => ¬Comes fromRos field (converted false field wire)) c := by
  induction typed with
  | boolean b => exact represent_leaf (by cases fromRos <;> rfl) (by rw [represent]) fun _ => Nat.zero_le _
  | string bounds text => exact represent_leaf (by cases fromRos <;> rfl) (by rw [represent]) fun _ => Nat.zero_le _
  | integer bits signed z small =>
    refine represent_leaf (by cases fromRos <;> rfl) ?_ fun _ => Nat.zero_le _
    rw [represent]
    simp [small]
  | float bits q r => exact represent_leaf (by cases fromRos <;> rfl) (by rw [represent]) fun _ => Nat.zero_le _
  | nativeInteger native | nativeNonFinite native | nativeBytes native =>
    rw [decoding] at native
    cases native
  | wireInteger _ signed z range =>
    have value : converted false (.integer 64 signed) (.string (utf16 (decimalText z))) = .bigint z := by
      simp [converted, convertedScalar, integerValue, chars_decimalText, bigInt_decimalText]
    have same : ∀ native, side native (.bigint z) = .bigint z := fun native => by cases native <;> rfl
    rw [value, same, same]
    exact represent_integer signed range
  | wireTag _ _ bits number => exact represent_leaf (by cases fromRos <;> rfl) (by rw [represent]) fun _ => Nat.zero_le _
  | wireBytes _ bounds b length =>
    have value : converted false (.bytes bounds) (.string (utf16 (base64 b))) = .bytes b := by
      simp [converted, convertedScalar, chars_base64, fromBase64_base64]
    rw [value]
    exact represent_bytes bounded safe length
  | array bounds element items length elements ih =>
    intro c fits
    rw [nodes] at fits
    have short : ¬options.maxArrayLength < items.length := not_lt.2 length.1
    have comes : Comes fromRos (.array bounds element) (.array true (items.map (converted false element))) ↔
        ∀ item ∈ items, Comes fromRos element (converted false element item) := by
      simp only [Comes, longest, foldr_max_le, List.forall_mem_map]
      exact ⟨fun h item hi e => h e item hi, fun h e item hi => h item hi e⟩
    rw [converted, side_array, side_array, comes, represent, wp_bind, wp_visited]
    refine ⟨fun _ => ?_, fun beyond => absurd (by omega) beyond⟩
    simp only [wp_bind, wp_throwIf, List.length_map, short, wp_pure, not_true, false_implies, not_false_iff,
      true_implies, true_and, List.map_map]
    refine wp_mono (visits_spec (n := nodes element) (fun item h => ih item h distinct bounded.2) (c + 1) (by omega)) ?_ fun _ _ h => h
    rintro vs _ ⟨rfl, rfl, all⟩
    exact ⟨rfl, by rw [nodes]; omega, all⟩
  | object fields properties names members ih =>
    obtain ⟨nodup, distinct⟩ := distinct
    intro c fits
    rw [nodes, nodesFields_eq] at fits
    have comes : Comes fromRos (.object fields) (.object true (convertedFields false fields properties)) ↔
        ∀ p ∈ fields, Comes fromRos p.2 (converted false p.2 ((properties.lookup p.1).getD .null)) := by
      simp only [Comes, longest, longestFields_le]
      constructor
      · intro h p hp e
        have bound := h e p hp
        rwa [lookup_converted false fields properties nodup hp, Option.getD_some] at bound
      · intro h e p hp
        rw [lookup_converted false fields properties nodup hp, Option.getD_some]
        exact h p hp e
    have nodup' : (((convertedFields false fields properties).map fun p => (p.1, side fromRos p.2)).map (·.1)).Nodup := by
      rw [convertedFields_eq, List.map_map, List.map_map]
      exact nodup
    rw [converted, side_object, side_object, comes, represent, wp_bind, wp_visited]
    refine ⟨fun _ => ?_, fun beyond => absurd (by omega) beyond⟩
    simp only [record, wp_bind, wp_requireValue, true_implies, wp_pure, not_true, false_implies, and_true]
    rw [entries_of_nodup nodup', convertedFields_eq, List.map_map, List.map_map]
    refine wp_mono (visits_spec (n := fun p => nodes p.2 ((properties.lookup p.1).getD .null))
      (m := options.maxNodes) (g := fun p => (p.1, side (!fromRos) (converted false p.2 ((properties.lookup p.1).getD .null))))
      (fun p hp c fits => ?_) (c + 1) (by omega)) ?_ fun _ _ h => h
    · obtain ⟨v, found⟩ := mem_keys.1 ((names p.1).2 (List.mem_map_of_mem hp))
      simp only [Function.comp_apply]
      rw [found, Option.getD_some] at fits ⊢
      rw [wp_bind, representMember_of_mem nodup hp]
      refine wp_mono (ih p hp v found (distinct_of_mem distinct p hp) (bounded_of_mem bounded p hp) c fits) ?_ fun _ _ h => h
      rintro v' _ ⟨rfl, rfl, short⟩
      exact ⟨rfl, rfl, short⟩
    · rintro vs _ ⟨rfl, rfl, all⟩
      exact ⟨rfl, by rw [nodes, nodesFields_eq]; omega, all⟩

end Represent

/-- A decoded value from one side to the other. -/
theorem convert_of_decoded {descriptor : Field} {overrides : Overrides} {codec : Codec} {wire native : Value} {fromRos : Bool}
    (created : createCodec descriptor overrides = .ok codec) (decoded : codec.decode wire = .ok native) :
    (Comes fromRos descriptor native → Representation.convert ⟨descriptor, codec⟩ (side fromRos native) fromRos =
      .ok (side (!fromRos) native)) ∧
    (¬Comes fromRos descriptor native → ∃ e, Representation.convert ⟨descriptor, codec⟩ (side fromRos native) fromRos =
      .error e) := by
  obtain ⟨rfl, ⟨distinct, bounded⟩, merged⟩ := created_valid created
  obtain ⟨⟨typed, -, count⟩, rfl⟩ := (convert_eq_ok_iff distinct).1 decoded
  have spec := @represent_spec _ fromRos _ _ _ typed rfl distinct bounded (byteLength_safe merged) 0 count
  unfold Representation.convert
  obtain ⟨v, c, ⟨rfl, -, comes⟩, ran⟩ | ⟨e, c, kept, ran⟩ := exec_cases spec
  · rw [ran]
    exact ⟨fun _ => rfl, fun stays => absurd comes stays⟩
  · rw [ran]
    exact ⟨fun comes => absurd comes kept, fun _ => ⟨e, rfl⟩⟩

/-- A decoded value goes through its codec unchanged. -/
theorem decoded_again {codec : Codec} {wire native : Value} (distinct : codec.schema.Distinct)
    (decoded : codec.decode wire = .ok native) :
    ∃ encoded, codec.encode native = .ok encoded ∧ codec.decode encoded = .ok native := by
  obtain ⟨encoded, -, again⟩ := convert_back distinct decoded
  exact ⟨_, encoded, again⟩

/-- The native representation of a decoded value. -/
theorem toRos_of_decoded {descriptor : Field} {overrides : Overrides} {codec : Codec} {wire native : Value}
    (created : createCodec descriptor overrides = .ok codec) (decoded : codec.decode wire = .ok native) :
    Representation.toRos ⟨descriptor, codec⟩ native = .ok (plain native) := by
  obtain ⟨schema, distinct, -⟩ := created_spec created
  obtain ⟨encoded, first, second⟩ := decoded_again (schema ▸ distinct) decoded
  have comes : Comes false descriptor native := fun h => by cases h
  unfold Representation.toRos
  rw [first]
  change (codec.decode encoded >>= fun v => Representation.convert ⟨descriptor, codec⟩ v false) = _
  rw [second]
  exact (convert_of_decoded created decoded).1 comes

end RosBridge.RosJson
