import RosBridge.Codec.RoundTrip
/-!
# The laws of codecs

A codec that was created from a descriptor accepts exactly the well-typed values within
its limits (`accepts_iff`), and its directions are inverse up to float32 rounding
(`round_trips`).
-/

namespace RosBridge.RosJson

open Lib Prog Session

/-! ## Created codecs -/

/-- What `lengths` checks. -/
def LengthBounds.Valid (bounds : LengthBounds) : Prop :=
  (∀ n ∈ bounds.length, n ≤ maxSafeInteger) ∧ (∀ n ∈ bounds.maxLength, n ≤ maxSafeInteger) ∧
    ∀ n ∈ bounds.length, ∀ m ∈ bounds.maxLength, n ≤ m

mutual

/-- All length constraints are valid. -/
def Field.Bounded : Field → Prop
  | .string bounds => bounds.Valid
  | .bytes bounds => bounds.Valid
  | .array bounds element => bounds.Valid ∧ element.Bounded
  | .object fields => boundedFields fields
  | _ => True

def boundedFields : List (JsString × Field) → Prop
  | [] => True
  | (_, field) :: rest => field.Bounded ∧ boundedFields rest

end

section Creation

variable (options : CodecOptions)

theorem wp_lengths {bounds : LengthBounds} {Q : LengthBounds → Nat → Prop} {R : Prop} {c : Nat} :
    wp (lengths bounds) Q (fun _ _ => R) c ↔ (bounds.Valid → Q bounds c) ∧ (¬bounds.Valid → R) := by
  simp only [lengths, wp_bind, wp_requireValue, wp_pure, LengthBounds.Valid]
  generalize (∀ n ∈ bounds.length, n ≤ maxSafeInteger) = p
  generalize (∀ n ∈ bounds.maxLength, n ≤ maxSafeInteger) = q
  generalize (∀ n ∈ bounds.length, ∀ m ∈ bounds.maxLength, n ≤ m) = r
  tauto

mutual

/-- A snapshot is what was validated. -/
theorem snapshot_spec (field : Field) (depth c : Nat) :
    wp (snapshot options field depth) (fun field' _ => field' = field ∧ field.Distinct ∧ field.Bounded) (fun _ _ => True) c := by
  cases field with
  | boolean | integer | float => simp [snapshot, Field.Distinct, Field.Bounded]
  | string | bytes => simp [snapshot, wp_lengths, Field.Distinct, Field.Bounded]
  | array bounds element =>
    simp only [snapshot, wp_lengths, wp_bind, wp_enter, wp_pure, implies_true, and_true]
    intro _ valid
    refine wp_mono (snapshot_spec element (depth + 1) (c + 1)) ?_ fun _ _ _ => trivial
    rintro element' _ ⟨rfl, distinct, bounded⟩
    exact ⟨rfl, distinct, valid, bounded⟩
  | object fields =>
    simp only [snapshot, wp_bind, wp_enter, wp_requireValue, wp_pure, implies_true, and_true]
    intro _ nodup
    refine wp_mono (snapshotFields_spec fields (depth + 1) (c + 1)) ?_ fun _ _ _ => trivial
    rintro fields' _ ⟨rfl, distinct, bounded⟩
    exact ⟨rfl, ⟨nodup, distinct⟩, bounded⟩

theorem snapshotFields_spec (fields : List (JsString × Field)) (depth c : Nat) :
    wp (snapshotFields options fields depth) (fun fields' _ => fields' = fields ∧ distinctFields fields ∧ boundedFields fields)
      (fun _ _ => True) c := by
  match fields with
  | [] => exact ⟨rfl, trivial, trivial⟩
  | (name, field) :: rest =>
    rw [snapshotFields, wp_bind]
    refine wp_mono (snapshot_spec field depth c) ?_ fun _ _ _ => trivial
    rintro _ _ ⟨rfl, distinct, bounded⟩
    rw [wp_bind]
    refine wp_mono (snapshotFields_spec rest depth _) ?_ fun _ _ _ => trivial
    rintro _ _ ⟨rfl, distinct', bounded'⟩
    exact ⟨rfl, ⟨distinct, distinct'⟩, bounded, bounded'⟩

end

end Creation

theorem bounded_of_mem {fields : List (JsString × Field)} (h : boundedFields fields) : ∀ p ∈ fields, p.2.Bounded := by
  induction fields with
  | nil => simp
  | cons p rest ih => exact List.forall_mem_cons.2 ⟨h.1, ih h.2⟩

/-- A created codec has the descriptor for its schema, and the options that were merged. -/
theorem created_valid {descriptor : Field} {overrides : Overrides} {codec : Codec}
    (created : createCodec descriptor overrides = .ok codec) :
    codec.schema = descriptor ∧ (descriptor.Distinct ∧ descriptor.Bounded) ∧ codecOptions overrides = .ok codec.options := by
  unfold createCodec at created
  cases merged : codecOptions overrides with
  | error reason => simp [merged, bind, Except.bind] at created
  | ok options =>
    have spec := snapshot_spec options descriptor 0 0
    cases taken : (snapshot options descriptor 0).exec 0 with
    | mk result c =>
    simp only [merged, snapshotSchema, taken, bind, Except.bind] at created
    cases result with
    | error reason => cases created
    | ok schema =>
      obtain ⟨rfl, valid⟩ := of_wp_ok spec taken
      obtain rfl := Except.ok.inj created
      exact ⟨rfl, valid, rfl⟩

theorem created_spec {descriptor : Field} {overrides : Overrides} {codec : Codec}
    (created : createCodec descriptor overrides = .ok codec) :
    codec.schema = descriptor ∧ descriptor.Distinct ∧ codecOptions overrides = .ok codec.options := by
  obtain ⟨schema, valid, options⟩ := created_valid created
  exact ⟨schema, valid.1, options⟩

theorem limit_safe {override : Option Session.Num} {default n : Nat} (h : limit override default = .ok n)
    (safe : 0 < default ∧ default ≤ maxSafeInteger) : 0 < n ∧ n ≤ maxSafeInteger := by
  unfold limit at h
  split at h
  · obtain rfl := Except.ok.inj h
    exact safe
  · split at h
    · next accepted =>
      obtain rfl := Except.ok.inj h
      exact positiveLimit_pos accepted
    · cases h

/-- Merged options pass the check of an override. -/
theorem byteLength_safe {overrides : Overrides} {options : CodecOptions} (merged : codecOptions overrides = .ok options) :
    0 < options.maxByteLength ∧ options.maxByteLength ≤ maxSafeInteger := by
  unfold codecOptions at merged
  cases depth : limit overrides.maxDepth 32 <;> cases lengths : limit overrides.maxArrayLength 4096 <;>
    cases texts : limit overrides.maxStringBytes 16384 <;> cases lengths' : limit overrides.maxByteLength 16384 <;>
    cases nodes : limit overrides.maxNodes 32768 <;>
    simp only [depth, lengths, texts, lengths', nodes, bind, Except.bind, pure, Except.pure, Except.ok.injEq, reduceCtorEq] at merged
  subst merged
  exact limit_safe lengths' (by decide)

section Conversions

variable {codec : Codec} {value result : Value} {encode : Bool}

/-- A codec converts exactly the well-typed values within its limits. -/
theorem convert_eq_ok_iff (distinct : codec.schema.Distinct) : codec.convert value encode = .ok result ↔
    Accepted codec.options encode codec.schema value 0 0 ∧ result = converted encode codec.schema value := by
  have spec := visit_spec codec.options encode codec.schema distinct value 0 0
  unfold wp at spec
  unfold Codec.convert
  cases ran : (visit codec.options encode codec.schema value 0).exec 0 with
  | mk outcome c =>
  rw [ran] at spec
  cases outcome with
  | error reason =>
    constructor
    · intro h
      cases h
    · rintro ⟨accepted, -⟩
      exact absurd accepted spec
  | ok r =>
    obtain ⟨accepted, rfl, -⟩ := spec
    constructor
    · intro h
      exact ⟨accepted, (Except.ok.inj h).symm⟩
    · rintro ⟨-, rfl⟩
      rfl

/-- What a conversion returns converts back. -/
theorem convert_back (distinct : codec.schema.Distinct) (h : codec.convert value encode = .ok result) :
    codec.convert result (!encode) = .ok (converted (!encode) codec.schema result) ∧
      Rounded codec.schema value (converted (!encode) codec.schema result) ∧
      codec.convert (converted (!encode) codec.schema result) encode = .ok result := by
  obtain ⟨⟨typed, deep, count⟩, rfl⟩ := (convert_eq_ok_iff distinct).1 h
  have first := typed.converts distinct
  have second := first.typed.converts distinct
  refine ⟨(convert_eq_ok_iff distinct).2 ⟨⟨first.typed, ?_, ?_⟩, rfl⟩, first.rounds,
    (convert_eq_ok_iff distinct).2 ⟨⟨by simpa using second.typed, ?_, ?_⟩, first.stable.symm⟩⟩
  · rw [first.height]
    exact deep
  · rw [first.nodes]
    exact count
  · rw [second.height, first.height]
    exact deep
  · rw [second.nodes, first.nodes]
    exact count

end Conversions

/-! ## Numbers that are not finite -/

/-- `value` has a number that is not finite in it, or on the wire the tag of one. -/
inductive NonFinite : Field → Value → Prop
  | number (field : Field) (number : Number) (nonFinite : number.isFinite = false) : NonFinite field (.number number)
  | tag (bits : Nat) (number : Number) (nonFinite : number.isFinite = false) :
      NonFinite (.float bits) (.string (tag number))
  | item (bounds : LengthBounds) (element : Field) (plain : Bool) (items : List Value) (item : Value)
      (mem : item ∈ items) (inside : NonFinite element item) : NonFinite (.array bounds element) (.array plain items)
  | member (fields : List (JsString × Field)) (plain : Bool) (properties : List (JsString × Value))
      (name : JsString) (field : Field) (value : Value) (mem : (name, field) ∈ fields)
      (found : properties.lookup name = some value) (inside : NonFinite field value) :
      NonFinite (.object fields) (.object plain properties)

/-- Without `allowNonFinite` no number is other than finite. -/
theorem Typed.finite {options : CodecOptions} {encode : Bool} {field : Field} {value : Value}
    (typed : Typed options encode field value) (forbidden : options.allowNonFinite = false) :
    ¬NonFinite field value := by
  intro bad
  induction bad with
  | number field number nonFinite =>
    cases typed with
    | integer => cases nonFinite
    | float => cases nonFinite
    | nativeNonFinite _ allow =>
      rw [forbidden] at allow
      cases allow
  | tag bits number nonFinite =>
    generalize tag number = t at typed
    cases typed with
    | wireTag _ allow =>
      rw [forbidden] at allow
      cases allow
  | item bounds element plain items item mem inside ih =>
    cases typed with
    | array _ _ _ _ elements => exact ih (elements item mem)
  | member fields plain properties name field value mem found inside ih =>
    cases typed with
    | object _ _ _ members => exact ih (members (name, field) mem value found)

/-! ## Both laws -/

section Laws

variable {descriptor : Field} {overrides : Overrides} {codec : Codec}

/-- Each direction accepts exactly the well-typed values within the limits on depth and
nodes. -/
theorem accepts_iff (created : createCodec descriptor overrides = .ok codec) :
    (∀ wire, (∃ native, codec.decode wire = .ok native) ↔ Typed codec.options false descriptor wire ∧
      height descriptor wire ≤ codec.options.maxDepth ∧ nodes descriptor wire ≤ codec.options.maxNodes) ∧
    (∀ native, (∃ wire, codec.encode native = .ok wire) ↔ Typed codec.options true descriptor native ∧
      height descriptor native ≤ codec.options.maxDepth ∧ nodes descriptor native ≤ codec.options.maxNodes) ∧
    (codec.options.allowNonFinite = false → ∀ encode value result, codec.convert value encode = .ok result →
      ¬NonFinite descriptor value ∧ ¬NonFinite descriptor result) := by
  obtain ⟨rfl, distinct, -⟩ := created_spec created
  have accepts : ∀ encode value, (∃ result, codec.convert value encode = .ok result) ↔
      Typed codec.options encode codec.schema value ∧ height codec.schema value ≤ codec.options.maxDepth ∧
        nodes codec.schema value ≤ codec.options.maxNodes := by
    intro encode value
    simp only [convert_eq_ok_iff distinct, Accepted, Nat.zero_add, exists_and_left, exists_eq, and_true]
  refine ⟨accepts false, accepts true, fun forbidden encode value result converts => ?_⟩
  obtain ⟨⟨typed, -⟩, rfl⟩ := (convert_eq_ok_iff distinct).1 converts
  exact ⟨typed.finite forbidden, (typed.converts distinct).typed.finite forbidden⟩

end Laws

/-! A type, and one of its values in both modes. -/

def waypoint : Field :=
  .object [(utf16 "stamp".toList, .integer 64 true), (utf16 "mask".toList, .bytes ⟨none, some 4⟩),
    (utf16 "path".toList, .array ⟨none, some 2⟩ (.float 64))]

def waypointCodec : Codec := ⟨waypoint, ⟨32, 4096, 16384, 16384, 32768, true⟩⟩

def nativeWaypoint : Value :=
  .object true [(utf16 "stamp".toList, .bigint (-9223372036854775808)), (utf16 "mask".toList, .bytes [255]),
    (utf16 "path".toList, .array true [.number .nan, .number (.finite (1 / 2))])]

def wireWaypoint : Value :=
  .object true [(utf16 "stamp".toList, .string (utf16 "-9223372036854775808".toList)),
    (utf16 "mask".toList, .string (utf16 "/w==".toList)),
    (utf16 "path".toList, .array true [.string (utf16 "NaN".toList), .number (.finite (1 / 2))])]

theorem waypoint_created : createCodec waypoint {} = .ok waypointCodec := rfl

theorem accepts_waypoint : Typed waypointCodec.options false waypoint wireWaypoint :=
  (((accepts_iff waypoint_created).1 wireWaypoint).1 ⟨nativeWaypoint, rfl⟩).1

section Laws

variable {descriptor : Field} {overrides : Overrides} {codec : Codec}

/-- `encode` after `decode`. -/
def Codec.recode (codec : Codec) (wire : Value) : Except String Value := do
  codec.encode (← codec.decode wire)

theorem recode_eq_ok_iff {wire wire' : Value} : codec.recode wire = .ok wire' ↔
    ∃ native, codec.decode wire = .ok native ∧ codec.encode native = .ok wire' := by
  unfold Codec.recode
  cases codec.decode wire <;> simp [bind, Except.bind]

/-- The two directions are inverse up to rounding float32 leaves; the wire form of a
native value is unique. -/
theorem round_trips (created : createCodec descriptor overrides = .ok codec) :
    (∀ native wire, codec.encode native = .ok wire →
      ∃ native', codec.decode wire = .ok native' ∧ Rounded descriptor native native') ∧
    (∀ wire native, codec.decode wire = .ok native →
      ∃ wire', codec.encode native = .ok wire' ∧ Rounded descriptor wire wire') ∧
    (∀ wire wire', codec.recode wire = .ok wire' → codec.recode wire' = .ok wire') ∧
    (∀ wire₁ wire₂ native, codec.decode wire₁ = .ok native → codec.decode wire₂ = .ok native →
      ∃ wire, Rounded descriptor wire₁ wire ∧ Rounded descriptor wire₂ wire) := by
  obtain ⟨rfl, distinct, -⟩ := created_spec created
  refine ⟨fun native wire encoded => ?_, fun wire native decoded => ?_, fun wire wire' recoded => ?_,
    fun wire₁ wire₂ native decoded₁ decoded₂ => ?_⟩
  · obtain ⟨back, rounds, -⟩ := convert_back distinct encoded
    exact ⟨_, back, rounds⟩
  · obtain ⟨back, rounds, -⟩ := convert_back distinct decoded
    exact ⟨_, back, rounds⟩
  · obtain ⟨native, decoded, encoded⟩ := recode_eq_ok_iff.1 recoded
    obtain ⟨back, -, again⟩ := convert_back distinct decoded
    have same : converted true codec.schema native = wire' := Except.ok.inj (back.symm.trans encoded)
    exact recode_eq_ok_iff.2 ⟨native, same ▸ again, encoded⟩
  · obtain ⟨-, rounds₁, -⟩ := convert_back distinct decoded₁
    obtain ⟨-, rounds₂, -⟩ := convert_back distinct decoded₂
    exact ⟨_, rounds₁, rounds₂⟩

end Laws

theorem round_trips_waypoint :
    ∃ native, waypointCodec.decode wireWaypoint = .ok native ∧ Rounded waypoint nativeWaypoint native :=
  (round_trips waypoint_created).1 nativeWaypoint wireWaypoint rfl

end RosBridge.RosJson
