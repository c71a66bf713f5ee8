import RosBridge.Codec.Typed
/-!
# Round trips

What a well-typed value is converted to is well typed in the other mode, visits as many
fields as deep, and comes back with its float32 leaves rounded (`Typed.converts`). Both
laws of a codec follow: it accepts exactly the well-typed values, and its two directions
are inverse up to that rounding.
-/

namespace RosBridge.RosJson

open Lib Prog

/-- `value'` is `value` with each float32 leaf rounded. The order of keys is no part of an
object. -/
inductive Rounded : Field → Value → Value → Prop
  | float32 (value r : ℚ) (nearest : fround value = some r) :
      Rounded (.float 32) (.number (.finite value)) (.number (.finite r))
  | leaf (field : Field) (value : Value) (isScalar : field.IsScalar)
      (other : field = .float 32 → ∀ q, value ≠ .number (.finite q)) : Rounded field value value
  | array (bounds : LengthBounds) (element : Field) (items items' : List Value) (length : items.length = items'.length)
      (elements : ∀ (n : Nat) v v', items[n]? = some v → items'[n]? = some v' → Rounded element v v') :
      Rounded (.array bounds element) (.array true items) (.array true items')
  | object (fields : List (JsString × Field)) (properties properties' : List (JsString × Value))
      (names : ∀ name, name ∈ keys properties ↔ name ∈ fields.map (·.1))
      (names' : ∀ name, name ∈ keys properties' ↔ name ∈ fields.map (·.1))
      (members : ∀ p ∈ fields, ∀ v v', properties.lookup p.1 = some v → properties'.lookup p.1 = some v' →
        Rounded p.2 v v') :
      Rounded (.object fields) (.object true properties) (.object true properties')

/-! ## Objects, field by field -/

section Fields

variable (encode : Bool) (fields : List (JsString × Field)) (properties : List (JsString × Value))

theorem nodesFields_eq :
    nodesFields fields properties = (fields.map fun p => nodes p.2 ((properties.lookup p.1).getD .null)).sum := by
  induction fields with
  | nil => rfl
  | cons p rest ih => rw [nodesFields, List.map_cons, List.sum_cons, ih]

theorem heightFields_eq : heightFields fields properties =
    (fields.map fun p => height p.2 ((properties.lookup p.1).getD .null) + 1).foldr max 0 := by
  induction fields with
  | nil => rfl
  | cons p rest ih => rw [heightFields, List.map_cons, List.foldr_cons, ih]

theorem convertedFields_eq : convertedFields encode fields properties =
    fields.map fun p => (p.1, converted encode p.2 ((properties.lookup p.1).getD .null)) := by
  induction fields with
  | nil => rfl
  | cons p rest ih => rw [convertedFields, List.map_cons, ih]

/-- The members of a converted object. -/
theorem lookup_converted {p : JsString × Field} (nodup : (fields.map (·.1)).Nodup) (hp : p ∈ fields) :
    (convertedFields encode fields properties).lookup p.1 =
      some (converted encode p.2 ((properties.lookup p.1).getD .null)) := by
  rw [convertedFields_eq]
  induction fields with
  | nil => cases hp
  | cons q rest ih =>
    rw [List.map_cons, List.nodup_cons] at nodup
    rw [List.map_cons, List.lookup_cons]
    rcases List.mem_cons.1 hp with rfl | hp
    · simp
    · have other : p.1 ≠ q.1 := fun e => nodup.1 (e ▸ List.mem_map_of_mem hp)
      rw [beq_eq_false_iff_ne.2 other]
      exact ih nodup.2 hp

theorem keys_converted (name : JsString) :
    name ∈ keys (convertedFields encode fields properties) ↔ name ∈ fields.map (·.1) := by
  rw [keys, List.mem_dedup, convertedFields_eq, List.map_map]
  rfl

end Fields

/-- Each field of a type without repeated names is one. -/
theorem distinct_of_mem {fields : List (JsString × Field)} (h : distinctFields fields) : ∀ p ∈ fields, p.2.Distinct := by
  induction fields with
  | nil => simp
  | cons p rest ih => exact List.forall_mem_cons.2 ⟨h.1, ih h.2⟩

/-! ## One conversion and the next -/

/-- How `value` and what it is converted to are related. -/
structure Converts (options : CodecOptions) (encode : Bool) (field : Field) (value : Value) : Prop where
  typed : Typed options (!encode) field (converted encode field value)
  nodes : nodes field (converted encode field value) = nodes field value
  height : height field (converted encode field value) = height field value
  rounds : Rounded field value (converted (!encode) field (converted encode field value))
  /-- Only the first conversion rounds. -/
  stable : converted encode field (converted (!encode) field (converted encode field value)) =
    converted encode field value

theorem fround_fround {q r : ℚ} (h : fround q = some r) : fround r = some r := BinaryFormat.round_round _ h

theorem rounded_rounded {bits : Nat} {q r : ℚ} (h : rounded bits q = some r) : rounded bits r = some r := by
  unfold rounded at h ⊢
  split at h
  · rw [if_pos ‹_›]
    exact fround_fround h
  · rw [if_neg ‹_›]

section Scalars

variable {options : CodecOptions} {encode : Bool}

/-- Scalars that are converted back to themselves. -/
theorem Converts.leaf {field : Field} {value : Value} (isScalar : field.IsScalar)
    (same : converted (!encode) field (converted encode field value) = value)
    (other : field = .float 32 → ∀ q, value ≠ .number (.finite q))
    (typed : Typed options (!encode) field (converted encode field value)) : Converts options encode field value where
  typed := typed
  nodes := by cases field <;> first | rfl | exact isScalar.elim
  height := by cases field <;> first | rfl | exact isScalar.elim
  rounds := by
    rw [same]
    exact .leaf field value isScalar other
  stable := by rw [same]

theorem converts_float {bits : Nat} {q r : ℚ} (finite : rounded bits q = some r) :
    Converts options encode (.float bits) (.number (.finite q)) := by
  have first : ∀ mode, converted mode (.float bits) (.number (.finite q)) = .number (.finite r) := by
    intro mode
    simp [converted, convertedScalar, finite]
  have again : ∀ mode, converted mode (.float bits) (.number (.finite r)) = .number (.finite r) := by
    intro mode
    simp [converted, convertedScalar, rounded_rounded finite]
  refine ⟨?_, rfl, rfl, ?_, ?_⟩
  · rw [first]
    exact .float bits r r (rounded_rounded finite)
  · rw [first, again]
    by_cases single : bits = 32
    · subst single
      exact .float32 q r finite
    · obtain rfl : q = r := by simpa [rounded, single] using finite
      refine .leaf _ _ trivial fun e => absurd (Field.float.inj e) single
  · rw [first, again, again]

end Scalars

section Conversion

variable {options : CodecOptions} {encode : Bool}

theorem Typed.converts {field : Field} {value : Value} (typed : Typed options encode field value)
    (distinct : field.Distinct) : Converts options encode field value := by
  induction typed with
  | boolean b => exact .leaf trivial rfl (by simp) (.boolean b)
  | string bounds text length => exact .leaf trivial rfl (by simp) (.string bounds text length)
  | integer bits signed z small range => exact .leaf trivial rfl (by simp) (.integer bits signed z small range)
  | nativeInteger native signed z range =>
    subst native
    have text : converted true (.integer 64 signed) (.bigint z) = .string (utf16 (decimalText z)) := rfl
    refine .leaf trivial ?_ (by simp) (.wireInteger rfl signed z range)
    rw [text]
    simp [converted, convertedScalar, integerValue, chars_decimalText, bigInt_decimalText]
  | wireInteger wire signed z range =>
    subst wire
    have value : converted false (.integer 64 signed) (.string (utf16 (decimalText z))) = .bigint z := by
      simp [converted, convertedScalar, integerValue, chars_decimalText, bigInt_decimalText]
    refine .leaf trivial ?_ (by simp) ?_
    · rw [value]
      rfl
    · rw [value]
      exact .nativeInteger rfl signed z range
  | float bits q r finite => exact converts_float finite
  | nativeNonFinite native allow bits number nonFinite =>
    subst native
    have text : converted true (.float bits) (.number number) = .string (tag number) := by
      cases number <;> first | rfl | cases nonFinite
    refine .leaf trivial ?_ (by rintro - q h; cases h; cases nonFinite) ?_
    · rw [text]
      simp [converted, convertedScalar, untag_tag nonFinite]
    · rw [text]
      exact .wireTag rfl allow bits number nonFinite
  | wireTag wire allow bits number nonFinite =>
    subst wire
    have value : converted false (.float bits) (.string (tag number)) = .number number := by
      simp [converted, convertedScalar, untag_tag nonFinite]
    have text : converted true (.float bits) (.number number) = .string (tag number) := by
      cases number <;> first | rfl | cases nonFinite
    refine .leaf trivial (by rw [value]; exact text) (by simp) ?_
    rw [value]
    exact .nativeNonFinite rfl allow bits number nonFinite
  | nativeBytes native bounds b length =>
    subst native
    have text : converted true (.bytes bounds) (.bytes b) = .string (utf16 (base64 b)) := rfl
    refine .leaf trivial ?_ (by simp) (.wireBytes rfl bounds b length)
    rw [text]
    simp [converted, convertedScalar, chars_base64, fromBase64_base64]
  | wireBytes wire bounds b length =>
    subst wire
    have value : converted false (.bytes bounds) (.string (utf16 (base64 b))) = .bytes b := by
      simp [converted, convertedScalar, chars_base64, fromBase64_base64]
    refine .leaf trivial (by rw [value]; rfl) (by simp) ?_
    rw [value]
    exact .nativeBytes rfl bounds b length
  | array bounds element items length elements ih =>
    have ih := fun item h => ih item h distinct
    have value : ∀ mode, ∀ items, converted mode (.array bounds element) (.array true items) =
        .array true (items.map (converted mode element)) := fun _ _ => by rw [converted]
    refine ⟨?_, ?_, ?_, ?_, ?_⟩
    · rw [value]
      refine .array bounds element _ (by simpa using length) fun item' h' => ?_
      obtain ⟨item, h, rfl⟩ := List.mem_map.1 h'
      exact (ih item h).typed
    · rw [value, nodes, nodes, List.map_map]
      exact congrArg (1 + ·.sum) (List.map_congr_left fun item h => (ih item h).nodes)
    · rw [value, height, height, List.map_map]
      exact congrArg (List.foldr max 0) (List.map_congr_left fun item h => congrArg (· + 1) (ih item h).height)
    · rw [value, value, List.map_map]
      refine .array bounds element _ _ (by simp) fun n v v' hv hv' => ?_
      rw [List.getElem?_map, hv] at hv'
      obtain rfl := Option.some.inj hv'
      exact (ih v (List.mem_of_getElem? hv)).rounds
    · rw [value, value, value, List.map_map, List.map_map]
      exact congrArg (Value.array true) (List.map_congr_left fun item h => (ih item h).stable)
  | object fields properties names members ih =>
    obtain ⟨nodup, distinct⟩ := distinct
    have value : ∀ mode, ∀ properties, converted mode (.object fields) (.object true properties) =
        .object true (convertedFields mode fields properties) := fun _ _ => by rw [converted]
    have found : ∀ p ∈ fields, ∃ v, properties.lookup p.1 = some v := fun p hp =>
      mem_keys.1 ((names p.1).2 (List.mem_map_of_mem hp))
    -- Each member of the object and of what it is converted to.
    have member : ∀ p ∈ fields, Converts options encode p.2 ((properties.lookup p.1).getD .null) := by
      intro p hp
      obtain ⟨v, hv⟩ := found p hp
      rw [hv]
      exact ih p hp v hv (distinct_of_mem distinct p hp)
    have first := fun p hp => lookup_converted encode fields properties nodup (p := p) hp
    have second : ∀ p ∈ fields, (convertedFields (!encode) fields (convertedFields encode fields properties)).lookup p.1 =
        some (converted (!encode) p.2 (converted encode p.2 ((properties.lookup p.1).getD .null))) := by
      intro p hp
      rw [lookup_converted (!encode) fields _ nodup hp, first p hp, Option.getD_some]
    refine ⟨?_, ?_, ?_, ?_, ?_⟩
    · rw [value]
      refine .object fields _ (keys_converted encode fields properties) fun p hp v hv => ?_
      rw [first p hp] at hv
      exact Option.some.inj hv ▸ (member p hp).typed
    · rw [value, nodes, nodes, nodesFields_eq, nodesFields_eq]
      refine congrArg (1 + ·.sum) (List.map_congr_left fun p hp => ?_)
      rw [first p hp, Option.getD_some]
      exact (member p hp).nodes
    · rw [value, height, height, heightFields_eq, heightFields_eq]
      refine congrArg (List.foldr max 0) (List.map_congr_left fun p hp => ?_)
      rw [first p hp, Option.getD_some]
      exact congrArg (· + 1) (member p hp).height
    · rw [value, value]
      refine .object fields _ _ names (keys_converted _ fields _) fun p hp v v' hv hv' => ?_
      rw [second p hp] at hv'
      have rounds := (member p hp).rounds
      rw [hv, Option.getD_some] at rounds hv'
      exact Option.some.inj hv' ▸ rounds
    · rw [value, value, value, convertedFields_eq, convertedFields_eq encode fields properties]
      refine congrArg (Value.object true) (List.map_congr_left fun p hp => ?_)
      rw [← convertedFields_eq encode fields properties, second p hp, Option.getD_some, (member p hp).stable]

end Conversion

end RosBridge.RosJson
