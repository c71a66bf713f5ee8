import RosBridge.Codec.Convert
/-!
# Which values a codec accepts

`Typed options encode field value` says what a well-typed value is: a native value when
`encode`, a wire value otherwise. A conversion succeeds exactly on the well-typed
values within the limits on depth and nodes (`visit_spec`), and what it returns is a
function of the value (`converted`).
-/

namespace RosBridge.RosJson

open Lib Prog Session

def LengthBounds.Allows (bounds : LengthBounds) (limit size : Nat) : Prop :=
  size ≤ limit ∧ (∀ n ∈ bounds.length, size = n) ∧ ∀ n ∈ bounds.maxLength, size ≤ n

/-- An integer type holds `z`. -/
def InRange (bits : Nat) (signed : Bool) (z : ℤ) : Prop := minimum bits signed ≤ z ∧ z ≤ maximum bits signed

inductive Typed (options : CodecOptions) (encode : Bool) : Field → Value → Prop
  | boolean (value : Bool) : Typed options encode .boolean (.boolean value)
  | string (bounds : LengthBounds) (text : List Char)
      (length : bounds.Allows options.maxStringBytes (text.map Char.utf8Size).sum) :
      Typed options encode (.string bounds) (.string (utf16 text))
  | integer (bits : Nat) (signed : Bool) (z : ℤ) (small : bits ≠ 64) (range : InRange bits signed z) :
      Typed options encode (.integer bits signed) (.number (.finite z))
  | nativeInteger (native : encode = true) (signed : Bool) (z : ℤ) (range : InRange 64 signed z) :
      Typed options encode (.integer 64 signed) (.bigint z)
  | wireInteger (wire : encode = false) (signed : Bool) (z : ℤ) (range : InRange 64 signed z) :
      Typed options encode (.integer 64 signed) (.string (utf16 (decimalText z)))
  | float (bits : Nat) (value r : ℚ) (finite : rounded bits value = some r) :
      Typed options encode (.float bits) (.number (.finite value))
  | nativeNonFinite (native : encode = true) (allow : options.allowNonFinite = true) (bits : Nat) (number : Number)
      (nonFinite : number.isFinite = false) : Typed options encode (.float bits) (.number number)
  | wireTag (wire : encode = false) (allow : options.allowNonFinite = true) (bits : Nat) (number : Number)
      (nonFinite : number.isFinite = false) : Typed options encode (.float bits) (.string (tag number))
  | nativeBytes (native : encode = true) (bounds : LengthBounds) (bytes : List UInt8)
      (length : bounds.Allows options.maxByteLength bytes.length) : Typed options encode (.bytes bounds) (.bytes bytes)
  | wireBytes (wire : encode = false) (bounds : LengthBounds) (bytes : List UInt8)
      (length : bounds.Allows options.maxByteLength bytes.length) :
      Typed options encode (.bytes bounds) (.string (utf16 (base64 bytes)))
  | array (bounds : LengthBounds) (element : Field) (items : List Value)
      (length : bounds.Allows options.maxArrayLength items.length)
      (elements : ∀ item ∈ items, Typed options encode element item) :
      Typed options encode (.array bounds element) (.array true items)
  | object (fields : List (JsString × Field)) (properties : List (JsString × Value))
      (names : ∀ name, name ∈ keys properties ↔ name ∈ fields.map (·.1))
      (members : ∀ p ∈ fields, ∀ value, properties.lookup p.1 = some value → Typed options encode p.2 value) :
      Typed options encode (.object fields) (.object true properties)

/-! ## What a conversion visits and returns -/

mutual

/-- The number of fields visited. -/
def nodes : Field → Value → Nat
  | .array _ element, .array _ items => 1 + (items.map (nodes element)).sum
  | .object fields, .object _ properties => 1 + nodesFields fields properties
  | _, _ => 1

def nodesFields : List (JsString × Field) → List (JsString × Value) → Nat
  | [], _ => 0
  | (name, field) :: rest, properties => nodes field ((properties.lookup name).getD .null) + nodesFields rest properties

end

mutual

/-- How deep the visited fields are nested. -/
def height : Field → Value → Nat
  | .array _ element, .array _ items => (items.map fun item => height element item + 1).foldr max 0
  | .object fields, .object _ properties => heightFields fields properties
  | _, _ => 0

def heightFields : List (JsString × Field) → List (JsString × Value) → Nat
  | [], _ => 0
  | (name, field) :: rest, properties =>
    max (height field ((properties.lookup name).getD .null) + 1) (heightFields rest properties)

end

/-- What a scalar of the other mode represents the value of a field. -/
def convertedScalar (encode : Bool) : Field → Value → Value
  | .integer bits _, .bigint z => integerValue bits encode z
  | .integer bits _, .string s => integerValue bits encode (bigInt (JsString.chars s))
  | .float bits, .number (.finite value) => .number (.finite ((rounded bits value).getD value))
  | .float _, .number number => .string (tag number)
  | .float _, .string s => .number ((untag s).getD .nan)
  | .bytes _, .bytes bytes => .string (utf16 (base64 bytes))
  | .bytes _, .string s => .bytes (fromBase64 (JsString.chars s))
  | _, value => value

mutual

/-- What a well-typed value is converted to. -/
def converted (encode : Bool) : Field → Value → Value
  | .array _ element, .array _ items => .array true (items.map (converted encode element))
  | .object fields, .object _ properties => .object true (convertedFields encode fields properties)
  | field, value => convertedScalar encode field value

def convertedFields (encode : Bool) : List (JsString × Field) → List (JsString × Value) → List (JsString × Value)
  | [], _ => []
  | (name, field) :: rest, properties =>
    (name, converted encode field ((properties.lookup name).getD .null)) :: convertedFields encode rest properties

end

/-! ## Scalars -/

section Rules

variable {Q : Unit → Nat → Prop} {R : Prop} {s : Nat}

@[simp] theorem wp_requireValue (c : Prop) [Decidable c] (reason : String) :
    wp (requireValue c reason) Q (fun _ _ => R) s ↔ (c → Q () s) ∧ (¬c → R) := by
  rw [requireValue, wp_throwIf, not_not]
  exact And.comm

@[simp] theorem wp_checkLength (size : Nat) (bounds : LengthBounds) (limit : Nat) :
    wp (checkLength size bounds limit) Q (fun _ _ => R) s ↔
      (bounds.Allows limit size → Q () s) ∧ (¬bounds.Allows limit size → R) := by
  simp only [checkLength, wp_bind, wp_requireValue, LengthBounds.Allows, Option.mem_def]
  generalize (size ≤ limit) = p
  generalize (∀ n, bounds.length = some n → size = n) = q
  generalize (∀ n, bounds.maxLength = some n → size ≤ n) = r
  tauto

end Rules

theorem untag_tag {number : Number} (h : number.isFinite = false) : untag (tag number) = some number := by
  cases number with
  | nan => decide
  | infinity negative => cases negative <;> decide
  | finite => cases h

/-- The tags are those of the numbers that are not finite. -/
theorem tag_of_untag {s : JsString} {number : Number} (h : untag s = some number) :
    s = tag number ∧ number.isFinite = false := by
  unfold untag at h
  split_ifs at h with h₁ h₂ h₃ <;> obtain rfl := Option.some.inj h
  · exact ⟨h₁, rfl⟩
  · exact ⟨h₂, rfl⟩
  · exact ⟨h₃, rfl⟩

/-- A 64-bit integer has at most twenty characters. -/
theorem length_of_range {signed : Bool} {z : ℤ} (h : InRange 64 signed z) : (decimalText z).length ≤ 20 := by
  obtain ⟨low, high⟩ := h
  cases signed <;> simp only [minimum, maximum] at low high <;> norm_num at low high <;>
    exact length_decimalText_le (by norm_num; omega) (by norm_num; omega)

theorem chars_decimalText (z : ℤ) : JsString.chars (utf16 (decimalText z)) = decimalText z :=
  JsString.chars_utf16 fun c hc => (decimalText_ascii z c hc).2

theorem chars_base64 (bytes : List UInt8) : JsString.chars (utf16 (base64 bytes)) = base64 bytes :=
  JsString.chars_utf16 fun c hc => (base64_ascii bytes c hc).2

/-- ASCII text has a code unit for each character. -/
theorem length_utf16 {text : List Char} (ascii : ∀ c ∈ text, c.toNat < 0x80) : (utf16 text).length = text.length := by
  conv_rhs => rw [← JsString.chars_utf16 ascii]
  simp [JsString.chars]

/-- The texts of byte sequences. -/
theorem Typed.text {options : CodecOptions} {encode : Bool} {bounds : LengthBounds} {s : JsString}
    (typed : Typed options encode (.bytes bounds) (.string s)) :
    encode = false ∧ ∃ b, s = utf16 (base64 b) ∧ bounds.Allows options.maxByteLength b.length := by
  cases typed with
  | wireBytes wire _ b length => exact ⟨wire, b, rfl, length⟩

section Scalars

variable (options : CodecOptions) (encode : Bool) (value : Value) (c : Nat)

theorem integer_spec (bits : Nat) (signed : Bool) :
    wp (integer bits signed value encode)
      (fun v c' => Typed options encode (.integer bits signed) value ∧
        v = convertedScalar encode (.integer bits signed) value ∧ c' = c)
      (fun _ _ => ¬Typed options encode (.integer bits signed) value) c := by
  unfold integer
  rw [wp_bind]
  cases value with
  | bigint z =>
    simp only [parsed, wp_bind, wp_requireValue, wp_pure]
    constructor
    · intro mode
      obtain ⟨wide, native⟩ := mode
      refine ⟨fun range => ?_, fun range typed => ?_⟩
      · subst wide
        exact ⟨.nativeInteger native signed z range, rfl, trivial⟩
      · cases typed with
        | nativeInteger _ _ _ inRange => exact range inRange
    · intro mode typed
      cases typed with
      | nativeInteger native => exact mode ⟨rfl, native⟩
  | string s =>
    simp only [parsed, wp_bind, wp_requireValue, wp_pure]
    constructor
    · intro mode
      obtain ⟨wide, wire, -⟩ := mode
      refine ⟨fun canonical => ?_, fun canonical typed => ?_⟩
      · have text := eq_decimalText canonical
        have same := JsString.eq_utf16_of_chars text fun c hc => (decimalText_ascii _ c hc).1
        refine ⟨fun range => ⟨?_, rfl, trivial⟩, fun range typed => ?_⟩
        · subst wide
          rw [same]
          exact .wireInteger (by simpa using wire) signed _ range
        · cases typed with
          | wireInteger _ _ z inRange =>
            rw [chars_decimalText, bigInt_decimalText] at range
            exact range inRange
      · cases typed with
        | wireInteger _ _ z _ =>
          rw [chars_decimalText] at canonical
          exact canonical (canonicalDecimal_decimalText z)
    · intro mode typed
      cases typed with
      | wireInteger wire _ z inRange =>
        refine mode ⟨rfl, by simp [wire], ?_⟩
        rw [length_utf16 fun c hc => (decimalText_ascii z c hc).2]
        exact length_of_range inRange
  | number number =>
    cases number with
    | finite q =>
      simp only [parsed, wp_bind, wp_requireValue, wp_pure]
      constructor
      · intro mode
        obtain ⟨small, whole⟩ := mode
        have value : ((q.num : ℤ) : ℚ) = q := Rat.coe_int_num_of_den_eq_one whole
        refine ⟨fun range => ⟨?_, ?_, trivial⟩, fun range typed => ?_⟩
        · rw [← value]
          exact .integer bits signed q.num small range
        · rw [integerValue, if_pos small, value]
          rfl
        · cases typed with
          | integer _ _ z _ inRange => exact range inRange
      · intro mode typed
        cases typed with
        | integer _ _ z small => exact mode ⟨small, Rat.den_intCast z⟩
    | nan | infinity =>
      simp only [parsed, wp_throw]
      refine fun typed => ?_
      cases typed
  | null | boolean | bytes | array | object =>
    simp only [parsed, wp_throw]
    refine fun typed => ?_
    cases typed

theorem floating_spec (bits : Nat) :
    wp (floating bits value encode options.allowNonFinite)
      (fun v c' => Typed options encode (.float bits) value ∧ v = convertedScalar encode (.float bits) value ∧ c' = c)
      (fun _ _ => ¬Typed options encode (.float bits) value) c := by
  cases value with
  | string s =>
    simp only [floating, wp_bind, wp_requireValue]
    refine ⟨fun wire => ?_, fun mode typed => ?_⟩
    · split
      · next unknown =>
        intro typed
        cases typed with
        | wireTag _ _ _ number nonFinite =>
          rw [untag_tag nonFinite] at unknown
          cases unknown
      · next number known =>
        obtain ⟨rfl, nonFinite⟩ := tag_of_untag known
        simp only [wp_bind, wp_requireValue, wp_pure]
        refine ⟨fun allow => ⟨.wireTag (by simpa using wire) allow bits number nonFinite, ?_, trivial⟩, fun mode typed => ?_⟩
        · simp [convertedScalar, known]
        · generalize ht : tag number = t at typed
          cases typed with
          | wireTag _ allow => exact mode allow
    · generalize hs : s = t at typed
      cases typed with
      | wireTag wire => exact mode (by simp [wire])
  | number number =>
    cases number with
    | finite q =>
      unfold floating
      dsimp only
      split
      · next overflow =>
        intro typed
        cases typed with
        | float _ _ r finite =>
          rw [overflow] at finite
          cases finite
        | nativeNonFinite _ _ _ _ nonFinite => cases nonFinite
      · next r finite =>
        refine ⟨.float bits q r finite, ?_, rfl⟩
        simp [convertedScalar, finite]
    | nan | infinity =>
      simp only [floating, wp_bind, wp_requireValue, wp_pure]
      refine ⟨fun mode => ⟨.nativeNonFinite mode.1 mode.2 bits _ rfl, rfl, trivial⟩, fun mode typed => ?_⟩
      cases typed with
      | nativeNonFinite native allow => exact mode ⟨native, allow⟩
  | null | boolean | bigint | bytes | array | object =>
    refine fun typed => ?_
    cases typed

theorem bytes_spec (bounds : LengthBounds) :
    wp (bytes bounds value encode options.maxByteLength)
      (fun v c' => Typed options encode (.bytes bounds) value ∧ v = convertedScalar encode (.bytes bounds) value ∧ c' = c)
      (fun _ _ => ¬Typed options encode (.bytes bounds) value) c := by
  cases value with
  | bytes b =>
    simp only [bytes, wp_bind, wp_requireValue, wp_checkLength, wp_pure]
    refine ⟨fun native => ⟨fun length => ⟨.nativeBytes native bounds b length, rfl, trivial⟩, fun length typed => ?_⟩,
      fun mode typed => ?_⟩
    · cases typed with
      | nativeBytes _ _ _ allowed => exact length allowed
    · cases typed with
      | nativeBytes native => exact mode native
  | string s =>
    simp only [bytes, wp_bind, wp_requireValue, wp_checkLength, wp_pure]
    refine ⟨fun wire => ⟨fun _ => ⟨fun _ => ⟨fun canonical => ⟨fun length => ⟨?_, rfl, trivial⟩, fun length typed => ?_⟩,
      fun canonical typed => ?_⟩, fun shape typed => ?_⟩, fun size typed => ?_⟩, fun mode typed => ?_⟩
    · rw [← canonical]
      exact .wireBytes (by simpa using wire) bounds _ length
    · obtain ⟨-, b, rfl, allowed⟩ := typed.text
      rw [chars_base64, fromBase64_base64] at length
      exact length allowed
    · obtain ⟨-, b, rfl, -⟩ := typed.text
      rw [chars_base64, fromBase64_base64] at canonical
      exact canonical rfl
    · obtain ⟨-, b, rfl, -⟩ := typed.text
      rw [chars_base64] at shape
      exact shape (base64Shape_base64 b)
    · obtain ⟨-, b, rfl, allowed⟩ := typed.text
      rw [length_utf16 fun c hc => (base64_ascii b c hc).2, length_base64] at size
      have := allowed.1
      omega
    · exact mode (by simp [typed.text.1])
  | null | boolean | number | bigint | array | object =>
    refine fun typed => ?_
    cases typed

/-- The fields without fields of their own. -/
def Field.IsScalar : Field → Prop
  | .array _ _ => False
  | .object _ => False
  | _ => True

theorem scalar_spec {field : Field} (isScalar : field.IsScalar) :
    wp (scalar field value encode options)
      (fun v c' => Typed options encode field value ∧ v = convertedScalar encode field value ∧ c' = c)
      (fun _ _ => ¬Typed options encode field value) c := by
  cases field with
  | boolean =>
    cases value with
    | boolean b => exact ⟨.boolean b, rfl, rfl⟩
    | null | number | bigint | string | bytes | array | object =>
      refine fun typed => ?_
      cases typed
  | string bounds =>
    cases value with
    | string s =>
      simp only [scalar, wp_bind, wp_requireValue, wp_checkLength, wp_pure]
      refine ⟨fun whole => ?_, fun broken typed => ?_⟩
      · obtain ⟨text, rfl⟩ := JsString.paired_iff.1 whole
        rw [JsString.utf8Length_utf16]
        refine ⟨fun length => ⟨.string bounds text length, rfl, trivial⟩, fun length typed => ?_⟩
        generalize hs : utf16 text = s at typed
        cases typed with
        | string _ text' allowed =>
          rw [← JsString.utf8Length_utf16, hs, JsString.utf8Length_utf16] at length
          exact length allowed
      · cases typed with
        | string _ text _ => exact broken (JsString.paired_utf16 text)
    | null | boolean | number | bigint | bytes | array | object =>
      refine fun typed => ?_
      cases typed
  | integer bits signed => exact integer_spec options encode value c bits signed
  | float bits => exact floating_spec options encode value c bits
  | bytes bounds => exact bytes_spec options encode value c bounds
  | array | object => exact isScalar.elim

end Scalars

/-! ## Containers -/

mutual

/-- No object has two fields of one name. -/
def Field.Distinct : Field → Prop
  | .array _ element => element.Distinct
  | .object fields => (fields.map (·.1)).Nodup ∧ distinctFields fields
  | _ => True

def distinctFields : List (JsString × Field) → Prop
  | [] => True
  | (_, field) :: rest => field.Distinct ∧ distinctFields rest

end

/-- A well-typed value within the limits that are left at depth `depth` after `count`
fields. -/
def Accepted (options : CodecOptions) (encode : Bool) (field : Field) (value : Value) (depth count : Nat) : Prop :=
  Typed options encode field value ∧ depth + height field value ≤ options.maxDepth ∧
    count + nodes field value ≤ options.maxNodes

@[simp] theorem wp_enter {options : CodecOptions} {depth : Nat} {reason : String} {Q : Unit → Nat → Prop} {R : Prop}
    {c : Nat} : wp (enter options depth reason) Q (fun _ _ => R) c ↔
      (depth ≤ options.maxDepth ∧ c + 1 ≤ options.maxNodes → Q () (c + 1)) ∧
        (¬(depth ≤ options.maxDepth ∧ c + 1 ≤ options.maxNodes) → R) := by
  simp only [enter, wp_bind, wp_requireValue, wp_modify, wp_get]
  tauto

theorem foldr_max_le {α : Type} {l : List α} {f : α → Nat} {n : Nat} :
    (l.map f).foldr max 0 ≤ n ↔ ∀ x ∈ l, f x ≤ n := by
  induction l with
  | nil => simp
  | cons x l ih => rw [List.map_cons, List.foldr_cons, max_le_iff, ih, List.forall_mem_cons]

/-- What becomes of the fields of an object that has them all. -/
structure Members (options : CodecOptions) (encode : Bool) (fields : List (JsString × Field))
    (properties : List (JsString × Value)) (depth count : Nat) : Prop where
  members : ∀ p ∈ fields, ∃ value, properties.lookup p.1 = some value ∧ Typed options encode p.2 value ∧
    depth + height p.2 value ≤ options.maxDepth
  count : count + nodesFields fields properties ≤ options.maxNodes

section Containers

variable (options : CodecOptions) (encode : Bool)

theorem items_spec (element : Field) (depth : Nat)
    (spec : ∀ value c, wp (visit options encode element value depth)
      (fun v c' => Accepted options encode element value depth c ∧ v = converted encode element value ∧
        c' = c + nodes element value) (fun _ _ => ¬Accepted options encode element value depth c) c)
    (items : List Value) (c : Nat) (hc : c ≤ options.maxNodes) :
    wp (items.mapM fun item => visit options encode element item depth)
      (fun vs c' => ((∀ item ∈ items, Typed options encode element item ∧ depth + height element item ≤ options.maxDepth) ∧
        c + (items.map (nodes element)).sum ≤ options.maxNodes) ∧ vs = items.map (converted encode element) ∧
        c' = c + (items.map (nodes element)).sum)
      (fun _ _ => ¬((∀ item ∈ items, Typed options encode element item ∧ depth + height element item ≤ options.maxDepth) ∧
        c + (items.map (nodes element)).sum ≤ options.maxNodes)) c := by
  induction items generalizing c with
  | nil => exact ⟨⟨by simp, hc⟩, rfl, rfl⟩
  | cons item items ih =>
    rw [List.mapM_cons, wp_bind]
    simp only [List.forall_mem_cons, List.map_cons, List.sum_cons, ← Nat.add_assoc]
    refine wp_mono (spec item c) ?_ ?_
    · rintro v _ ⟨⟨typed, deep, count⟩, rfl, rfl⟩
      rw [wp_bind]
      refine wp_mono (ih (c + nodes element item) count) ?_ ?_
      · rintro vs _ ⟨⟨all, total⟩, rfl, rfl⟩
        exact ⟨⟨⟨⟨typed, deep⟩, all⟩, total⟩, rfl, rfl⟩
      · rintro _ _ rest ⟨⟨-, all⟩, total⟩
        exact rest ⟨all, total⟩
    · rintro _ _ refused ⟨⟨⟨typed, deep⟩, -⟩, total⟩
      exact refused ⟨typed, deep, by omega⟩

theorem mem_keys {properties : List (JsString × Value)} {name : JsString} :
    name ∈ keys properties ↔ ∃ value, properties.lookup name = some value := by
  rw [← Option.isSome_iff_exists, List.lookup_isSome_iff, keys, List.mem_dedup, List.mem_map]
  exact exists_congr fun p => and_congr_right fun _ => by rw [beq_iff_eq, eq_comm]

/-- The keys of an object are those of its fields when it has as many and all of them. -/
theorem names_of_count {fields : List (JsString × Field)} {properties : List (JsString × Value)}
    (nodup : (fields.map (·.1)).Nodup) (count : (keys properties).length = fields.length)
    (all : ∀ p ∈ fields, ∃ value, properties.lookup p.1 = some value) (name : JsString) :
    name ∈ keys properties ↔ name ∈ fields.map (·.1) := by
  have sub : fields.map (·.1) ⊆ keys properties := by
    intro name hn
    obtain ⟨p, hp, rfl⟩ := List.mem_map.1 hn
    obtain ⟨value, found⟩ := all p hp
    exact mem_keys.2 ⟨value, found⟩
  have perm := (List.subperm_of_subset nodup sub).perm_of_length_le (by simp [count])
  exact perm.symm.mem_iff

omit options encode in
/-- The height of an object is that of its fields. -/
theorem heightFields_le {fields : List (JsString × Field)} {properties : List (JsString × Value)} {n : Nat} :
    heightFields fields properties ≤ n ↔
      ∀ p ∈ fields, height p.2 ((properties.lookup p.1).getD .null) + 1 ≤ n := by
  induction fields with
  | nil => simp [heightFields]
  | cons p rest ih => rw [heightFields, max_le_iff, ih, List.forall_mem_cons]

mutual

/-- A conversion returns exactly on the well-typed values within the limits. -/
theorem visit_spec (field : Field) (distinct : field.Distinct) (value : Value) (depth c : Nat) :
    wp (visit options encode field value depth)
      (fun v c' => Accepted options encode field value depth c ∧ v = converted encode field value ∧
        c' = c + nodes field value)
      (fun _ _ => ¬Accepted options encode field value depth c) c := by
  have leaf : ∀ field : Field, field.IsScalar → nodes field value = 1 → height field value = 0 →
      converted encode field value = convertedScalar encode field value →
      wp (do enter options depth "payload complexity"; scalar field value encode options)
        (fun v c' => Accepted options encode field value depth c ∧ v = converted encode field value ∧
          c' = c + nodes field value)
        (fun _ _ => ¬Accepted options encode field value depth c) c := by
    intro field isScalar one flat same
    rw [wp_bind, wp_enter, Accepted, one, flat, same]
    refine ⟨fun ⟨deep, count⟩ => ?_, fun outside accepted => outside accepted.2⟩
    refine wp_mono (scalar_spec options encode value (c + 1) isScalar) ?_ ?_
    · rintro v _ ⟨typed, rfl, rfl⟩
      exact ⟨⟨typed, deep, count⟩, rfl, rfl⟩
    · rintro _ _ ill ⟨typed, -⟩
      exact ill typed
  cases field with
  | boolean | string | integer | float | bytes => exact leaf _ trivial rfl rfl rfl
  | array bounds element =>
    have ill : (∀ plain items, value ≠ .array plain items) →
        ¬Accepted options encode (.array bounds element) value depth c := by
      rintro other ⟨typed, -⟩
      cases typed with
      | array _ _ items => exact other true items rfl
    cases value with
    | array plain items =>
      rw [visit, wp_bind, wp_enter]
      refine ⟨fun ⟨deep, count⟩ => ?_, fun outside ⟨_, deep, count⟩ => outside ⟨by omega, by rw [nodes] at count; omega⟩⟩
      simp only [wp_bind, wp_checkLength, wp_requireValue, wp_pure, Accepted]
      have typed_iff : Typed options encode (.array bounds element) (.array plain items) ↔
          bounds.Allows options.maxArrayLength items.length ∧ plain = true ∧
            ∀ item ∈ items, Typed options encode element item := by
        constructor
        · intro typed
          cases typed with
          | array _ _ _ length elements => exact ⟨length, rfl, elements⟩
        · rintro ⟨length, rfl, elements⟩
          exact .array bounds element items length elements
      have height_iff : depth + height (.array bounds element) (.array plain items) ≤ options.maxDepth ↔
          ∀ item ∈ items, depth + 1 + height element item ≤ options.maxDepth := by
        rw [height, ← Nat.le_sub_iff_add_le' deep, foldr_max_le]
        exact forall₂_congr fun item _ => by omega
      rw [typed_iff, height_iff, nodes, converted]
      refine ⟨fun length => ⟨fun isPlain => ?_, fun notPlain accepted => notPlain accepted.1.2.1⟩,
        fun length accepted => length accepted.1.1⟩
      refine wp_mono (items_spec options encode element (depth + 1)
        (fun value c => visit_spec element distinct value (depth + 1) c) items (c + 1) count) ?_ ?_
      · rintro vs _ ⟨⟨all, total⟩, rfl, rfl⟩
        refine ⟨⟨⟨length, isPlain, fun item h => (all item h).1⟩, fun item h => (all item h).2, by omega⟩, rfl, by omega⟩
      · rintro _ _ refused ⟨⟨-, -, elements⟩, deep, total⟩
        exact refused ⟨fun item h => ⟨elements item h, deep item h⟩, by omega⟩
    | null | boolean | number | bigint | string | bytes | object =>
      have untyped := ill (by simp)
      simp [visit, untyped]
  | object fields =>
    rw [visit, wp_bind, wp_enter]
    refine ⟨fun ⟨deep, count⟩ => ?_, fun outside => ?_⟩
    · cases value with
      | object plain properties =>
        simp only [record, wp_bind, wp_requireValue, wp_pure, Accepted]
        have nodup := distinct.1
        refine ⟨fun isPlain => ⟨fun number => ?_, fun number accepted => ?_⟩, fun notPlain accepted => ?_⟩
        · refine wp_mono (visitFields_spec fields distinct.2 properties (depth + 1) (c + 1) count) ?_ ?_
          · rintro vs _ ⟨members, rfl, rfl⟩
            have names := names_of_count nodup number fun p hp => (members.members p hp).imp fun _ h => h.1
            refine ⟨⟨?_, ?_, ?_⟩, rfl, ?_⟩
            · rw [isPlain]
              refine .object fields properties names fun p hp value found => ?_
              obtain ⟨value', found', typed, -⟩ := members.members p hp
              rw [found] at found'
              exact Option.some.inj found' ▸ typed
            · rw [height, ← Nat.le_sub_iff_add_le' deep, heightFields_le]
              intro p hp
              obtain ⟨value', found', -, within⟩ := members.members p hp
              rw [found', Option.getD_some]
              omega
            · have := members.count
              rw [nodes]
              omega
            · rw [nodes]
              omega
          · rintro _ _ refused ⟨typed, within, total⟩
            rw [height, ← Nat.le_sub_iff_add_le' deep, heightFields_le] at within
            rw [nodes] at total
            cases typed with
            | object _ _ names members =>
              refine refused ⟨fun p hp => ?_, by omega⟩
              obtain ⟨value, found⟩ := mem_keys.1 ((names p.1).2 (List.mem_map_of_mem hp))
              have bound := within p hp
              rw [found, Option.getD_some] at bound
              exact ⟨value, found, members p hp value found, by omega⟩
        · cases accepted.1 with
          | object _ _ names _ =>
            have perm : (keys properties).Perm (fields.map (·.1)) :=
              (List.perm_ext_iff_of_nodup (List.nodup_dedup _) nodup).2 names
            exact number (by rw [perm.length_eq, List.length_map])
        · cases accepted.1 with
          | object => exact notPlain rfl
      | null | boolean | number | bigint | string | bytes | array =>
        rintro ⟨typed, -⟩
        cases typed
    · rintro ⟨typed, deep, count⟩
      have : 1 ≤ nodes (.object fields) value := by cases typed; simp [nodes]
      exact outside ⟨by omega, by omega⟩

theorem visitFields_spec (fields : List (JsString × Field)) (distinct : distinctFields fields)
    (properties : List (JsString × Value)) (depth c : Nat) (hc : c ≤ options.maxNodes) :
    wp (visitFields options encode fields properties depth)
      (fun vs c' => Members options encode fields properties depth c ∧ vs = convertedFields encode fields properties ∧
        c' = c + nodesFields fields properties)
      (fun _ _ => ¬Members options encode fields properties depth c) c := by
  match fields, distinct with
  | [], _ => exact ⟨⟨by simp, hc⟩, rfl, rfl⟩
  | (name, field) :: rest, distinct =>
    rw [visitFields]
    split
    · next absent =>
      rintro ⟨members, -⟩
      obtain ⟨value, found, -⟩ := members (name, field) List.mem_cons_self
      rw [absent] at found
      cases found
    · next value found =>
      rw [wp_bind]
      refine wp_mono (visit_spec field distinct.1 value depth c) ?_ ?_
      · rintro v _ ⟨⟨typed, deep, count⟩, rfl, rfl⟩
        rw [wp_bind]
        refine wp_mono (visitFields_spec rest distinct.2 properties depth (c + nodes field value) count) ?_ ?_
        · rintro vs _ ⟨⟨members, total⟩, rfl, rfl⟩
          refine ⟨⟨?_, ?_⟩, ?_, ?_⟩
          · rw [List.forall_mem_cons]
            exact ⟨⟨value, found, typed, deep⟩, members⟩
          · rw [nodesFields, found, Option.getD_some]
            omega
          · rw [convertedFields, found, Option.getD_some]
          · rw [nodesFields, found, Option.getD_some]
            omega
        · rintro _ _ refused ⟨members, total⟩
          rw [nodesFields, found, Option.getD_some] at total
          exact refused ⟨fun p hp => members p (List.mem_cons_of_mem _ hp), by omega⟩
      · rintro _ _ refused ⟨members, total⟩
        obtain ⟨value', found', typed, deep⟩ := members (name, field) List.mem_cons_self
        rw [found] at found'
        obtain rfl := Option.some.inj found'
        rw [nodesFields, found, Option.getD_some] at total
        exact refused ⟨typed, deep, by omega⟩

end

end Containers

end RosBridge.RosJson
