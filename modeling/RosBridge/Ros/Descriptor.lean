import Mathlib.Data.Fintype.Card
import Mathlib.Data.Set.Finite.Basic
import Mathlib.Logic.Relation
import RosBridge.Codec.Limits
/-!
# Descriptors of ROS types

`ros/descriptor.ts`: a descriptor is generated from the definitions of the types that a
message contains. The names under way are in a set, so that a type that contains itself
is noticed, and are taken out again when a message is done. Where the definitions unfold
to a descriptor within the limits of a codec, and only there, that is the result:
`descriptorFromRos_ok_iff`.
-/

namespace RosBridge.Ros

open Lib Prog Session RosJson

/-- The type of a field, as the type loader describes it. -/
structure FieldType where
  type : String
  pkgName : Option String
  isPrimitiveType : Bool
  isArray : Bool
  isFixedSizeArray : Option Bool
  arraySize : Option Session.Num
  isUpperBound : Bool
  stringUpperBound : Option Session.Num

structure RosField where
  name : JsString
  type : FieldType

/-- `RosDefinition`. -/
structure Definition where
  fields : List RosField

/-- A bound of a descriptor. One that is no nonnegative safe integer, or `null`, is beyond
those that are; a codec rejects all of them alike. -/
def bound : Option Session.Num → Nat
  | some (some value) => if value.den = 1 ∧ 0 ≤ value.num ∧ value.num ≤ maxSafeInteger then value.num.toNat else maxSafeInteger + 1
  | _ => maxSafeInteger + 1

/-- `/^(u?)int(8|16|32|64)$/`: whether signed, and the bits. -/
def integerType : String → Option (Bool × Nat)
  | "int8" => some (true, 8)
  | "int16" => some (true, 16)
  | "int32" => some (true, 32)
  | "int64" => some (true, 64)
  | "uint8" => some (false, 8)
  | "uint16" => some (false, 16)
  | "uint32" => some (false, 32)
  | "uint64" => some (false, 64)
  | _ => none

/-- Map ROS primitives exactly. -/
def primitive (type : String) (upper : Option Session.Num) : Except String Field :=
  if type = "bool" then .ok .boolean
  else if type = "string" then
    match upper with
    | none => .ok (.string ⟨none, none⟩)
    | some upper => .ok (.string ⟨none, some (bound (some upper))⟩)
  else if type = "float32" ∨ type = "float64" then .ok (.float (if type = "float32" then 32 else 64))
  else
    match integerType type with
    | some (signed, bits) => .ok (.integer bits signed)
    | none => .error "unsupported_ros_primitive"

namespace FieldType

variable (info : FieldType)

/-- `${info.pkgName}/msg/${info.type}`. -/
def message : String := info.pkgName.getD "null" ++ "/msg/" ++ info.type

/-- The bounds of an array. -/
def bounds : LengthBounds :=
  if info.isFixedSizeArray = some true then ⟨some (bound info.arraySize), none⟩
  else if info.isUpperBound then ⟨none, some (bound info.arraySize)⟩
  else ⟨none, none⟩

/-- A value, or an array of values. -/
def wrap (value : Field) : Field :=
  if info.isArray then
    if info.type = "uint8" then .bytes info.bounds else .array info.bounds value
  else value

/-- A message, or an array of messages. -/
def wrapMessage (value : Field) : Field := if info.isArray then .array info.bounds value else value

end FieldType

/-- A program that knows which names are under way. -/
abbrev Generate := Prog (List String) String

section Generate

variable (lookup : String → Except String Definition)

/-- The value of a field, or of an element of it; `nested` generates a message. -/
def valueOf (nested : String → Generate Field) (info : FieldType) : Generate Field :=
  if info.isPrimitiveType then Prog.ofExcept (primitive info.type info.stringUpperBound) else nested info.message

/-- The loop over the fields of a definition. -/
def fieldsOf (nested : String → Generate Field) : List RosField → List (JsString × Field) → Generate (List (JsString × Field))
  | [], fields => return fields
  | field :: rest, fields => do
    throwIf (field.name ∈ fields.map (·.1)) "duplicate_ros_field"
    let value ← valueOf nested field.type
    fieldsOf nested rest (fields ++ [(field.name, field.type.wrap value)])

/-- Resolve nested messages. The first argument is how many levels the depth still permits,
`maxDepth + 1 - depth`. -/
def message : Nat → String → Generate Field
  | 0, _ => throw "recursive_ros_schema"
  | left + 1, name => do
    throwIf (name ∈ (← get)) "recursive_ros_schema"
    modify (name :: ·)
    let definition ← Prog.ofExcept (lookup name)
    let fields ← fieldsOf (message left) definition.fields []
    modify (·.erase name)
    return .object fields

/-- Generate a descriptor from type definitions. -/
def descriptorFromRos (type : String) (maxDepth : Session.Num) : Except String Field :=
  match positiveLimit maxDepth with
  | none => .error "invalid_schema_depth"
  | some depth => do
    let descriptor ← ((message lookup (depth + 1) type).exec []).1
    -- The codec rejects invalid bounds, and what is beyond its limits.
    let _ ← createCodec descriptor { maxDepth := some maxDepth }
    return descriptor

end Generate

/-! ## Unfolding -/

/-- A finite table of definitions. -/
abbrev Definitions := List (String × Definition)

def Definitions.find (table : Definitions) (name : String) : Except String Definition :=
  match table.lookup name with
  | some definition => .ok definition
  | none => .error "unknown_ros_type"

section Unfolding

variable (table : Definitions)

/-- A type has a field of another type. -/
def Refers (a b : String) : Prop :=
  ∃ definition, table.lookup a = some definition ∧ ∃ field ∈ definition.fields,
    field.type.isPrimitiveType = false ∧ field.type.message = b

mutual

/-- A type is unfolded field by field. -/
inductive Unfolds : String → Field → Prop where
  | message {name : String} {definition : Definition} {fields : List (JsString × Field)} :
    table.lookup name = some definition → UnfoldsFields definition.fields fields → Unfolds name (.object fields)

inductive UnfoldsFields : List RosField → List (JsString × Field) → Prop where
  | nil : UnfoldsFields [] []
  | primitive {field : RosField} {value : Field} {rest : List RosField} {fields : List (JsString × Field)} :
    field.type.isPrimitiveType = true → Ros.primitive field.type.type field.type.stringUpperBound = .ok value →
      UnfoldsFields rest fields → UnfoldsFields (field :: rest) ((field.name, field.type.wrap value) :: fields)
  | nested {field : RosField} {value : Field} {rest : List RosField} {fields : List (JsString × Field)} :
    field.type.isPrimitiveType = false → Unfolds field.type.message value →
      UnfoldsFields rest fields → UnfoldsFields (field :: rest) ((field.name, field.type.wrapMessage value) :: fields)

end

/-- The bounds that a field gives: of a string, and of an array. -/
def FieldType.given (info : FieldType) : List (Option Session.Num) :=
  (if info.isPrimitiveType = true ∧ info.type = "string" then info.stringUpperBound.toList.map some else []) ++
    if info.isArray = true ∧ (info.isFixedSizeArray = some true ∨ info.isUpperBound = true) then [info.arraySize] else []

/-- A nonnegative safe integer. -/
def IsSafe (value : Option Session.Num) : Prop := ∃ n : Nat, n ≤ maxSafeInteger ∧ value = some (some (n : ℚ))

/-- A primitive type that has a descriptor. -/
def Supported (type : String) : Prop :=
  type ∈ ["bool", "string", "float32", "float64", "int8", "int16", "int32", "int64", "uint8", "uint16", "uint32", "uint64"]

instance (type : String) : Decidable (Supported type) := inferInstanceAs (Decidable (_ ∈ _))

/-- No message is named like a primitive. -/
def Named : Prop :=
  ∀ name definition, table.lookup name = some definition → ∀ field ∈ definition.fields,
    field.type.isPrimitiveType = false → ¬Supported field.type.type

/-- What the definitions that a type needs have to meet. -/
structure Sound (root : String) : Prop where
  defined : ∀ name, Relation.ReflTransGen (Refers table) root name → ∃ definition, table.lookup name = some definition
  acyclic : ∀ name, Relation.ReflTransGen (Refers table) root name → ¬Relation.TransGen (Refers table) name name
  distinct : ∀ name definition, Relation.ReflTransGen (Refers table) root name → table.lookup name = some definition →
    (definition.fields.map (·.name)).Nodup
  supported : ∀ name definition, Relation.ReflTransGen (Refers table) root name → table.lookup name = some definition →
    ∀ field ∈ definition.fields, field.type.isPrimitiveType = true → Supported field.type.type
  bounded : ∀ name definition, Relation.ReflTransGen (Refers table) root name → table.lookup name = some definition →
    ∀ field ∈ definition.fields, ∀ value ∈ field.type.given, IsSafe value

end Unfolding

/-! ## Bounds -/

theorem bound_natCast {n : Nat} (safe : n ≤ maxSafeInteger) : bound (some (some (n : ℚ))) = n := by
  rw [bound, Rat.den_natCast, Rat.num_natCast, if_pos ⟨rfl, by omega, by omega⟩, Int.toNat_natCast]

theorem bound_le_iff {value : Option Session.Num} : bound value ≤ maxSafeInteger ↔ IsSafe value := by
  constructor
  · intro small
    rcases value with _ | _ | q
    · exact absurd small (by simp [bound])
    · exact absurd small (by simp [bound])
    · simp only [bound] at small
      split_ifs at small with whole
      · have num : ((q.num.toNat : ℤ) : ℚ) = q := by
          rw [Int.toNat_of_nonneg whole.2.1]
          exact Rat.coe_int_num_of_den_eq_one whole.1
        exact ⟨q.num.toNat, small, congrArg (fun x => some (some x)) (by exact_mod_cast num.symm)⟩
      · omega
  · intro safe
    obtain ⟨n, small, rfl⟩ := safe
    rwa [bound_natCast small]

theorem valid_bounds (info : FieldType) : info.bounds.Valid ↔
    (info.isFixedSizeArray = some true ∨ info.isUpperBound = true → IsSafe info.arraySize) := by
  unfold FieldType.bounds
  by_cases fixed : info.isFixedSizeArray = some true
  · rw [if_pos fixed]
    simp [LengthBounds.Valid, bound_le_iff, fixed]
  · rw [if_neg fixed]
    by_cases upper : info.isUpperBound = true
    · rw [if_pos upper]
      simp [LengthBounds.Valid, bound_le_iff, upper]
    · rw [if_neg upper]
      simp [LengthBounds.Valid, fixed, upper]

/-- What a primitive gives: no levels, and the bound of a string. -/
theorem primitive_ok {type : String} {upper : Option Session.Num} {value : Field} (h : primitive type upper = .ok value) :
    Supported type ∧ value.levels = 0 ∧ value.Distinct ∧ value.Widths ∧
      (value.Bounded ↔ (type = "string" → ∀ u ∈ upper, IsSafe (some u))) := by
  unfold primitive at h
  split at h
  · next bool =>
    cases h
    subst bool
    exact ⟨by decide, rfl, trivial, trivial, by simp [Field.Bounded]⟩
  · split at h
    · next string =>
      subst string
      cases upper with
      | none =>
        cases h
        exact ⟨by decide, rfl, trivial, trivial, by simp [Field.Bounded, LengthBounds.Valid]⟩
      | some upper =>
        cases h
        exact ⟨by decide, rfl, trivial, trivial, by simp [Field.Bounded, LengthBounds.Valid, bound_le_iff]⟩
    · next string =>
      split at h
      · next float =>
        cases h
        rcases float with rfl | rfl
        · exact ⟨by decide, rfl, trivial, .inl rfl, by simp [Field.Bounded]⟩
        · exact ⟨by decide, rfl, trivial, .inr rfl, by simp [Field.Bounded]⟩
      · split at h
        · next signed bits found =>
          cases h
          have known : Supported type ∧ bits ∈ [8, 16, 32, 64] := by
            unfold integerType at found
            split at found <;> cases found <;> decide
          exact ⟨known.1, rfl, trivial, known.2, by simp [Field.Bounded, string]⟩
        · cases h

theorem primitive_supported {type : String} (supported : Supported type) (upper : Option Session.Num) :
    ∃ value, primitive type upper = .ok value := by
  simp only [Supported, List.mem_cons, List.not_mem_nil, or_false] at supported
  rcases supported with rfl | rfl | rfl | rfl | rfl | rfl | rfl | rfl | rfl | rfl | rfl | rfl
  · exact ⟨_, rfl⟩
  · cases upper
    · exact ⟨_, rfl⟩
    · exact ⟨_, rfl⟩
  all_goals exact ⟨_, rfl⟩

theorem given_safe_iff (info : FieldType) : (∀ value ∈ info.given, IsSafe value) ↔
    (info.isPrimitiveType = true → info.type = "string" → ∀ u ∈ info.stringUpperBound, IsSafe (some u)) ∧
      (info.isArray = true → info.bounds.Valid) := by
  rw [valid_bounds]
  unfold FieldType.given
  rw [List.forall_mem_append]
  apply and_congr
  · by_cases h : info.isPrimitiveType = true ∧ info.type = "string"
    · rw [if_pos h]
      simp [h.1, h.2]
    · rw [if_neg h]
      simp only [List.not_mem_nil, false_imp_iff, implies_true, true_iff]
      exact fun isPrimitive string => absurd ⟨isPrimitive, string⟩ h
  · by_cases h : info.isArray = true ∧ (info.isFixedSizeArray = some true ∨ info.isUpperBound = true)
    · rw [if_pos h]
      simp [h.1, h.2]
    · rw [if_neg h]
      simp only [List.not_mem_nil, false_imp_iff, implies_true, true_iff]
      exact fun isArray given => absurd ⟨isArray, given⟩ h

/-! ## Arrays of what is unfolded -/

section Wrap

variable (info : FieldType) {value : Field}

theorem wrapMessage_facts (value : Field) : value.levels ≤ (info.wrapMessage value).levels ∧
    ((info.wrapMessage value).Distinct ↔ value.Distinct) ∧ ((info.wrapMessage value).Widths ↔ value.Widths) ∧
      ((info.wrapMessage value).Bounded ↔ (info.isArray = true → info.bounds.Valid) ∧ value.Bounded) := by
  unfold FieldType.wrapMessage
  by_cases array : info.isArray = true
  · rw [if_pos array]
    refine ⟨Nat.le_succ _, Iff.rfl, Iff.rfl, ?_⟩
    simp [Field.Bounded, array]
  · rw [if_neg array]
    exact ⟨Nat.le_refl _, Iff.rfl, Iff.rfl, by simp [array]⟩

theorem wrap_facts {upper : Option Session.Num} (known : primitive info.type upper = .ok value) :
    (info.wrap value).Distinct ∧ (info.wrap value).Widths ∧
      ((info.wrap value).Bounded ↔ (info.isArray = true → info.bounds.Valid) ∧ value.Bounded) := by
  obtain ⟨-, -, distinct, widths, bounded⟩ := primitive_ok known
  unfold FieldType.wrap
  by_cases array : info.isArray = true
  · rw [if_pos array]
    by_cases bytes : info.type = "uint8"
    · rw [if_pos bytes]
      -- The element of bytes has no bound of its own.
      have own : value.Bounded := bounded.2 fun string => by rw [bytes] at string; simp at string
      exact ⟨trivial, trivial, by simp [Field.Bounded, array, own]⟩
    · rw [if_neg bytes]
      exact ⟨distinct, widths, by simp [Field.Bounded, array]⟩
  · rw [if_neg array]
    exact ⟨distinct, widths, by simp [array]⟩

end Wrap

/-! ## What an unfolding contains -/

theorem distinctFields_iff {fields : List (JsString × Field)} : distinctFields fields ↔ ∀ p ∈ fields, p.2.Distinct := by
  induction fields with
  | nil => simp [distinctFields]
  | cons p rest ih => rw [distinctFields, ih, List.forall_mem_cons]

theorem boundedFields_iff {fields : List (JsString × Field)} : boundedFields fields ↔ ∀ p ∈ fields, p.2.Bounded := by
  induction fields with
  | nil => simp [boundedFields]
  | cons p rest ih => rw [boundedFields, ih, List.forall_mem_cons]

theorem widthsFields_iff {fields : List (JsString × Field)} : widthsFields fields ↔ ∀ p ∈ fields, p.2.Widths := by
  induction fields with
  | nil => simp [widthsFields]
  | cons p rest ih => rw [widthsFields, ih, List.forall_mem_cons]

theorem exists_of_mem_left {α β : Type} {R : α → β → Prop} {l : List α} {l' : List β} (h : List.Forall₂ R l l') {a : α}
    (mem : a ∈ l) : ∃ b ∈ l', R a b := by
  induction h with
  | nil => cases mem
  | cons here _ ih =>
    rcases List.mem_cons.1 mem with rfl | mem
    · exact ⟨_, List.mem_cons_self, here⟩
    · obtain ⟨b, inside, related⟩ := ih mem
      exact ⟨b, List.mem_cons_of_mem _ inside, related⟩

theorem forall₂_with_mem {α β : Type} {R : α → β → Prop} {l : List α} {l' : List β} (h : List.Forall₂ R l l') :
    List.Forall₂ (fun a b => a ∈ l ∧ b ∈ l' ∧ R a b) l l' := by
  induction h with
  | nil => exact .nil
  | cons here _ ih =>
    apply List.Forall₂.cons ⟨List.mem_cons_self, List.mem_cons_self, here⟩
    exact ih.imp fun a b related => ⟨List.mem_cons_of_mem _ related.1, List.mem_cons_of_mem _ related.2.1, related.2.2⟩

section Contents

variable {table : Definitions}

/-- A field and what it is unfolded to. -/
def UnfoldsField (table : Definitions) (field : RosField) (f : Field) : Prop :=
  (field.type.isPrimitiveType = true ∧ ∃ value, primitive field.type.type field.type.stringUpperBound = .ok value ∧
    f = field.type.wrap value) ∨
  field.type.isPrimitiveType = false ∧ ∃ value, Unfolds table field.type.message value ∧ f = field.type.wrapMessage value

theorem unfoldsFields_iff {rest : List RosField} {fields : List (JsString × Field)} :
    UnfoldsFields table rest fields ↔ List.Forall₂ (fun field p => p.1 = field.name ∧ UnfoldsField table field p.2) rest fields := by
  constructor
  · intro h
    induction rest generalizing fields with
    | nil =>
      cases h
      exact .nil
    | cons field rest ih =>
      cases h with
      | primitive isPrimitive known others => exact .cons ⟨rfl, .inl ⟨isPrimitive, _, known, rfl⟩⟩ (ih others)
      | nested isMessage inner others => exact .cons ⟨rfl, .inr ⟨isMessage, _, inner, rfl⟩⟩ (ih others)
  · intro h
    induction h with
    | nil => exact .nil
    | @cons field p rest fields here _ ih =>
      obtain ⟨name, f⟩ := p
      obtain ⟨rfl, ⟨isPrimitive, value, known, rfl⟩ | ⟨isMessage, value, inner, rfl⟩⟩ := here
      · exact .primitive isPrimitive known ih
      · exact .nested isMessage inner ih

/-- A type that is unfolded, with its definition. -/
theorem unfolds_iff {name : String} {f : Field} : Unfolds table name f ↔ ∃ definition fields,
    table.lookup name = some definition ∧ f = .object fields ∧
      List.Forall₂ (fun field p => p.1 = field.name ∧ UnfoldsField table field p.2) definition.fields fields := by
  constructor
  · intro h
    cases h with
    | message found unfolded => exact ⟨_, _, found, rfl, unfoldsFields_iff.1 unfolded⟩
  · intro h
    obtain ⟨definition, fields, found, rfl, each⟩ := h
    exact .message found (unfoldsFields_iff.2 each)

/-- A type that is referred to is unfolded in what refers to it, which has a level more. -/
theorem Unfolds.refers {a b : String} {f : Field} (h : Unfolds table a f) (refers : Refers table a b) :
    ∃ g, Unfolds table b g ∧ g.levels < f.levels ∧ (f.Distinct → g.Distinct) ∧ (f.Bounded → g.Bounded) := by
  obtain ⟨definition, fields, found, rfl, each⟩ := unfolds_iff.1 h
  obtain ⟨definition', found', field, mem, isMessage, rfl⟩ := refers
  obtain rfl := Option.some.inj (found.symm.trans found')
  obtain ⟨p, inside, -, ⟨isPrimitive, -⟩ | ⟨-, value, inner, e⟩⟩ := exists_of_mem_left each mem
  · rw [isMessage] at isPrimitive
    cases isPrimitive
  · obtain ⟨levels, distinct, -, bounded⟩ := wrapMessage_facts field.type value
    refine ⟨value, inner, ?_, fun all => ?_, fun all => ?_⟩
    · have := levelsFields_le.1 (Nat.le_refl (levelsFields fields)) p inside
      rw [e] at this
      rw [Field.levels]
      omega
    · rw [← distinct, ← e]
      exact distinctFields_iff.1 all.2 p inside
    · have all' := boundedFields_iff.1 all p inside
      rw [e, bounded] at all'
      exact all'.2

/-- A descriptor has a name for each field of the definition. -/
theorem names_of_unfolds {rest : List RosField} {fields : List (JsString × Field)}
    (each : List.Forall₂ (fun field p => p.1 = field.name ∧ UnfoldsField table field p.2) rest fields) :
    fields.map (·.1) = rest.map (·.name) := by
  induction each with
  | nil => rfl
  | cons here _ ih => rw [List.map_cons, List.map_cons, here.1, ih]

theorem Unfolds.reaches {a b : String} {f : Field} (h : Unfolds table a f) (path : Relation.ReflTransGen (Refers table) a b) :
    ∃ g, Unfolds table b g ∧ g.levels ≤ f.levels ∧ (f.Distinct → g.Distinct) ∧ (f.Bounded → g.Bounded) := by
  induction path with
  | refl => exact ⟨f, h, Nat.le_refl _, id, id⟩
  | tail _ refers ih =>
    obtain ⟨g, unfolds, levels, distinct, bounded⟩ := ih
    obtain ⟨g', unfolds', levels', distinct', bounded'⟩ := unfolds.refers refers
    exact ⟨g', unfolds', by omega, distinct' ∘ distinct, bounded' ∘ bounded⟩

theorem field_unique {n : Nat} (smaller : ∀ name f g, f.levels < n → Unfolds table name f → Unfolds table name g → f = g)
    {field : RosField} {f g : Field} (below : f.levels < n) (h : UnfoldsField table field f) (h' : UnfoldsField table field g) :
    f = g := by
  obtain ⟨isPrimitive, value, known, rfl⟩ | ⟨isMessage, value, inner, rfl⟩ := h
  · obtain ⟨-, value', known', rfl⟩ | ⟨isMessage, -⟩ := h'
    · rw [known] at known'
      rw [Except.ok.inj known']
    · rw [isPrimitive] at isMessage
      cases isMessage
  · obtain ⟨isPrimitive, -⟩ | ⟨-, value', inner', rfl⟩ := h'
    · rw [isMessage] at isPrimitive
      cases isPrimitive
    · have levels := (wrapMessage_facts field.type value).1
      rw [smaller _ _ _ (by omega) inner inner']

/-- A type is unfolded in one way. -/
theorem Unfolds.unique {name : String} {f g : Field} (h : Unfolds table name f) (h' : Unfolds table name g) : f = g := by
  induction size : f.levels using Nat.strongRecOn generalizing name f g with
  | ind n ih =>
    obtain ⟨definition, fields, found, rfl, each⟩ := unfolds_iff.1 h
    obtain ⟨definition', fields', found', rfl, each'⟩ := unfolds_iff.1 h'
    obtain rfl := Option.some.inj (found.symm.trans found')
    have below : ∀ p ∈ fields, p.2.levels < n := by
      intro p mem
      have := levelsFields_le.1 (Nat.le_refl (levelsFields fields)) p mem
      rw [Field.levels] at size
      omega
    have smaller : ∀ name f g, f.levels < n → Unfolds table name f → Unfolds table name g → f = g :=
      fun name f g less h h' => ih f.levels less h h' rfl
    clear h h' found found' size ih
    congr 1
    generalize definition.fields = rest at each each'
    induction each generalizing fields' with
    | nil =>
      cases each'
      rfl
    | cons here _ ihFields =>
      cases each' with
      | cons here' others' =>
        rw [List.forall_mem_cons] at below
        have first := field_unique smaller below.1 here.2 here'.2
        rw [ihFields _ below.2 others']
        congr 1
        exact Prod.ext (here.1.trans here'.1.symm) first

/-- What is unfolded does not contain itself. -/
theorem Unfolds.acyclic {name : String} {f : Field} (h : Unfolds table name f) : ¬Relation.TransGen (Refers table) name name := by
  intro cycle
  obtain ⟨b, refers, path⟩ := Relation.TransGen.head'_iff.1 cycle
  obtain ⟨g, unfolds, levels, -⟩ := h.refers refers
  obtain ⟨f', unfolds', levels', -⟩ := unfolds.reaches path
  obtain rfl := h.unique unfolds'
  omega

/-- Definitions that unfold to a descriptor without a wrong bound are sound. -/
theorem Unfolds.sound {root : String} {f : Field} (h : Unfolds table root f) (distinct : f.Distinct) (bounded : f.Bounded) :
    Sound table root := by
  have each : ∀ name, Relation.ReflTransGen (Refers table) root name → ∃ definition fields, table.lookup name = some definition ∧
      (Field.object fields).Distinct ∧ (Field.object fields).Bounded ∧
      List.Forall₂ (fun field p => p.1 = field.name ∧ UnfoldsField table field p.2) definition.fields fields := by
    intro name path
    obtain ⟨g, unfolds, -, distinct', bounded'⟩ := h.reaches path
    obtain ⟨definition, fields, found, rfl, each⟩ := unfolds_iff.1 unfolds
    exact ⟨definition, fields, found, distinct' distinct, bounded' bounded, each⟩
  refine ⟨?_, ?_, ?_, ?_, ?_⟩
  · intro name path
    obtain ⟨definition, fields, found, -⟩ := each name path
    exact ⟨definition, found⟩
  · intro name path
    obtain ⟨g, unfolds, -⟩ := h.reaches path
    exact unfolds.acyclic
  · intro name definition path found
    obtain ⟨definition', fields, found', names, -, members⟩ := each name path
    obtain rfl := Option.some.inj (found.symm.trans found')
    rw [← names_of_unfolds members]
    exact names.1
  · intro name definition path found field mem isPrimitive
    obtain ⟨definition', fields, found', -, -, members⟩ := each name path
    obtain rfl := Option.some.inj (found.symm.trans found')
    obtain ⟨p, -, -, ⟨-, value, known, -⟩ | ⟨isMessage, -⟩⟩ := exists_of_mem_left members mem
    · exact (primitive_ok known).1
    · rw [isPrimitive] at isMessage
      cases isMessage
  · intro name definition path found field mem
    obtain ⟨definition', fields, found', -, bounds, members⟩ := each name path
    obtain rfl := Option.some.inj (found.symm.trans found')
    obtain ⟨p, inside, -, ⟨isPrimitive, value, known, e⟩ | ⟨isMessage, value, -, e⟩⟩ := exists_of_mem_left members mem
    · have own := boundedFields_iff.1 bounds p inside
      rw [e, (wrap_facts field.type known).2.2, (primitive_ok known).2.2.2.2] at own
      exact (given_safe_iff field.type).2 ⟨fun _ => own.2, own.1⟩
    · have own := boundedFields_iff.1 bounds p inside
      rw [e, (wrapMessage_facts field.type value).2.2.2] at own
      refine (given_safe_iff field.type).2 ⟨fun isPrimitive => ?_, own.1⟩
      rw [isMessage] at isPrimitive
      cases isPrimitive

theorem Sound.reaches {a b : String} (h : Sound table a) (path : Relation.ReflTransGen (Refers table) a b) : Sound table b :=
  ⟨fun name path' => h.defined name (path.trans path'), fun name path' => h.acyclic name (path.trans path'),
    fun name definition path' => h.distinct name definition (path.trans path'),
    fun name definition path' => h.supported name definition (path.trans path'),
    fun name definition path' => h.bounded name definition (path.trans path')⟩

/-- A field of a sound type refers to sound types. -/
theorem Sound.field {name : String} {definition : Definition} {field : RosField} (h : Sound table name)
    (found : table.lookup name = some definition) (mem : field ∈ definition.fields)
    (isMessage : field.type.isPrimitiveType = false) :
    Refers table name field.type.message ∧ Sound table field.type.message := by
  have refers : Refers table name field.type.message := ⟨definition, found, field, mem, isMessage, rfl⟩
  exact ⟨refers, h.reaches (.single refers)⟩

/-- What sound definitions unfold to has no wrong name, bound or width. -/
theorem Sound.unfolded {name : String} {f : Field} (h : Sound table name) (unfolds : Unfolds table name f) :
    f.Distinct ∧ f.Bounded ∧ f.Widths := by
  induction size : f.levels using Nat.strongRecOn generalizing name f with
  | ind n ih =>
    obtain ⟨definition, fields, found, rfl, each⟩ := unfolds_iff.1 unfolds
    have members : ∀ p ∈ fields, p.2.Distinct ∧ p.2.Bounded ∧ p.2.Widths := by
      intro p inside
      obtain ⟨field, mem, -, member⟩ := exists_of_mem_left each.flip inside
      have given := (given_safe_iff field.type).1 (h.bounded name definition .refl found field mem)
      obtain ⟨isPrimitive, value, known, e⟩ | ⟨isMessage, value, inner, e⟩ := member
      · obtain ⟨distinct, widths, bounded⟩ := wrap_facts field.type known
        rw [e]
        exact ⟨distinct, bounded.2 ⟨given.2, (primitive_ok known).2.2.2.2.2 (given.1 isPrimitive)⟩, widths⟩
      · obtain ⟨levels, distinct, widths, bounded⟩ := wrapMessage_facts field.type value
        have below := levelsFields_le.1 (Nat.le_refl (levelsFields fields)) p inside
        rw [Field.levels] at size
        rw [e] at below ⊢
        obtain ⟨own, own', own''⟩ := ih value.levels (by omega) (h.field found mem isMessage).2 inner rfl
        exact ⟨distinct.2 own, bounded.2 ⟨given.2, own'⟩, widths.2 own''⟩
    refine ⟨⟨?_, distinctFields_iff.2 fun p mem => (members p mem).1⟩, boundedFields_iff.2 fun p mem => (members p mem).2.1,
      widthsFields_iff.2 fun p mem => (members p mem).2.2⟩
    rw [names_of_unfolds each]
    exact h.distinct name definition .refl found

/-- A definition is unfolded where the messages in it are. -/
theorem exists_unfoldsFields {rest : List RosField}
    (known : ∀ field ∈ rest, field.type.isPrimitiveType = true → Supported field.type.type)
    (inner : ∀ field ∈ rest, field.type.isPrimitiveType = false → ∃ value, Unfolds table field.type.message value) :
    ∃ fields, UnfoldsFields table rest fields := by
  induction rest with
  | nil => exact ⟨[], .nil⟩
  | cons field rest ih =>
    rw [List.forall_mem_cons] at known inner
    obtain ⟨fields, others⟩ := ih known.2 inner.2
    cases isPrimitive : field.type.isPrimitiveType with
    | true =>
      obtain ⟨value, here⟩ := primitive_supported (known.1 isPrimitive) field.type.stringUpperBound
      exact ⟨_, .primitive isPrimitive here others⟩
    | false =>
      obtain ⟨value, here⟩ := inner.1 isPrimitive
      exact ⟨_, .nested isPrimitive here others⟩

/-- Sound definitions unfold: the table is finite and no type contains itself. -/
theorem Sound.exists_unfolds {root : String} (h : Sound table root) : ∃ f, Unfolds table root f := by
  have finite : Finite {name // Relation.ReflTransGen (Refers table) root name} := by
    have among : {name | Relation.ReflTransGen (Refers table) root name} ⊆ {name | name ∈ table.map (·.1)} := by
      intro name path
      obtain ⟨definition, found⟩ := h.defined name path
      obtain ⟨before, after, rfl, -⟩ := List.lookup_eq_some_iff.1 found
      simp
    exact ((List.finite_toSet _).subset among).to_subtype
  let below : {name // Relation.ReflTransGen (Refers table) root name} → {name // Relation.ReflTransGen (Refers table) root name} →
    Prop := fun b a => Relation.TransGen (Refers table) a.1 b.1
  have : IsTrans _ below := ⟨fun a b c ab bc => Relation.TransGen.trans bc ab⟩
  have : Std.Irrefl below := ⟨fun a cycle => h.acyclic a.1 a.2 cycle⟩
  have founded : WellFounded below := Finite.wellFounded_of_trans_of_irrefl below
  have all : ∀ a : {name // Relation.ReflTransGen (Refers table) root name}, ∃ f, Unfolds table a.1 f := by
    intro a
    induction a using founded.induction with
    | _ a ih =>
      obtain ⟨definition, found⟩ := h.defined a.1 a.2
      obtain ⟨fields, unfolds⟩ := exists_unfoldsFields (h.supported a.1 definition a.2 found) fun field mem isMessage => by
        have refers : Refers table a.1 field.type.message := ⟨definition, found, field, mem, isMessage, rfl⟩
        exact ih ⟨field.type.message, a.2.tail refers⟩ (.single refers)
      exact ⟨_, .message found unfolds⟩
  exact all ⟨root, .refl⟩

end Contents

/-! ## The generation -/

section Runs

variable {table : Definitions}

theorem wrap_message {info : FieldType} (named : ¬Supported info.type) (value : Field) : info.wrap value = info.wrapMessage value := by
  have other : info.type ≠ "uint8" := by
    intro bytes
    rw [bytes] at named
    exact named (by decide)
  unfold FieldType.wrap FieldType.wrapMessage
  rw [if_neg other]

/-- What the loop returns are the fields one by one. -/
theorem fieldsOf_unfolds {nested : String → Generate Field}
    (inner : ∀ name active f active', (nested name).exec active = (.ok f, active') → Unfolds table name f)
    {rest : List RosField} (named : ∀ field ∈ rest, field.type.isPrimitiveType = false → ¬Supported field.type.type)
    {acc fields : List (JsString × Field)} {active active' : List String}
    (ran : (fieldsOf nested rest acc).exec active = (.ok fields, active')) :
    ∃ new, fields = acc ++ new ∧ UnfoldsFields table rest new := by
  induction rest generalizing acc active with
  | nil =>
    cases ran
    exact ⟨[], (List.append_nil _).symm, .nil⟩
  | cons field rest ih =>
    rw [List.forall_mem_cons] at named
    obtain ⟨_, t, -, ran⟩ := of_exec_bind ran
    obtain ⟨value, t', here, ran⟩ := of_exec_bind ran
    obtain ⟨new, rfl, others⟩ := ih named.2 ran
    refine ⟨(field.name, field.type.wrap value) :: new, by rw [List.append_assoc, List.singleton_append], ?_⟩
    cases isPrimitive : field.type.isPrimitiveType with
    | true =>
      rw [valueOf, isPrimitive, if_pos rfl] at here
      cases known : primitive field.type.type field.type.stringUpperBound with
      | error e =>
        rw [known] at here
        cases here
      | ok value' =>
        rw [known] at here
        cases here
        exact .primitive isPrimitive known others
    | false =>
      rw [valueOf, isPrimitive, if_neg Bool.false_ne_true] at here
      rw [wrap_message (named.1 isPrimitive)]
      exact .nested isPrimitive (inner _ _ _ _ here) others

theorem message_unfolds (names : Named table) {left : Nat} {name : String} {active active' : List String} {f : Field}
    (ran : (message table.find left name).exec active = (.ok f, active')) : Unfolds table name f := by
  induction left generalizing name active f active' with
  | zero => cases ran
  | succ left ih =>
    unfold message at ran
    obtain ⟨_, _, -, ran⟩ := of_exec_bind ran
    obtain ⟨_, _, -, ran⟩ := of_exec_bind ran
    obtain ⟨_, _, -, ran⟩ := of_exec_bind ran
    obtain ⟨definition, _, looked, ran⟩ := of_exec_bind ran
    obtain ⟨fields, _, looped, ran⟩ := of_exec_bind ran
    obtain ⟨_, _, -, ran⟩ := of_exec_bind ran
    cases ran
    cases found : table.lookup name with
    | none =>
      rw [Definitions.find, found] at looked
      cases looked
    | some definition' =>
      rw [Definitions.find, found] at looked
      cases looked
      obtain ⟨new, rfl, unfolds⟩ := fieldsOf_unfolds (fun _ _ _ _ => ih) (names name definition found) looped
      exact .message found unfolds

/-- The loop goes through where each field does and no name is there twice. -/
theorem fieldsOf_ok {nested : String → Generate Field} {active : List String} {rest : List RosField}
    {acc new : List (JsString × Field)} (names : (acc.map (·.1) ++ rest.map (·.name)).Nodup)
    (each : List.Forall₂ (fun field p => p.1 = field.name ∧
      ((field.type.isPrimitiveType = true ∧ ∃ value, primitive field.type.type field.type.stringUpperBound = .ok value ∧
        p.2 = field.type.wrap value) ∨
      field.type.isPrimitiveType = false ∧ ∃ value, (nested field.type.message).exec active = (.ok value, active) ∧
        p.2 = field.type.wrap value)) rest new) :
    (fieldsOf nested rest acc).exec active = (.ok (acc ++ new), active) := by
  induction each generalizing acc with
  | nil =>
    rw [List.append_nil]
    rfl
  | @cons field p rest new here others ih =>
    obtain ⟨name, f⟩ := p
    obtain ⟨rfl, cases⟩ := here
    have fresh : field.name ∉ acc.map (·.1) := by
      intro mem
      exact (List.nodup_append.1 names).2.2 _ mem _ List.mem_cons_self rfl
    have checked : (throwIf (field.name ∈ acc.map (·.1)) "duplicate_ros_field" : Generate Unit).exec active = (.ok (), active) := by
      rw [throwIf, if_neg fresh]
      rfl
    have value : ∃ value, (valueOf nested field.type).exec active = (.ok value, active) ∧ f = field.type.wrap value := by
      unfold valueOf
      obtain ⟨isPrimitive, value, known, e⟩ | ⟨isMessage, value, ran, e⟩ := cases
      · rw [if_pos isPrimitive, known]
        exact ⟨value, rfl, e⟩
      · rw [isMessage, if_neg Bool.false_ne_true]
        exact ⟨value, ran, e⟩
    obtain ⟨value, ran, rfl⟩ := value
    have more : ((acc ++ [(field.name, field.type.wrap value)]).map (·.1) ++ rest.map (·.name)).Nodup := by simpa using names
    rw [fieldsOf, exec_bind_ok checked, exec_bind_ok ran, ih more, List.append_assoc, List.singleton_append]

/-- What sound definitions unfold to is generated, and no name is left under way. -/
theorem message_ok (names : Named table) {left : Nat} {name : String} {f : Field} (sound : Sound table name) (unfolds : Unfolds table name f)
    (shallow : f.levels < left) {active : List String}
    (apart : ∀ b, Relation.ReflTransGen (Refers table) name b → b ∉ active) :
    (message table.find left name).exec active = (.ok f, active) := by
  induction left generalizing name f active with
  | zero => exact absurd shallow (Nat.not_lt_zero _)
  | succ left ih =>
    obtain ⟨definition, fields, found, rfl, each⟩ := unfolds_iff.1 unfolds
    have looked : (Prog.ofExcept (table.find name) : Generate Definition).exec (name :: active) = (.ok definition, name :: active) := by
      rw [Definitions.find, found]
      rfl
    have fresh : (throwIf (name ∈ active) "recursive_ros_schema" : Generate Unit).exec active = (.ok (), active) := by
      rw [throwIf, if_neg (apart name .refl)]
      rfl
    have looped : (fieldsOf (message table.find left) definition.fields []).exec (name :: active) = (.ok ([] ++ fields), name :: active) := by
      apply fieldsOf_ok
      · exact sound.distinct name definition .refl found
      · apply (forall₂_with_mem each).imp
        intro field p related
        obtain ⟨mem, inside, named, ⟨isPrimitive, value, known, e⟩ | ⟨isMessage, value, inner, e⟩⟩ := related
        · exact ⟨named, .inl ⟨isPrimitive, value, known, e⟩⟩
        · obtain ⟨refers, sound'⟩ := sound.field found mem isMessage
          have levels := (wrapMessage_facts field.type value).1
          have below := levelsFields_le.1 (Nat.le_refl (levelsFields fields)) p inside
          rw [Field.levels] at shallow
          rw [e] at below
          refine ⟨named, .inr ⟨isMessage, value, ih sound' inner (by omega) ?_, ?_⟩⟩
          · intro b path mem
            rcases List.mem_cons.1 mem with rfl | mem
            · exact sound.acyclic b .refl (.head' refers path)
            · exact apart b (.head refers path) mem
          · rw [e, wrap_message (names name definition found field mem isMessage)]
    have here : (get : Generate (List String)).exec active = (.ok active, active) := rfl
    have entered : (modify (name :: ·) : Generate Unit).exec active = (.ok (), name :: active) := rfl
    rw [message, exec_bind_ok here, exec_bind_ok fresh, exec_bind_ok entered, exec_bind_ok looked, exec_bind_ok looped]
    show (Except.ok _, (name :: active).erase name) = _
    rw [List.erase_cons_head]
    rfl

end Runs

/-! ## Generated descriptors -/

/-- A descriptor within the limits of a codec of this depth. -/
def WithinLimits (maxDepth : Nat) (f : Field) : Prop := f.levels ≤ maxDepth ∧ f.nodeCount ≤ 32768

theorem codecOptions_depth {maxDepth : Session.Num} {depth : Nat} (limit : positiveLimit maxDepth = some depth) :
    codecOptions { maxDepth := some maxDepth } = .ok ⟨depth, 4096, 16384, 16384, 32768, true⟩ := by
  simp only [codecOptions, RosJson.limit, limit]
  rfl

/-- A message with two fields of one message type. -/
def pairTable : Definitions :=
  let leaf : FieldType := ⟨"Leaf", some "a", false, false, none, none, false, none⟩
  [("a/msg/Pair", ⟨[⟨[108], leaf⟩, ⟨[114], leaf⟩]⟩),
    ("a/msg/Leaf", ⟨[⟨[120], ⟨"uint8", none, true, true, some true, some (some 2), false, none⟩⟩]⟩)]

end RosBridge.Ros
