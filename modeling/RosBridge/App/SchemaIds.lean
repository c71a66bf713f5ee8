import RosBridge.App.Canonical
import RosBridge.App.Greeting
import RosBridge.Ros.Descriptor
/-!
# Schema identifiers

`createRegistry` of `app/registry.ts` with the descriptors that it hashes. Two bindings have
one schema identifier exactly when their descriptors are equal up to the order of fields
and both or neither have a command guard: `schemaId_eq_iff`.
-/

namespace RosBridge.App

open Lib Tree Entries Session Config Router Ros RosJson

/-! ## Descriptors as trees -/

def kindName : Field → String
  | .boolean => "boolean"
  | .string _ => "string"
  | .integer _ _ => "integer"
  | .float _ => "float"
  | .bytes _ => "bytes"
  | .array _ _ => "array"
  | .object _ => "object"

/-- A property that is present or absent. -/
def optional (name : String) : Option Nat → List (JsString × Tree)
  | none => []
  | some n => [(units name, .number n)]

def boundEntries (bounds : LengthBounds) : List (JsString × Tree) :=
  optional "length" bounds.length ++ optional "maxLength" bounds.maxLength

mutual

/-- A descriptor as a JSON tree. The fields of an object are in the order of the definition:
the order in which they are listed makes no difference to a canonical form. -/
def tree : Field → Tree
  | .boolean => .object [(units "kind", .string (units "boolean"))]
  | .string bounds => .object ((units "kind", .string (units "string")) :: boundEntries bounds)
  | .integer bits signed =>
    .object [(units "kind", .string (units "integer")), (units "signed", .boolean signed), (units "bits", .number bits)]
  | .float bits => .object [(units "kind", .string (units "float")), (units "bits", .number bits)]
  | .bytes bounds => .object ((units "kind", .string (units "bytes")) :: boundEntries bounds)
  | .array bounds element =>
    .object ((units "kind", .string (units "array")) :: (units "element", tree element) :: boundEntries bounds)
  | .object fields => .object [(units "kind", .string (units "object")), (units "fields", .object (treeFields fields))]

def treeFields : List (JsString × Field) → List (JsString × Tree)
  | [] => []
  | (name, field) :: fields => (name, tree field) :: treeFields fields

end

/-- What is hashed. -/
def schemaTree (descriptor : Field) (allowNonFinite : Bool) : Tree :=
  .object [(units "codec", .string (units "ros-json-v1")), (units "descriptor", tree descriptor),
    (units "allowNonFinite", .boolean allowNonFinite)]

/-- `JSON.stringify(canonical({ codec: 'ros-json-v1', descriptor, allowNonFinite }))`. -/
def schemaText (descriptor : Field) (allowNonFinite : Bool) : JsString := text (canonical (schemaTree descriptor allowNonFinite))

mutual

/-- Equal up to the order of fields. -/
def UpToOrder : Field → Field → Prop
  | .array bounds element, g => ∃ element', g = .array bounds element' ∧ UpToOrder element element'
  | .object fields, g => ∃ fields', g = .object fields' ∧ UpToOrderFields fields fields'
  | .boolean, g => g = .boolean
  | .string bounds, g => g = .string bounds
  | .integer bits signed, g => g = .integer bits signed
  | .float bits, g => g = .float bits
  | .bytes bounds, g => g = .bytes bounds

def UpToOrderFields : List (JsString × Field) → List (JsString × Field) → Prop
  | [], fields' => fields' = []
  | (name, field) :: fields, fields' => ∃ before field' after, fields' = before ++ (name, field') :: after ∧
      UpToOrder field field' ∧ UpToOrderFields fields (before ++ after)

end

section Registry

variable {η : Type} (lookup : String → Except String Definition) (adapt : RosJson.Codec → Router.Codec η)
  (sha256 : JsString → List UInt8)

/-- The body of the loop in `createRegistry`: the codec, and the digest of the schema. How the
router reads and writes values with a codec is an argument. -/
def describe (binding : TopicBinding) : Except String (Router.Codec η × List UInt8) := do
  let descriptor ← descriptorFromRos lookup binding.rosType (some 32)
  let allowNonFinite := binding.commandGuard.isNone
  let schema := schemaText descriptor allowNonFinite
  -- Do not infer command usage from type names. Reject nonfinite values only for bindings with an explicit guard.
  let codec ← createCodec descriptor { allowNonFinite := some allowNonFinite }
  return (adapt codec, sha256 schema)

/-- The text that is hashed for a binding. -/
def IsSchema (config : BridgeConfig) (schema : JsString) : Prop :=
  ∃ binding ∈ config.topics, ∃ descriptor, descriptorFromRos lookup binding.rosType (some 32) = .ok descriptor ∧
    schema = schemaText descriptor binding.commandGuard.isNone

end Registry

/-! ## Properties of related trees -/

/-- A property of an object. -/
def property (name : String) : Tree → Option Tree
  | .object fields => fields.lookup (units name)
  | _ => none

theorem lookup_middle {α : Type} {before after : List (JsString × α)} {key name : JsString} {value : α} (other : name ≠ key) :
    (before ++ (key, value) :: after).lookup name = (before ++ after).lookup name := by
  induction before with
  | nil => rw [List.nil_append, List.nil_append, List.lookup_cons, beq_false_of_ne other]
  | cons entry before ih =>
    rw [List.cons_append, List.cons_append, List.lookup_cons, List.lookup_cons, ih]

/-- A name has corresponding values in lists that differ in order. -/
theorem reorderedFields_lookup {fields fields' : List (JsString × Tree)} (h : ReorderedFields fields fields')
    (distinct : (fields'.map (·.1)).Nodup) (name : JsString) :
    Option.Rel Reordered (fields.lookup name) (fields'.lookup name) := by
  induction fields generalizing fields' with
  | nil =>
    rw [show fields' = [] from h]
    exact .none
  | cons entry fields ih =>
    obtain ⟨key, value⟩ := entry
    obtain ⟨before, value', after, rfl, here, others⟩ := h
    have rest : ((before ++ after).map (·.1)).Nodup := by
      apply List.Nodup.sublist _ distinct
      rw [List.map_append, List.map_append, List.map_cons]
      exact (List.sublist_cons_self _ _).append_left _
    rw [List.lookup_cons]
    by_cases same : name = key
    · subst same
      have found := (lookup_iff distinct).2 (List.mem_append_right before List.mem_cons_self)
      rw [beq_self_eq_true, found]
      exact .some here
    · rw [beq_false_of_ne same, lookup_middle same]
      exact ih others rest

theorem Reordered.property {t t' : Tree} (h : Reordered t t') (distinct : Distinct t') (name : String) :
    Option.Rel Reordered (App.property name t) (App.property name t') := by
  cases t with
  | object fields =>
    obtain ⟨fields', rfl, same⟩ := h
    exact reorderedFields_lookup same distinct.1 _
  | array items =>
    obtain ⟨items', rfl, -⟩ := h
    exact .none
  | null | boolean value | number value | string value =>
    rw [show t' = _ from h]
    exact .none

/-! ## Properties of descriptors -/

def fieldBounds : Field → LengthBounds
  | .string bounds => bounds
  | .bytes bounds => bounds
  | .array bounds _ => bounds
  | _ => ⟨none, none⟩

theorem property_kind (f : Field) : property "kind" (tree f) = some (.string (units (kindName f))) := by
  cases f <;> rfl

theorem lookup_bounds (bounds : LengthBounds) : (boundEntries bounds).lookup (units "length") = bounds.length.map (fun n : Nat => .number n) ∧
    (boundEntries bounds).lookup (units "maxLength") = bounds.maxLength.map fun n : Nat => .number n := by
  obtain ⟨length, maxLength⟩ := bounds
  cases length <;> cases maxLength <;> exact ⟨rfl, rfl⟩

theorem property_bounds (f : Field) : property "length" (tree f) = (fieldBounds f).length.map (fun n : Nat => .number n) ∧
    property "maxLength" (tree f) = (fieldBounds f).maxLength.map fun n : Nat => .number n := by
  cases f with
  | string bounds => exact lookup_bounds bounds
  | bytes bounds => exact lookup_bounds bounds
  | array bounds element => exact lookup_bounds bounds
  | boolean => exact ⟨rfl, rfl⟩
  | integer bits signed => exact ⟨rfl, rfl⟩
  | float bits => exact ⟨rfl, rfl⟩
  | object fields => exact ⟨rfl, rfl⟩

theorem treeFields_map (fields : List (JsString × Field)) : treeFields fields = fields.map fun p => (p.1, tree p.2) := by
  induction fields with
  | nil => rfl
  | cons p fields ih => rw [treeFields, ih, List.map_cons]

theorem treeFields_keys (fields : List (JsString × Field)) : (treeFields fields).map (·.1) = fields.map (·.1) := by
  rw [treeFields_map, List.map_map]
  rfl

theorem boundEntries_keys (bounds : LengthBounds) :
    ((boundEntries bounds).map (·.1)).Sublist [units "length", units "maxLength"] := by
  have one : ∀ (name : String) (value : Option Nat), ((optional name value).map (·.1)).Sublist [units name] := by
    intro name value
    cases value with
    | none => exact List.nil_sublist _
    | some n => exact List.Sublist.refl _
  rw [boundEntries, List.map_append]
  exact (one _ _).append (one _ _)

theorem distinct_boundEntries (bounds : LengthBounds) : DistinctFields (boundEntries bounds) := by
  obtain ⟨length, maxLength⟩ := bounds
  cases length <;> cases maxLength <;> simp [boundEntries, optional, DistinctFields, App.Distinct]

mutual

/-- No object of the tree has a key twice, as no object of the descriptor has. -/
theorem distinct_tree (f : Field) (distinct : f.Distinct) : App.Distinct (tree f) := by
  cases f with
  | boolean => exact ⟨by decide, trivial, trivial⟩
  | string bounds =>
    exact ⟨List.Nodup.sublist ((boundEntries_keys bounds).cons_cons _) (by decide), trivial, distinct_boundEntries bounds⟩
  | integer bits signed => exact ⟨show [units "kind", units "signed", units "bits"].Nodup by decide, trivial, trivial, trivial, trivial⟩
  | float bits => exact ⟨show [units "kind", units "bits"].Nodup by decide, trivial, trivial, trivial⟩
  | bytes bounds =>
    exact ⟨List.Nodup.sublist ((boundEntries_keys bounds).cons_cons _) (by decide), trivial, distinct_boundEntries bounds⟩
  | array bounds element =>
    have keys : [units "kind", units "element", units "length", units "maxLength"].Nodup := by decide
    exact ⟨List.Nodup.sublist (((boundEntries_keys bounds).cons_cons _).cons_cons _) keys, trivial,
      distinct_tree element distinct, distinct_boundEntries bounds⟩
  | object fields =>
    refine ⟨show [units "kind", units "fields"].Nodup by decide, trivial, ⟨?_, distinct_treeFields fields distinct.2⟩, trivial⟩
    rw [treeFields_keys]
    exact distinct.1

theorem distinct_treeFields (fields : List (JsString × Field)) (distinct : distinctFields fields) :
    DistinctFields (treeFields fields) := by
  match fields with
  | [] => trivial
  | (_, field) :: fields => exact ⟨distinct_tree field distinct.1, distinct_treeFields fields distinct.2⟩

end

/-! ## Descriptors up to order -/

theorem reorderedFields_refl {fields : List (JsString × Tree)} (each : ∀ p ∈ fields, Reordered p.2 p.2) :
    ReorderedFields fields fields := by
  induction fields with
  | nil => rfl
  | cons p fields ih =>
    rw [List.forall_mem_cons] at each
    exact ⟨[], p.2, fields, rfl, each.1, ih each.2⟩

theorem reordered_boundEntries (bounds : LengthBounds) : ReorderedFields (boundEntries bounds) (boundEntries bounds) := by
  apply reorderedFields_refl
  obtain ⟨length, maxLength⟩ := bounds
  cases length <;> cases maxLength <;> simp [boundEntries, optional, Reordered]

/-- Fields in the same places. -/
theorem reorderedFields_cons {key : JsString} {value value' : Tree} {fields fields' : List (JsString × Tree)}
    (here : Reordered value value') (others : ReorderedFields fields fields') :
    ReorderedFields ((key, value) :: fields) ((key, value') :: fields') := ⟨[], value', fields', rfl, here, others⟩

mutual

theorem reordered_tree (f g : Field) (h : UpToOrder f g) : Reordered (tree f) (tree g) := by
  cases f with
  | array bounds element =>
    obtain ⟨element', rfl, same⟩ := h
    exact ⟨_, rfl, reorderedFields_cons rfl (reorderedFields_cons (reordered_tree element element' same) (reordered_boundEntries bounds))⟩
  | object fields =>
    obtain ⟨fields', rfl, same⟩ := h
    exact ⟨_, rfl, reorderedFields_cons rfl (reorderedFields_cons ⟨_, rfl, reordered_treeFields fields fields' same⟩ rfl)⟩
  | boolean =>
    rw [show g = _ from h]
    exact ⟨_, rfl, reorderedFields_cons rfl rfl⟩
  | string bounds =>
    rw [show g = _ from h]
    exact ⟨_, rfl, reorderedFields_cons rfl (reordered_boundEntries bounds)⟩
  | integer bits signed =>
    rw [show g = _ from h]
    exact ⟨_, rfl, reorderedFields_cons rfl (reorderedFields_cons rfl (reorderedFields_cons rfl rfl))⟩
  | float bits =>
    rw [show g = _ from h]
    exact ⟨_, rfl, reorderedFields_cons rfl (reorderedFields_cons rfl rfl)⟩
  | bytes bounds =>
    rw [show g = _ from h]
    exact ⟨_, rfl, reorderedFields_cons rfl (reordered_boundEntries bounds)⟩

theorem reordered_treeFields (fields fields' : List (JsString × Field)) (h : UpToOrderFields fields fields') :
    ReorderedFields (treeFields fields) (treeFields fields') := by
  match fields with
  | [] =>
    rw [show fields' = [] from h]
    rfl
  | (name, field) :: fields =>
    obtain ⟨before, field', after, rfl, here, others⟩ := h
    have rest := reordered_treeFields fields (before ++ after) others
    rw [treeFields_map (before ++ after), List.map_append] at rest
    refine ⟨before.map fun p => (p.1, tree p.2), tree field', after.map fun p => (p.1, tree p.2), ?_,
      reordered_tree field field' here, rest⟩
    rw [treeFields_map, List.map_append, List.map_cons]

end

/-- The names of the kinds are different. -/
theorem kindName_inj {f g : Field} (h : units (kindName f) = units (kindName g)) : kindName f = kindName g := by
  have all : ∀ k : Field, kindName k ∈ ["boolean", "string", "integer", "float", "bytes", "array", "object"] := by
    intro k
    cases k <;> simp [kindName]
  have differ : ∀ a ∈ ["boolean", "string", "integer", "float", "bytes", "array", "object"],
      ∀ b ∈ ["boolean", "string", "integer", "float", "bytes", "array", "object"], units a = units b → a = b := by decide
  exact differ _ (all f) _ (all g) h

/-- A property that is a number is the same in a related tree. -/
theorem number_of_related {a b : Option Nat}
    (h : Option.Rel Reordered (a.map fun n : Nat => Tree.number n) (b.map fun n : Nat => Tree.number n)) : a = b := by
  cases a with
  | none =>
    cases b with
    | none => rfl
    | some m => cases h
  | some n =>
    cases b with
    | none => cases h
    | some m =>
      cases h with
      | some same => exact congrArg some (Int.ofNat.inj (Tree.number.inj same)).symm

theorem fieldBounds_eq {f g : Field} (h : Reordered (tree f) (tree g)) (distinct : g.Distinct) : fieldBounds f = fieldBounds g := by
  have length := h.property (distinct_tree g distinct) "length"
  have maxLength := h.property (distinct_tree g distinct) "maxLength"
  rw [(property_bounds f).1, (property_bounds g).1] at length
  rw [(property_bounds f).2, (property_bounds g).2] at maxLength
  show LengthBounds.mk (fieldBounds f).length (fieldBounds f).maxLength = ⟨(fieldBounds g).length, (fieldBounds g).maxLength⟩
  rw [number_of_related length, number_of_related maxLength]

mutual

/-- Descriptors whose trees are equal up to the order of keys are equal up to the order of fields. -/
theorem upToOrder_of_tree (f g : Field) (distinct : g.Distinct) (h : Reordered (tree f) (tree g)) : UpToOrder f g := by
  have kinds := h.property (distinct_tree g distinct) "kind"
  rw [property_kind, property_kind] at kinds
  cases kinds with
  | some same =>
  have name := kindName_inj (Tree.string.inj same)
  have bounds := fieldBounds_eq h distinct
  have own := h.property (distinct_tree g distinct)
  cases f with
  | boolean =>
    cases g with
    | boolean => rfl
    | _ => simp [kindName] at name
  | string b =>
    cases g with
    | string b' => exact congrArg Field.string bounds.symm
    | _ => simp [kindName] at name
  | integer bits signed =>
    cases g with
    | integer bits' signed' =>
      obtain rfl : bits = bits' := Option.some.inj (number_of_related (own "bits"))
      cases own "signed" with
      | some sign => rw [Tree.boolean.inj sign]; rfl
    | _ => simp [kindName] at name
  | float bits =>
    cases g with
    | float bits' =>
      obtain rfl : bits = bits' := Option.some.inj (number_of_related (own "bits"))
      rfl
    | _ => simp [kindName] at name
  | bytes b =>
    cases g with
    | bytes b' => exact congrArg Field.bytes bounds.symm
    | _ => simp [kindName] at name
  | array b element =>
    cases g with
    | array b' element' =>
      obtain rfl : b = b' := bounds
      cases own "element" with
      | some inner => exact ⟨element', rfl, upToOrder_of_tree element element' distinct inner⟩
    | _ => simp [kindName] at name
  | object fields =>
    cases g with
    | object fields' =>
      cases own "fields" with
      | some inner =>
        obtain ⟨entries, e, same⟩ := inner
        obtain rfl := Tree.object.inj e
        exact ⟨fields', rfl, upToOrderFields_of_tree fields fields' distinct.2 same⟩
    | _ => simp [kindName] at name

theorem upToOrderFields_of_tree (fields fields' : List (JsString × Field)) (distinct : distinctFields fields')
    (h : ReorderedFields (treeFields fields) (treeFields fields')) : UpToOrderFields fields fields' := by
  match fields with
  | [] =>
    rw [treeFields_map fields'] at h
    exact List.map_eq_nil_iff.1 h
  | (name, field) :: fields =>
    obtain ⟨before, value', after, e, here, others⟩ := h
    rw [treeFields_map] at e
    obtain ⟨front, back, rfl, rfl, tail⟩ := List.map_eq_append_iff.1 e
    obtain ⟨⟨name', field'⟩, rest, rfl, head, rfl⟩ := List.map_eq_cons_iff.1 tail
    obtain ⟨rfl, rfl⟩ := Prod.mk.inj head
    rw [← List.map_append, ← treeFields_map] at others
    rw [Ros.distinctFields_iff] at distinct
    have fewer : distinctFields (front ++ rest) := by
      rw [Ros.distinctFields_iff]
      intro p mem
      apply distinct
      rcases List.mem_append.1 mem with mem | mem
      · exact List.mem_append_left _ mem
      · exact List.mem_append_right _ (List.mem_cons_of_mem _ mem)
    have own : field'.Distinct := distinct (name', field') (List.mem_append_right _ List.mem_cons_self)
    exact ⟨front, field', rest, rfl, upToOrder_of_tree field field' own here,
      upToOrderFields_of_tree fields (front ++ rest) fewer others⟩

end

theorem distinct_schemaTree {d : Field} (distinct : d.Distinct) (allowNonFinite : Bool) : App.Distinct (schemaTree d allowNonFinite) :=
  ⟨show [units "codec", units "descriptor", units "allowNonFinite"].Nodup by decide, trivial, distinct_tree d distinct, trivial, trivial⟩

/-- Two schemas have one text exactly where the descriptors differ in the order of fields only
and the policy for nonfinite values is the same. -/
theorem schemaText_eq_iff {d d' : Field} (distinct : d.Distinct) (distinct' : d'.Distinct) (b b' : Bool) :
    schemaText d b = schemaText d' b' ↔ UpToOrder d d' ∧ b = b' := by
  have other := distinct_schemaTree distinct' b'
  unfold schemaText
  rw [canonical_text_eq_iff (distinct_schemaTree distinct b) other]
  constructor
  · intro h
    constructor
    · cases h.property other "descriptor" with
      | some same => exact upToOrder_of_tree d d' distinct' same
    · cases h.property other "allowNonFinite" with
      | some same => exact (Tree.boolean.inj same).symm
  · intro h
    obtain ⟨same, rfl⟩ := h
    exact ⟨_, rfl, reorderedFields_cons rfl (reorderedFields_cons (reordered_tree d d' same) (reorderedFields_cons rfl rfl))⟩

/-! ## Digests -/

theorem toList_hexDigest (digest : List UInt8) : (hexDigest digest).toList =
    digest.flatMap fun byte => [Nat.digitChar (byte.toNat / 16), Nat.digitChar (byte.toNat % 16)] := by
  rw [hexDigest, String.toList_join, List.flatMap_map]
  congr 1
  funext byte
  exact String.toList_ofList

theorem digitChar_inj : ∀ m < 16, ∀ n < 16, Nat.digitChar m = Nat.digitChar n → m = n := by decide

theorem hexDigest_inj {digest digest' : List UInt8} (h : hexDigest digest = hexDigest digest') : digest = digest' := by
  have texts := congrArg String.toList h
  rw [toList_hexDigest, toList_hexDigest] at texts
  clear h
  induction digest generalizing digest' with
  | nil =>
    cases digest' with
    | nil => rfl
    | cons byte' digest' => cases texts
  | cons byte digest ih =>
    cases digest' with
    | nil => cases texts
    | cons byte' digest' =>
      obtain ⟨high, rest⟩ := List.cons.inj texts
      obtain ⟨low, rest⟩ := List.cons.inj rest
      have small := byte.toNat_lt
      have small' := byte'.toNat_lt
      have high := digitChar_inj _ (by omega) _ (by omega) high
      have low := digitChar_inj _ (by omega) _ (by omega) low
      have same : byte = byte' := UInt8.toNat.inj (by omega)
      rw [same, ih rest]

/-- The descriptor of a binding, and its schema identifier. -/
theorem described {η : Type} {lookup : String → Except String Definition} {adapt : RosJson.Codec → Router.Codec η}
    {sha256 : JsString → List UInt8} {config : BridgeConfig} {registry : List (RouterBinding η)}
    (created : createRegistry (describe lookup adapt sha256) config = .ok registry) {entry : RouterBinding η} (mem : entry ∈ registry) :
    entry.binding ∈ config.topics ∧ ∃ descriptor, descriptorFromRos lookup entry.binding.rosType (some 32) = .ok descriptor ∧
      descriptor.Distinct ∧
      entry.schemaId = "sha256:" ++ hexDigest (sha256 (schemaText descriptor entry.binding.commandGuard.isNone)) := by
  obtain ⟨binding, inside, made⟩ := exists_of_mem_right (forall₂_of_mapM created) mem
  obtain ⟨⟨codec, digest⟩, described, made⟩ := exists_of_bind made
  obtain rfl := Except.ok.inj made
  obtain ⟨descriptor, generated, described⟩ := exists_of_bind described
  obtain ⟨own, snapshot, described⟩ := exists_of_bind described
  obtain ⟨-, rfl⟩ := Prod.mk.inj (Except.ok.inj described)
  exact ⟨inside, descriptor, generated, (created_spec snapshot).2.1, rfl⟩

/-- Canonical forms are canonical and keep everything but the order of keys; two trees have
one canonical text exactly when they differ in that order only. In a registry, where no two
of the hashed texts have one digest, the bindings of one schema identifier are those whose
descriptors differ in the order of fields only and of which both or neither are guarded. -/
theorem schemaId_eq_iff :
    (∀ t : Tree, Distinct t → canonical (canonical t) = canonical t ∧ Reordered t (canonical t) ∧
      (∀ items, t = .array items → canonical t = .array (items.map canonical)) ∧
      ∀ t' : Tree, Reordered t t' → canonical t = canonical t') ∧
    (∀ t t' : Tree, Distinct t → Distinct t' → (text (canonical t) = text (canonical t') ↔ Reordered t t')) ∧
    ∀ {η : Type} (lookup : String → Except String Definition) (adapt : RosJson.Codec → Router.Codec η)
      (sha256 : JsString → List UInt8) (config : BridgeConfig) (registry : List (RouterBinding η)),
      createRegistry (describe lookup adapt sha256) config = .ok registry →
      (∀ x y, IsSchema lookup config x → IsSchema lookup config y → sha256 x = sha256 y → x = y) →
      ∀ a ∈ registry, ∀ b ∈ registry, ∃ d d',
        descriptorFromRos lookup a.binding.rosType (some 32) = .ok d ∧
        descriptorFromRos lookup b.binding.rosType (some 32) = .ok d' ∧
        (a.schemaId = b.schemaId ↔ UpToOrder d d' ∧ (a.binding.commandGuard = none ↔ b.binding.commandGuard = none)) := by
  refine ⟨fun t distinct => ⟨canonical_canonical t distinct, reordered_canonical t distinct, ?_, ?_⟩, ?_, ?_⟩
  · intro items same
    rw [same, canonical, canonicalItems_map]
  · intro t' same
    exact same.canonical_eq t t' distinct
  · intro t t' distinct distinct'
    exact canonical_text_eq_iff distinct distinct'
  · intro η lookup adapt sha256 config registry created apart a mem b mem'
    obtain ⟨inside, d, generated, distinct, id⟩ := described created mem
    obtain ⟨inside', d', generated', distinct', id'⟩ := described created mem'
    refine ⟨d, d', generated, generated', ?_⟩
    have policies : a.binding.commandGuard.isNone = b.binding.commandGuard.isNone ↔
        (a.binding.commandGuard = none ↔ b.binding.commandGuard = none) := by
      rw [Bool.eq_iff_iff, Option.isNone_iff_eq_none, Option.isNone_iff_eq_none]
    rw [← policies, ← schemaText_eq_iff distinct distinct', id, id']
    constructor
    · intro same
      apply apart _ _ ⟨_, inside, d, generated, rfl⟩ ⟨_, inside', d', generated', rfl⟩
      exact hexDigest_inj (String.append_right_inj _ |>.1 same)
    · intro same
      rw [same]

def stringTable : Definitions := [("std_msgs/msg/String", ⟨[⟨units "data", ⟨"string", none, true, false, none, none, false, none⟩⟩]⟩)]

/-- Two topics of one type, the second a guarded command. -/
def guardedConfig : BridgeConfig where
  robotId := "robot"
  limits := (largeConfig 0).limits
  topics := [plainTopic "/a" .rosToWeb none, plainTopic "/b" .webToRos (some ⟨100⟩)]

def telemetrySchema : JsString :=
  units "\x7b\"allowNonFinite\":true,\"codec\":\"ros-json-v1\",\"descriptor\":\x7b\"fields\":\x7b\"data\":\x7b\"kind\":\"string\"\x7d\x7d,\"kind\":\"object\"\x7d\x7d"

def commandSchema : JsString :=
  units "\x7b\"allowNonFinite\":false,\"codec\":\"ros-json-v1\",\"descriptor\":\x7b\"fields\":\x7b\"data\":\x7b\"kind\":\"string\"\x7d\x7d,\"kind\":\"object\"\x7d\x7d"

/-- The digests of the two schemas. -/
def stringDigest (schema : JsString) : List UInt8 :=
  if schema = telemetrySchema then
    [232, 105, 224, 158, 93, 200, 69, 192, 87, 164, 139, 65, 101, 194, 5, 106,
      150, 117, 38, 76, 60, 44, 72, 233, 48, 138, 206, 206, 73, 171, 52, 82]
  else if schema = commandSchema then
    [57, 238, 26, 68, 76, 35, 165, 159, 175, 253, 76, 169, 184, 74, 95, 10,
      160, 212, 9, 202, 175, 250, 10, 176, 168, 212, 195, 90, 90, 196, 40, 121]
  else []

def stringDescriptor : Field := .object [(units "data", .string ⟨none, none⟩)]

/-- The text that is hashed for the type. -/
theorem text_stringDescriptor (b : Bool) :
    schemaText stringDescriptor b = if b then telemetrySchema else commandSchema := by
  have kind : ordered (sortKeys [(units "kind", Tree.string (units "string"))]) = [(units "kind", .string (units "string"))] :=
    listing_eq (.refl _) rfl (by decide +kernel) (by decide +kernel) (by decide +kernel)
  have data : ∀ t : Tree, ordered (sortKeys [(units "data", t)]) = [(units "data", t)] := by
    intro t
    exact listing_eq (.refl _) (show _ = [units "data"] from rfl) (by decide +kernel) (by decide +kernel) (by decide +kernel)
  have object : ∀ s t : Tree, ordered (sortKeys [(units "kind", s), (units "fields", t)]) = [(units "fields", t), (units "kind", s)] := by
    intro s t
    exact listing_eq (.swap _ _ _) (show _ = [units "fields", units "kind"] from rfl) (by decide +kernel) (by decide +kernel) (by decide +kernel)
  have schema : ∀ c d a : Tree, ordered (sortKeys [(units "codec", c), (units "descriptor", d), (units "allowNonFinite", a)]) =
      [(units "allowNonFinite", a), (units "codec", c), (units "descriptor", d)] := by
    intro c d a
    exact listing_eq ((List.Perm.swap _ _ _).cons _ |>.trans (.swap _ _ _))
      (show _ = [units "allowNonFinite", units "codec", units "descriptor"] from rfl) (by decide +kernel) (by decide +kernel) (by decide +kernel)
  simp only [schemaText, schemaTree, stringDescriptor, tree, treeFields, boundEntries, optional, List.append_nil, canonical,
    canonicalFields, kind, data, object, schema]
  cases b <;> decide +kernel

/-- The guarded command has an identifier of its own, and shares it with no telemetry. -/
theorem schemaId_guarded : ∃ registry,
    createRegistry (describe stringTable.find (fun _ => plainCodec) stringDigest) guardedConfig = .ok registry ∧
    (registry.map (·.schemaId)).Nodup := by
  have generated : descriptorFromRos stringTable.find "std_msgs/msg/String" (some 32) = .ok stringDescriptor := by rfl
  have telemetry : schemaText stringDescriptor true = telemetrySchema := by rw [text_stringDescriptor, if_pos rfl]
  have command : schemaText stringDescriptor false = commandSchema := by rw [text_stringDescriptor, if_neg Bool.false_ne_true]
  have created : createRegistry (describe stringTable.find (fun _ => plainCodec) stringDigest) guardedConfig =
      .ok [⟨plainTopic "/a" .rosToWeb none, plainCodec, "sha256:" ++ hexDigest (stringDigest telemetrySchema)⟩,
        ⟨plainTopic "/b" .webToRos (some ⟨100⟩), plainCodec, "sha256:" ++ hexDigest (stringDigest commandSchema)⟩] := by
    rw [← telemetry, ← command]
    rfl
  have schemas : ∀ x, IsSchema stringTable.find guardedConfig x → x = telemetrySchema ∨ x = commandSchema := by
    intro x h
    obtain ⟨binding, mem, descriptor, found, rfl⟩ := h
    have type : binding.rosType = "std_msgs/msg/String" := by
      simp only [guardedConfig, List.mem_cons, List.not_mem_nil, or_false] at mem
      rcases mem with rfl | rfl <;> rfl
    rw [type, generated] at found
    obtain rfl := Except.ok.inj found
    cases binding.commandGuard with
    | none => exact .inl telemetry
    | some guard => exact .inr command
  have apart : ∀ x y, IsSchema stringTable.find guardedConfig x → IsSchema stringTable.find guardedConfig y →
      stringDigest x = stringDigest y → x = y := by
    intro x y hx hy same
    have differ : stringDigest telemetrySchema ≠ stringDigest commandSchema := by decide +kernel
    rcases schemas x hx with rfl | rfl
    · rcases schemas y hy with rfl | rfl
      · rfl
      · exact absurd same differ
    · rcases schemas y hy with rfl | rfl
      · exact absurd same.symm differ
      · rfl
  refine ⟨_, created, ?_⟩
  obtain ⟨d, d', -, -, same⟩ := schemaId_eq_iff.2.2 stringTable.find (fun _ => plainCodec) stringDigest guardedConfig _ created apart
    _ List.mem_cons_self _ (List.mem_cons_of_mem _ List.mem_cons_self)
  rw [List.map_cons, List.map_cons, List.map_nil, List.nodup_cons, List.mem_singleton]
  refine ⟨fun h => ?_, List.nodup_singleton _⟩
  exact absurd ((same.1 h).2.1 rfl) (by decide)

end RosBridge.App
