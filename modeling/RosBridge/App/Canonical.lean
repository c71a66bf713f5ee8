import RosBridge.Lib.JsonTree
import RosBridge.Lib.KeyOrder
/-!
# Canonical JSON trees

`canonical` of `app/registry.ts` sorts the keys of the objects in a JSON tree, at every
depth. Two trees have one canonical form, and so one text, exactly when they differ in the
order of keys only: `canonical_text_eq_iff`.
-/

namespace RosBridge.App

open Lib Tree Entries

mutual

/-- Recursively sort JSON object keys. What `Object.fromEntries` makes lists array indices
first, whatever the order of its entries. -/
def canonical : Tree → Tree
  | .array items => .array (canonicalItems items)
  | .object fields => .object (ordered (sortKeys (canonicalFields fields)))
  | .null => .null
  | .boolean value => .boolean value
  | .number value => .number value
  | .string value => .string value

def canonicalItems : List Tree → List Tree
  | [] => []
  | item :: items => canonical item :: canonicalItems items

def canonicalFields : List (JsString × Tree) → List (JsString × Tree)
  | [] => []
  | (key, value) :: fields => (key, canonical value) :: canonicalFields fields

end

mutual

/-- No object has a key twice. -/
def Distinct : Tree → Prop
  | .array items => DistinctItems items
  | .object fields => (fields.map (·.1)).Nodup ∧ DistinctFields fields
  | .null | .boolean _ | .number _ | .string _ => True

def DistinctItems : List Tree → Prop
  | [] => True
  | item :: items => Distinct item ∧ DistinctItems items

def DistinctFields : List (JsString × Tree) → Prop
  | [] => True
  | (_, value) :: fields => Distinct value ∧ DistinctFields fields

end

mutual

/-- Equal up to the order of object keys: the items of arrays correspond in order, the fields
of objects in some order. -/
def Reordered : Tree → Tree → Prop
  | .array items, t => ∃ items', t = .array items' ∧ ReorderedItems items items'
  | .object fields, t => ∃ fields', t = .object fields' ∧ ReorderedFields fields fields'
  | .null, t => t = .null
  | .boolean value, t => t = .boolean value
  | .number value, t => t = .number value
  | .string value, t => t = .string value

def ReorderedItems : List Tree → List Tree → Prop
  | [], items' => items' = []
  | item :: items, items' => ∃ item' rest', items' = item' :: rest' ∧ Reordered item item' ∧ ReorderedItems items rest'

def ReorderedFields : List (JsString × Tree) → List (JsString × Tree) → Prop
  | [], fields' => fields' = []
  | (key, value) :: fields, fields' => ∃ before value' after, fields' = before ++ (key, value') :: after ∧
      Reordered value value' ∧ ReorderedFields fields (before ++ after)

end

/-! ## Fields and items one by one -/

theorem canonicalItems_map (items : List Tree) : canonicalItems items = items.map canonical := by
  induction items with
  | nil => rfl
  | cons item items ih => rw [canonicalItems, ih, List.map_cons]

theorem canonicalFields_map (fields : List (JsString × Tree)) :
    canonicalFields fields = fields.map fun p => (p.1, canonical p.2) := by
  induction fields with
  | nil => rfl
  | cons p fields ih => rw [canonicalFields, ih, List.map_cons]

theorem canonicalFields_keys (fields : List (JsString × Tree)) : (canonicalFields fields).map (·.1) = fields.map (·.1) := by
  rw [canonicalFields_map, List.map_map]
  rfl

theorem distinctFields_iff {fields : List (JsString × Tree)} : DistinctFields fields ↔ ∀ p ∈ fields, Distinct p.2 := by
  induction fields with
  | nil => simp [DistinctFields]
  | cons p fields ih => rw [DistinctFields, ih, List.forall_mem_cons]

/-- The fields of a canonical object are those of the object. -/
theorem canonical_perm {fields : List (JsString × Tree)} (distinct : (fields.map (·.1)).Nodup) :
    (ordered (sortKeys (canonicalFields fields))).Perm (canonicalFields fields) := by
  rw [← canonicalFields_keys] at distinct
  exact (ordered_perm _).trans (sortKeys_perm distinct)

/-! ## One canonical form -/

mutual

/-- A tree and one with other key orders have one canonical form. -/
theorem Reordered.canonical_eq (t t' : Tree) (distinct : Distinct t) (h : Reordered t t') : canonical t = canonical t' := by
  cases t with
  | array items =>
    obtain ⟨items', rfl, same⟩ := h
    rw [canonical, canonical, ReorderedItems.canonical_eq items items' distinct same]
  | object fields =>
    obtain ⟨fields', rfl, same⟩ := h
    have perm := ReorderedFields.canonical_perm fields fields' distinct.2 same
    rw [canonical, canonical, sortKeys_eq perm (by rw [canonicalFields_keys]; exact distinct.1)]
  | null | boolean value | number value | string value => rw [show t' = _ from h]

theorem ReorderedItems.canonical_eq (items items' : List Tree) (distinct : DistinctItems items) (h : ReorderedItems items items') :
    canonicalItems items = canonicalItems items' := by
  cases items with
  | nil => rw [show items' = [] from h]
  | cons item items =>
    obtain ⟨item', rest', rfl, here, others⟩ := h
    rw [canonicalItems, canonicalItems, Reordered.canonical_eq item item' distinct.1 here,
      ReorderedItems.canonical_eq items rest' distinct.2 others]

theorem ReorderedFields.canonical_perm (fields fields' : List (JsString × Tree)) (distinct : DistinctFields fields)
    (h : ReorderedFields fields fields') : (canonicalFields fields).Perm (canonicalFields fields') := by
  match fields with
  | [] =>
    rw [show fields' = [] from h]
  | (key, value) :: fields =>
    obtain ⟨before, value', after, rfl, here, others⟩ := h
    have rest := ReorderedFields.canonical_perm fields (before ++ after) distinct.2 others
    rw [canonicalFields_map (before ++ after), List.map_append] at rest
    rw [canonicalFields, Reordered.canonical_eq value value' distinct.1 here, canonicalFields_map (before ++ _), List.map_append,
      List.map_cons]
    exact (rest.cons _).trans List.perm_middle.symm

end

mutual

/-- Trees with one canonical form are equal up to the order of keys. -/
theorem reordered_of_canonical (t t' : Tree) (distinct : Distinct t) (distinct' : Distinct t')
    (h : canonical t = canonical t') : Reordered t t' := by
  cases t with
  | array items =>
    cases t' with
    | array items' => exact ⟨items', rfl, reorderedItems_of_canonical items items' distinct distinct' (Tree.array.inj h)⟩
    | _ => cases h
  | object fields =>
    cases t' with
    | object fields' =>
      have perm := (canonical_perm distinct.1).symm.trans ((Tree.object.inj h) ▸ canonical_perm distinct'.1)
      exact ⟨fields', rfl, reorderedFields_of_canonical fields fields' distinct.2 distinct'.2 perm⟩
    | _ => cases h
  | null =>
    cases t' with
    | null => rfl
    | _ => cases h
  | boolean value =>
    cases t' with
    | boolean value' =>
      cases h
      rfl
    | _ => cases h
  | number value =>
    cases t' with
    | number value' =>
      cases h
      rfl
    | _ => cases h
  | string value =>
    cases t' with
    | string value' =>
      cases h
      rfl
    | _ => cases h

theorem reorderedItems_of_canonical (items items' : List Tree) (distinct : DistinctItems items) (distinct' : DistinctItems items')
    (h : canonicalItems items = canonicalItems items') : ReorderedItems items items' := by
  match items, items' with
  | [], [] => rfl
  | [], item' :: items' => cases h
  | item :: items, [] => cases h
  | item :: items, item' :: items' =>
    obtain ⟨here, others⟩ := List.cons.inj h
    exact ⟨item', items', rfl, reordered_of_canonical item item' distinct.1 distinct'.1 here,
      reorderedItems_of_canonical items items' distinct.2 distinct'.2 others⟩

theorem reorderedFields_of_canonical (fields fields' : List (JsString × Tree)) (distinct : DistinctFields fields)
    (distinct' : DistinctFields fields') (h : (canonicalFields fields).Perm (canonicalFields fields')) :
    ReorderedFields fields fields' := by
  match fields with
  | [] =>
    rw [canonicalFields_map fields'] at h
    exact List.map_eq_nil_iff.1 (List.nil_perm.1 h)
  | (key, value) :: fields =>
    rw [canonicalFields, canonicalFields_map fields'] at h
    -- The first field has its counterpart somewhere in the other list.
    obtain ⟨⟨key', value'⟩, inside, same⟩ := List.mem_map.1 (h.subset List.mem_cons_self)
    obtain ⟨rfl, here⟩ := Prod.mk.inj same
    obtain ⟨before, after, rfl⟩ := List.append_of_mem inside
    rw [List.map_append, List.map_cons, here] at h
    have rest := (List.perm_cons _).1 (h.trans List.perm_middle)
    rw [← List.map_append, ← canonicalFields_map] at rest
    rw [distinctFields_iff] at distinct'
    have others : DistinctFields (before ++ after) := by
      rw [distinctFields_iff]
      intro p mem
      apply distinct'
      rcases List.mem_append.1 mem with mem | mem
      · exact List.mem_append_left _ mem
      · exact List.mem_append_right _ (List.mem_cons_of_mem _ mem)
    exact ⟨before, value', after, rfl, reordered_of_canonical value value' distinct.1 (distinct' _ inside) here.symm,
      reorderedFields_of_canonical fields (before ++ after) distinct.2 others rest⟩

end

mutual

theorem distinct_canonical (t : Tree) (distinct : Distinct t) : Distinct (canonical t) := by
  cases t with
  | array items => exact distinct_canonicalItems items distinct
  | object fields =>
    have perm := canonical_perm distinct.1
    constructor
    · apply (perm.map (·.1)).nodup_iff.2
      rw [canonicalFields_keys]
      exact distinct.1
    · have inner := distinctFields_iff.1 (distinct_canonicalFields fields distinct.2)
      exact distinctFields_iff.2 fun p mem => inner p (perm.subset mem)
  | null | boolean value | number value | string value => trivial

theorem distinct_canonicalItems (items : List Tree) (distinct : DistinctItems items) : DistinctItems (canonicalItems items) := by
  match items with
  | [] => trivial
  | item :: items => exact ⟨distinct_canonical item distinct.1, distinct_canonicalItems items distinct.2⟩

theorem distinct_canonicalFields (fields : List (JsString × Tree)) (distinct : DistinctFields fields) :
    DistinctFields (canonicalFields fields) := by
  match fields with
  | [] => trivial
  | (_, value) :: fields => exact ⟨distinct_canonical value distinct.1, distinct_canonicalFields fields distinct.2⟩

end

mutual

/-- A canonical form is its own canonical form. -/
theorem canonical_canonical (t : Tree) (distinct : Distinct t) : canonical (canonical t) = canonical t := by
  cases t with
  | array items => rw [canonical, canonical, canonicalItems_canonical items distinct]
  | object fields =>
    have perm := canonical_perm distinct.1
    have keys : ((ordered (sortKeys (canonicalFields fields))).map (·.1)).Nodup := by
      apply (perm.map (·.1)).nodup_iff.2
      rw [canonicalFields_keys]
      exact distinct.1
    have inner : canonicalFields (ordered (sortKeys (canonicalFields fields))) = ordered (sortKeys (canonicalFields fields)) := by
      have each := canonicalFields_canonical fields distinct.2
      rw [canonicalFields_map (ordered _)]
      apply Eq.trans _ (List.map_id _)
      apply List.map_congr_left
      intro p mem
      exact Prod.ext rfl (each p (perm.subset mem))
    rw [canonical, canonical, inner, sortKeys_eq perm keys]
  | null | boolean value | number value | string value => rfl

theorem canonicalItems_canonical (items : List Tree) (distinct : DistinctItems items) :
    canonicalItems (canonicalItems items) = canonicalItems items := by
  match items with
  | [] => rfl
  | item :: items =>
    rw [canonicalItems, canonicalItems, canonical_canonical item distinct.1, canonicalItems_canonical items distinct.2]

theorem canonicalFields_canonical (fields : List (JsString × Tree)) (distinct : DistinctFields fields) :
    ∀ p ∈ canonicalFields fields, canonical p.2 = p.2 := by
  match fields with
  | [] =>
    intro p mem
    cases mem
  | (_, value) :: fields =>
    rw [canonicalFields, List.forall_mem_cons]
    exact ⟨canonical_canonical value distinct.1, canonicalFields_canonical fields distinct.2⟩

end

/-- Sorting the keys of a tree leaves all else in place, the items of its arrays too. -/
theorem reordered_canonical (t : Tree) (distinct : Distinct t) : Reordered t (canonical t) :=
  reordered_of_canonical t _ distinct (distinct_canonical t distinct) (canonical_canonical t distinct).symm

/-- The canonical texts are equal exactly where the trees are, up to the order of keys. -/
theorem canonical_text_eq_iff {t t' : Tree} (distinct : Distinct t) (distinct' : Distinct t') :
    text (canonical t) = text (canonical t') ↔ Reordered t t' := by
  constructor
  · intro h
    exact reordered_of_canonical t t' distinct distinct' (text_inj h)
  · intro h
    rw [h.canonical_eq t t' distinct]

end RosBridge.App
