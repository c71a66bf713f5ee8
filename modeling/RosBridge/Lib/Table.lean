import Mathlib.Algebra.Order.BigOperators.Group.List
import Mathlib.Algebra.Order.Ring.Int
import Mathlib.Data.List.Nodup
import Mathlib.Tactic.Common
/-!
# Tables in insertion order

A finite map that remembers the order in which its keys were first stored, as the
`Map` of an object-oriented language does: storing under a key that is present keeps
the key's place, a new key goes last. The keys are distinct by construction.
-/

namespace RosBridge.Lib

/-- A finite map whose entries are listed in the order of their first insertion. -/
structure Table (κ ν : Type) where
  entries : List (κ × ν)
  nodup : (entries.map Prod.fst).Nodup

namespace Table

variable {κ ν μ : Type} [DecidableEq κ]

/-- The table without entries. -/
def empty : Table κ ν := ⟨[], by simp⟩

instance : Inhabited (Table κ ν) := ⟨empty⟩

/-- The keys in insertion order. -/
def keys (t : Table κ ν) : List κ := t.entries.map Prod.fst

/-- The values in insertion order. -/
def values (t : Table κ ν) : List ν := t.entries.map Prod.snd

/-- The number of entries. -/
def size (t : Table κ ν) : Nat := t.entries.length

/-- The value stored under `k`. -/
def get? (t : Table κ ν) (k : κ) : Option ν := (t.entries.find? (·.1 = k)).map Prod.snd

/-- Whether a value is stored under `k`. -/
def has (t : Table κ ν) (k : κ) : Bool := (t.get? k).isSome

/-- Keep the entries that satisfy `p`. -/
def filter (p : κ → ν → Bool) (t : Table κ ν) : Table κ ν :=
  ⟨t.entries.filter fun e => p e.1 e.2, t.nodup.sublist (List.filter_sublist.map _)⟩

/-- Change every value, knowing its key. -/
def mapValues (f : κ → ν → μ) (t : Table κ ν) : Table κ μ :=
  ⟨t.entries.map fun e => (e.1, f e.1 e.2), by simpa [List.map_map, Function.comp_def] using t.nodup⟩

/-- Forget the entry of `k`. -/
def erase (t : Table κ ν) (k : κ) : Table κ ν := t.filter fun k' _ => k' ≠ k

/-- Change the value stored under `k`, if there is one. -/
def modify (t : Table κ ν) (k : κ) (f : ν → ν) : Table κ ν :=
  t.mapValues fun k' v => if k' = k then f v else v

theorem mem_entries_iff {t : Table κ ν} {k : κ} {v : ν} : (k, v) ∈ t.entries ↔ t.get? k = some v := by
  obtain ⟨es, hn⟩ := t
  simp only [get?]
  induction es with
  | nil => simp
  | cons e es ih =>
    obtain ⟨he, hn⟩ := List.nodup_cons.1 hn
    have ih := ih hn
    by_cases h : e.1 = k
    · subst h
      have : (e.1, v) ∉ es := fun hm => he (List.mem_map.2 ⟨_, hm, rfl⟩)
      simp [this, Prod.ext_iff, eq_comm]
    · have : (k, v) ≠ e := fun hk => h (by rw [← hk])
      simpa [h, this] using ih

theorem get?_eq_none_iff {t : Table κ ν} {k : κ} : t.get? k = none ↔ k ∉ t.keys := by
  simp only [get?, keys, Option.map_eq_none_iff, List.find?_eq_none, decide_eq_true_eq, List.mem_map, not_exists, not_and]

theorem mem_keys_iff {t : Table κ ν} {k : κ} : k ∈ t.keys ↔ ∃ v, t.get? k = some v := by
  rw [← Option.isSome_iff_exists, ← not_iff_not, ← get?_eq_none_iff]
  simp

theorem has_iff {t : Table κ ν} {k : κ} : t.has k = true ↔ ∃ v, t.get? k = some v := by
  simp [has, Option.isSome_iff_exists]

theorem mem_values_iff {t : Table κ ν} {v : ν} : v ∈ t.values ↔ ∃ k, t.get? k = some v := by
  simp [values, ← mem_entries_iff]

@[simp] theorem get?_empty (k : κ) : (empty : Table κ ν).get? k = none := rfl

/-- Store `v` under `k`: in place when `k` is present, last otherwise. -/
def set (t : Table κ ν) (k : κ) (v : ν) : Table κ ν :=
  if h : k ∈ t.keys then t.modify k fun _ => v
  else ⟨t.entries ++ [(k, v)], by
    simpa [List.nodup_append, keys] using ⟨t.nodup, fun a b hab e => h (e ▸ List.mem_map.2 ⟨(a, b), hab, rfl⟩)⟩⟩

/-! ## Looking up -/

theorem get?_mapValues (t : Table κ ν) (f : κ → ν → μ) (k : κ) :
    (t.mapValues f).get? k = (t.get? k).map (f k) := by
  obtain ⟨es, hn⟩ := t
  simp only [get?, mapValues]
  clear hn
  induction es with
  | nil => rfl
  | cons e es ih =>
    by_cases h : e.1 = k
    · subst h; simp
    · simpa [List.find?_cons, h] using ih

theorem get?_filter (t : Table κ ν) (p : κ → ν → Bool) (k : κ) :
    (t.filter p).get? k = (t.get? k).filter (p k) := by
  apply Option.ext
  intro v
  simp only [← mem_entries_iff, filter, List.mem_filter, Option.filter_eq_some_iff]

theorem get?_modify (t : Table κ ν) (k k' : κ) (f : ν → ν) :
    (t.modify k f).get? k' = if k' = k then (t.get? k').map f else t.get? k' := by
  unfold modify
  rw [get?_mapValues]
  by_cases h : k' = k <;> simp [h]

omit [DecidableEq κ] in
theorem mapValues_id (t : Table κ ν) : t.mapValues (fun _ v => v) = t := by
  cases t
  simp [mapValues]

omit [DecidableEq κ] in
theorem mapValues_mapValues (t : Table κ ν) (f : κ → ν → μ) {ξ : Type} (g : κ → μ → ξ) :
    (t.mapValues f).mapValues g = t.mapValues fun k v => g k (f k v) := by
  simp only [mapValues, List.map_map, Function.comp_def]

/-- Changing a value depends on the value stored only. -/
theorem modify_congr {t : Table κ ν} {k : κ} {f g : ν → ν} (h : ∀ v, t.get? k = some v → f v = g v) :
    t.modify k f = t.modify k g := by
  simp only [modify, mapValues, mk.injEq]
  refine List.map_congr_left fun e he => ?_
  by_cases hk : e.1 = k
  · rw [if_pos hk, if_pos hk, h e.2 (mem_entries_iff.1 (hk ▸ he))]
  · rw [if_neg hk, if_neg hk]

theorem modify_modify (t : Table κ ν) (k : κ) (f g : ν → ν) : (t.modify k f).modify k g = t.modify k (g ∘ f) := by
  simp only [modify, mapValues, List.map_map, mk.injEq]
  refine List.map_congr_left fun e _ => ?_
  by_cases hk : e.1 = k <;> simp [hk]

theorem modify_of_get?_none {t : Table κ ν} {k : κ} (f : ν → ν) (h : t.get? k = none) : t.modify k f = t := by
  have absent : ∀ v, t.get? k = some v → f v = id v := fun v e => by rw [h] at e; cases e
  rw [modify_congr absent]
  simp [modify, mapValues]

theorem get?_erase (t : Table κ ν) (k k' : κ) :
    (t.erase k).get? k' = if k' = k then none else t.get? k' := by
  unfold erase
  rw [get?_filter]
  by_cases h : k' = k <;> cases t.get? k' <;> simp [h]

theorem get?_set (t : Table κ ν) (k k' : κ) (v : ν) :
    (t.set k v).get? k' = if k' = k then some v else t.get? k' := by
  unfold set
  split
  · next h =>
    rw [get?_modify]
    obtain ⟨w, hw⟩ := mem_keys_iff.1 h
    by_cases hk : k' = k
    · simp [hk, hw]
    · simp [hk]
  · next h =>
    simp only [get?, List.find?_append, List.find?_cons]
    by_cases hk : k' = k
    · subst hk
      have : t.get? k' = none := get?_eq_none_iff.2 h
      simp only [get?, Option.map_eq_none_iff] at this
      simp [this]
    · simp [hk, Ne.symm hk]

@[simp] theorem get?_set_self (t : Table κ ν) (k : κ) (v : ν) : (t.set k v).get? k = some v := by
  simp [get?_set]

theorem get?_set_ne (t : Table κ ν) {k k' : κ} (v : ν) (h : k' ≠ k) : (t.set k v).get? k' = t.get? k' := by
  simp [get?_set, h]

@[simp] theorem get?_erase_self (t : Table κ ν) (k : κ) : (t.erase k).get? k = none := by
  simp [get?_erase]

theorem get?_erase_ne (t : Table κ ν) {k k' : κ} (h : k' ≠ k) : (t.erase k).get? k' = t.get? k' := by
  simp [get?_erase, h]

/-- A table without the key is left alone by `erase`. -/
theorem erase_of_get?_none {t : Table κ ν} {k : κ} (h : t.get? k = none) : t.erase k = t := by
  have hk := get?_eq_none_iff.1 h
  obtain ⟨es, hn⟩ := t
  simp only [erase, filter, mk.injEq, List.filter_eq_self]
  intro e he
  have : e.1 ≠ k := fun e' => hk (e' ▸ List.mem_map.2 ⟨e, he, rfl⟩)
  simpa using this

/-! ## Storing again -/

omit [DecidableEq κ] in
theorem ext_entries {t t' : Table κ ν} (h : t.entries = t'.entries) : t = t' := by
  cases t
  cases t'
  cases h
  rfl

/-- Storing the value that is there changes nothing. -/
theorem set_eq_self {t : Table κ ν} {k : κ} {v : ν} (h : t.get? k = some v) : t.set k v = t := by
  have hk : k ∈ t.keys := mem_keys_iff.2 ⟨v, h⟩
  apply ext_entries
  simp only [set, hk, dif_pos, modify, mapValues]
  refine (List.map_congr_left fun e he => ?_).trans (List.map_id _)
  by_cases hek : e.1 = k
  · have : t.get? k = some e.2 := mem_entries_iff.1 (hek ▸ he)
    rw [h] at this
    obtain rfl := Option.some.inj this
    simp [← hek]
  · simp [hek]

@[simp] theorem set_set (t : Table κ ν) (k : κ) (v w : ν) : (t.set k v).set k w = t.set k w := by
  have hk : k ∈ (t.set k v).keys := mem_keys_iff.2 ⟨v, get?_set_self t k v⟩
  apply ext_entries
  rw [set, dif_pos hk]
  by_cases h : k ∈ t.keys
  · simp only [set, h, dif_pos, modify, mapValues, List.map_map]
    refine List.map_congr_left fun e _ => ?_
    by_cases hek : e.1 = k <;> simp [hek]
  · simp only [set, h, dif_neg, not_false_eq_true, modify, mapValues, List.map_append, List.map_cons, List.map_nil,
      if_true]
    congr 1
    refine (List.map_congr_left fun e he => ?_).trans (List.map_id _)
    have : e.1 ≠ k := fun hek => h (hek ▸ List.mem_map.2 ⟨e, he, rfl⟩)
    simp [this]

/-- Erasing what has just been stored under a new key. -/
theorem erase_set_of_get?_none {t : Table κ ν} {k : κ} (v : ν) (h : t.get? k = none) : (t.set k v).erase k = t := by
  have hk := get?_eq_none_iff.1 h
  apply ext_entries
  simp only [set, hk, dif_neg, not_false_eq_true, erase, filter, List.filter_append]
  have hrest : ∀ e ∈ t.entries, decide (e.1 ≠ k) = true := by
    intro e he
    have : e.1 ≠ k := fun hek => hk (hek ▸ List.mem_map.2 ⟨e, he, rfl⟩)
    simpa using this
  rw [List.filter_eq_self.2 hrest]
  simp

@[simp] theorem erase_set (t : Table κ ν) (k : κ) (v : ν) : (t.set k v).erase k = t.erase k := by
  by_cases h : k ∈ t.keys
  · apply ext_entries
    simp only [set, h, dif_pos, erase, filter, modify, mapValues]
    induction t.entries with
    | nil => rfl
    | cons e es ih =>
      simp only [ne_eq, decide_not] at ih
      by_cases hek : e.1 = k <;> simp [hek, ih]
  · have h := get?_eq_none_iff.2 h
    rw [erase_set_of_get?_none v h, erase_of_get?_none h]

/-! ## Presence -/

@[simp] theorem has_empty (k : κ) : (empty : Table κ ν).has k = false := rfl

@[simp] theorem has_modify (t : Table κ ν) (k k' : κ) (f : ν → ν) : (t.modify k f).has k' = t.has k' := by
  unfold has
  rw [get?_modify]
  split <;> simp_all

theorem has_set (t : Table κ ν) (k k' : κ) (v : ν) : (t.set k v).has k' = (decide (k' = k) || t.has k') := by
  unfold has
  rw [get?_set]
  by_cases h : k' = k <;> simp [h]

theorem has_erase (t : Table κ ν) (k k' : κ) : (t.erase k).has k' = (decide (k' ≠ k) && t.has k') := by
  unfold has
  rw [get?_erase]
  by_cases h : k' = k <;> simp [h]

/-- Storing under a key that is there keeps the keys. -/
theorem has_set_of_get?_some {t : Table κ ν} {k : κ} {u : ν} (v : ν) (h : t.get? k = some u) (k' : κ) :
    (t.set k v).has k' = t.has k' := by
  rw [has_set]
  by_cases e : k' = k
  · simp [e, has, h]
  · simp [e]

/-! ## Counting -/

theorem size_set_of_get?_none {t : Table κ ν} {k : κ} (v : ν) (h : t.get? k = none) :
    (t.set k v).size = t.size + 1 := by
  have : k ∉ t.keys := get?_eq_none_iff.1 h
  simp [set, this, size]

@[simp] theorem size_modify (t : Table κ ν) (k : κ) (f : ν → ν) : (t.modify k f).size = t.size := by
  simp [modify, mapValues, size]

theorem size_erase_le (t : Table κ ν) (k : κ) : (t.erase k).size ≤ t.size := List.length_filter_le _ _

theorem size_erase_lt {t : Table κ ν} {k : κ} {v : ν} (h : t.get? k = some v) : (t.erase k).size < t.size :=
  List.length_filter_lt_length_iff_exists.2 ⟨(k, v), mem_entries_iff.2 h, by simp⟩

theorem size_set_le (t : Table κ ν) (k : κ) (v : ν) : (t.set k v).size ≤ t.size + 1 := by
  by_cases h : k ∈ t.keys
  · simp only [set, h, dif_pos, size_modify]
    exact Nat.le_succ _
  · exact Nat.le_of_eq (size_set_of_get?_none v (get?_eq_none_iff.2 h))

theorem entries_set_of_get?_none {t : Table κ ν} {k : κ} (v : ν) (h : t.get? k = none) :
    (t.set k v).entries = t.entries ++ [(k, v)] := by
  have : k ∉ t.keys := get?_eq_none_iff.1 h
  simp [set, this]

omit [DecidableEq κ] in
theorem countP_values (t : Table κ ν) (p : ν → Bool) : t.values.countP p = t.entries.countP fun e => p e.2 := by
  rw [values, List.countP_map]
  rfl

omit [DecidableEq κ] in
/-- Changing values so that no others satisfy `p`. -/
theorem countP_mapValues_le (t : Table κ ν) {f : κ → ν → ν} {p : ν → Bool} (h : ∀ k v, p (f k v) → p v) :
    (t.mapValues f).values.countP p ≤ t.values.countP p := by
  rw [countP_values, countP_values, mapValues, List.countP_map]
  exact List.countP_mono_left fun e _ => h e.1 e.2

/-- Changing a value that satisfies `p` so that it does not. -/
theorem countP_modify_lt {t : Table κ ν} {k : κ} {v : ν} {f : ν → ν} {p : ν → Bool} (found : t.get? k = some v)
    (before : p v = true) (after : ∀ v, p (f v) = false) : (t.modify k f).values.countP p < t.values.countP p := by
  have here : (k, v) ∈ t.entries.filter fun e => p e.2 := List.mem_filter.2 ⟨mem_entries_iff.2 found, before⟩
  have rest : (t.modify k f).values.countP p = (t.entries.filter fun e => p e.2).countP fun e => decide (e.1 ≠ k) := by
    rw [countP_values, modify, mapValues, List.countP_map, List.countP_filter]
    refine List.countP_congr fun e _ => ?_
    by_cases own : e.1 = k <;> simp [own, after]
  rw [rest, countP_values, List.countP_eq_length_filter (p := fun e : κ × ν => p e.2)]
  rw [List.countP_eq_length_filter]
  exact List.length_filter_lt_length_iff_exists.2 ⟨(k, v), here, by simp⟩

/-! ## Summing -/

omit [DecidableEq κ] in
/-- The sum of a measure over the values. -/
def total (f : ν → Int) (t : Table κ ν) : Int := (t.values.map f).sum

omit [DecidableEq κ] in
@[simp] theorem total_empty (f : ν → Int) : (empty : Table κ ν).total f = 0 := rfl

omit [DecidableEq κ] in
theorem total_eq (f : ν → Int) (t : Table κ ν) : t.total f = (t.entries.map fun e => f e.2).sum := by
  unfold total values
  rw [List.map_map]
  rfl

theorem total_set_of_get?_none {t : Table κ ν} {k : κ} (f : ν → Int) (v : ν) (h : t.get? k = none) :
    (t.set k v).total f = t.total f + f v := by
  rw [total_eq, total_eq, entries_set_of_get?_none v h]
  simp

/-- Forgetting an entry takes its measure away. -/
theorem total_erase {t : Table κ ν} {k : κ} {v : ν} (f : ν → Int) (found : t.get? k = some v) :
    (t.erase k).total f = t.total f - f v := by
  have here := mem_entries_iff.2 found
  obtain ⟨entries, nodup⟩ := t
  rw [total_eq, total_eq]
  simp only [erase, filter]
  clear found
  induction entries with
  | nil => cases here
  | cons e es ih =>
    obtain ⟨fresh, nodup⟩ := List.nodup_cons.1 nodup
    by_cases own : e.1 = k
    · subst own
      have rest : es.filter (fun e' => decide (e'.1 ≠ e.1)) = es := by
        rw [List.filter_eq_self]
        intro e' mem
        rw [decide_eq_true_eq]
        intro same
        exact fresh (same ▸ List.mem_map_of_mem mem)
      have value : e = (e.1, v) := by
        rcases List.mem_cons.1 here with same | mem
        · exact same.symm
        · exact absurd (List.mem_map_of_mem mem) fresh
      rw [List.filter_cons_of_neg (by simp), rest, List.map_cons, List.sum_cons, value]
      exact (add_sub_cancel_left _ _).symm
    · have rest := ih nodup ((List.mem_cons.1 here).resolve_left fun same => own (same ▸ rfl))
      rw [List.filter_cons_of_pos (by simpa using own), List.map_cons, List.sum_cons, rest, List.map_cons, List.sum_cons]
      omega

/-- Storing in place of a value exchanges their measures. -/
theorem total_set {t : Table κ ν} {k : κ} {v : ν} (f : ν → Int) (w : ν) (found : t.get? k = some v) :
    (t.set k w).total f = t.total f - f v + f w := by
  have erased := total_erase f (get?_set_self t k w)
  have before := total_erase f found
  rw [erase_set] at erased
  omega

omit [DecidableEq κ] in
theorem total_nonneg {f : ν → Int} (nonneg : ∀ v, 0 ≤ f v) (t : Table κ ν) : 0 ≤ t.total f := by
  unfold total
  apply List.sum_nonneg
  intro n mem
  obtain ⟨v, -, rfl⟩ := List.mem_map.1 mem
  exact nonneg v

end Table

end RosBridge.Lib
