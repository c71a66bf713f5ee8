import RosBridge.Lib.Utf16
/-!
# Objects and the order of their keys

The properties of a JavaScript object as a list of names and values: how they are looked up,
how the names are sorted, and the order in which an object lists them.
-/

namespace RosBridge.Lib

namespace Entries

variable {α : Type}

/-- `Object.keys(…).sort()`, each name with its value. -/
def sortKeys (entries : List (JsString × α)) : List (JsString × α) :=
  ((entries.map (·.1)).mergeSort fun a b => decide (a ≤ b)).filterMap fun name =>
    (entries.lookup name).map fun value => (name, value)

/-- An array index: the digits of a number below 2^32 - 1, with no zero in front. -/
def arrayIndex (key : JsString) : Option Nat :=
  let value := key.foldl (fun n u => 10 * n + (u.toNat - 48)) 0
  if key.all (fun u => 48 ≤ u.toNat && u.toNat ≤ 57) && !key.isEmpty && (key.length = 1 || key.head? != some 48) && value < 2 ^ 32 - 1 then
    some value
  else none

def isIndex (entry : JsString × α) : Bool := (arrayIndex entry.1).isSome

/-- The order in which an object lists properties that were made in this order: array indices
come first, by number. -/
def ordered (entries : List (JsString × α)) : List (JsString × α) :=
  (entries.filter isIndex).mergeSort (fun a b => decide ((arrayIndex a.1).getD 0 ≤ (arrayIndex b.1).getD 0)) ++
    entries.filter fun entry => !isIndex entry

theorem ordered_perm (entries : List (JsString × α)) : (ordered entries).Perm entries :=
  ((List.mergeSort_perm _ _).append_right _).trans (List.filter_append_perm _ _)

/-- Looking a name up finds its value, where no name occurs twice. -/
theorem lookup_iff {entries : List (JsString × α)} (distinct : (entries.map (·.1)).Nodup) {key : JsString} {value : α} :
    entries.lookup key = some value ↔ (key, value) ∈ entries := by
  induction entries with
  | nil => simp
  | cons entry entries ih =>
    obtain ⟨name, first⟩ := entry
    rw [List.map_cons, List.nodup_cons] at distinct
    rw [List.lookup_cons, List.mem_cons]
    by_cases here : key = name
    · subst here
      rw [beq_self_eq_true]
      constructor
      · intro h
        cases h
        exact .inl rfl
      · intro h
        rcases h with h | inside
        · cases h
          rfl
        · exact absurd (List.mem_map_of_mem inside) distinct.1
    · rw [beq_false_of_ne here]
      simp only [ih distinct.2, Prod.mk.injEq, here, false_and, false_or]

theorem lookup_perm {entries entries' : List (JsString × α)} (perm : entries.Perm entries')
    (distinct : (entries.map (·.1)).Nodup) (key : JsString) : entries.lookup key = entries'.lookup key := by
  apply Option.ext
  intro value
  have distinct' := (perm.map (·.1)).nodup_iff.1 distinct
  rw [lookup_iff distinct, lookup_iff distinct', perm.mem_iff]

/-- What is sorted does not depend on the order in which it was listed. -/
theorem sortKeys_eq {entries entries' : List (JsString × α)} (perm : entries.Perm entries')
    (distinct : (entries.map (·.1)).Nodup) : sortKeys entries = sortKeys entries' := by
  have names : (entries.map (·.1)).mergeSort (fun a b => decide (a ≤ b)) = (entries'.map (·.1)).mergeSort fun a b => decide (a ≤ b) := by
    have sorted : ∀ l : List JsString, (l.mergeSort fun a b => decide (a ≤ b)).Pairwise fun a b => decide (a ≤ b) = true := by
      intro l
      apply List.pairwise_mergeSort
      · intro a b c h h'
        exact decide_eq_true (List.le_trans (of_decide_eq_true h) (of_decide_eq_true h'))
      · intro a b
        rw [Bool.or_eq_true, decide_eq_true_iff, decide_eq_true_iff]
        exact List.le_total a b
    apply List.Perm.eq_of_pairwise _ (sorted _) (sorted _)
    · exact (List.mergeSort_perm _ _).trans ((perm.map _).trans (List.mergeSort_perm _ _).symm)
    · intro a b _ _ h h'
      exact List.le_antisymm (of_decide_eq_true h) (of_decide_eq_true h')
  unfold sortKeys
  rw [names]
  congr 1
  funext name
  rw [lookup_perm perm distinct]

theorem filterMap_self {β : Type} {f : β → Option β} {l : List β} (h : ∀ x ∈ l, f x = some x) : l.filterMap f = l := by
  induction l with
  | nil => rfl
  | cons x l ih =>
    rw [List.forall_mem_cons] at h
    rw [List.filterMap_cons_some h.1, ih h.2]

/-- Entries are what their names find. -/
theorem lookup_names {entries : List (JsString × α)} (distinct : (entries.map (·.1)).Nodup) :
    (entries.map (·.1)).filterMap (fun name => (entries.lookup name).map fun value => (name, value)) = entries := by
  rw [List.filterMap_map]
  apply filterMap_self
  intro entry inside
  show (entries.lookup entry.1).map _ = _
  rw [(lookup_iff distinct).2 inside]
  rfl

/-- Nothing is lost or added. -/
theorem sortKeys_perm {entries : List (JsString × α)} (distinct : (entries.map (·.1)).Nodup) : (sortKeys entries).Perm entries := by
  have sorted := (List.mergeSort_perm (entries.map (·.1)) fun a b => decide (a ≤ b)).filterMap fun name =>
    (entries.lookup name).map fun value => (name, value)
  rw [lookup_names distinct] at sorted
  exact sorted

/-- What is sorted stays as it is. -/
theorem sortKeys_sorted {entries : List (JsString × α)} (distinct : (entries.map (·.1)).Nodup)
    (sorted : (entries.map (·.1)).Pairwise (· ≤ ·)) : sortKeys entries = entries := by
  unfold sortKeys
  rw [List.mergeSort_of_pairwise (sorted.imp fun h => decide_eq_true h), lookup_names distinct]

/-- Without array indices, properties are listed in the order in which they were made. -/
theorem ordered_names {entries : List (JsString × α)} (names : ∀ name ∈ entries.map (·.1), arrayIndex name = none) :
    ordered entries = entries := by
  have none : ∀ entry ∈ entries, isIndex entry = false := by
    intro entry mem
    rw [isIndex, names entry.1 (List.mem_map_of_mem mem)]
    rfl
  unfold ordered
  rw [List.filter_eq_nil_iff.2 fun entry mem => by simp [none entry mem], List.mergeSort_nil, List.nil_append,
    List.filter_eq_self.2 fun entry mem => by simp [none entry mem]]

/-- The listing of entries that have no array index among their names. -/
theorem listing_eq {entries entries' : List (JsString × α)} {names : List JsString} (perm : entries.Perm entries')
    (known : entries'.map (·.1) = names) (distinct : names.Nodup) (sorted : names.Pairwise (· ≤ ·))
    (others : ∀ name ∈ names, arrayIndex name = none) : ordered (sortKeys entries) = entries' := by
  subst known
  rw [← sortKeys_eq perm.symm distinct, sortKeys_sorted distinct sorted, ordered_names others]

end Entries

end RosBridge.Lib
