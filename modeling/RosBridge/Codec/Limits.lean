import RosBridge.Codec.Laws
/-!
# The limits of a descriptor

How deep a descriptor is nested and how many nodes it has, and with these exactly which
descriptors `snapshotSchema` accepts (`snapshotSchema_ok_iff`).
-/

namespace RosBridge.RosJson

open Lib Prog Session

mutual

/-- The levels below a field. -/
def Field.levels : Field → Nat
  | .array _ element => element.levels + 1
  | .object fields => levelsFields fields
  | _ => 0

def levelsFields : List (JsString × Field) → Nat
  | [] => 0
  | (_, field) :: rest => max (field.levels + 1) (levelsFields rest)

end

mutual

/-- A field with all fields in it. -/
def Field.nodeCount : Field → Nat
  | .array _ element => element.nodeCount + 1
  | .object fields => nodeCounts fields + 1
  | _ => 1

def nodeCounts : List (JsString × Field) → Nat
  | [] => 0
  | (_, field) :: rest => field.nodeCount + nodeCounts rest

end

mutual

/-- Every number has a width that there is. -/
def Field.Widths : Field → Prop
  | .integer bits _ => bits ∈ [8, 16, 32, 64]
  | .float bits => bits = 32 ∨ bits = 64
  | .array _ element => element.Widths
  | .object fields => widthsFields fields
  | _ => True

def widthsFields : List (JsString × Field) → Prop
  | [] => True
  | (_, field) :: rest => field.Widths ∧ widthsFields rest

end

theorem levelsFields_le {fields : List (JsString × Field)} {n : Nat} :
    levelsFields fields ≤ n ↔ ∀ p ∈ fields, p.2.levels + 1 ≤ n := by
  induction fields with
  | nil => simp [levelsFields]
  | cons p rest ih => rw [levelsFields, max_le_iff, ih, List.forall_mem_cons]

section Snapshot

variable (options : CodecOptions)

/-- What a snapshot at this depth accepts after so many nodes. -/
structure Field.Fits (field : Field) (depth count : Nat) : Prop where
  distinct : field.Distinct
  bounded : field.Bounded
  widths : field.Widths
  levels : depth + field.levels ≤ options.maxDepth
  nodes : count + field.nodeCount ≤ options.maxNodes

structure FieldsFit (fields : List (JsString × Field)) (depth count : Nat) : Prop where
  distinct : distinctFields fields
  bounded : boundedFields fields
  widths : widthsFields fields
  levels : ∀ p ∈ fields, depth + p.2.levels ≤ options.maxDepth
  nodes : fields = [] ∨ count + nodeCounts fields ≤ options.maxNodes

/-- A leaf is accepted for what it is, within the limits. -/
theorem leaf_fits (field : Field) (depth c : Nat) (p : Prop) (leaf : field.levels = 0 ∧ field.nodeCount = 1)
    (own : field.Distinct ∧ field.Bounded ∧ field.Widths ↔ p) :
    Field.Fits options field depth c ↔ (depth ≤ options.maxDepth ∧ c + 1 ≤ options.maxNodes) ∧ p := by
  rw [← own]
  constructor
  · intro fits
    obtain ⟨distinct, bounded, widths, levels, nodes⟩ := fits
    rw [leaf.1] at levels
    rw [leaf.2] at nodes
    exact ⟨⟨levels, nodes⟩, distinct, bounded, widths⟩
  · intro h
    obtain ⟨⟨levels, nodes⟩, distinct, bounded, widths⟩ := h
    refine ⟨distinct, bounded, widths, ?_, ?_⟩
    · rwa [leaf.1]
    · rwa [leaf.2]

mutual

/-- A snapshot is what was validated, and is taken exactly of what fits. -/
theorem wp_snapshot (field : Field) (depth c : Nat) :
    wp (snapshot options field depth)
      (fun field' c' => field' = field ∧ c' = c + field.nodeCount ∧ Field.Fits options field depth c)
      (fun _ _ => ¬Field.Fits options field depth c) c := by
  cases field with
  | boolean =>
    have fits := leaf_fits options .boolean depth c True ⟨rfl, rfl⟩
      (by simp [Field.Distinct, Field.Bounded, Field.Widths])
    simp only [snapshot, wp_bind, wp_enter, wp_pure, fits, Field.nodeCount]
    tauto
  | string bounds =>
    have fits := leaf_fits options (.string bounds) depth c bounds.Valid ⟨rfl, rfl⟩
      (by simp [Field.Distinct, Field.Bounded, Field.Widths])
    simp only [snapshot, wp_bind, wp_enter, wp_lengths, wp_pure, fits, Field.nodeCount]
    tauto
  | bytes bounds =>
    have fits := leaf_fits options (.bytes bounds) depth c bounds.Valid ⟨rfl, rfl⟩
      (by simp [Field.Distinct, Field.Bounded, Field.Widths])
    simp only [snapshot, wp_bind, wp_enter, wp_lengths, wp_pure, fits, Field.nodeCount]
    tauto
  | integer bits signed =>
    have fits := leaf_fits options (.integer bits signed) depth c (bits ∈ [8, 16, 32, 64]) ⟨rfl, rfl⟩
      (by simp [Field.Distinct, Field.Bounded, Field.Widths])
    simp only [snapshot, wp_bind, wp_enter, wp_requireValue, wp_pure, fits, Field.nodeCount]
    tauto
  | float bits =>
    have fits := leaf_fits options (.float bits) depth c (bits = 32 ∨ bits = 64) ⟨rfl, rfl⟩
      (by simp [Field.Distinct, Field.Bounded, Field.Widths])
    simp only [snapshot, wp_bind, wp_enter, wp_requireValue, wp_pure, fits, Field.nodeCount]
    tauto
  | array bounds element =>
    have fits : Field.Fits options (.array bounds element) depth c ↔ (depth ≤ options.maxDepth ∧ c + 1 ≤ options.maxNodes) ∧
        bounds.Valid ∧ Field.Fits options element (depth + 1) (c + 1) := by
      constructor
      · intro h
        obtain ⟨distinct, bounded, widths, levels, nodes⟩ := h
        simp only [Field.levels, Field.nodeCount] at levels nodes
        exact ⟨⟨by omega, by omega⟩, bounded.1, distinct, bounded.2, widths, by omega, by omega⟩
      · intro h
        obtain ⟨-, valid, distinct, bounded, widths, levels, nodes⟩ := h
        refine ⟨distinct, ⟨valid, bounded⟩, widths, ?_, ?_⟩
        · rw [Field.levels]
          omega
        · rw [Field.nodeCount]
          omega
    simp only [snapshot, wp_bind, wp_enter, wp_lengths, wp_pure, fits, Field.nodeCount]
    refine ⟨fun within => ⟨fun valid => ?_, by tauto⟩, by tauto⟩
    apply wp_mono (wp_snapshot element (depth + 1) (c + 1))
    · intro element' c' h
      obtain ⟨rfl, rfl, inside⟩ := h
      exact ⟨rfl, by omega, within, valid, inside⟩
    · tauto
  | object fields =>
    have fits : Field.Fits options (.object fields) depth c ↔ (depth ≤ options.maxDepth ∧ c + 1 ≤ options.maxNodes) ∧
        (fields.map (·.1)).Nodup ∧ FieldsFit options fields (depth + 1) (c + 1) := by
      constructor
      · intro h
        obtain ⟨distinct, bounded, widths, levels, nodes⟩ := h
        rw [Field.nodeCount] at nodes
        have below : ∀ p ∈ fields, depth + 1 + p.2.levels ≤ options.maxDepth := by
          intro p mem
          have := levelsFields_le.1 (Nat.le_refl (levelsFields fields)) p mem
          rw [Field.levels] at levels
          omega
        exact ⟨⟨by omega, by omega⟩, distinct.1, distinct.2, bounded, widths, below, .inr (by omega)⟩
      · intro h
        obtain ⟨⟨shallow, few⟩, nodup, distinct, bounded, widths, levels, nodes⟩ := h
        refine ⟨⟨nodup, distinct⟩, bounded, widths, ?_, ?_⟩
        · have below : levelsFields fields ≤ options.maxDepth - depth := by
            rw [levelsFields_le]
            intro p mem
            have := levels p mem
            omega
          rw [Field.levels]
          omega
        · rw [Field.nodeCount]
          rcases nodes with rfl | nodes
          · exact few
          · omega
    simp only [snapshot, wp_bind, wp_enter, wp_requireValue, wp_pure, fits, Field.nodeCount]
    refine ⟨fun within => ⟨fun nodup => ?_, by tauto⟩, by tauto⟩
    apply wp_mono (wp_snapshotFields fields (depth + 1) (c + 1))
    · intro fields' c' h
      obtain ⟨rfl, rfl, inside⟩ := h
      exact ⟨rfl, by omega, within, nodup, inside⟩
    · tauto

theorem wp_snapshotFields (fields : List (JsString × Field)) (depth c : Nat) :
    wp (snapshotFields options fields depth)
      (fun fields' c' => fields' = fields ∧ c' = c + nodeCounts fields ∧ FieldsFit options fields depth c)
      (fun _ _ => ¬FieldsFit options fields depth c) c := by
  match fields with
  | [] => exact ⟨rfl, rfl, trivial, trivial, trivial, by simp, .inl rfl⟩
  | (name, field) :: rest =>
    have fits : FieldsFit options ((name, field) :: rest) depth c ↔
        Field.Fits options field depth c ∧ FieldsFit options rest depth (c + field.nodeCount) := by
      constructor
      · intro h
        obtain ⟨distinct, bounded, widths, levels, nodes⟩ := h
        have few : c + nodeCounts ((name, field) :: rest) ≤ options.maxNodes := nodes.resolve_left (List.cons_ne_nil _ _)
        rw [nodeCounts] at few
        rw [List.forall_mem_cons] at levels
        exact ⟨⟨distinct.1, bounded.1, widths.1, levels.1, by omega⟩, distinct.2, bounded.2, widths.2, levels.2,
          .inr (by omega)⟩
      · intro h
        obtain ⟨first, others⟩ := h
        refine ⟨⟨first.distinct, others.distinct⟩, ⟨first.bounded, others.bounded⟩, ⟨first.widths, others.widths⟩,
          List.forall_mem_cons.2 ⟨first.levels, others.levels⟩, .inr ?_⟩
        rw [nodeCounts]
        rcases others.nodes with rfl | few
        · exact first.nodes
        · omega
    rw [snapshotFields, wp_bind]
    apply wp_mono (wp_snapshot field depth c)
    · intro field' c' h
      obtain ⟨rfl, rfl, inside⟩ := h
      rw [wp_bind]
      apply wp_mono (wp_snapshotFields rest depth _)
      · intro rest' c' h
        obtain ⟨rfl, rfl, others⟩ := h
        exact ⟨rfl, by rw [nodeCounts, Nat.add_assoc], fits.2 ⟨inside, others⟩⟩
      · exact fun _ _ outside h => outside (fits.1 h).2
    · exact fun _ _ outside h => outside (fits.1 h).1

end

end Snapshot

/-- A descriptor is accepted exactly when its names, bounds and widths are right and it is
within the limits. -/
theorem snapshotSchema_ok_iff {field field' : Field} {options : CodecOptions} :
    snapshotSchema field options = .ok field' ↔ field' = field ∧ Field.Fits options field 0 0 := by
  have spec := wp_snapshot options field 0 0
  unfold snapshotSchema
  rcases exec_cases spec with ⟨result, c, ⟨rfl, -, fits⟩, ran⟩ | ⟨e, c, outside, ran⟩
  · rw [ran]
    constructor
    · intro same
      obtain rfl := Except.ok.inj same
      exact ⟨rfl, fits⟩
    · intro h
      rw [h.1]
  · rw [ran]
    constructor
    · intro same
      cases same
    · intro h
      exact absurd h.2 outside

end RosBridge.RosJson
