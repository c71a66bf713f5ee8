import RosBridge.Scripts.CredentialStore
/-!
# Files shared by calls

What the file-system operations of `scripts/credential-store.mjs` do to the files, and what
a call relies on and guarantees: a file that is linked stays as it is, and the others
leave a call's own files and directories alone.
-/

namespace RosBridge.Scripts

open Lib Thread Protocol

/-- A file, and which call made it. -/
structure Inode (ι : Type) where
  creator : Option ι
  isFile : Bool
  uid : Nat
  mode : Nat
  content : List UInt8

/-- A staging directory, which call made it, and the file in it. -/
structure Staging (ι : Type) where
  owner : Option ι
  value : Option Nat

structure Files (ι : Type) where
  inodes : Nat → Option (Inode ι)
  paths : Path → Option Nat
  staging : Nat → Option (Staging ι)
  /-- The calls whose staging directory could not be removed. -/
  unremoved : ι → Bool

namespace Files

variable {ι : Type}

def setInode (s : Files ι) (i : Nat) (node : Inode ι) : Files ι := { s with inodes := Function.update s.inodes i (some node) }

def setStaging (s : Files ι) (n : Nat) (dir : Option (Staging ι)) : Files ι := { s with staging := Function.update s.staging n dir }

def setPath (s : Files ι) (path : Path) (i : Nat) : Files ι := { s with paths := Function.update s.paths path (some i) }

def setUnremoved [DecidableEq ι] (s : Files ι) (c : ι) : Files ι := { s with unremoved := Function.update s.unremoved c true }

variable {s : Files ι}

@[simp] theorem setInode_self (i : Nat) (node : Inode ι) : (s.setInode i node).inodes i = some node := Function.update_self _ _ _

theorem setInode_other {i j : Nat} (node : Inode ι) (h : j ≠ i) : (s.setInode i node).inodes j = s.inodes j :=
  Function.update_of_ne h _ _

@[simp] theorem setStaging_self (n : Nat) (dir : Option (Staging ι)) : (s.setStaging n dir).staging n = dir := Function.update_self _ _ _

theorem setStaging_other {m n : Nat} (dir : Option (Staging ι)) (h : m ≠ n) : (s.setStaging n dir).staging m = s.staging m :=
  Function.update_of_ne h _ _

@[simp] theorem setPath_self (path : Path) (i : Nat) : (s.setPath path i).paths path = some i := Function.update_self _ _ _

theorem setPath_other {path path' : Path} (i : Nat) (h : path' ≠ path) : (s.setPath path i).paths path' = s.paths path' :=
  Function.update_of_ne h _ _

end Files

section Effects

variable {ι : Type} [DecidableEq ι]

variable (uid : ι → Nat) (fileMode : Nat)

/-- What an operation of a call gives and leaves. Only a write, a removal and what creates
something change the files. A write that fails may have written a part, and a removal
that fails may have removed a part. `fileMode` is what the creation mask leaves of 0600. -/
def effect (c : ι) (op : Op) (s : Files ι) (r : Except Failure (Res op)) (s' : Files ι) : Prop :=
  match op, r with
  | .openFile path, .ok i => s' = s ∧ s.paths path = some i
  | .fstat i, .ok entry => s' = s ∧ ∃ node, s.inodes i = some node ∧ entry = ⟨node.isFile, node.uid, node.mode, node.content.length⟩
  | .readFile i, .ok content => s' = s ∧ ∃ node, s.inodes i = some node ∧ content = node.content
  | .mkdtemp _, .ok n => s.staging n = none ∧ s' = s.setStaging n (some ⟨some c, none⟩)
  | .create n, .ok i => ∃ dir, s.staging n = some dir ∧ dir.value = none ∧ s.inodes i = none ∧
      s' = (s.setInode i ⟨some c, true, uid c, fileMode, []⟩).setStaging n (some { dir with value := some i })
  | .writeFile i data, .ok _ => ∃ node, s.inodes i = some node ∧ s' = s.setInode i { node with content := node.content ++ data }
  | .writeFile i data, .error _ => s' = s ∨ ∃ node part, s.inodes i = some node ∧ part <+: data ∧
      s' = s.setInode i { node with content := node.content ++ part }
  | .link n path, .ok _ => s.paths path = none ∧ ∃ dir i, s.staging n = some dir ∧ dir.value = some i ∧ s' = s.setPath path i
  | .rm n, .ok _ => s' = s.setStaging n none
  | .rm n, .error _ => s' = s.setUnremoved c ∨ (∃ dir, s.staging n = some dir ∧ s' = (s.setUnremoved c).setStaging n (some { dir with value := none })) ∨
      s' = (s.setUnremoved c).setStaging n none
  | _, _ => s' = s

end Effects

section Guarantees

variable {ι : Type}

/-- What is linked stays, with its content. -/
def Kept (s s' : Files ι) : Prop := ∀ path i, s.paths path = some i → s'.paths path = some i ∧ s'.inodes i = s.inodes i

/-- What a call relies on. -/
structure Rely (c : ι) (s s' : Files ι) : Prop where
  kept : Kept s s'
  staging : ∀ n dir, dir.owner = some c → (s'.staging n = some dir ↔ s.staging n = some dir)
  inodes : ∀ i node, s.inodes i = some node → node.creator = some c →
    s'.inodes i = some node ∧ ∀ path, s'.paths path = some i → s.paths path = some i
  unremoved : s'.unremoved c = s.unremoved c

theorem Kept.trans {s s' s'' : Files ι} (h : Kept s s') (h' : Kept s' s'') : Kept s s'' := by
  intro path i linked
  obtain ⟨linked', same⟩ := h path i linked
  obtain ⟨linked'', same'⟩ := h' path i linked'
  exact ⟨linked'', same'.trans same⟩

theorem Rely.refl (c : ι) (s : Files ι) : Rely c s s where
  kept _ _ linked := ⟨linked, rfl⟩
  staging _ _ _ := Iff.rfl
  inodes _ _ here _ := ⟨here, fun _ linked => linked⟩
  unremoved := rfl

theorem Rely.trans {c : ι} {s s' s'' : Files ι} (h : Rely c s s') (h' : Rely c s' s'') : Rely c s s'' where
  kept := h.kept.trans h'.kept
  staging n dir own := (h'.staging n dir own).trans (h.staging n dir own)
  inodes i node here own := by
    obtain ⟨here', links⟩ := h.inodes i node here own
    obtain ⟨here'', links'⟩ := h'.inodes i node here' own
    exact ⟨here'', fun path linked => links path (links' path linked)⟩
  unremoved := h'.unremoved.trans h.unremoved

/-- What a call guarantees. -/
def Guar (c : ι) (s s' : Files ι) : Prop := Kept s s' ∧ ∀ d, c ≠ d → Rely d s s'

theorem Guar.refl (c : ι) (s : Files ι) : Guar c s s := ⟨(Rely.refl c s).kept, fun d _ => .refl d s⟩

theorem Guar.trans {c : ι} {s s' s'' : Files ι} (h : Guar c s s') (h' : Guar c s' s'') : Guar c s s'' :=
  ⟨h.1.trans h'.1, fun d apart => (h.2 d apart).trans (h'.2 d apart)⟩

end Guarantees

section Changes

variable {ι : Type} {c : ι} {s : Files ι}

/-- A call may change the staging directories that it made. -/
theorem guar_setStaging {n : Nat} {dir : Option (Staging ι)} (before : ∀ d, s.staging n = some d → d.owner = some c)
    (after : ∀ d, dir = some d → d.owner = some c) : Guar c s (s.setStaging n dir) := by
  refine ⟨fun path i linked => ⟨linked, rfl⟩, fun d apart => ⟨fun path i linked => ⟨linked, rfl⟩, ?_, ?_, rfl⟩⟩
  · intro m other own
    by_cases same : m = n
    · subst same
      rw [Files.setStaging_self]
      constructor
      · intro h
        exact absurd (Option.some.inj ((after other h).symm.trans own)) apart
      · intro h
        exact absurd (Option.some.inj ((before other h).symm.trans own)) apart
    · rw [Files.setStaging_other _ same]
  · exact fun i node here _ => ⟨here, fun _ linked => linked⟩

/-- A call may change the files that it made and that are not linked. -/
theorem guar_setInode {i : Nat} {node : Inode ι} (unlinked : ∀ path, s.paths path ≠ some i)
    (before : ∀ old, s.inodes i = some old → old.creator = some c) : Guar c s (s.setInode i node) := by
  have kept : Kept s (s.setInode i node) := by
    intro path j linked
    have other : j ≠ i := fun same => unlinked path (same ▸ linked)
    exact ⟨linked, Files.setInode_other _ other⟩
  refine ⟨kept, fun d apart => ⟨kept, fun _ _ _ => Iff.rfl, ?_, rfl⟩⟩
  intro j own here made
  have other : j ≠ i := by
    intro same
    subst same
    exact apart (Option.some.inj ((before own here).symm.trans made))
  exact ⟨(Files.setInode_other _ other).trans here, fun _ linked => linked⟩

/-- A call may link a file that it made where no file is. -/
theorem guar_setPath {path : Path} {i : Nat} {node : Inode ι} (free : s.paths path = none) (here : s.inodes i = some node)
    (own : node.creator = some c) : Guar c s (s.setPath path i) := by
  have kept : Kept s (s.setPath path i) := by
    intro other j linked
    have differ : other ≠ path := by
      intro same
      rw [same, free] at linked
      cases linked
    exact ⟨(Files.setPath_other _ differ).trans linked, rfl⟩
  refine ⟨kept, fun d apart => ⟨kept, fun _ _ _ => Iff.rfl, ?_, rfl⟩⟩
  intro j made found other
  refine ⟨found, fun at' linked => ?_⟩
  by_cases same : at' = path
  · subst same
    rw [Files.setPath_self] at linked
    obtain rfl := Option.some.inj linked
    rw [here] at found
    obtain rfl := Option.some.inj found
    exact absurd (Option.some.inj (own.symm.trans other)) apart
  · rwa [Files.setPath_other _ same] at linked

theorem guar_setUnremoved [DecidableEq ι] : Guar c s (s.setUnremoved c) := by
  refine ⟨fun path i linked => ⟨linked, rfl⟩, fun d apart => ⟨fun path i linked => ⟨linked, rfl⟩, fun _ _ _ => Iff.rfl, ?_, ?_⟩⟩
  · exact fun i node here _ => ⟨here, fun _ linked => linked⟩
  · exact Function.update_of_ne (Ne.symm apart) _ _

end Changes

end RosBridge.Scripts
