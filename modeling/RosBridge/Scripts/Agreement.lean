import RosBridge.Scripts.Files
/-!
# Agreement of credential stores

The calls on one path agree on one credential, in every interleaving of their operations
and wherever they fail or stop: `credentials_agree`.
-/

namespace RosBridge.Scripts

open Lib Thread Protocol

section Protocol

variable {ι : Type} [DecidableEq ι] (uid : ι → Nat) (fileMode : Nat) (random : ι → List UInt8) (old : Files ι)

/-- A file that a call has made, whole. -/
def Whole (node : Inode ι) : Prop := ∃ c, node = ⟨some c, true, uid c, fileMode, hexLine (random c)⟩

/-- What is linked was so from the beginning or is whole. -/
def Linked (s : Files ι) : Prop :=
  ∀ path i, s.paths path = some i → ∃ node, s.inodes i = some node ∧ (old.paths path = some i ∨ Whole uid fileMode random node)

def protocol : Protocol Op Res Failure (Files ι) ι where
  Effect := effect uid fileMode
  Inv := Linked uid fileMode random old
  Rely := Rely
  Guar := Guar
  rely_refl := Rely.refl
  rely_trans := Rely.trans
  other apart h := h.2 _ apart

end Protocol

section Knowledge

variable {ι : Type} {c : ι}

/-- The credential in a file, for a user. -/
def Inode.credential (node : Inode ι) (getuid : Nat) : Option JsString :=
  let value := stripNewline (decodeUtf8 node.content)
  if Stats.valid getuid ⟨node.isFile, node.uid, node.mode, node.content.length⟩ ∧ isCredential value = true then some value else none

/-- The credential stored at a path. -/
def Stored (getuid : Nat) (path : Path) (s : Files ι) (value : JsString) : Prop :=
  ∃ i node, s.paths path = some i ∧ s.inodes i = some node ∧ node.credential getuid = some value

/-- No staging directory of the call is left. -/
def Clear (c : ι) (s : Files ι) : Prop := ∀ n dir, s.staging n = some dir → dir.owner ≠ some c

/-- The call has one staging directory. -/
structure Own (c : ι) (n : Nat) (dir : Staging ι) (s : Files ι) : Prop where
  here : s.staging n = some dir
  owner : dir.owner = some c
  only : ∀ m d, s.staging m = some d → d.owner = some c → m = n

def Staged (c : ι) (n : Nat) (s : Files ι) : Prop := ∃ dir, Own c n dir s

/-- It has a file in it that nobody else sees. -/
structure Candidate (node : Inode ι) (c : ι) (n i : Nat) (s : Files ι) : Prop where
  own : Own c n ⟨some c, some i⟩ s
  node : s.inodes i = some node
  unlinked : ∀ path, s.paths path ≠ some i

/-- What has to hold when a call ends. -/
def Ends (getuid : Nat) (path : Path) (c : ι) (r : Except Failure JsString) (s : Files ι) : Prop :=
  (∀ v, r = .ok v → Stored getuid path s v ∧ Clear c s) ∧ (s.unremoved c = false → Clear c s)

theorem ends_failed {getuid : Nat} {path : Path} {e : Failure} {s : Files ι} (clear : s.unremoved c = false → Clear c s) :
    Ends getuid path c (.error e) s := ⟨fun v same => (by cases same), clear⟩

/-! ## What the others leave alone -/

theorem credential_some {node : Inode ι} {getuid : Nat} {value : JsString} (h : node.credential getuid = some value) :
    isCredential value = true ∧ value = stripNewline (decodeUtf8 node.content) := by
  unfold Inode.credential at h
  dsimp only at h
  split at h
  · next valid =>
    obtain rfl := Option.some.inj h
    exact ⟨valid.2, rfl⟩
  · cases h

/-- A path has one credential. -/
theorem stored_unique {path : Path} {value value' : JsString} {getuid getuid' : Nat} {s : Files ι}
    (h : Stored getuid path s value) (h' : Stored getuid' path s value') : value = value' := by
  obtain ⟨i, node, linked, here, read⟩ := h
  obtain ⟨i', node', linked', here', read'⟩ := h'
  obtain rfl := Option.some.inj (linked.symm.trans linked')
  obtain rfl := Option.some.inj (here.symm.trans here')
  rw [(credential_some read).2, (credential_some read').2]

theorem stored_rely {path : Path} {value : JsString} {getuid : Nat} {s s' : Files ι} (h : Stored getuid path s value)
    (kept : Kept s s') : Stored getuid path s' value := by
  obtain ⟨i, node, linked, here, read⟩ := h
  obtain ⟨linked', same⟩ := kept path i linked
  exact ⟨i, node, linked', same.trans here, read⟩

theorem clear_rely {s s' : Files ι} (h : Clear c s) (rely : Rely c s s') : Clear c s' := by
  intro n dir found own
  exact h n dir ((rely.staging n dir own).1 found) own

theorem own_rely {n : Nat} {dir : Staging ι} {s s' : Files ι} (h : Own c n dir s) (rely : Rely c s s') : Own c n dir s' where
  here := (rely.staging n dir h.owner).2 h.here
  owner := h.owner
  only m d found own := h.only m d ((rely.staging m d own).1 found) own

theorem candidate_rely {node : Inode ι} {n i : Nat} {s s' : Files ι} (made : node.creator = some c) (h : Candidate node c n i s)
    (rely : Rely c s s') : Candidate node c n i s' := by
  obtain ⟨here, links⟩ := rely.inodes i node h.node made
  exact ⟨own_rely h.own rely, here, fun path linked => h.unlinked path (links path linked)⟩

end Knowledge

/-! ## What a call makes -/

section Making

variable {ι : Type} {uid : ι → Nat} {fileMode : Nat} {random : ι → List UInt8} {old : Files ι} {c : ι}

theorem linked_setInode {s : Files ι} {i : Nat} {node : Inode ι} (unlinked : ∀ path, s.paths path ≠ some i)
    (h : Linked uid fileMode random old s) : Linked uid fileMode random old (s.setInode i node) := by
  intro path j linked
  have other : j ≠ i := fun same => unlinked path (same ▸ linked)
  obtain ⟨found, here, good⟩ := h path j linked
  exact ⟨found, (Files.setInode_other _ other).trans here, good⟩

theorem linked_setPath {s : Files ι} {path : Path} {i : Nat} {node : Inode ι} (here : s.inodes i = some node)
    (whole : Whole uid fileMode random node) (h : Linked uid fileMode random old s) :
    Linked uid fileMode random old (s.setPath path i) := by
  intro path' j linked
  by_cases same : path' = path
  · subst same
    rw [Files.setPath_self] at linked
    obtain rfl := Option.some.inj linked
    exact ⟨node, here, .inr whole⟩
  · rw [Files.setPath_other _ same] at linked
    exact h path' j linked

theorem Own.update {n : Nat} {dir : Staging ι} {s : Files ι} (h : Own c n dir s) (dir' : Staging ι) (owner : dir'.owner = some c) :
    Own c n dir' (s.setStaging n (some dir')) ∧ Guar c s (s.setStaging n (some dir')) := by
  constructor
  · refine ⟨Files.setStaging_self _ _, owner, fun m d found own => ?_⟩
    by_contra other
    rw [Files.setStaging_other _ other] at found
    exact other (h.only m d found own)
  · apply guar_setStaging
    · intro d found
      rw [h.here] at found
      exact Option.some.inj found ▸ h.owner
    · intro d same
      exact Option.some.inj same ▸ owner

/-- The file of a call, with what has been written to it. -/
def Inode.candidate (uid : ι → Nat) (fileMode : Nat) (c : ι) (content : List UInt8) : Inode ι := ⟨some c, true, uid c, fileMode, content⟩

end Making

/-! ## Calls -/

section Calls

variable {ι : Type} [DecidableEq ι] {uid : ι → Nat} {fileMode : Nat} {random : ι → List UInt8} {old : Files ι} {c : ι}
  {P : Files ι → Prop}

/-- The operations that leave the files as they are. -/
def Op.silent : Op → Bool
  | .lstat _ | .mkdir _ | .openFile _ | .fstat _ | .readFile _ | .close _ | .openDirectory _ | .sync _ => true
  | _ => false

theorem effect_silent {op : Op} (silent : op.silent = true) {s s' : Files ι} {r : Except Failure (Res op)}
    (h : effect uid fileMode c op s r s') : s' = s := by
  cases op with
  | openFile | fstat | readFile =>
    cases r with
    | ok result => exact h.1
    | error e => exact h
  | lstat | mkdir | close | openDirectory | sync => cases r <;> exact h
  | _ => cases silent

section Silent

variable (stable : (protocol uid fileMode random old).Stable c P)
include stable

/-- A silent operation keeps what is stable, and tells of the files. -/
theorem safe_silent {op : Op} (silent : op.silent = true) {s : Files ι} (here : P s) :
    (protocol uid fileMode random old).safe c (call op) (fun r s' => P s' ∧ effect uid fileMode c op s' r s') s := by
  apply safe_call stable here
  intro s1 r s2 kept inv h
  obtain rfl := effect_silent silent h
  exact ⟨inv, Guar.refl c s2, kept, h⟩

theorem keeping_silent {op : Op} (silent : op.silent = true) :
    (protocol uid fileMode random old).Keeping c P (call op) := by
  intro s here
  exact safe_mono (safe_silent stable silent here) fun _ _ h => h.1

theorem keeping_checkAncestors (directory : Path) :
    (protocol uid fileMode random old).Keeping c P (checkAncestors directory) := by
  have component : ∀ path, (protocol uid fileMode random old).Keeping c P (checkComponent path) := fun path =>
    ((keeping_silent stable rfl).bind fun _ => .throwIf).orCatch fun _ => .throwIf
  induction directory with
  | nil => exact component []
  | cons name parent ih => exact ih.bind fun _ => component _

theorem keeping_checkDirectory (getuid : Nat) (directory : Path) :
    (protocol uid fileMode random old).Keeping c P (checkDirectory getuid directory) :=
  (keeping_silent stable rfl).bind fun _ => .throwIf

theorem keeping_syncDirectoryTree (directory : Path) :
    (protocol uid fileMode random old).Keeping c P (syncDirectoryTree directory) := by
  have one : ∀ path, (protocol uid fileMode random old).Keeping c P (syncDirectory path) := fun path =>
    (keeping_silent stable rfl).bind fun _ => (keeping_silent stable rfl).andFinally (keeping_silent stable rfl)
  induction directory with
  | nil => exact one []
  | cons name parent ih => exact (one _).bind fun _ => ih

/-- What is read is what is stored. -/
theorem safe_readStored (getuid : Nat) (path : Path) {s : Files ι} (here : P s) :
    (protocol uid fileMode random old).safe c (readStored getuid path)
      (fun r s' => P s' ∧ ∀ v, r = .ok v → Stored getuid path s' v) s := by
  refine safe_bind (safe_silent stable rfl here) ?_ fun e s' h => ⟨h.1, fun _ same => by cases same⟩
  intro i s' opened
  -- The file stays at its path, as it is, from here on.
  have stays : (protocol uid fileMode random old).Stable c fun s => P s ∧ s.paths path = some i := by
    intro s s' h rely
    exact ⟨stable s s' h.1 rely, (rely.kept path i h.2).1⟩
  have same : ∀ node : Inode ι, (protocol uid fileMode random old).Stable c
      fun s => (P s ∧ s.paths path = some i) ∧ s.inodes i = some node := by
    intro node s s' h rely
    exact ⟨stays s s' h.1 rely, (rely.kept path i h.1.2).2.trans h.2⟩
  have stored : (protocol uid fileMode random old).safe c
      (do
        let entry ← Fs.fstat i
        throwIf (¬entry.valid getuid) (Failure.plain "")
        let content ← Fs.readFile i
        throwIf (isCredential (stripNewline (decodeUtf8 content)) = false) (Failure.plain "")
        return stripNewline (decodeUtf8 content))
      (fun r s' => P s' ∧ ∀ v, r = .ok v → Stored getuid path s' v) s' := by
    refine safe_bind (safe_silent stays rfl ⟨opened.1, opened.2.2⟩) ?_ fun e s' h => ⟨h.1.1, fun _ same => by cases same⟩
    intro entry s' h
    obtain ⟨known, -, node, found, rfl⟩ := h
    refine safe_bind (P := fun r s' => ((P s' ∧ s'.paths path = some i) ∧ s'.inodes i = some node) ∧
        (r = .ok () → Stats.valid getuid ⟨node.isFile, node.uid, node.mode, node.content.length⟩))
      (safe_throwIf (fun _ => ⟨⟨known, found⟩, fun same => by cases same⟩) fun valid => ⟨⟨known, found⟩, fun _ => not_not.1 valid⟩)
      ?_ fun e s' h => ⟨h.1.1.1, fun _ same => by cases same⟩
    intro _ s' checked
    have valid := checked.2 rfl
    refine safe_bind (safe_silent (same node) rfl checked.1) ?_ fun e s' h => ⟨h.1.1.1, fun _ same => by cases same⟩
    intro content s' h
    obtain ⟨⟨⟨kept, linked⟩, found⟩, -, node', found', rfl⟩ := h
    rw [found] at found'
    obtain rfl := Option.some.inj found'
    refine safe_bind (P := fun r s' => (P s' ∧ s'.paths path = some i ∧ s'.inodes i = some node) ∧
        (r = .ok () → isCredential (stripNewline (decodeUtf8 node.content)) = true))
      (safe_throwIf (fun _ => ⟨⟨kept, linked, found⟩, fun same => by cases same⟩) fun accepted =>
        ⟨⟨kept, linked, found⟩, fun _ => by simpa using accepted⟩) ?_ fun e s' h => ⟨h.1.1, fun _ same => by cases same⟩
    intro _ s' h
    refine ⟨h.1.1, fun v same => ?_⟩
    obtain rfl := Except.ok.inj same
    exact ⟨i, node, h.1.2.1, h.1.2.2, if_pos ⟨valid, h.2 rfl⟩⟩
  refine safe_andFinally stored ?_
  intro r s' h
  have kept : (protocol uid fileMode random old).Stable c fun s => P s ∧ ∀ v, r = .ok v → Stored getuid path s v := by
    intro s s' h rely
    exact ⟨stable s s' h.1 rely, fun v same => stored_rely (h.2 v same) rely.kept⟩
  exact safe_bind (keeping_silent kept rfl s' h) (fun _ _ h => h) fun e s' h => ⟨h.1, fun _ same => by cases same⟩

theorem safe_readDurable (getuid : Nat) (path : Path) {s : Files ι} (here : P s) :
    (protocol uid fileMode random old).safe c (readDurable getuid path)
      (fun r s' => P s' ∧ ∀ v, r = .ok v → Stored getuid path s' v) s := by
  refine safe_bind (safe_readStored stable getuid path here) ?_ fun e s' h => ⟨h.1, fun _ same => by cases same⟩
  intro v s' h
  have kept : (protocol uid fileMode random old).Stable c fun s => P s ∧ Stored getuid path s v := by
    intro s s' h rely
    exact ⟨stable s s' h.1 rely, stored_rely h.2 rely.kept⟩
  refine safe_bind (keeping_syncDirectoryTree kept _ s' ⟨h.1, h.2 v rfl⟩) ?_ fun e s' h => ⟨h.1, fun _ same => by cases same⟩
  intro _ s' h
  refine ⟨h.1, fun w same => ?_⟩
  obtain rfl := Except.ok.inj same
  exact h.2

end Silent

/-! ## Writing, linking and removing -/

theorem stable_own (n : Nat) (dir : Staging ι) : (protocol uid fileMode random old).Stable c (Own c n dir) :=
  fun _ _ h rely => own_rely h rely

theorem stable_staged (n : Nat) : (protocol uid fileMode random old).Stable c (Staged c n) := by
  intro s s' h rely
  obtain ⟨dir, own⟩ := h
  exact ⟨dir, own_rely own rely⟩

theorem stable_clear : (protocol uid fileMode random old).Stable c (Clear c) := fun _ _ h rely => clear_rely h rely

theorem stable_candidate (content : List UInt8) (n i : Nat) :
    (protocol uid fileMode random old).Stable c (Candidate (.candidate uid fileMode c content) c n i) :=
  fun _ _ h rely => candidate_rely rfl h rely

theorem safe_mkdtemp (directory : Path) {s : Files ι} (clear : Clear c s) :
    (protocol uid fileMode random old).safe c (Fs.mkdtemp directory)
      (fun r s' => (∀ e, r = .error e → Clear c s') ∧ ∀ n, r = .ok n → Own c n ⟨some c, none⟩ s') s := by
  apply safe_call stable_clear clear
  intro s1 r s2 clear inv h
  cases r with
  | error e =>
    obtain rfl : s2 = s1 := h
    exact ⟨inv, Guar.refl c s2, fun _ _ => clear, fun n same => by cases same⟩
  | ok n =>
    obtain ⟨fresh, rfl⟩ := h
    refine ⟨inv, guar_setStaging (fun d found => ?_) fun d same => Option.some.inj same ▸ rfl,
      fun e same => (by cases same), ?_⟩
    · rw [fresh] at found
      cases found
    · intro m same
      obtain rfl := Except.ok.inj same
      refine ⟨Files.setStaging_self _ _, rfl, fun m d found own => ?_⟩
      by_contra other
      rw [Files.setStaging_other _ other] at found
      exact clear m d found own

theorem safe_create {n : Nat} {s : Files ι} (own : Own c n ⟨some c, none⟩ s) :
    (protocol uid fileMode random old).safe c (Fs.create n)
      (fun r s' => Staged c n s' ∧ ∀ i, r = .ok i → Candidate (.candidate uid fileMode c []) c n i s') s := by
  apply safe_call (stable_own n _) own
  intro s1 r s2 own inv h
  cases r with
  | error e =>
    obtain rfl : s2 = s1 := h
    exact ⟨inv, Guar.refl c s2, ⟨_, own⟩, fun i same => by cases same⟩
  | ok i =>
    obtain ⟨dir, found, -, fresh, rfl⟩ := h
    obtain rfl := Option.some.inj (own.here.symm.trans found)
    have unlinked : ∀ path, s1.paths path ≠ some i := by
      intro path linked
      obtain ⟨node, here, -⟩ := inv path i linked
      rw [fresh] at here
      cases here
    have made : Own c n ⟨some c, none⟩ (s1.setInode i ⟨some c, true, uid c, fileMode, []⟩) := ⟨own.here, rfl, own.only⟩
    obtain ⟨own', guar⟩ := made.update ⟨some c, some i⟩ rfl
    refine ⟨linked_setInode unlinked inv, Guar.trans (guar_setInode unlinked fun node here => ?_) guar, ⟨_, own'⟩, fun j same => ?_⟩
    · rw [fresh] at here
      cases here
    · obtain rfl := Except.ok.inj same
      exact ⟨own', Files.setInode_self _ _, unlinked⟩

/-- A write to the candidate, all of it or a part. -/
theorem safe_writeFile (data : List UInt8) {n i : Nat} {s : Files ι} (here : Candidate (.candidate uid fileMode c []) c n i s) :
    (protocol uid fileMode random old).safe c (Fs.writeFile i data)
      (fun r s' => Staged c n s' ∧ (r = .ok () → Candidate (.candidate uid fileMode c data) c n i s')) s := by
  apply safe_call (stable_candidate _ n i) here
  intro s1 r s2 here inv h
  have written : ∀ part, s2 = s1.setInode i (.candidate uid fileMode c part) →
      Linked uid fileMode random old s2 ∧ Guar c s1 s2 ∧ Candidate (.candidate uid fileMode c part) c n i s2 := by
    intro part same
    subst same
    refine ⟨linked_setInode here.unlinked inv, guar_setInode here.unlinked fun node found => ?_,
      ⟨here.own.here, here.own.owner, here.own.only⟩, Files.setInode_self _ _, here.unlinked⟩
    rw [here.node] at found
    exact Option.some.inj found ▸ rfl
  cases r with
  | ok result =>
    obtain ⟨node, found, rfl⟩ := h
    rw [here.node] at found
    obtain rfl := Option.some.inj found
    obtain ⟨inv', guar, made⟩ := written data rfl
    exact ⟨inv', guar, ⟨_, made.own⟩, fun _ => made⟩
  | error e =>
    rcases h with rfl | ⟨node, part, found, -, rfl⟩
    · exact ⟨inv, Guar.refl c s2, ⟨_, here.own⟩, fun same => by cases same⟩
    · rw [here.node] at found
      obtain rfl := Option.some.inj found
      obtain ⟨inv', guar, made⟩ := written part rfl
      exact ⟨inv', guar, ⟨_, made.own⟩, fun same => by cases same⟩

theorem safe_writeCandidate {n : Nat} {s : Files ι} (own : Own c n ⟨some c, none⟩ s) :
    (protocol uid fileMode random old).safe c (writeCandidate n (random c))
      (fun r s' => Staged c n s' ∧
        (r = .ok () → ∃ i, Candidate (.candidate uid fileMode c (hexLine (random c))) c n i s')) s := by
  refine safe_bind (safe_create own) ?_ fun e s' h => ⟨h.1, fun same => by cases same⟩
  intro i s' created
  have writes : (protocol uid fileMode random old).safe c
      (do
        Fs.writeFile i (hexLine (random c))
        Fs.sync (.file i))
      (fun r s' => Staged c n s' ∧ (r = .ok () → Candidate (.candidate uid fileMode c (hexLine (random c))) c n i s')) s' := by
    refine safe_bind (safe_writeFile (hexLine (random c)) (created.2 i rfl)) ?_ fun e s' h => ⟨h.1, fun same => by cases same⟩
    intro _ s' h
    refine safe_mono (keeping_silent (stable_candidate _ n i) rfl s' (h.2 rfl)) fun r s' made => ⟨⟨_, made.own⟩, fun _ => made⟩
  refine safe_andFinally writes fun r s' h => ?_
  have staged : (protocol uid fileMode random old).Stable c (Staged c n) := stable_staged n
  have stable : (protocol uid fileMode random old).Stable c fun s => Staged c n s ∧
      (r = .ok () → Candidate (.candidate uid fileMode c (hexLine (random c))) c n i s) := by
    intro s s' h rely
    exact ⟨staged s s' h.1 rely, fun same => candidate_rely rfl (h.2 same) rely⟩
  exact safe_bind (keeping_silent stable rfl s' h) (fun _ _ h => ⟨h.1, fun same => ⟨i, h.2 same⟩⟩)
    fun e s' h => ⟨h.1, fun same => by cases same⟩

/-- The candidate is linked where nothing is, or stays where it is. -/
theorem safe_publish (path : Path) {n i : Nat} {s : Files ι}
    (here : Candidate (.candidate uid fileMode c (hexLine (random c))) c n i s) :
    (protocol uid fileMode random old).safe c (publish n path) (fun _ s' => Staged c n s') s := by
  have linked : (protocol uid fileMode random old).safe c (Fs.link n path) (fun _ s' => Staged c n s') s := by
    apply safe_call (stable_candidate _ n i) here
    intro s1 r s2 here inv h
    cases r with
    | error e =>
      obtain rfl : s2 = s1 := h
      exact ⟨inv, Guar.refl c s2, _, here.own⟩
    | ok result =>
      obtain ⟨free, dir, j, found, value, rfl⟩ := h
      obtain rfl := Option.some.inj (here.own.here.symm.trans found)
      obtain rfl := Option.some.inj value
      exact ⟨linked_setPath here.node ⟨c, rfl⟩ inv, guar_setPath free here.node rfl, _, here.own.here, rfl, here.own.only⟩
  refine safe_orCatch linked (fun _ _ h => h) fun e s' h => ?_
  exact safe_throwIf (fun _ => h) fun _ => h

theorem stable_ends (getuid : Nat) (path : Path) (r : Except Failure JsString) :
    (protocol uid fileMode random old).Stable c (Ends getuid path c r) := by
  intro s s' h rely
  constructor
  · intro v same
    exact ⟨stored_rely (h.1 v same).1 rely.kept, clear_rely (h.1 v same).2 rely⟩
  · intro removed
    exact clear_rely (h.2 (rely.unremoved ▸ removed)) rely

/-- The staging directory is removed, or the call fails. -/
theorem safe_rm {n : Nat} {getuid : Nat} {path : Path} {r : Except Failure JsString} {s : Files ι} (here : Staged c n s)
    (stored : ∀ v, r = .ok v → Stored getuid path s v) :
    (protocol uid fileMode random old).safe c (Fs.rm n >>= fun _ => .done r) (Ends getuid path c) s := by
  have staged : (protocol uid fileMode random old).Stable c (Staged c n) := stable_staged n
  have stable : (protocol uid fileMode random old).Stable c fun s => Staged c n s ∧ ∀ v, r = .ok v → Stored getuid path s v := by
    intro s s' h rely
    exact ⟨staged s s' h.1 rely, fun v same => stored_rely (h.2 v same) rely.kept⟩
  have removes : (protocol uid fileMode random old).safe c (Fs.rm n)
      (fun r' s' => (∀ u, r' = .ok u → Clear c s' ∧ ∀ v, r = .ok v → Stored getuid path s' v) ∧
        ∀ e, r' = .error e → s'.unremoved c = true) s := by
    apply safe_call stable ⟨here, stored⟩
    intro s1 r' s2 known inv h
    obtain ⟨⟨dir, own⟩, stored⟩ := known
    have before : ∀ d, s1.staging n = some d → d.owner = some c := by
      intro d found
      rw [own.here] at found
      exact Option.some.inj found ▸ own.owner
    cases r' with
    | ok u =>
      obtain rfl : s2 = s1.setStaging n none := h
      refine ⟨inv, guar_setStaging before fun d same => (by cases same), fun _ _ => ⟨?_, stored⟩, fun e same => by cases same⟩
      intro m d found mine
      by_cases same : m = n
      · subst same
        rw [Files.setStaging_self] at found
        cases found
      · rw [Files.setStaging_other _ same] at found
        exact same (own.only m d found mine)
    | error e =>
      have flagged : (s1.setUnremoved c).unremoved c = true := Function.update_self _ _ _
      rcases h with rfl | ⟨d, found, rfl⟩ | rfl
      · exact ⟨inv, guar_setUnremoved, fun _ same => (by cases same), fun _ _ => flagged⟩
      · have guar : Guar c (s1.setUnremoved c) ((s1.setUnremoved c).setStaging n (some { d with value := none })) :=
          guar_setStaging before fun d' same => Option.some.inj same ▸ before d found
        exact ⟨inv, guar_setUnremoved.trans guar, fun _ same => (by cases same), fun _ _ => flagged⟩
      · have guar : Guar c (s1.setUnremoved c) ((s1.setUnremoved c).setStaging n none) :=
          guar_setStaging before fun d' same => by cases same
        exact ⟨inv, guar_setUnremoved.trans guar, fun _ same => (by cases same), fun _ _ => flagged⟩
  refine safe_bind removes ?_ ?_
  · intro u s' h
    obtain ⟨clear, stored⟩ := h.1 u rfl
    exact ⟨fun v same => ⟨stored v same, clear⟩, fun _ => clear⟩
  · intro e s' h
    refine ⟨fun v same => (by cases same), fun removed => ?_⟩
    rw [h.2 e rfl] at removed
    cases removed

theorem safe_createOnce (path : Path) {s : Files ι} (clear : Clear c s) :
    (protocol uid fileMode random old).safe c (createOnce (uid c) (random c) path) (Ends (uid c) path c) s := by
  refine safe_bind (safe_mkdtemp (dirname path) clear) ?_ fun e s' h => ⟨fun v same => (by cases same), fun _ => h.1 e rfl⟩
  intro n s' made
  have body : (protocol uid fileMode random old).safe c
      (do
        writeCandidate n (random c)
        publish n path
        readDurable (uid c) path)
      (fun r s' => Staged c n s' ∧ ∀ v, r = .ok v → Stored (uid c) path s' v) s' := by
    refine safe_bind (safe_writeCandidate (made.2 n rfl)) ?_ fun e s' h => ⟨h.1, fun v same => by cases same⟩
    intro _ s' h
    obtain ⟨i, candidate⟩ := h.2 rfl
    refine safe_bind (safe_publish path candidate) ?_ fun e s' h => ⟨h, fun v same => by cases same⟩
    intro _ s' staged
    exact safe_readDurable (stable_staged n) (uid c) path staged
  refine safe_andFinally body fun r s' h => ?_
  exact safe_rm h.1 h.2

theorem safe_credentialPath (resolve : JsString → Path) (value : JsString) {s : Files ι} (here : P s) :
    (protocol uid fileMode random old).safe c (credentialPath resolve value)
      (fun r s' => P s' ∧ ∀ path, r = .ok path → path = resolve value) s := by
  refine safe_bind (Keeping.throwIf s here) ?_ fun e s' h => ⟨h, fun path same => by cases same⟩
  intro _ s' h
  exact ⟨h, fun path same => (Except.ok.inj same).symm⟩

/-- What a call catches is thrown as one error. -/
theorem safe_unavailable {getuid : Nat} {path : Path} {t : Script JsString} {s : Files ι}
    (h : (protocol uid fileMode random old).safe c t (Ends getuid path c) s) :
    (protocol uid fileMode random old).safe c (t.orCatch fun _ => fail unavailable) (Ends getuid path c) s := by
  refine safe_orCatch h (fun _ _ h => h) fun e s' h => ?_
  exact ends_failed h.2

/-- A call that reads a store ends as it has to. -/
theorem safe_readCredential (resolve : JsString → Path) (value : JsString) {s : Files ι} (clear : Clear c s) :
    (protocol uid fileMode random old).safe c (readCredential resolve (uid c) value) (Ends (uid c) (resolve value) c) s := by
  have stable : (protocol uid fileMode random old).Stable c (Clear c) := stable_clear
  apply safe_unavailable
  refine safe_bind (safe_credentialPath resolve value clear) ?_ fun e s' h => ends_failed fun _ => h.1
  intro path s' h
  obtain rfl := h.2 path rfl
  refine safe_bind (keeping_checkAncestors stable _ s' h.1) ?_ fun e s' h => ends_failed fun _ => h
  intro _ s' clear
  refine safe_bind (keeping_checkDirectory stable _ _ s' clear) ?_ fun e s' h => ends_failed fun _ => h
  intro _ s' clear
  refine safe_mono (safe_readStored stable (uid c) (resolve value) clear) fun r s' h => ?_
  exact ⟨fun v same => ⟨h.2 v same, h.1⟩, fun _ => h.1⟩

/-- A call that may create a store ends as it has to. -/
theorem safe_ensureCredential (resolve : JsString → Path) (value : JsString) {s : Files ι} (clear : Clear c s) :
    (protocol uid fileMode random old).safe c (ensureCredential resolve (uid c) (random c) value)
      (Ends (uid c) (resolve value) c) s := by
  have stable : (protocol uid fileMode random old).Stable c (Clear c) := stable_clear
  apply safe_unavailable
  refine safe_bind (safe_credentialPath resolve value clear) ?_ fun e s' h => ends_failed fun _ => h.1
  intro path s' h
  obtain rfl := h.2 path rfl
  refine safe_bind (keeping_checkAncestors stable _ s' h.1) ?_ fun e s' h => ends_failed fun _ => h
  intro _ s' clear
  refine safe_bind (keeping_silent stable rfl s' clear) ?_ fun e s' h => ends_failed fun _ => h
  intro _ s' clear
  refine safe_bind (keeping_checkDirectory stable _ _ s' clear) ?_ fun e s' h => ends_failed fun _ => h
  intro _ s' clear
  refine safe_orCatch (safe_readDurable stable (uid c) (resolve value) clear) (fun v s' h => ?_) fun e s' h => ?_
  · exact ⟨fun w same => ⟨h.2 w same, h.1⟩, fun _ => h.1⟩
  · refine safe_bind (Keeping.throwIf s' h.1) ?_ fun e s' h => ends_failed fun _ => h
    intro _ s' clear
    exact safe_createOnce (resolve value) clear

end Calls

/-! ## All calls -/

/-- A call on a path. -/
inductive Call where
  | read (value : JsString)
  | ensure (value : JsString)

namespace Call

variable (resolve : JsString → Path)

def path : Call → Path
  | read value => resolve value
  | ensure value => resolve value

def script (getuid : Nat) (random : List UInt8) : Call → Script JsString
  | read value => readCredential resolve getuid value
  | ensure value => ensureCredential resolve getuid random value

end Call

section Agreement

variable {ι : Type} [DecidableEq ι]

/-- Calls on stores that share the files. -/
abbrev Calls (ι : Type) := Pool Op Res Failure (Files ι) ι JsString

/-- No call has begun: every file that is linked exists, and no staging directory is of a call. -/
structure Begins (resolve : JsString → Path) (uid : ι → Nat) (random : ι → List UInt8) (calls : ι → Call) (pool : Calls ι) :
    Prop where
  files : ∀ path i, pool.state.paths path = some i → ∃ node, pool.state.inodes i = some node
  staging : ∀ n dir, pool.state.staging n = some dir → dir.owner = none
  threads : ∀ c, pool.threads c = (calls c).script resolve (uid c) (random c)

/-- Calls of `readCredential` and `ensureCredential`, in any order of their operations and with
any of them failing, or stopping, anywhere: what is linked stays, as it is; what is
newly linked is whole; a value that a call returns is stored at its path, and calls on one
path return one value; and a call that has returned, or whose removal has not failed, has
no staging directory left. -/
theorem credentials_agree (resolve : JsString → Path) (uid : ι → Nat) (fileMode : Nat) (random : ι → List UInt8) (calls : ι → Call)
    {start mid pool : Calls ι} (begins : Begins resolve uid random calls start) (first : Run (effect uid fileMode) start mid)
    (run : Run (effect uid fileMode) mid pool) :
    Kept mid.state pool.state ∧
    (∀ path i, pool.state.paths path = some i → start.state.paths path = some i ∨
      ∃ node, pool.state.inodes i = some node ∧ Whole uid fileMode random node) ∧
    (∀ c v, pool.threads c = .done (.ok v) →
      Stored (uid c) ((calls c).path resolve) pool.state v ∧ isCredential v = true ∧ Clear c pool.state) ∧
    (∀ c d v w, pool.threads c = .done (.ok v) → pool.threads d = .done (.ok w) →
      (calls c).path resolve = (calls d).path resolve → v = w) ∧
    ∀ c r, pool.threads c = .done r → pool.state.unremoved c = false → Clear c pool.state := by
  have safe : (protocol uid fileMode random start.state).SafePool (fun c => Ends (uid c) ((calls c).path resolve) c) start := by
    constructor
    · intro path i linked
      obtain ⟨node, here⟩ := begins.files path i linked
      exact ⟨node, here, .inl linked⟩
    · intro c
      have clear : Clear c start.state := by
        intro n dir found own
        rw [begins.staging n dir found] at own
        cases own
      rw [begins.threads c]
      cases calls c with
      | read value => exact safe_readCredential resolve value clear
      | ensure value => exact safe_ensureCredential resolve value clear
  have stable : ∀ c r, (protocol uid fileMode random start.state).Stable c (Ends (uid c) ((calls c).path resolve) c r) :=
    fun c r => stable_ends _ _ r
  have refl : ∀ s : Files ι, Kept s s := fun s path i linked => ⟨linked, rfl⟩
  have guar : ∀ c s s', (protocol uid fileMode random start.state).Guar c s s' → Kept s s' := fun c s s' h => h.1
  obtain ⟨safe, -⟩ := safe_run stable refl (fun _ _ _ => Kept.trans) guar first safe
  obtain ⟨safe, kept⟩ := safe_run stable refl (fun _ _ _ => Kept.trans) guar run safe
  have ended : ∀ c r, pool.threads c = .done r → Ends (uid c) ((calls c).path resolve) c r pool.state := by
    intro c r done
    have own := safe.threads c
    rwa [done] at own
  refine ⟨kept, ?_, ?_, ?_, fun c r done => (ended c r done).2⟩
  · intro path i linked
    obtain ⟨node, here, linked | whole⟩ := safe.inv path i linked
    · exact .inl linked
    · exact .inr ⟨node, here, whole⟩
  · intro c v done
    obtain ⟨stored, clear⟩ := (ended c _ done).1 v rfl
    obtain ⟨i, node, linked, here, read⟩ := stored
    exact ⟨⟨i, node, linked, here, read⟩, (credential_some read).1, clear⟩
  · intro c d v w done done' same
    have stored := ((ended c _ done).1 v rfl).1
    have stored' := ((ended d _ done').1 w rfl).1
    rw [← same] at stored'
    exact stored_unique stored stored'

/-! ## Files that do not fail -/

/-- The least number that is not in use, of the first few. -/
def unused {α : Type} (table : Nat → Option α) : Option Nat := (List.range 4).find? fun n => (table n).isNone

/-- What an operation gives and leaves where nothing fails without a reason. -/
def act (uid : ι → Nat) (c : ι) (s : Files ι) : (op : Op) → Except Failure (Res op) × Files ι
  | .lstat _ => (.ok ⟨true, uid c, 0o755⟩, s)
  | .mkdir _ => (.ok (), s)
  | .openFile path =>
    match s.paths path with
    | some i => (.ok i, s)
    | none => (.error (.system "ENOENT"), s)
  | .fstat i =>
    match s.inodes i with
    | some node => (.ok ⟨node.isFile, node.uid, node.mode, node.content.length⟩, s)
    | none => (.error (.system "EBADF"), s)
  | .readFile i =>
    match s.inodes i with
    | some node => (.ok node.content, s)
    | none => (.error (.system "EBADF"), s)
  | .close _ => (.ok (), s)
  | .openDirectory _ => (.ok (), s)
  | .sync _ => (.ok (), s)
  | .mkdtemp _ =>
    match unused s.staging with
    | some n => (.ok n, s.setStaging n (some ⟨some c, none⟩))
    | none => (.error (.system "ENOSPC"), s)
  | .create n =>
    match s.staging n, unused s.inodes with
    | some ⟨owner, none⟩, some i => (.ok i, (s.setInode i ⟨some c, true, uid c, 0o600, []⟩).setStaging n (some ⟨owner, some i⟩))
    | _, _ => (.error (.system "EEXIST"), s)
  | .writeFile i data =>
    match s.inodes i with
    | some node => (.ok (), s.setInode i { node with content := node.content ++ data })
    | none => (.error (.system "EBADF"), s)
  | .link n path =>
    match s.paths path, s.staging n with
    | none, some ⟨_, some i⟩ => (.ok (), s.setPath path i)
    | _, _ => (.error (.system "EEXIST"), s)
  | .rm n => (.ok (), s.setStaging n none)

theorem unused_none {α : Type} {table : Nat → Option α} {n : Nat} (h : unused table = some n) : table n = none := by
  have free := List.find?_some h
  exact Option.isNone_iff_eq_none.1 free

/-- What it gives and leaves is one of the possibilities. -/
theorem effect_act (uid : ι → Nat) (c : ι) (s : Files ι) (op : Op) : effect uid 0o600 c op s (act uid c s op).1 (act uid c s op).2 := by
  cases op with
  | lstat | mkdir | close | openDirectory | sync | rm => rfl
  | openFile path =>
    dsimp only [act]
    split
    · next i found => exact ⟨rfl, found⟩
    · rfl
  | fstat i =>
    dsimp only [act]
    split
    · next node found => exact ⟨rfl, node, found, rfl⟩
    · rfl
  | readFile i =>
    dsimp only [act]
    split
    · next node found => exact ⟨rfl, node, found, rfl⟩
    · rfl
  | mkdtemp directory =>
    dsimp only [act]
    split
    · next n found => exact ⟨unused_none found, rfl⟩
    · rfl
  | create n =>
    dsimp only [act]
    split
    · next owner i found free => exact ⟨⟨owner, none⟩, found, rfl, unused_none free, rfl⟩
    · rfl
  | writeFile i data =>
    dsimp only [act]
    split
    · next node found => exact ⟨node, found, rfl⟩
    · exact .inl rfl
  | link n path =>
    dsimp only [act]
    split
    · next owner i free found => exact ⟨free, ⟨owner, some i⟩, i, found, rfl, rfl⟩
    · rfl

/-- The next operation of a call. -/
def turn (uid : ι → Nat) (pool : Calls ι) (c : ι) : Calls ι :=
  match pool.threads c with
  | .done _ => pool
  | .perform op next => ⟨(act uid c pool.state op).2, Function.update pool.threads c (next (act uid c pool.state op).1)⟩

theorem run_turns (uid : ι → Nat) (pool : Calls ι) (order : List ι) : Run (effect uid 0o600) pool (order.foldl (turn uid) pool) := by
  induction order generalizing pool with
  | nil => exact .refl
  | cons c order ih =>
    refine Relation.ReflTransGen.trans ?_ (ih (turn uid pool c))
    unfold turn
    split
    · exact .refl
    · next op next running => exact .single (.perform c running (effect_act uid c pool.state op))

/-- What a call has returned. -/
def returned : Script JsString → Option JsString
  | .done (.ok v) => some v
  | _ => none

theorem done_of_returned {t : Script JsString} {v : JsString} (h : returned t = some v) : t = .done (.ok v) := by
  unfold returned at h
  split at h
  · rw [Option.some.inj h]
  · cases h

end Agreement

/-- Two calls that begin at once without a store. -/
def twoCalls : Calls Bool :=
  ⟨⟨fun _ => none, fun _ => none, fun _ => none, fun _ => false⟩,
    fun c => ensureCredential (fun value => [value]) 0 (List.replicate 32 (if c then 0xbb else 0xaa)) [0x63]⟩

def taking : List Bool := (List.range 64).map fun n => n % 2 = 1

/-- They take turns, and both return what the first of them has written. -/
theorem twoCalls_agree : ∃ pool, Run (effect (fun _ : Bool => 0) 0o600) twoCalls pool ∧
    ∀ c, pool.threads c = .done (.ok (List.replicate 64 0x61)) := by
  have run := run_turns (fun _ : Bool => 0) twoCalls taking
  have begins : Begins (fun value => [value]) (fun _ => 0) (fun c => List.replicate 32 (if c then 0xbb else 0xaa))
      (fun _ => .ensure [0x63]) twoCalls := by
    refine ⟨fun path i linked => ?_, fun n dir found => ?_, fun c => rfl⟩
    · cases linked
    · cases found
  obtain ⟨-, -, -, agree, -⟩ := credentials_agree _ _ 0o600 _ _ begins .refl run
  have first : returned ((taking.foldl (turn fun _ => 0) twoCalls).threads false) = some (List.replicate 64 0x61) := by decide +kernel
  have second : (returned ((taking.foldl (turn fun _ => 0) twoCalls).threads true)).isSome = true := by decide +kernel
  obtain ⟨w, second⟩ := Option.isSome_iff_exists.1 second
  generalize taking.foldl (turn fun _ => 0) twoCalls = pool at run first second agree
  refine ⟨pool, run, fun c => ?_⟩
  cases c with
  | false => exact done_of_returned first
  | true =>
    rw [done_of_returned second, agree false true _ w (done_of_returned first) (done_of_returned second) rfl]

end RosBridge.Scripts
