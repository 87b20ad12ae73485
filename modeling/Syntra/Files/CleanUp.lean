import Syntra.Files.Custody

/-!
# The end of a transfer

A transfer that is dropped before it is finished removes the files it created, where they still are,
and the directories it created, the deepest ones first, that are empty by then.
-/

namespace Syntra.Files

open FileTree Proto Tables FileTree.Tree List

/-- The operating system lets the file be looked at and removed. -/
def Answers.LetsGo (answers : Answers) (path : PathBuf) : Prop :=
  answers.symlinkMetadata path = none ∧ answers.identifyPath path = none ∧
    answers.removeFile path = none

namespace Reception

variable {answers : Answers} {sha256 : Bytes → Digest} {reception : Reception}
  {manifest : Table UInt64 ClipboardManifestEntry} {disk later : Disk}

theorem removeOwned_cases (answers : Answers) (disk : Disk) (path : PathBuf)
    (identity : FileIdentity) :
    removeOwned answers disk path identity = disk ∨
      ∃ place, disk.locate path.components = .ok place ∧
        disk.lookup place = some (.file identity) ∧
        removeOwned answers disk path identity = disk.erase place := by
  unfold removeOwned
  split
  · rename_i own
    simp only [owns, Bool.and_eq_true, decide_eq_true_eq] at own
    cases removed : disk.unlink path.components with
    | error => exact .inl rfl
    | ok =>
      rcases unlink_eq_ok.mp removed with ⟨place, _, leads, found, _, rfl⟩
      refine .inr ⟨place, leads, ?_, rfl⟩
      have stands := stat_eq_ok.mpr ⟨place, leads, found⟩
      rw [stands] at own
      cases own.1.2
      exact found
  · exact .inl rfl

theorem removeCreated_cases (answers : Answers) (disk : Disk) (path : PathBuf) :
    removeCreated answers disk path = disk ∨
      ∃ place identity, disk.locate path.components = .ok place ∧
        disk.lookup place = some (.dir identity) ∧
        removeCreated answers disk path = disk.erase place := by
  unfold removeCreated
  split
  · cases removed : disk.removeDir path.components with
    | error => exact .inl rfl
    | ok =>
      rcases removeDir_eq_ok.mp removed with ⟨place, identity, leads, found, _, rfl⟩
      exact .inr ⟨place, identity, leads, found, rfl⟩
  · exact .inl rfl

theorem removeOwned_within (answers : Answers) (disk : Disk) (path : PathBuf)
    (identity : FileIdentity) : Within (removeOwned answers disk path identity) disk := by
  rcases removeOwned_cases answers disk path identity with same | ⟨place, _, _, erased⟩
  · rw [same]
    exact .refl disk
  · rw [erased]
    exact erase_within disk place

/-- The transfer has noted that it created this, and where. -/
def Recorded (reception : Reception) (place : List Component)
    (node : Node FileIdentity Component) : Prop :=
  (∃ path identity, reception.transfer.createdFiles.lookup path = some identity ∧
      reception.disk.locate path.components = .ok place ∧ node = .file identity) ∨
    ∃ path ∈ reception.transfer.createdDirs, ∃ identity,
      reception.disk.locate path.components = .ok place ∧ node = .dir identity

/-- Nothing is there that was not there, and only what is recorded went. -/
structure Spares (reception : Reception) (later : Disk) : Prop where
  within : Tree.Within later reception.disk
  removed : ∀ place node, reception.disk.lookup place = some node → later.lookup place = none →
    reception.Recorded place node

variable {place : List Component} {node : Node FileIdentity Component} {transfer : IncomingTransfer}

theorem Spares.erase (spares : reception.Spares later) (found : later.lookup place = some node)
    (recorded : reception.Recorded place node) : reception.Spares (later.erase place) where
  within := (erase_within later place).trans spares.within
  removed := by
    intro other held before gone
    rw [lookup_erase] at gone
    split at gone
    · rename_i same
      subst same
      rw [spares.within other node found] at before
      cases before
      exact recorded
    · exact spares.removed other held before gone

variable {identity : FileIdentity} {path : PathBuf} {paths : List PathBuf}

variable (spares : reception.Spares later)
include spares

theorem Spares.removeOwned (created : reception.transfer.createdFiles.lookup path = some identity) :
    reception.Spares (removeOwned answers later path identity) := by
  rcases removeOwned_cases answers later path identity with same | ⟨_, leads, found, erased⟩
  · rw [same]
    exact spares
  · rw [erased]
    exact spares.erase found (.inl ⟨path, identity, created, spares.within.locate leads, rfl⟩)

theorem Spares.removeCreated (created : path ∈ reception.transfer.createdDirs) :
    reception.Spares (removeCreated answers later path) := by
  rcases removeCreated_cases answers later path with same | ⟨_, identity, leads, found, erased⟩
  · rw [same]
    exact spares
  · rw [erased]
    exact spares.erase found (.inr ⟨path, created, identity, spares.within.locate leads, rfl⟩)

def removeFile (answers : Answers) (transfer : IncomingTransfer) (disk : Disk) (path : PathBuf) :
    Disk :=
  (transfer.createdFiles.lookup path).elim disk (Reception.removeOwned answers disk path)

theorem Spares.removeFile (path : PathBuf) :
    reception.Spares (removeFile answers reception.transfer later path) := by
  unfold Reception.removeFile
  cases created : reception.transfer.createdFiles.lookup path with
  | none => exact spares
  | some => exact spares.removeOwned created

theorem Spares.removeFiles (paths : List PathBuf) :
    reception.Spares (paths.foldl (Reception.removeFile answers reception.transfer) later) := by
  induction paths generalizing later with
  | nil => exact spares
  | cons path _ ih => exact ih (spares.removeFile path)

theorem Spares.removeDirs (created : ∀ path ∈ paths, path ∈ reception.transfer.createdDirs) :
    reception.Spares (paths.foldl (Reception.removeCreated answers) later) := by
  induction paths generalizing later with
  | nil => exact spares
  | cons path _ ih =>
    exact ih (spares.removeCreated (created path (.head _))) fun other member =>
      created other (.tail _ member)

omit spares

theorem removeOwned_gone (lets : answers.LetsGo path) (identity : FileIdentity) :
    (removeOwned answers disk path identity).stat path.components ≠ .ok (.file identity) := by
  rcases lets with ⟨looked, identified, unlinked⟩
  intro stands
  have before := (removeOwned_within answers disk path identity).stat stands
  rcases stat_eq_ok.mp before with ⟨place, leads, found⟩
  have removed : disk.unlink path.components = .ok (disk.erase place) :=
    unlink_eq_ok.mpr ⟨place, _, leads, found, by simp, rfl⟩
  have gone : removeOwned answers disk path identity = disk.erase place := by
    unfold removeOwned owns
    rw [if_pos]
    · simp [removed, Except.toOption]
    · simp [looked, identified, unlinked, before, Except.toOption]
  rw [gone] at stands
  exact stat_erase_ne leads _ stands

theorem removeFiles_within (transfer : IncomingTransfer) (disk : Disk) (paths : List PathBuf) :
    Within (paths.foldl (removeFile answers transfer) disk) disk := by
  induction paths generalizing disk with
  | nil => exact .refl disk
  | cons path _ ih =>
    refine (ih _).trans ?_
    unfold removeFile
    cases transfer.createdFiles.lookup path with
    | none => exact .refl disk
    | some identity => exact removeOwned_within answers disk path identity

theorem removeFiles_gone (lets : answers.LetsGo path)
    (created : transfer.createdFiles.lookup path = some identity) (member : path ∈ paths) :
    (paths.foldl (removeFile answers transfer) disk).stat path.components ≠
      .ok (.file identity) := by
  induction paths generalizing disk with
  | nil => cases member
  | cons _ paths ih =>
    rcases mem_cons.mp member with rfl | later
    · intro stands
      have before := (removeFiles_within transfer _ paths).stat stands
      simp only [removeFile, created, Option.elim_some] at before
      exact removeOwned_gone lets identity before
    · exact ih later

theorem removeDirs_within (paths : List PathBuf) :
    Within (paths.foldl (removeCreated answers) disk) disk := by
  induction paths generalizing disk with
  | nil => exact .refl disk
  | cons path _ ih =>
    refine ih.trans ?_
    rcases removeCreated_cases answers disk path with same | ⟨place, _, _, _, erased⟩
    · rw [same]
      exact .refl disk
    · rw [erased]
      exact erase_within disk place

/-- Where a directory is found, no link led to it. -/
def Straight (disk : Disk) (paths : List PathBuf) : Prop :=
  ∀ path ∈ paths, ∀ identity, disk.stat path.components = .ok (.dir identity) →
    disk.locate path.components = .ok path.components

theorem Straight.within (straight : Straight disk paths) (within : Within later disk) :
    Straight later paths := by
  intro path member identity stands
  have before := straight path member identity (within.stat stands)
  rcases stat_eq_ok.mp stands with ⟨_, leads, _⟩
  have same := within.locate leads
  rw [before] at same
  cases same
  exact leads

theorem removeDirs_keeps (straight : Straight disk paths)
    (deeper : ∀ path ∈ paths, path.components.length < place.length) :
    (paths.foldl (removeCreated answers) disk).lookup place = disk.lookup place := by
  induction paths generalizing disk with
  | nil => rfl
  | cons path paths ih =>
    have within : Within (removeCreated answers disk path) disk :=
      removeDirs_within [path]
    rw [foldl_cons, ih]
    · rcases removeCreated_cases answers disk path with
        same | ⟨other, identity, leads, found, erased⟩
      · rw [same]
      · have here := straight path (.head _) identity (stat_eq_ok.mpr ⟨other, leads, found⟩)
        rw [leads] at here
        cases here
        rw [erased, lookup_erase, if_neg]
        rintro rfl
        exact lt_irrefl _ (deeper path (.head _))
    · have rest : Straight disk paths := fun other member =>
        straight other (.tail _ member)
      exact rest.within within
    · exact fun other member => deeper other (.tail _ member)

theorem removeCreated_occupied (lets : answers.removeDir path = none)
    (leads : disk.locate path.components = .ok path.components)
    (stands : (removeCreated answers disk path).stat path.components = .ok (.dir identity)) :
    disk.Occupied path.components := by
  by_contra empty
  have within : Within (removeCreated answers disk path) disk := removeDirs_within [path]
  rcases stat_eq_ok.mp (within.stat stands) with ⟨_, here, found⟩
  rw [leads] at here
  cases here
  have removed := removeDir_eq_ok.mpr ⟨path.components, identity, leads, found, empty, rfl⟩
  have gone : removeCreated answers disk path = disk.erase path.components := by
    simp [removeCreated, lets, removed, Except.toOption]
  rw [gone] at stands
  exact stat_erase_ne leads _ stands

theorem removeDirs_occupied (straight : Straight disk paths)
    (sorted : paths.Pairwise fun path other => other.components.length ≤ path.components.length)
    (member : path ∈ paths) (lets : answers.removeDir path = none)
    (stands : (paths.foldl (removeCreated answers) disk).stat path.components = .ok (.dir identity))
    :
    (paths.foldl (removeCreated answers) disk).Occupied path.components := by
  induction paths generalizing disk with
  | nil => cases member
  | cons first paths ih =>
    rcases pairwise_cons.mp sorted with ⟨shallower, sorted⟩
    have rest : Straight (removeCreated answers disk first) paths := by
      have tail : Straight disk paths := fun other later =>
        straight other (.tail _ later)
      exact tail.within (removeDirs_within [first])
    rcases mem_cons.mp member with rfl | later
    · have here := (removeDirs_within paths).stat stands
      have whole : Within (removeCreated answers disk path) disk := removeDirs_within [path]
      have leads := straight path (.head _) identity (whole.stat here)
      -- The directory was refused, so the tree is what it was before its turn.
      have same : removeCreated answers disk path = disk := by
        rcases removeCreated_cases answers disk path with
          same | ⟨place, other, there, found, erased⟩
        · exact same
        · rw [leads] at there
          cases there
          rw [erased] at here
          exact absurd here (stat_erase_ne leads _)
      rcases removeCreated_occupied lets leads here with ⟨key, known, proper, parent⟩
      refine ⟨key, ?_, proper, parent⟩
      have deeper : path.components.length < key.length := by
        rw [← parent, length_dropLast]
        have := length_pos_of_ne_nil proper
        omega
      rw [foldl_cons, ← AList.mem_keys, ← AList.lookup_isSome, removeDirs_keeps rest, same,
        AList.lookup_isSome, AList.mem_keys]
      · exact known
      · exact fun other later => (shallower other later).trans_lt deeper
    · exact ih rest sorted later stands

/-- What stands where the transfer created a directory is still that directory, and no link leads
to it. -/
def Intact (reception : Reception) : Prop :=
  ∀ path ∈ reception.transfer.createdDirs, ∀ identity,
    reception.disk.stat path.components = .ok (.dir identity) →
      (path, .dir identity) ∈ reception.made ∧
        reception.disk.locate path.components = .ok path.components

/-- The created directories, the deepest ones first. -/
def sortedDirs (answers : Answers) (transfer : IncomingTransfer) : List PathBuf :=
  (answers.order.arrange transfer.createdDirs).mergeSort
    (fun left right => right.components.length ≤ left.components.length)

theorem mem_sortedDirs : path ∈ sortedDirs answers transfer ↔ path ∈ transfer.createdDirs := by
  rw [sortedDirs, mem_mergeSort, answers.order.mem_arrange]

theorem sortedDirs_pairwise (transfer : IncomingTransfer) :
    (sortedDirs answers transfer).Pairwise fun path other =>
      other.components.length ≤ path.components.length := by
  have sorted : (sortedDirs answers transfer).Pairwise fun path other =>
      decide (other.components.length ≤ path.components.length) := by
    apply pairwise_mergeSort
    · intro path _ _ first second
      simp only [decide_eq_true_eq] at first second ⊢
      exact second.trans first
    · intro _ _
      simp only [Bool.or_eq_true, decide_eq_true_eq]
      exact Nat.le_total _ _
  exact sorted.imp fun ordered => by simpa using ordered

theorem spares_cleanUp : reception.Spares (cleanUp answers reception.transfer reception.disk) := by
  apply Spares.removeDirs
  · apply Spares.removeFiles
    exact ⟨.refl _, fun _ _ found gone => by rw [found] at gone; cases gone⟩
  · exact fun _ member => mem_sortedDirs.mp member

theorem cleanUp_file_gone (lets : answers.LetsGo path)
    (created : reception.transfer.createdFiles.lookup path = some identity) :
    (cleanUp answers reception.transfer reception.disk).stat path.components ≠
      .ok (.file identity) := by
  intro stands
  refine removeFiles_gone lets created ?_ ((removeDirs_within _).stat stands)
  rw [answers.order.mem_arrange, ← AList.mem_keys, ← AList.lookup_isSome, created]
  rfl

theorem cleanUp_dir_occupied (intact : reception.Intact)
    (created : path ∈ reception.transfer.createdDirs) (lets : answers.removeDir path = none)
    (stands : (cleanUp answers reception.transfer reception.disk).stat path.components =
      .ok (.dir identity)) :
    (cleanUp answers reception.transfer reception.disk).Occupied path.components := by
  refine removeDirs_occupied ?_ (sortedDirs_pairwise _) (mem_sortedDirs.mpr created) lets stands
  have straight : Straight reception.disk (sortedDirs answers reception.transfer) :=
    fun path member identity there => (intact path (mem_sortedDirs.mp member) identity there).2
  exact straight.within (removeFiles_within _ _ _)

/-- What the end of an unfinished transfer does to the file system: the files it created are gone
from where it created them. As long as the directories it created are intact, nothing else goes than
what it created, and those of them that are left are not empty. -/
structure Clears (answers : Answers) (reception : Reception) (later : Disk) : Prop
    extends reception.Spares later where
  files : ∀ path identity, reception.transfer.createdFiles.lookup path = some identity →
    answers.LetsGo path → later.stat path.components ≠ .ok (.file identity)
  own : reception.Intact → ∀ place node, reception.disk.lookup place = some node →
    later.lookup place = none →
      ∃ path, (path, node) ∈ reception.made ∧ reception.disk.locate path.components = .ok place
  dirs : reception.Intact → ∀ path ∈ reception.transfer.createdDirs,
    answers.removeDir path = none → ∀ identity,
      later.stat path.components = .ok (.dir identity) → later.Occupied path.components

theorem Sound.own (sound : Sound manifest reception) (intact : reception.Intact)
    (found : reception.disk.lookup place = some node) (recorded : reception.Recorded place node) :
    ∃ path, (path, node) ∈ reception.made ∧ reception.disk.locate path.components = .ok place := by
  rcases recorded with ⟨path, identity, created, leads, rfl⟩ | ⟨path, created, identity, leads, rfl⟩
  · exact ⟨path, sound.created path identity created, leads⟩
  · have stands := stat_eq_ok.mpr ⟨place, leads, found⟩
    exact ⟨path, (intact path created identity stands).1, leads⟩

theorem Sound.clears (sound : Sound manifest reception)
    (unfinished : reception.transfer.finished = false) :
    Clears answers reception (drop answers reception) := by
  have ended : drop answers reception = cleanUp answers reception.transfer reception.disk := by
    simp [drop, unfinished]
  rw [ended]
  refine ⟨spares_cleanUp, ?_, ?_, ?_⟩
  · exact fun path identity created lets => cleanUp_file_gone lets created
  · intro intact place node found gone
    exact sound.own intact found (spares_cleanUp.removed place node found gone)
  · intro intact _ created lets _ stands
    exact cleanUp_dir_occupied intact created lets stands

end Reception

end Syntra.Files
