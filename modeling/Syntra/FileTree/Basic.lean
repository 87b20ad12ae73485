import Syntra.Tables.Association

/-!
# File trees

A file system as a program sees it: what stands at each place, which is named by the way to it from
the root. A path leads through directories and symbolic links to a place; its last name is not
followed. The operations fail where POSIX says so.
-/

namespace FileTree

open Tables

/-- What stands at a place. Files and directories have an identity of their own, and a link leads to
a place. -/
inductive Node (Id Name : Type) where
  | file (id : Id)
  | dir (id : Id)
  | link (target : List Name)
  | other
  deriving DecidableEq, Repr

/-- Why a path leads nowhere or an operation fails. -/
inductive Trouble where
  | notFound
  | notADirectory
  | isADirectory
  | alreadyExists
  | notEmpty
  deriving DecidableEq, Repr

abbrev Tree (Id Name : Type) := Table (List Name) (Node Id Name)

namespace Tree

variable {Id Name : Type} [DecidableEq Name]

def follow (tree : Tree Id Name) (place : List Name) : List Name → Except Trouble (List Name)
  | [] => .ok place
  | name :: names =>
    match tree.lookup (place ++ [name]) with
    | none => .error .notFound
    | some (.dir _) => follow tree (place ++ [name]) names
    | some (.link target) =>
      match tree.lookup target with
      | none => .error .notFound
      | some (.dir _) => follow tree target names
      | some _ => .error .notADirectory
    | some (.file _) | some .other => .error .notADirectory

/-- The place that a path leads to, whatever stands there. -/
def locate (tree : Tree Id Name) (path : List Name) : Except Trouble (List Name) :=
  match path.getLast? with
  | none => .ok []
  | some name => (tree.follow [] path.dropLast).map (· ++ [name])

/-- `lstat`. -/
def stat (tree : Tree Id Name) (path : List Name) : Except Trouble (Node Id Name) :=
  match tree.locate path with
  | .error trouble => .error trouble
  | .ok place =>
    match tree.lookup place with
    | none => .error .notFound
    | some node => .ok node

/-- `mkdir`, and `open` with `O_CREAT` and `O_EXCL`: the place of what is new, and the tree. -/
def enter (tree : Tree Id Name) (path : List Name) (node : Node Id Name) :
    Except Trouble (List Name × Tree Id Name) :=
  match tree.locate path with
  | .error trouble => .error trouble
  | .ok place => if place ∈ tree then .error .alreadyExists else .ok (place, tree.insert place node)

/-- `unlink`. -/
def unlink (tree : Tree Id Name) (path : List Name) : Except Trouble (Tree Id Name) :=
  match tree.locate path with
  | .error trouble => .error trouble
  | .ok place =>
    match tree.lookup place with
    | none => .error .notFound
    | some (.dir _) => .error .isADirectory
    | some _ => .ok (tree.erase place)

/-- Something stands right below the place. -/
def Occupied (tree : Tree Id Name) (place : List Name) : Prop :=
  ∃ key ∈ tree.keys, key ≠ [] ∧ key.dropLast = place

instance (tree : Tree Id Name) (place : List Name) : Decidable (tree.Occupied place) :=
  inferInstanceAs (Decidable (∃ key ∈ tree.keys, key ≠ [] ∧ key.dropLast = place))

/-- `rmdir`. -/
def removeDir (tree : Tree Id Name) (path : List Name) : Except Trouble (Tree Id Name) :=
  match tree.locate path with
  | .error trouble => .error trouble
  | .ok place =>
    match tree.lookup place with
    | none => .error .notFound
    | some (.dir _) =>
      if tree.Occupied place then .error .notEmpty else .ok (tree.erase place)
    | some _ => .error .notADirectory

variable {tree later last : Tree Id Name} {path place : List Name} {node : Node Id Name}

/-- What stands in the one tree stands in the other one too. -/
def Within (tree later : Tree Id Name) : Prop :=
  ∀ place node, tree.lookup place = some node → later.lookup place = some node

theorem Within.refl (tree : Tree Id Name) : tree.Within tree :=
  fun _ _ found => found

theorem Within.trans (first : tree.Within later) (second : later.Within last) : tree.Within last :=
  fun place node found => second place node (first place node found)

theorem erase_within (tree : Tree Id Name) (place : List Name) :
    Within (tree.erase place) tree := by
  intro _ _ there
  rw [lookup_erase] at there
  split at there
  · cases there
  · exact there

theorem Within.follow (within : tree.Within later) {start target names : List Name}
    (leads : tree.follow start names = .ok target) : later.follow start names = .ok target := by
  induction names generalizing start with
  | nil => exact leads
  | cons name _ ih =>
    rw [Tree.follow] at leads ⊢
    cases found : tree.lookup (start ++ [name]) with
    | none =>
      rw [found] at leads
      cases leads
    | some node =>
      rw [found] at leads
      rw [within _ node found]
      cases node with
      | file | other => cases leads
      | dir => exact ih leads
      | link away =>
        cases there : tree.lookup away with
        | none =>
          simp only [there] at leads
          cases leads
        | some node =>
          simp only [there] at leads
          simp only [within _ node there]
          cases node with
          | dir => exact ih leads
          | file | link | other => cases leads

theorem Within.locate (within : tree.Within later) (leads : tree.locate path = .ok place) :
    later.locate path = .ok place := by
  unfold Tree.locate at leads ⊢
  split
  · rename_i root
    rw [root] at leads
    exact leads
  · rename_i name ends
    rw [ends] at leads
    cases followed : tree.follow [] path.dropLast with
    | error =>
      simp only [followed] at leads
      cases leads
    | ok =>
      simp only [followed] at leads
      simp only [within.follow followed]
      exact leads

theorem stat_eq_ok : tree.stat path = .ok node ↔
    ∃ place, tree.locate path = .ok place ∧ tree.lookup place = some node := by
  unfold stat
  constructor
  · intro there
    split at there
    · cases there
    · rename_i place leads
      split at there
      · cases there
      · rename_i found stands
        cases there
        exact ⟨place, leads, stands⟩
  · rintro ⟨_, leads, stands⟩
    simp [leads, stands]

theorem Within.stat (within : tree.Within later) (stands : tree.stat path = .ok node) :
    later.stat path = .ok node := by
  rw [stat_eq_ok] at stands ⊢
  rcases stands with ⟨place, leads, found⟩
  exact ⟨place, within.locate leads, within place node found⟩

theorem stat_erase_ne (leads : tree.locate path = .ok place) (node : Node Id Name) :
    Tree.stat (tree.erase place) path ≠ .ok node := by
  intro stands
  rcases stat_eq_ok.mp stands with ⟨_, there, remains⟩
  have same := (erase_within tree place).locate there
  rw [leads] at same
  cases same
  rw [AList.lookup_erase] at remains
  cases remains

theorem unlink_eq_ok : tree.unlink path = .ok later ↔
    ∃ place node, tree.locate path = .ok place ∧ tree.lookup place = some node ∧
      (∀ id, node ≠ .dir id) ∧ later = tree.erase place := by
  unfold unlink
  constructor
  · intro removed
    split at removed
    · cases removed
    · rename_i place leads
      split at removed
      · cases removed
      · cases removed
      · rename_i node notDir found
        cases removed
        exact ⟨place, node, leads, found, notDir, rfl⟩
  · rintro ⟨_, node, leads, found, notDir, rfl⟩
    cases node with
    | dir id => exact absurd rfl (notDir id)
    | file | link | other => simp [leads, found]

theorem removeDir_eq_ok : tree.removeDir path = .ok later ↔
    ∃ place id, tree.locate path = .ok place ∧ tree.lookup place = some (.dir id) ∧
      ¬tree.Occupied place ∧ later = tree.erase place := by
  unfold removeDir
  constructor
  · intro removed
    split at removed
    · cases removed
    · rename_i place leads
      split at removed
      · cases removed
      · rename_i id found
        split at removed
        · cases removed
        · rename_i empty
          cases removed
          exact ⟨place, id, leads, found, empty, rfl⟩
      · cases removed
  · rintro ⟨_, _, leads, found, empty, rfl⟩
    simp [leads, found, empty]

end Tree

end FileTree
