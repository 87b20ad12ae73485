import Syntra.Clipboard.Operations
import Syntra.Files.Listing

/-!
# The mounted view of a manifest

`build_fs` of the FUSE plugin makes nodes of the entries of a manifest and indexes them twice, and
`lookup` and `readdir` answer from the nodes and the one index. Every offer that was built from
paths is accepted, and the view is the tree of the entries unless one of them stands below a file.
-/

namespace Syntra.Fuse

open ByteFormat List
open Clipboard (EntryKind RemoteEntry)
open Clipboard.TransferState (remoteEntry)
open Files
open Proto (ClipboardManifestEntry)
open Tables

/-- `ROOT`. -/
def root : ℕ := 1

/-- A node of the mounted file system. -/
structure Node where
  ino : ℕ
  parent : ℕ
  name : Bytes
  kind : EntryKind
  size : UInt64
  children : List ℕ
  entryId : UInt64
  deriving DecidableEq

/-- The nodes by number, and by parent and name. -/
structure Fs where
  nodes : Table ℕ Node
  children : Table (ℕ × Bytes) ℕ

/-- What `build_fs` has made of the entries so far. -/
structure Build extends Fs where
  paths : Table Bytes ℕ
  roots : List String

def Build.start : Build where
  nodes := AList.insert root ⟨root, root, [], .directory, 0, [], 0⟩ ∅
  children := ∅
  paths := AList.insert [] root ∅
  roots := []

/-- A part of a path that can be mounted. -/
structure SafeComponent (value : Bytes) : Prop extends PathBuf.IsName value where
  noBackslash : 0x5c ∉ value
  noNul : 0 ∉ value

instance (value : Bytes) : Decidable (SafeComponent value) :=
  decidable_of_iff
    ((value ≠ [] ∧ value ≠ utf8 "." ∧ value ≠ utf8 ".." ∧ 0x2f ∉ value) ∧ 0x5c ∉ value ∧ 0 ∉ value)
    ⟨fun ⟨⟨nonempty, notDot, notDots, unslashed⟩, noBackslash, noNul⟩ =>
      ⟨⟨nonempty, notDot, notDots, unslashed⟩, noBackslash, noNul⟩,
      fun ⟨⟨nonempty, notDot, notDots, unslashed⟩, noBackslash, noNul⟩ =>
      ⟨⟨nonempty, notDot, notDots, unslashed⟩, noBackslash, noNul⟩⟩

def partsOf (path : String) : List Bytes := (utf8 path).splitOn 0x2f

def joined (parts : List Bytes) : Bytes := [0x2f].intercalate parts

def Build.insert (build : Build) (entry : RemoteEntry) (ino parent : ℕ) (name : Bytes) : Build where
  nodes := (modify build.nodes parent fun node =>
    { node with children := node.children ++ [ino] }).insert ino
      ⟨ino, parent, name, entry.kind, entry.size.getD 0, [], entry.entryId⟩
  children := build.children.insert (parent, name) ino
  paths := build.paths.insert (utf8 entry.path) ino
  roots := if parent = root then build.roots ++ [entry.path] else build.roots

/-- One turn of the loop of `build_fs`. -/
def addEntry (build : Build) (item : RemoteEntry × ℕ) : Except String Build := do
  let (entry, ino) := item
  if entry.kind = .other then
    throw "unsupported entry type"
  let parts := partsOf entry.path
  if parts = [] ∨ ¬∀ part ∈ parts, SafeComponent part then
    throw "unsafe path"
  let parent ← okOr (build.paths.lookup (joined parts.dropLast))
    "manifest parent must precede child"
  let name := parts.getLastD []
  if (parent, name) ∈ build.children then
    throw "duplicate path"
  pure (build.insert entry ino parent name)

/-- The entries and their inode numbers; a manifest has fewer entries than there are numbers. -/
def numbered (entries : List RemoteEntry) : List (RemoteEntry × ℕ) := entries.zipIdx (root + 1)

def buildFs (entries : List RemoteEntry) : Except String (Fs × List String) := do
  let build ← (numbered entries).foldlM addEntry .start
  pure (build.toFs, build.roots)

namespace Fs

variable (fs : Fs)

def lookup (parent : ℕ) (name : Bytes) : Option Node :=
  (fs.children.lookup (parent, name)).bind fs.nodes.lookup

/-- The errors of the mounted file system. -/
inductive Errno where
  | noEntry
  | notDirectory

/-- What is put into the reply from an offset on, until that is full: inode number, whether it is a
directory, and name. -/
def readdir (ino : ℕ) (offset : ℤ) : Except Errno (List (ℕ × Bool × Bytes)) :=
  match fs.nodes.lookup ino with
  | none => .error .noEntry
  | some node =>
    if node.kind ≠ .directory then .error .notDirectory
    else
      .ok (([(node.ino, true, utf8 "."), (node.parent, true, utf8 "..")] ++
        (node.children.filterMap fs.nodes.lookup).map fun child : Node =>
          (child.ino, decide (child.kind = .directory), child.name)).drop offset.toNat)

/-- Where a client gets that looks up one name after another. -/
def walk (names : List Bytes) : Option ℕ :=
  names.foldlM (fun ino name => (fs.lookup ino name).map (·.ino)) root

end Fs

/-- The node of an inode number is that of an entry of the list, or the root. -/
def Stands (done : List (RemoteEntry × ℕ)) (ino : ℕ) (parts : List Bytes) : Prop :=
  ino = root ∧ parts = [] ∨ ∃ entry, (entry, ino) ∈ done ∧ partsOf entry.path = parts

/-- The node is that of an entry, or the root. -/
def Shows (done : List (RemoteEntry × ℕ)) (ino : ℕ) (node : Node) : Prop :=
  node.ino = ino ∧ (ino = root ∧ node.kind = .directory ∨ ∃ entry way, (entry, ino) ∈ done ∧
    node.kind = entry.kind ∧ node.entryId = entry.entryId ∧ node.size = entry.size.getD 0 ∧
    Stands done node.parent way ∧ partsOf entry.path = way ++ [node.name])

/-- The nodes and the indices that have been made of a list of numbered entries. -/
structure Build.Made (build : Build) (done : List (RemoteEntry × ℕ)) : Prop where
  increasing : (root :: done.map (·.2)).Pairwise (· < ·)
  safe : ∀ item ∈ done, ∀ part ∈ partsOf item.1.path, SafeComponent part
  above : ∀ ino way name, Stands done ino (way ++ [name]) →
    ∃ parent, Stands done parent way ∧ parent < ino
  apart : ∀ ino other way, Stands done ino way → Stands done other way → ino = other
  paths : ∀ path ino, build.paths.lookup path = some ino ↔
    ∃ way, Stands done ino way ∧ joined way = path
  children : ∀ parent name ino, build.children.lookup (parent, name) = some ino ↔
    ∃ way, Stands done parent way ∧ Stands done ino (way ++ [name])
  standing : ∀ ino way, Stands done ino way → ino ∈ build.nodes
  nodes : ∀ ino node, build.nodes.lookup ino = some node → Shows done ino node
  listed : ∀ ino node way child name, build.nodes.lookup ino = some node → Stands done ino way →
    Stands done child (way ++ [name]) → child ∈ node.children

theorem joined_partsOf (path : String) : joined (partsOf path) = utf8 path :=
  intercalate_splitOn 0x2f

theorem joined_inj {parts others : List Bytes} (safe : ∀ part ∈ parts, SafeComponent part)
    (otherSafe : ∀ part ∈ others, SafeComponent part) (same : joined parts = joined others) :
    parts = others := by
  have split {parts : List Bytes} (safe : ∀ part ∈ parts, SafeComponent part) (some : parts ≠ []) :
      (joined parts).splitOn 0x2f = parts :=
    splitOn_intercalate 0x2f (fun part member => (safe part member).unslashed) some
  have empty {parts : List Bytes} (safe : ∀ part ∈ parts, SafeComponent part)
      (same : joined parts = joined []) : parts = [] := by
    by_contra some
    have whole := split safe some
    rw [same] at whole
    exact (safe [] (whole ▸ mem_singleton_self [])).nonempty rfl
  by_cases none : parts = []
  · subst none
    exact (empty otherSafe same.symm).symm
  · by_cases noOthers : others = []
    · subst noOthers
      exact empty safe same
    · rw [← split safe none, same, split otherSafe noOthers]

theorem stands_append {done : List (RemoteEntry × ℕ)} {entry : RemoteEntry} {ino other : ℕ}
    {way : List Bytes} : Stands (done ++ [(entry, ino)]) other way ↔
      Stands done other way ∨ other = ino ∧ way = partsOf entry.path := by
  simp only [Stands, mem_append, mem_singleton, Prod.mk.injEq, or_and_right, exists_or, or_assoc]
  refine or_congr_right (or_congr_right ⟨?_, ?_⟩)
  · rintro ⟨_, ⟨rfl, rfl⟩, rfl⟩
    exact ⟨rfl, rfl⟩
  · rintro ⟨rfl, rfl⟩
    exact ⟨entry, ⟨rfl, rfl⟩, rfl⟩

theorem stands_nil {ino : ℕ} {way : List Bytes} : Stands [] ino way ↔ ino = root ∧ way = [] := by
  simp [Stands]

theorem made_start : Build.start.Made [] where
  increasing := pairwise_singleton _ _
  safe _ member := absurd member not_mem_nil
  above := by simp [stands_nil]
  apart _ _ _ one other := (stands_nil.mp one).1.trans (stands_nil.mp other).1.symm
  paths path ino := by
    simp only [Build.start, lookup_insert, AList.lookup_empty, stands_nil]
    split
    · rename_i top
      exact ⟨fun same => ⟨[], ⟨(Option.some.inj same).symm, rfl⟩, top.symm⟩,
        fun ⟨_, ⟨same, _⟩, _⟩ => congrArg some same.symm⟩
    · rename_i inside
      refine iff_of_false (Option.some_ne_none ino).symm ?_
      rintro ⟨_, ⟨-, rfl⟩, rfl⟩
      exact inside rfl
  children := by simp [Build.start, stands_nil]
  standing ino way stands := by
    rw [(stands_nil.mp stands).1]
    exact (AList.mem_insert _).mpr (.inl rfl)
  nodes ino node found := by
    simp only [Build.start, lookup_insert, AList.lookup_empty] at found
    split at found
    · rename_i top
      cases found
      exact ⟨top.symm, .inl ⟨top, rfl⟩⟩
    · cases found
  listed := by simp [stands_nil]

namespace Build.Made

variable {build : Build} {done : List (RemoteEntry × ℕ)} {entry : RemoteEntry}
  {ino parent : ℕ} {way other : List Bytes} {name : Bytes}

theorem mem_of_stands (stands : Stands done ino way) : ino ∈ root :: done.map (·.2) := by
  rcases stands with ⟨rfl, -⟩ | ⟨_, member, -⟩
  · exact .head _
  · exact .tail _ (mem_map.mpr ⟨_, member, rfl⟩)

theorem safe_of_stands (made : build.Made done) (stands : Stands done ino way) :
    ∀ part ∈ way, SafeComponent part := by
  rcases stands with ⟨-, rfl⟩ | ⟨_, member, rfl⟩
  · exact fun _ member => absurd member not_mem_nil
  · exact made.safe _ member

theorem stands_unique (made : build.Made done) (stands : Stands done ino way)
    (also : Stands done ino other) : way = other := by
  obtain ⟨above, apart⟩ := pairwise_cons.mp made.increasing
  have nodup : (done.map (·.2)).Nodup := apart.imp Nat.ne_of_lt
  rcases stands with ⟨rfl, rfl⟩ | ⟨entry, member, rfl⟩
  · rcases also with ⟨-, rfl⟩ | ⟨_, member, -⟩
    · rfl
    · exact absurd (above _ (mem_map.mpr ⟨_, member, rfl⟩)) (Nat.lt_irrefl _)
  · rcases also with ⟨rfl, -⟩ | ⟨_, also, rfl⟩
    · exact absurd (above _ (mem_map.mpr ⟨_, member, rfl⟩)) (Nat.lt_irrefl _)
    · cases inj_on_of_nodup_map nodup member also rfl
      rfl

theorem lookup_nodes_insert (place : ℕ) : (build.insert entry ino parent name).nodes.lookup place =
    if place = ino then
      some ⟨ino, parent, name, entry.kind, entry.size.getD 0, [], entry.entryId⟩
    else (build.nodes.lookup place).map fun node =>
      if place = parent then { node with children := node.children ++ [ino] } else node := by
  rw [Build.insert, lookup_insert, lookup_modify]
  split
  · rfl
  · split
    · rename_i same
      rw [same]
    · exact Option.map_id'.symm

theorem insert (made : build.Made done) (larger : ∀ known ∈ root :: done.map (·.2), known < ino)
    (safe : ∀ part ∈ partsOf entry.path, SafeComponent part)
    (parts : partsOf entry.path = way ++ [name]) (base : Stands done parent way)
    (vacant : (parent, name) ∉ build.children) :
    (build.insert entry ino parent name).Made (done ++ [(entry, ino)]) := by
  have fresh (way : List Bytes) : ¬Stands done ino way :=
    fun stands => Nat.lt_irrefl _ (larger ino (mem_of_stands stands))
  have lower : parent < ino := larger parent (mem_of_stands base)
  have new (place : ℕ) : ¬Stands done place (way ++ [name]) := fun stands =>
    vacant ((mem_iff_lookup _ _).mpr ⟨place, (made.children _ _ _).mpr ⟨way, base, stands⟩⟩)
  have leaf (place : ℕ) (last : Bytes) : ¬Stands done place (way ++ [name] ++ [last]) := by
    intro stands
    obtain ⟨parent, twin, -⟩ := made.above _ _ _ stands
    exact new parent twin
  have stands (place : ℕ) (names : List Bytes) : Stands (done ++ [(entry, ino)]) place names ↔
      Stands done place names ∨ place = ino ∧ names = way ++ [name] := by
    rw [stands_append, parts]
  refine ⟨?_, fun item member => ?_, fun place names last there => ?_,
    fun place other names _ _ => ?_, fun _ place => ?_, fun holder last place => ?_,
    fun place names there => ?_, fun place node found => ?_,
    fun place _ names child last found there below => ?_⟩
  · rw [map_append, ← cons_append]
    refine pairwise_append.mpr ⟨made.increasing, pairwise_singleton _ _, ?_⟩
    intro known member last is
    rw [mem_singleton.mp is]
    exact larger known member
  · rcases mem_append.mp member with earlier | last
    · exact made.safe item earlier
    · rw [mem_singleton.mp last]
      exact safe
  · simp only [stands] at there ⊢
    rcases there with earlier | ⟨rfl, same⟩
    · obtain ⟨holder, holds, less⟩ := made.above place names last earlier
      exact ⟨holder, .inl holds, less⟩
    · exact ⟨parent, .inl ((append_inj' same rfl).1 ▸ base), lower⟩
  · have apart := made.apart place other names
    grind
  · rw [Build.insert, lookup_insert]
    simp only [stands, or_and_right, exists_or]
    split
    · rename_i own
      rw [Option.some_inj]
      constructor
      · rintro rfl
        exact .inr ⟨_, ⟨rfl, rfl⟩, own ▸ parts ▸ joined_partsOf _⟩
      · rintro (⟨names, there, same⟩ | ⟨_, ⟨is, -⟩, -⟩)
        · have twin := joined_inj (made.safe_of_stands there) safe
            (same.trans (own.trans (joined_partsOf _).symm))
          exact absurd (parts ▸ twin ▸ there) (new place)
        · exact is.symm
    · rename_i other
      rw [made.paths]
      refine (or_iff_left ?_).symm
      rintro ⟨_, ⟨-, rfl⟩, same⟩
      exact other (same.symm.trans (parts ▸ joined_partsOf _))
  · rw [Build.insert, lookup_insert]
    split
    · rename_i own
      obtain ⟨rfl, rfl⟩ := Prod.mk.inj own
      rw [Option.some_inj]
      constructor
      · rintro rfl
        exact ⟨way, (stands _ _).mpr (.inl base), (stands _ _).mpr (.inr ⟨rfl, rfl⟩)⟩
      · rintro ⟨names, holds, there⟩
        rcases (stands _ _).mp there with old | ⟨is, -⟩
        · rcases (stands _ _).mp holds with held | ⟨is, -⟩
          · exact absurd (made.stands_unique held base ▸ old) (new place)
          · exact absurd is lower.ne
        · exact is.symm
    · rename_i other
      rw [made.children]
      refine exists_congr fun names => ?_
      rw [stands, stands]
      constructor
      · exact fun ⟨holds, there⟩ => ⟨.inl holds, .inl there⟩
      · rintro ⟨held | ⟨-, rfl⟩, there | ⟨rfl, same⟩⟩
        · exact ⟨held, there⟩
        · obtain ⟨rfl, alike⟩ := append_inj' same rfl
          cases made.apart _ _ _ held base
          cases alike
          exact absurd rfl other
        · exact absurd there (leaf _ _)
        · simp at same
  · rw [← AList.lookup_isSome, lookup_nodes_insert]
    split
    · rfl
    · rename_i other
      rw [Option.isSome_map, AList.lookup_isSome]
      rcases (stands _ _).mp there with earlier | ⟨own, -⟩
      · exact made.standing place names earlier
      · exact absurd own other
  · rw [lookup_nodes_insert] at found
    split at found
    · rename_i own
      cases found
      exact ⟨own.symm, .inr ⟨entry, way, own ▸ mem_append_right _ (mem_singleton_self _),
        rfl, rfl, rfl, (stands _ _).mpr (.inl base), parts⟩⟩
    · obtain ⟨before, known, rfl⟩ := Option.map_eq_some_iff.mp found
      obtain ⟨numbered, shown⟩ := made.nodes place before known
      have later : Shows (done ++ [(entry, ino)]) place before :=
        ⟨numbered, shown.imp_right fun ⟨known, way, member, kind, entryId, size, upper, parts⟩ =>
          ⟨known, way, mem_append_left _ member, kind, entryId, size,
            (stands _ _).mpr (.inl upper), parts⟩⟩
      split
      · exact later
      · exact later
  · rw [lookup_nodes_insert] at found
    rcases (stands _ _).mp there with held | ⟨is, rfl⟩
    · split at found
      · rename_i own
        exact absurd (own ▸ held) (fresh names)
      · obtain ⟨before, known, rfl⟩ := Option.map_eq_some_iff.mp found
        rcases (stands _ _).mp below with old | ⟨is, same⟩
        · have listed := made.listed place before names child last known held old
          split
          · exact mem_append_left _ listed
          · exact listed
        · obtain ⟨rfl, -⟩ := append_inj' same rfl
          rw [made.apart _ _ _ held base, if_pos rfl, is]
          exact mem_append_right _ (mem_singleton_self _)
    · rcases (stands _ _).mp below with old | ⟨-, same⟩
      · exact absurd old (leaf _ _)
      · simp at same

theorem addEntry_eq_ok (made : build.Made done) {after : Build} :
    addEntry build (entry, ino) = .ok after ↔ entry.kind ≠ .other ∧
      (∀ part ∈ partsOf entry.path, SafeComponent part) ∧ ∃ parent way name,
        partsOf entry.path = way ++ [name] ∧ Stands done parent way ∧
          (parent, name) ∉ build.children ∧ build.insert entry ino parent name = after := by
  have some : partsOf entry.path ≠ [] := splitOn_ne_nil _ _
  simp only [addEntry, guard_bind_ok, bind_ok, okOr_eq_ok, pure_ok, some, false_or, not_not]
  refine and_congr_right fun _ => and_congr_right fun safe => ?_
  rcases eq_nil_or_concat' (partsOf entry.path) with none | ⟨way, name, parts⟩
  · exact absurd none some
  · rw [parts, dropLast_concat, getLastD_concat]
    constructor
    · rintro ⟨parent, found, vacant, rfl⟩
      obtain ⟨names, stands, same⟩ := (made.paths _ parent).mp found
      have above := joined_inj (made.safe_of_stands stands)
        (fun part member => safe part (parts ▸ mem_append_left _ member)) same
      exact ⟨parent, way, name, rfl, above ▸ stands, vacant, rfl⟩
    · rintro ⟨parent, _, _, same, stands, vacant, rfl⟩
      obtain ⟨rfl, alike⟩ := append_inj' same rfl
      cases alike
      exact ⟨parent, (made.paths _ parent).mpr ⟨way, stands, rfl⟩, vacant, rfl⟩

end Build.Made

theorem made_of_foldlM {items done : List (RemoteEntry × ℕ)} {build after : Build}
    (made : build.Made done) (increasing : (root :: (done ++ items).map (·.2)).Pairwise (· < ·))
    (ran : items.foldlM addEntry build = .ok after) : after.Made (done ++ items) := by
  induction items generalizing build done with
  | nil =>
    cases ran
    rwa [append_nil]
  | cons item _ ih =>
    simp only [foldlM_cons, bind_ok] at ran
    obtain ⟨_, added, ran⟩ := ran
    obtain ⟨-, safe, _, _, _, parts, above, vacant, rfl⟩ := made.addEntry_eq_ok.mp added
    rw [append_cons] at increasing ⊢
    refine ih (made.insert ?_ safe parts above vacant) increasing ran
    intro known member
    rw [append_assoc, map_append, ← cons_append, pairwise_append] at increasing
    exact increasing.2.2 known member item.2 (.head _)

theorem increasing_zipIdx (entries : List RemoteEntry) :
    (root :: (numbered entries).map Prod.snd).Pairwise (· < ·) := by
  rw [numbered, zipIdx_map_snd]
  exact pairwise_lt_range' (s := root) (n := entries.length + 1)

theorem exists_ino {entries : List RemoteEntry} {entry : RemoteEntry} (member : entry ∈ entries) :
    ∃ ino, (entry, ino) ∈ numbered entries := by
  obtain ⟨_, inside, rfl⟩ := mem_iff_getElem.mp member
  exact ⟨_, mk_add_mem_zipIdx_iff_getElem?.mpr (getElem?_eq_getElem inside)⟩

/-- The mounted nodes are the tree of the entries. -/
structure Mirrors (fs : Fs) (entries : List RemoteEntry) : Prop where
  present : ∀ ino, ino ∈ fs.nodes ↔ ino = root ∨ ∃ entry, (entry, ino) ∈ numbered entries
  rooted : ∀ ino node, fs.nodes.lookup ino = some node → node.ino = ino ∧ (ino ≠ root →
    ∃ parent, fs.nodes.lookup node.parent = some parent ∧ node.parent < ino ∧
      parent.kind = .directory)
  named : ∀ ino other node sibling, fs.nodes.lookup ino = some node →
    fs.nodes.lookup other = some sibling → ino ≠ root → other ≠ root →
      node.parent = sibling.parent → node.name = sibling.name → ino = other
  walked : ∀ entry ino, (entry, ino) ∈ numbered entries →
    fs.walk (partsOf entry.path) = some ino ∧ ∃ node, fs.nodes.lookup ino = some node ∧
      node.entryId = entry.entryId ∧ node.kind = entry.kind ∧ node.size = entry.size.getD 0
  listed : ∀ ino node, fs.nodes.lookup ino = some node → ino ≠ root →
    ∃ listing, fs.readdir node.parent 0 = .ok listing ∧
      (ino, decide (node.kind = .directory), node.name) ∈ listing

/-- No entry stands below a file. -/
def Nested (entries : List RemoteEntry) : Prop :=
  ∀ entry ∈ entries, ∀ parent ∈ entries,
    utf8 parent.path = joined (partsOf entry.path).dropLast → parent.kind = .directory

section Mirrored

variable {entries : List RemoteEntry} {build : Build} (made : build.Made (numbered entries))
include made

theorem walk_iff (way : List Bytes) (ino : ℕ) :
    build.walk way = some ino ↔ Stands (numbered entries) ino way := by
  induction way using reverseRecOn generalizing ino with
  | nil =>
    refine ⟨fun same => .inl ⟨(Option.some.inj same).symm, rfl⟩, ?_⟩
    rintro (⟨rfl, -⟩ | ⟨entry, -, none⟩)
    · rfl
    · exact absurd none (splitOn_ne_nil _ _)
  | append_singleton way name ih =>
    have last : build.walk (way ++ [name]) =
        (build.walk way).bind fun parent => (build.lookup parent name).map (·.ino) := by
      rw [Fs.walk, foldlM_append]
      exact bind_congr fun _ => bind_pure _
    rw [last, Option.bind_eq_some_iff]
    constructor
    · rintro ⟨parent, leads, found⟩
      obtain ⟨node, looked, rfl⟩ := Option.map_eq_some_iff.mp found
      obtain ⟨child, indexed, known⟩ := Option.bind_eq_some_iff.mp looked
      obtain ⟨_, holds, stands⟩ := (made.children _ _ _).mp indexed
      rw [(made.nodes child node known).1]
      exact made.stands_unique holds ((ih parent).mp leads) ▸ stands
    · intro stands
      obtain ⟨parent, holds, -⟩ := made.above _ _ _ stands
      obtain ⟨node, known⟩ := (mem_iff_lookup _ _).mp (made.standing _ _ stands)
      refine ⟨parent, (ih parent).mpr holds, ?_⟩
      rw [Fs.lookup, (made.children _ _ _).mpr ⟨way, holds, stands⟩, Option.bind_some, known]
      exact congrArg some (made.nodes ino node known).1

theorem stands_of_node {ino : ℕ} {node : Node} (found : build.nodes.lookup ino = some node)
    (other : ino ≠ root) : ∃ entry way, (entry, ino) ∈ numbered entries ∧
      Stands (numbered entries) node.parent way ∧ partsOf entry.path = way ++ [node.name] := by
  rcases (made.nodes ino node found).2 with ⟨top, -⟩ | ⟨entry, way, member, -, -, -, above, parts⟩
  · exact absurd top other
  · exact ⟨entry, way, member, above, parts⟩

theorem mirrors_of_nested (nested : Nested entries) : Mirrors build.toFs entries := by
  have held {ino : ℕ} {node : Node} (found : build.nodes.lookup ino = some node)
      (other : ino ≠ root) : ∃ parent, build.nodes.lookup node.parent = some parent ∧
        node.parent < ino ∧ parent.kind = .directory ∧ ino ∈ parent.children := by
    obtain ⟨entry, way, member, base, parts⟩ := stands_of_node made found other
    have stands : Stands (numbered entries) ino (way ++ [node.name]) := .inr ⟨entry, member, parts⟩
    obtain ⟨parent, holds⟩ := (mem_iff_lookup _ _).mp (made.standing _ _ base)
    obtain ⟨lower, leads, less⟩ := made.above _ _ _ stands
    refine ⟨parent, holds, made.apart _ _ _ leads base ▸ less, ?_,
      made.listed _ parent way ino node.name holds base stands⟩
    rcases (made.nodes _ parent holds).2 with ⟨-, top⟩ | ⟨holder, _, there, kind, -⟩
    · exact top
    · have same := made.stands_unique base (.inr ⟨holder, there, rfl⟩)
      rw [kind]
      refine nested entry (fst_mem_of_mem_zipIdx member) holder (fst_mem_of_mem_zipIdx there) ?_
      rw [parts, dropLast_concat, same, joined_partsOf]
  refine ⟨fun ino => ⟨fun there => ?_, ?_⟩, fun ino node found => ⟨(made.nodes ino node found).1,
    fun other => ?_⟩, fun ino other node _ found also inside otherInside parent name => ?_,
    fun entry ino member => ⟨(walk_iff made _ ino).mpr (.inr ⟨entry, member, rfl⟩), ?_⟩,
    fun ino node found other => ?_⟩
  · obtain ⟨node, found⟩ := (mem_iff_lookup _ _).mp there
    exact (made.nodes ino node found).2.imp And.left fun ⟨entry, _, member, _⟩ => ⟨entry, member⟩
  · rintro (rfl | ⟨entry, member⟩)
    · exact made.standing root [] (.inl ⟨rfl, rfl⟩)
    · exact made.standing ino _ (.inr ⟨entry, member, rfl⟩)
  · obtain ⟨parent, holds, lower, directory, -⟩ := held found other
    exact ⟨parent, holds, lower, directory⟩
  · obtain ⟨entry, _, member, base, parts⟩ := stands_of_node made found inside
    obtain ⟨twin, _, there, above, alike⟩ := stands_of_node made also otherInside
    rw [parent] at base
    rw [made.stands_unique base above, name] at parts
    exact made.apart ino other _ (.inr ⟨entry, member, parts⟩) (.inr ⟨twin, there, alike⟩)
  · obtain ⟨node, found⟩ := (mem_iff_lookup _ _).mp
      (made.standing ino _ (.inr ⟨entry, member, rfl⟩))
    obtain ⟨above, here⟩ := mk_mem_zipIdx_iff_le_and_getElem?_sub.mp member
    rcases (made.nodes ino node found).2 with ⟨top, -⟩ | ⟨other, -, also, kind, entryId, size, -⟩
    · exact absurd (top ▸ above) (Nat.not_succ_le_self root)
    · cases here.symm.trans (mk_mem_zipIdx_iff_le_and_getElem?_sub.mp also).2
      exact ⟨node, found, entryId, kind, size⟩
  · obtain ⟨_, holds, -, directory, listed⟩ := held found other
    refine ⟨_, by rw [Fs.readdir, holds]; exact if_neg (not_not.mpr directory), ?_⟩
    refine mem_append_right _ (mem_map.mpr ⟨node, mem_filterMap.mpr ⟨ino, listed, found⟩, ?_⟩)
    rw [(made.nodes ino node found).1]

theorem nested_of_mirrors (mirrors : Mirrors build.toFs entries) : Nested entries := by
  intro entry member parent holds above
  obtain ⟨ino, there⟩ := exists_ino member
  obtain ⟨place, stands⟩ := exists_ino holds
  obtain ⟨-, node, found, -⟩ := mirrors.walked _ _ there
  obtain ⟨-, _, standing, -, kind, -⟩ := mirrors.walked _ _ stands
  have inside : ino ≠ root := ne_of_gt (mem_zipIdx there).1
  obtain ⟨known, way, also, lead, parts⟩ := stands_of_node made found inside
  have same := made.stands_unique (.inr ⟨known, also, rfl⟩) (.inr ⟨entry, there, rfl⟩)
  rw [← same, parts, dropLast_concat, ← joined_partsOf] at above
  have way := joined_inj (made.safe _ stands) (made.safe_of_stands lead) above
  have here := made.apart node.parent place _ lead (.inr ⟨parent, stands, way⟩)
  obtain ⟨-, below⟩ := mirrors.rooted ino node found
  obtain ⟨_, known, -, directory⟩ := below inside
  rw [here, standing] at known
  cases known
  exact kind.symm.trans directory

end Mirrored

theorem made_of_buildFs {entries : List RemoteEntry} {fs : Fs} {roots : List String}
    (accepted : buildFs entries = .ok (fs, roots)) :
    ∃ build : Build, build.Made (numbered entries) ∧ build.toFs = fs := by
  simp only [buildFs, bind_ok, pure_ok] at accepted
  obtain ⟨build, ran, same⟩ := accepted
  cases same
  exact ⟨build, made_of_foldlM made_start (increasing_zipIdx entries) ran, rfl⟩

theorem splitOn_of_unslashed {part : Bytes} (unslashed : 0x2f ∉ part) :
    part.splitOn 0x2f = [part] :=
  splitOnP_eq_singleton fun _ member =>
    beq_eq_false_iff_ne.mpr fun same => unslashed (same ▸ member)

theorem partsOf_joinName {path : String} {place : Bytes} {name : FileName} (ended : Ended place)
    (same : utf8 path = joinName place name) :
    partsOf path = place.splitOn 0x2f ++ [name.bytes] := by
  rw [partsOf, same, joinName_of_ended ended, splitOn_append_cons_self,
    splitOn_of_unslashed name.noSlash]

theorem accepts {entries : List ClipboardManifestEntry} (first : DirectoriesFirst entries)
    (plain : ∀ entry ∈ entries, IsPlain entry.path)
    (nodup : (entries.map fun entry => utf8 entry.path).Nodup) :
    ∃ build : Build,
      (numbered (entries.map remoteEntry)).foldlM addEntry .start = .ok build ∧
        build.Made (numbered (entries.map remoteEntry)) ∧
          ∀ entry ∈ entries, Ended (utf8 entry.path) := by
  induction first with
  | nil => exact ⟨.start, rfl, made_start, fun _ member => absurd member not_mem_nil⟩
  | @append entries entry first placed ih =>
    rw [map_append, nodup_append'] at nodup
    obtain ⟨build, ran, made, ended⟩ :=
      ih (fun other member => plain other (mem_append_left _ member)) nodup.1
    have here := plain entry (mem_append_right _ (mem_singleton_self _))
    obtain ⟨parent, way, name, parts, above, names, ends⟩ : ∃ parent way name,
        partsOf entry.path = way ++ [name] ∧
          Stands (numbered (entries.map remoteEntry)) parent way ∧
            (∀ part ∈ partsOf entry.path, PathBuf.IsName part) ∧ Ended (utf8 entry.path) := by
      rcases placed with is | ⟨holder, member, -, name, same⟩
      · have single : partsOf entry.path = [utf8 entry.path] := splitOn_of_unslashed is.unslashed
        refine ⟨root, [], _, single, .inl ⟨rfl, rfl⟩, fun part member => ?_, is.ended⟩
        rw [single] at member
        rwa [mem_singleton.mp member]
      · have parts := partsOf_joinName (ended holder member) same
        obtain ⟨parent, there⟩ := exists_ino (mem_map_of_mem (f := remoteEntry) member)
        refine ⟨parent, _, _, parts, .inr ⟨_, there, rfl⟩, fun part inside => ?_,
          same ▸ ended_joinName (ended holder member) name⟩
        rw [parts] at inside
        rcases mem_append.mp inside with outer | last
        · exact (made.safe _ there part outer).toIsName
        · rw [mem_singleton.mp last]
          exact ⟨name.nonempty, name.notDots.1, name.notDots.2, name.noSlash⟩
    have safe : ∀ part ∈ partsOf entry.path, SafeComponent part := fun part member =>
      ⟨names part member, fun is => here.1 (of_mem_splitOn member is).1,
        fun is => here.2 (of_mem_splitOn member is).1⟩
    have vacant : (parent, name) ∉ build.children := by
      intro there
      obtain ⟨_, found⟩ := (mem_iff_lookup _ _).mp there
      obtain ⟨_, holds, stands⟩ := (made.children _ _ _).mp found
      rw [made.stands_unique holds above, ← parts] at stands
      rcases stands with ⟨-, none⟩ | ⟨_, member, same⟩
      · exact splitOn_ne_nil _ _ none
      · obtain ⟨other, listed, rfl⟩ := mem_map.mp (fst_mem_of_mem_zipIdx member)
        have path : utf8 other.path = utf8 entry.path :=
          (joined_partsOf _).symm.trans ((congrArg joined same).trans (joined_partsOf _))
        exact nodup.2.2 (mem_map.mpr ⟨other, listed, rfl⟩)
          (mem_map.mpr ⟨entry, mem_singleton_self _, path.symm⟩)
    have kind : (remoteEntry entry).kind ≠ .other := by
      unfold remoteEntry
      cases entry.kind <;> simp
    have extended : numbered ((entries ++ [entry]).map remoteEntry) =
        numbered (entries.map remoteEntry) ++
          [(remoteEntry entry, root + 1 + (entries.map remoteEntry).length)] := by
      rw [map_append, numbered, zipIdx_append]
      rfl
    obtain ⟨after, added⟩ : ∃ after, addEntry build
        (remoteEntry entry, root + 1 + (entries.map remoteEntry).length) = .ok after :=
      ⟨_, made.addEntry_eq_ok.mpr ⟨kind, safe, parent, way, name, parts, above, vacant, rfl⟩⟩
    have all := increasing_zipIdx ((entries ++ [entry]).map remoteEntry)
    rw [extended] at all ⊢
    have one := (bind_pure _).trans added
    refine ⟨after, ?_, made_of_foldlM made all one, fun other member => ?_⟩
    · rw [foldlM_append, ran]
      exact one
    · rcases mem_append.mp member with earlier | last
      · exact ended other earlier
      · rw [mem_singleton.mp last]
        exact ends

/-- What is mounted is the tree of the entries if and only if none stands below a file, and every
offer that was built from paths is accepted. -/
theorem mounted_iff (entries : List RemoteEntry) :
    (∀ fs roots, buildFs entries = .ok (fs, roots) → (Mirrors fs entries ↔ Nested entries)) ∧
    ∀ (files : FileSystem) transferId (sources : List Bytes) (offer : FileOffer),
      (∀ source ∈ sources, (files.find (.ofBytes source)).Distinct) →
      FileOffer.fromPaths files transferId (sources.map .ofBytes) = .ok offer →
        ∃ mounted, buildFs (offer.entries.map remoteEntry) = .ok mounted := by
  refine ⟨fun _ roots accepted => ?_, fun _ _ _ _ distinct built => ?_⟩
  · obtain ⟨build, made, rfl⟩ := made_of_buildFs accepted
    exact ⟨nested_of_mirrors made, mirrors_of_nested made⟩
  · obtain ⟨_, entries, -, sound, differ, covered⟩ := FileOffer.collected built
    have plain := (FileOffer.orderly_of_fromPaths built).plain
    rw [entries] at plain ⊢
    obtain ⟨build, ran, -⟩ := accepts sound.placed plain
      (covered.nodup_iff.mpr (FileOffer.nodup_below distinct differ))
    exact ⟨(build.toFs, build.roots), by rw [buildFs, ran]; rfl⟩

theorem mounted_below_directory : ∃ fs roots,
    buildFs [⟨1, "a", .directory, none⟩, ⟨2, "a/b", .file, some 0⟩] = .ok (fs, roots) ∧
      Mirrors fs [⟨1, "a", .directory, none⟩, ⟨2, "a/b", .file, some 0⟩] :=
  ⟨_, _, rfl, ((mounted_iff _).1 _ _ rfl).mpr (by unfold Nested; decide)⟩

def belowFile : List RemoteEntry := [⟨1, "a", .file, some 0⟩, ⟨2, "a/b", .file, some 0⟩]

theorem mounted_below_file :
    ∃ fs roots, buildFs belowFile = .ok (fs, roots) ∧ ¬Mirrors fs belowFile := by
  refine ⟨_, _, rfl, fun mirrors => ?_⟩
  obtain ⟨-, below⟩ := mirrors.rooted 3 _ rfl
  obtain ⟨_, found, -, directory⟩ := below (by decide)
  cases found
  cases directory

end Syntra.Fuse
