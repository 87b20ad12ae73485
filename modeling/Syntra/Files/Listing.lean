import Mathlib.Data.List.TakeWhile
import Syntra.Files.Offer
import Syntra.Files.SafePaths

/-!
# What an offer lists

The entries of an offer that `FileOffer::from_paths` has built are numbered from 1 on, each stands
at the top or in a directory before it, and their paths are those of what is below the sources, each
once, as no directory lists a name twice and no two sources have the same one.
-/

namespace Syntra.Files

open ByteFormat PathBuf List FileSystem
open Proto

/-- The path ends in a name. -/
def Ended (path : Bytes) : Prop :=
  path ≠ [] ∧ path.getLast? ≠ some 0x2f

variable {path : Bytes}

theorem joinName_of_ended (ended : Ended path) (name : FileName) :
    joinName path name = path ++ 0x2f :: name.bytes := by
  rw [joinName, if_neg]
  rintro (empty | slash)
  · exact ended.1 empty
  · exact ended.2 slash

theorem ended_joinName (ended : Ended path) (name : FileName) : Ended (joinName path name) := by
  rw [joinName_of_ended ended]
  refine ⟨by simp, fun slash => ?_⟩
  rw [getLast?_append, getLast?_cons_of_ne_nil name.nonempty] at slash
  obtain ⟨_, found⟩ := Option.isSome_iff_exists.mp (getLast?_isSome.mpr name.nonempty)
  rw [found] at slash
  cases slash
  exact name.noSlash (mem_of_getLast? found)

/-- The path leads to the place or below it. -/
def Leads (place path : Bytes) : Prop :=
  path = place ∨ ∃ rest, path = place ++ 0x2f :: rest

theorem Leads.takeWhile {place : Bytes} (unslashed : 0x2f ∉ place) (leads : Leads place path) :
    path.takeWhile (· ≠ 0x2f) = place := by
  have whole : ∀ byte ∈ place, decide (byte ≠ 0x2f) = true := by
    intro _ member
    exact decide_eq_true fun same => unslashed (same ▸ member)
  rcases leads with rfl | ⟨_, rfl⟩
  · exact takeWhile_eq_self_iff.mpr whole
  · rw [takeWhile_append_of_pos whole]
    simp

theorem eq_of_leads {first second : Bytes} (firstUnslashed : 0x2f ∉ first)
    (secondUnslashed : 0x2f ∉ second) (firstLeads : Leads first path)
    (secondLeads : Leads second path) : first = second :=
  (firstLeads.takeWhile firstUnslashed).symm.trans (secondLeads.takeWhile secondUnslashed)

theorem leads_joinName_iff {place : Bytes} (ended : Ended place) {name : FileName} :
    Leads (joinName place name) path ↔
      ∃ rest, path = place ++ 0x2f :: rest ∧ Leads name.bytes rest := by
  rw [joinName_of_ended ended]
  constructor
  · rintro (rfl | ⟨rest, rfl⟩)
    · exact ⟨_, rfl, .inl rfl⟩
    · exact ⟨name.bytes ++ 0x2f :: rest, by simp, .inr ⟨rest, rfl⟩⟩
  · rintro ⟨_, rfl, rfl | ⟨rest, rfl⟩⟩
    · exact .inl rfl
    · exact .inr ⟨rest, by simp⟩

def Listing.names : Listing → List FileName
  | .done | .failed _ => []
  | .entry name _ rest => name :: rest.names

mutual

/-- No directory lists a name twice. -/
def Tree.Distinct : Tree → Prop
  | .unreadable _ => True
  | .node _ listing => listing.Distinct

def Listing.Distinct : Listing → Prop
  | .done | .failed _ => True
  | .entry name tree rest => name ∉ rest.names ∧ tree.Distinct ∧ rest.Distinct

end

mutual

theorem Tree.leads_of_mem_paths {relative path : Bytes} (ended : Ended relative) :
    (tree : Tree) → path ∈ tree.paths relative → Leads relative path
  | .unreadable _, member => by simp [Tree.paths] at member
  | .node metadata listing, member => by
    rw [Tree.paths, mem_cons] at member
    rcases member with rfl | below
    · exact .inl rfl
    · split at below
      · simp at below
      · obtain ⟨_, -, leads⟩ := listing.leads_of_mem_paths ended below
        obtain ⟨rest, same, -⟩ := (leads_joinName_iff ended).mp leads
        exact .inr ⟨rest, same⟩

theorem Listing.leads_of_mem_paths {relative path : Bytes} (ended : Ended relative) :
    (listing : Listing) → path ∈ listing.paths relative →
      ∃ name ∈ listing.names, Leads (joinName relative name) path
  | .done, member | .failed _, member => by simp [Listing.paths] at member
  | .entry name tree rest, member => by
    rw [Listing.paths, mem_append] at member
    rcases member with inside | other
    · exact ⟨name, .head _, tree.leads_of_mem_paths (ended_joinName ended name) inside⟩
    · obtain ⟨further, listed, leads⟩ := rest.leads_of_mem_paths ended other
      exact ⟨further, .tail _ listed, leads⟩

end

theorem eq_of_leads_joinName {place : Bytes} (ended : Ended place) {first second : FileName}
    (one : Leads (joinName place first) path) (other : Leads (joinName place second) path) :
    first = second := by
  obtain ⟨_, rfl, leads⟩ := (leads_joinName_iff ended).mp one
  obtain ⟨_, same, further⟩ := (leads_joinName_iff ended).mp other
  cases append_cancel_left same
  have bytes := eq_of_leads first.noSlash second.noSlash leads further
  cases first
  cases second
  cases bytes
  rfl

mutual

theorem Tree.nodup_paths {relative : Bytes} (ended : Ended relative) :
    (tree : Tree) → tree.Distinct → (tree.paths relative).Nodup
  | .unreadable _, _ => nodup_nil
  | .node metadata listing, distinct => by
    rw [Tree.paths]
    split
    · exact nodup_singleton _
    · refine nodup_cons.mpr ⟨fun member => ?_, listing.nodup_paths ended distinct⟩
      obtain ⟨_, -, leads⟩ := listing.leads_of_mem_paths ended member
      obtain ⟨_, same, -⟩ := (leads_joinName_iff ended).mp leads
      simpa using congrArg length same

theorem Listing.nodup_paths {relative : Bytes} (ended : Ended relative) :
    (listing : Listing) → listing.Distinct → (listing.paths relative).Nodup
  | .done, _ | .failed _, _ => nodup_nil
  | .entry name tree rest, ⟨fresh, distinct, others⟩ => by
    rw [Listing.paths, nodup_append']
    refine ⟨tree.nodup_paths (ended_joinName ended name) distinct, rest.nodup_paths ended others,
      fun _ inside other => ?_⟩
    obtain ⟨_, listed, leads⟩ := rest.leads_of_mem_paths ended other
    have first := tree.leads_of_mem_paths (ended_joinName ended name) inside
    exact fresh (eq_of_leads_joinName ended first leads ▸ listed)

end

/-- Every entry stands at the top, or in a directory that comes before it. -/
inductive DirectoriesFirst : List ClipboardManifestEntry → Prop
  | nil : DirectoriesFirst []
  | append {entries : List ClipboardManifestEntry} {entry : ClipboardManifestEntry}
      (first : DirectoriesFirst entries)
      (placed : IsName (utf8 entry.path) ∨ ∃ parent ∈ entries, parent.kind = .directory ∧
        ∃ name : FileName, utf8 entry.path = joinName (utf8 parent.path) name) :
      DirectoriesFirst (entries ++ [entry])

/-- The entries found so far are numbered from one, within the limits, parents first. -/
structure Collection.Sound (collection : Collection) : Prop where
  next : collection.nextId.toNat = collection.entries.length + 1
  numbered : collection.entries.map (·.fileId.toNat) = List.range' 1 collection.entries.length
  few : collection.entries.length ≤ maxClipboardManifestEntries
  counted : (collection.entries.map (·.size.toNat)).sum = collection.total.toNat
  small : collection.total.toNat ≤ maxClipboardSize
  sourced : ∀ id, id ∈ collection.sources ↔
    ∃ entry ∈ collection.entries, entry.fileId = id ∧ entry.kind = .file
  placed : DirectoriesFirst collection.entries

namespace Collection

theorem sound_new : new.Sound :=
  ⟨rfl, rfl, by decide, rfl, by decide, fun _ => by simp [new, AList.notMem_empty], .nil⟩

variable {relative : Bytes} {before after : Collection}

theorem Adds.sound (top : IsName relative) (added : Adds relative before after)
    (sound : before.Sound) : after.Sound := by
  have step {nextId : UInt64} {path : String} (next : Next relative before nextId path) :
      nextId.toNat = before.entries.length + 2 ∧ (IsName (utf8 path) ∨
        ∃ parent ∈ before.entries, parent.kind = .directory ∧
          ∃ name : FileName, utf8 path = joinName (utf8 parent.path) name) := by
    obtain ⟨fits, rfl⟩ := checkedAdd_eq_some.mp next.counted
    rw [toNat_add_of_le fits, sound.next]
    refine ⟨rfl, ?_⟩
    rcases next.placed with same | ⟨_, name, ⟨parent, member, directory, rfl⟩, same⟩
    · exact .inl (same ▸ top)
    · exact .inr ⟨parent, member, directory, name, same⟩
  have numbered (entry : ClipboardManifestEntry) (is : entry.fileId = before.nextId) :
      (before.entries ++ [entry]).map (·.fileId.toNat) =
        range' 1 (before.entries ++ [entry]).length := by
    simp [sound.numbered, is, sound.next, range'_concat, Nat.add_comm]
  cases added with
  | @file nextId total path source metadata next summed small =>
    obtain ⟨fits, rfl⟩ := checkedAdd_eq_some.mp summed
    refine ⟨?_, numbered _ rfl, ?_, ?_, small, fun id => ?_, .append sound.placed (step next).2⟩
    · simp [addFile, (step next).1]
    · simpa [addFile] using Nat.succ_le_of_lt next.room
    · simp [addFile, sound.counted, toNat_add_of_le fits]
    · simp [addFile, AList.mem_insert, sound.sourced, or_and_right, exists_or, or_comm, eq_comm]
  | @directory nextId path next =>
    refine ⟨?_, numbered _ rfl, ?_, ?_, sound.small, fun _ => ?_,
      .append sound.placed (step next).2⟩
    · simp [addDirectory, (step next).1]
    · simpa [addDirectory] using Nat.succ_le_of_lt next.room
    · simp [addDirectory, sound.counted]
    · simp [addDirectory, sound.sourced, or_and_right, exists_or]

theorem sound_of_adds (top : IsName relative)
    (added : Relation.ReflTransGen (Adds relative) before after) (sound : before.Sound) :
    after.Sound := by
  induction added with
  | refl => exact sound
  | tail _ last ih => exact last.sound top ih

end Collection

theorem PathBuf.isName_of_fileName {text name : Bytes}
    (named : (ofBytes text).fileName = some name) :
    IsName name := by
  have member : Component.normal name ∈ (ofBytes text).components := by
    unfold fileName at named
    split at named
    · rename_i found
      cases named
      exact mem_of_getLast? found
    · cases named
  simp only [ofBytes, mem_append, mem_filterMap] at member
  rcases member with leading | ⟨_, split, is⟩
  · split at leading <;> simp at leading
  · unfold componentOf at is
    split at is
    · cases is
    · rename_i named
      split at is
      · cases is
      · rename_i notDots
        cases is
        exact ⟨fun empty => named (.inl empty), fun dot => named (.inr dot), notDots,
          fun slash => (of_mem_splitOn split slash).2 rfl⟩

theorem PathBuf.IsName.ended {name : Bytes} (is : IsName name) : Ended name :=
  ⟨is.nonempty, fun slash => is.unslashed (mem_of_getLast? slash)⟩

namespace FileSystem

/-- The paths of what is below a source. -/
def below (files : FileSystem) (root : PathBuf) : List Bytes :=
  (root.fileName.map (files.find root).paths).getD []

variable {files : FileSystem} {roots : List PathBuf} {before after : List String × Collection}

theorem leads_of_mem_below {source path : Bytes} (member : path ∈ files.below (.ofBytes source)) :
    ∃ name, (ofBytes source).fileName = some name ∧ IsName name ∧ Leads name path := by
  unfold below at member
  cases named : (ofBytes source).fileName with
  | none => simp [named] at member
  | some name =>
    have is := isName_of_fileName named
    rw [named] at member
    exact ⟨name, rfl, is, Tree.leads_of_mem_paths is.ended _ member⟩

theorem addRoot_eq_ok {root : PathBuf} (added : addRoot files before root = .ok after) :
    ∃ base : String, root.fileName = some (utf8 base) ∧ base ∉ before.1 ∧
      after.1 = base :: before.1 ∧
        Relation.ReflTransGen (Collection.Adds (utf8 base)) before.2 after.2 ∧
          after.2.paths.Perm (before.2.paths ++ files.below root) := by
  simp only [addRoot, bind_ok, guard_bind_ok, pure_ok, okOr_eq_ok, Option.bind_eq_some_iff] at added
  rcases added with ⟨_, -, -, base, ⟨_, named, spelled⟩, _, -, fresh, _, entered, rfl⟩
  obtain rfl := fromUtf8?_eq_some.mp spelled
  refine ⟨base, named, fresh, rfl, ?_⟩
  simpa [below, named] using collectEntry_collects files.display (files.find root) _ _ _ _ entered

/-- What the loop over the sources has done: their names differ, and what is below each is there. -/
theorem foldlM_addRoot (names : ∀ root ∈ roots, ∀ name, root.fileName = some name → IsName name)
    (ran : roots.foldlM (addRoot files) before = .ok after) (sound : before.2.Sound) :
    (∀ root ∈ roots, ∀ base ∈ before.1, root.fileName ≠ some (utf8 base)) ∧
      roots.Pairwise (fun root other => root.fileName ≠ other.fileName) ∧
        after.2.paths.Perm (before.2.paths ++ roots.flatMap files.below) ∧ after.2.Sound := by
  induction roots generalizing before with
  | nil =>
    cases ran
    simpa using sound
  | cons root _ ih =>
    simp only [foldlM_cons, bind_ok] at ran
    obtain ⟨_, added, ran⟩ := ran
    obtain ⟨base, named, fresh, grown, steps, covered⟩ := addRoot_eq_ok added
    have top := names root (.head _) _ named
    obtain ⟨differ, distinct, all, ends⟩ :=
      ih (fun other member => names other (.tail _ member)) ran
        (Collection.sound_of_adds top steps sound)
    rw [grown] at differ
    refine ⟨?_, ?_, ?_, ends⟩
    · rintro other member text listed same
      rcases mem_cons.mp member with rfl | later
      · rw [named, Option.some.injEq, ← fromUtf8?_eq_some, fromUtf8?_utf8] at same
        exact fresh (Option.some.inj same ▸ listed)
      · exact differ other later text (.tail _ listed) same
    · refine pairwise_cons.mpr ⟨fun other member same => ?_, distinct⟩
      exact differ other member base (.head _) (same.symm.trans named)
    · rw [flatMap_cons, ← append_assoc]
      exact all.trans (covered.append_right _)

end FileSystem

namespace FileOffer

variable {files : FileSystem} {transferId : UInt64} {sources : List Bytes} {offer : FileOffer}

theorem collected (built : fromPaths files transferId (sources.map .ofBytes) = .ok offer) :
    ∃ collection : Collection, offer.entries = collection.entries ∧
      offer.sources = collection.sources ∧ collection.Sound ∧
        (sources.map ofBytes).Pairwise (fun root other => root.fileName ≠ other.fileName) ∧
          collection.paths.Perm ((sources.map ofBytes).flatMap files.below) := by
  simp only [fromPaths, bind_ok, pure_ok] at built
  rcases built with ⟨⟨_, collection⟩, ran, rfl⟩
  have tops : ∀ root ∈ sources.map ofBytes, ∀ name, root.fileName = some name → IsName name := by
    intro _ member _ named
    obtain ⟨_, -, rfl⟩ := mem_map.mp member
    exact isName_of_fileName named
  obtain ⟨-, differ, covered, sound⟩ :=
    foldlM_addRoot tops ran Collection.sound_new
  exact ⟨collection, rfl, rfl, sound, differ, covered⟩

theorem nodup_below (distinct : ∀ source ∈ sources, (files.find (.ofBytes source)).Distinct)
    (differ : (sources.map ofBytes).Pairwise (fun root other => root.fileName ≠ other.fileName)) :
    ((sources.map ofBytes).flatMap files.below).Nodup := by
  refine nodup_flatMap.mpr ⟨fun root member => ?_, ?_⟩
  · obtain ⟨source, listed, rfl⟩ := mem_map.mp member
    unfold below
    cases named : (ofBytes source).fileName with
    | none => exact nodup_nil
    | some =>
      exact Tree.nodup_paths (isName_of_fileName named).ended _ (distinct source listed)
  · refine differ.imp_of_mem fun {root other} first second distinctNames path one another => ?_
    obtain ⟨_, -, rfl⟩ := mem_map.mp first
    obtain ⟨_, -, rfl⟩ := mem_map.mp second
    obtain ⟨_, named, is, leads⟩ := leads_of_mem_below one
    obtain ⟨_, otherNamed, isOther, otherLeads⟩ := leads_of_mem_below another
    have same := eq_of_leads is.unslashed isOther.unslashed leads otherLeads
    exact distinctNames (named.trans (same ▸ otherNamed.symm))

/-- An offer lists just what is below the sources, each entry once, numbered from one and parents
first, within the limits, and has a source for each file. -/
theorem listing_exact (distinct : ∀ source ∈ sources, (files.find (.ofBytes source)).Distinct)
    (built : fromPaths files transferId (sources.map .ofBytes) = .ok offer) :
    offer.entries.map (·.fileId.toNat) = List.range' 1 offer.entries.length ∧
      offer.entries.length ≤ 256 ∧
      DirectoriesFirst offer.entries ∧
      (offer.entries.map fun entry => utf8 entry.path).Nodup ∧
      (∀ path, path ∈ offer.entries.map (fun entry => utf8 entry.path) ↔
        ∃ source ∈ sources, path ∈ files.below (.ofBytes source)) ∧
      (offer.entries.map (·.size.toNat)).sum ≤ maxClipboardSize ∧
      ∀ id, id ∈ offer.sources ↔
        ∃ entry ∈ offer.entries, entry.fileId = id ∧ entry.kind = .file := by
  obtain ⟨_, entries, recorded, sound, differ, covered⟩ := collected built
  rw [entries, recorded]
  refine ⟨sound.numbered, sound.few, sound.placed,
    covered.nodup_iff.mpr (nodup_below distinct differ), fun _ => covered.mem_iff.trans ?_,
    sound.counted ▸ sound.small, sound.sourced⟩
  simp

end FileOffer

/-- A file system in which a folder with one file `f` stands at every path. -/
def everywhereFolder : FileSystem where
  find _ := .node ⟨0, none, 1, 1, false, true, false⟩
    (.entry ⟨utf8 "f", by decide, by decide, by decide, by decide⟩
      (.node ⟨3, none, 1, 2, true, false, false⟩ .done) .done)
  display _ := ""

theorem folder_listed :
    ∃ offer, FileOffer.fromPaths everywhereFolder 7 ([utf8 "/d"].map .ofBytes) = .ok offer ∧
      (offer.entries.map fun entry => utf8 entry.path).Nodup := by
  have succeeds : (FileOffer.fromPaths everywhereFolder 7
      ([utf8 "/d"].map .ofBytes)).toOption.isSome := by
    decide +kernel
  cases built : FileOffer.fromPaths everywhereFolder 7 ([utf8 "/d"].map .ofBytes) with
  | error =>
    rw [built] at succeeds
    cases succeeds
  | ok offer =>
    have distinct : ∀ source ∈ [utf8 "/d"], (everywhereFolder.find (.ofBytes source)).Distinct :=
      fun _ _ => ⟨List.not_mem_nil, trivial, trivial⟩
    exact ⟨offer, rfl, (FileOffer.listing_exact distinct built).2.2.2.1⟩

end Syntra.Files
