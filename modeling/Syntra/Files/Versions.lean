import Syntra.Files.Effects

/-!
# Source files that change

The disk of the device that offers files, at one moment after the other. A file that is changed gets
a modification time that it has not had, so the identity recorded in an offer names one version of
one file.
-/

namespace Syntra.Files

open ByteFormat SourceIdentity Option List

/-- A file as it is at one moment. -/
structure Version where
  metadata : Metadata
  bytes : Bytes
  deriving DecidableEq, Repr

def Version.identity (version : Version) : SourceIdentity := .fromMetadata version.metadata

/-- The files of a disk with their versions. -/
structure SourceDisk where
  names : PathBuf → Option FileIdentity
  file : FileIdentity → Option Version
  placed : ∀ place version, file place = some version →
    place = ⟨version.metadata.dev, version.metadata.ino⟩

/-- A disk over time, where a version with a time of modification does not come back once it is
gone. -/
structure DiskLife where
  disk : ℕ → SourceDisk
  renewed : ∀ moment place version, (disk (moment + 1)).file place = some version →
    (disk moment).file place = some version ∨
      ∀ earlier ≤ moment, ∀ other, (disk earlier).file place = some other →
        other.identity = version.identity → version.metadata.modified = none

/-- When the calls of a read are made. -/
structure ReadTimes where
  opened : ℕ
  looked : ℕ
  metadata : ℕ → ℕ
  read : ℕ → ℕ

/-- The calls come one after another between two moments. -/
structure ReadTimes.Within (times : ReadTimes) (since now : ℕ) : Prop where
  opened : since ≤ times.opened
  looked : times.opened ≤ times.looked
  started : times.looked ≤ times.metadata 0
  ordered : Monotone times.metadata
  checked : ∀ turn, times.metadata (2 * turn + 1) ≤ times.read turn
  rechecked : ∀ turn, times.read turn ≤ times.metadata (2 * turn + 2)
  ended : ∀ call, times.metadata call ≤ now

/-- The bytes that the first turns of a read gave. -/
def Io.consumed (io : Io) (turns : ℕ) : ℕ :=
  ((List.range turns).map fun turn => ((io.read turn).toOption.getD []).length).sum

/-- The answers to one read of a source are those of the disk at the times of its calls. -/
structure DiskLife.Reads (life : DiskLife) (times : ReadTimes) (place : FileIdentity)
    (path : PathBuf) (offset : UInt64) (opening reading : Io) : Prop where
  opened : opening.openRead path = .ok () → (life.disk times.opened).names path = some place
  looked : ∀ metadata, opening.metadata 0 = .ok metadata →
    ∃ version, (life.disk times.looked).file place = some version ∧ version.metadata = metadata
  metadata : ∀ call metadata, reading.metadata call = .ok metadata →
    ∃ version, (life.disk (times.metadata call)).file place = some version ∧
      version.metadata = metadata
  read : ∀ turn data, reading.read turn = .ok data →
    ∃ version, (life.disk (times.read turn)).file place = some version ∧
      data <+: version.bytes.drop (offset.toNat + reading.consumed turn)

/-- Whatever matches the identity, whenever, has the data at the offset. -/
def DiskLife.Holds (life : DiskLife) (identity : SourceIdentity) (offset : UInt64) (data : Bytes) :
    Prop :=
  ∀ moment place version, (life.disk moment).file place = some version →
    identity.matchesMetadata version.metadata = true → data <+: version.bytes.drop offset.toNat

/-- In this time the file was found as recorded, with the data at the offset. -/
def DiskLife.Found (life : DiskLife) (since now : ℕ) (path : PathBuf) (identity : SourceIdentity)
    (offset : UInt64) (data : Bytes) : Prop :=
  ∃ opened looked place version, since ≤ opened ∧ opened ≤ looked ∧ looked ≤ now ∧
    (life.disk opened).names path = some place ∧ (life.disk looked).file place = some version ∧
    identity.matchesMetadata version.metadata = true ∧ data <+: version.bytes.drop offset.toNat

theorem SourceIdentity.matchesMetadata_iff {identity : SourceIdentity} {metadata : Metadata} :
    identity.matchesMetadata metadata = true ↔
      metadata.modified ≠ none ∧ identity = .fromMetadata metadata := by
  rcases identity with ⟨_, _, _, _⟩
  simp only [matchesMetadata, fromMetadata, mk.injEq]
  grind

namespace DiskLife

variable {life : DiskLife}

theorem steady {place : FileIdentity} {first last : ℕ} (ordered : first ≤ last)
    {version later : Version} (before : (life.disk first).file place = some version)
    (after : (life.disk last).file place = some later)
    (same : version.identity = later.identity) (dated : later.metadata.modified ≠ none) :
    ∀ moment, first ≤ moment → moment ≤ last → (life.disk moment).file place = some version := by
  induction last, ordered using Nat.le_induction generalizing later with
  | base =>
    intro moment low high
    rw [Nat.le_antisymm high low]
    exact before
  | succ last ordered ih =>
    rcases life.renewed last place later after with kept | fresh
    · have steady := ih kept same dated
      have there := steady last ordered le_rfl
      rw [kept, some.injEq] at there
      subst there
      intro moment low high
      rcases Nat.lt_or_eq_of_le high with early | rfl
      · exact steady moment low (Nat.lt_succ_iff.mp early)
      · exact after
    · exact absurd (fresh first ordered version before same) dated

variable {identity : SourceIdentity}

theorem unique {first second : ℕ} {place other : FileIdentity} {version later : Version}
    (here : (life.disk first).file place = some version)
    (there : (life.disk second).file other = some later)
    (mine : identity.matchesMetadata version.metadata = true)
    (its : identity.matchesMetadata later.metadata = true) : version = later := by
  rcases matchesMetadata_iff.mp mine with ⟨dated, rfl⟩
  rcases matchesMetadata_iff.mp its with ⟨redated, same⟩
  have samePlace : place = other := by
    rw [(life.disk first).placed place version here, (life.disk second).placed other later there]
    rw [FileIdentity.mk.injEq]
    exact ⟨congrArg dev same, congrArg ino same⟩
  subst samePlace
  rcases Nat.le_total first second with ordered | ordered
  · have kept := steady ordered here there same redated second ordered le_rfl
    rw [there, some.injEq] at kept
    exact kept.symm
  · have kept := steady ordered there here same.symm dated first ordered le_rfl
    rwa [here, some.injEq] at kept

variable {path : PathBuf} {offset : UInt64} {data : Bytes}

theorem Found.holds {since now : ℕ} (found : life.Found since now path identity offset data) :
    life.Holds identity offset data := by
  rcases found with ⟨_, _, _, _, _, _, _, _, there, own, _⟩
  intro _ _ _ elsewhere same
  rwa [← unique there elsewhere own same]

theorem Found.mono {since earlier now later : ℕ}
    (found : life.Found since now path identity offset data) (before : earlier ≤ since)
    (after : now ≤ later) : life.Found earlier later path identity offset data := by
  rcases found with ⟨opened, looked, place, version, began, ordered, ended, rest⟩
  exact ⟨opened, looked, place, version, before.trans began, ordered, ended.trans after, rest⟩

end DiskLife

theorem Io.consumed_succ (io : Io) (turn : ℕ) :
    io.consumed (turn + 1) = io.consumed turn + ((io.read turn).toOption.getD []).length := by
  simp [Io.consumed, range_succ]

theorem FileOffer.openFile_eq_ok {io : Io} {offer : FileOffer} {fileId offset : UInt64}
    {file : OutgoingFile} (opened : offer.openFile io fileId offset = .ok file) :
    ∃ entry path metadata, offer.entries.find? (fun entry => entry.fileId = fileId) = some entry ∧
      entry.kind = .file ∧ offset ≤ entry.size ∧
      offer.sources.lookup fileId = some (path, file.identity) ∧ io.openRead path = .ok () ∧
      io.metadata 0 = .ok metadata ∧ file.identity.matchesMetadata metadata = true ∧
      file.fileId = fileId ∧ file.offset = offset ∧ file.size = entry.size ∧ file.hasher = [] := by
  unfold openFile at opened
  simp only [bind_ok, okOr_eq_ok, guard_bind_ok, orIo_eq_ok,
    pure_ok, not_or, not_not, gt_iff_lt, UInt64.not_lt, Bool.not_eq_true] at opened
  rcases opened with ⟨entry, found, ⟨kind, within⟩, ⟨path, _⟩, source, _, read, metadata,
    looked, ⟨_, own⟩, _, _, rfl⟩
  exact ⟨entry, path, metadata, found, kind, within, source, read, looked, by simpa using own, rfl,
    rfl, rfl, rfl⟩

namespace DiskLife.Reads

variable {life : DiskLife} {times : ReadTimes} {place : FileIdentity} {path : PathBuf}
  {offset : UInt64} {opening reading : Io} {since now : ℕ} {file later : OutgoingFile}
  {version : Version}

variable (reads : life.Reads times place path offset opening reading)
include reads

theorem version_of_checked (looked : (life.disk times.looked).file place = some version)
    (own : file.identity.matchesMetadata version.metadata = true) {call : ℕ}
    (checked : file.checkIdentity reading call = .ok ()) {moment : ℕ}
    (after : times.looked ≤ moment) (before : moment ≤ times.metadata call) :
    (life.disk moment).file place = some version := by
  simp only [OutgoingFile.checkIdentity, bind_ok, guard_ok, orIo_eq_ok,
    Bool.not_eq_true, Bool.not_eq_false] at checked
  rcases checked with ⟨metadata, answered, same, _⟩
  rcases reads.metadata call metadata answered with ⟨_, there, rfl⟩
  rcases matchesMetadata_iff.mp own with ⟨_, mine⟩
  rcases matchesMetadata_iff.mp same with ⟨dated, its⟩
  exact steady (after.trans before) looked there (mine.symm.trans its) dated moment after before

theorem fill (within : times.Within since now)
    (looked : (life.disk times.looked).file place = some version)
    (own : file.identity.matchesMetadata version.metadata = true) {requested turns turn : ℕ}
    {data result : Bytes} (part : data <+: version.bytes.drop offset.toNat)
    (counted : data.length < requested → data.length = reading.consumed turn)
    (filled : file.fill reading requested turns turn data = .ok result) :
    result <+: version.bytes.drop offset.toNat := by
  induction turns generalizing turn data with
  | zero =>
    simp only [OutgoingFile.fill, pure_ok] at filled
    exact filled ▸ part
  | succ _ ih =>
    rw [OutgoingFile.fill] at filled
    split at filled
    · have same : data = result := by simpa using filled
      exact same ▸ part
    · rename_i short
      simp only [bind_ok, guard_bind_ok, orIo_eq_ok] at filled
      rcases filled with ⟨_, _, read, answered, _, _, rechecked, continued⟩
      rcases reads.read turn read answered with ⟨_, there, next⟩
      have moment : times.looked ≤ times.read turn :=
        within.started.trans ((within.ordered (Nat.zero_le _)).trans (within.checked turn))
      have same := reads.version_of_checked looked own rechecked moment (within.rechecked turn)
      rw [there, some.injEq] at same
      subst same
      have count := counted (Nat.lt_of_not_le short)
      refine ih ?_ ?_ continued
      · rcases part with ⟨_, whole⟩
        rw [← count, ← drop_drop, ← whole, drop_left] at next
        rw [← whole, prefix_append_right_inj]
        exact (List.take_prefix _ read).trans next
      · intro unfinished
        rw [length_append, length_take] at unfinished ⊢
        rw [Io.consumed_succ, answered, ← count]
        simp only [Except.toOption, getD_some]
        omega

theorem nextChunkBounded (within : times.Within since now)
    (looked : (life.disk times.looked).file place = some version)
    (own : file.identity.matchesMetadata version.metadata = true) {maxLen : ℕ} {start : UInt64}
    {data : Bytes} (read : file.nextChunkBounded reading maxLen = .ok (some (start, data), later)) :
    data <+: version.bytes.drop offset.toNat := by
  unfold OutgoingFile.nextChunkBounded at read
  simp only [guard_bind_ok] at read
  rcases read with ⟨_, read⟩
  split at read
  · simp at read
  · simp only [guard_bind_ok, bind_ok, okOr_eq_ok, pure_ok, Prod.mk.injEq, some.injEq] at read
    rcases read with ⟨_, _, _, _, full, _, _, ⟨_, rfl⟩, _⟩
    refine reads.fill within looked own List.nil_prefix ?_ full
    intro _
    simp [Io.consumed]

end DiskLife.Reads

theorem FileOffer.found_of_read {life : DiskLife} {times : ReadTimes} {place : FileIdentity}
    {offset fileId start : UInt64} {opening reading : Io} {since now maxLen : ℕ} {offer : FileOffer}
    {file later : OutgoingFile} {data : Bytes} (within : times.Within since now)
    (reads : ∀ path identity, offer.sources.lookup fileId = some (path, identity) →
      life.Reads times place path offset opening reading)
    (opened : offer.openFile opening fileId offset = .ok file)
    (read : file.nextChunkBounded reading maxLen = .ok (some (start, data), later)) :
    start = offset ∧ ∃ path identity, offer.sources.lookup fileId = some (path, identity) ∧
      life.Found since now path identity offset data := by
  rcases openFile_eq_ok opened with ⟨_, path, metadata, _, _, bounded, source, openRead, looked,
    own, _, begins, size, _⟩
  have answers := reads path file.identity source
  rcases answers.looked metadata looked with ⟨version, there, rfl⟩
  have ordered : file.offset ≤ file.size := by
    rw [begins, size]
    exact bounded
  have part := answers.nextChunkBounded within there own read
  refine ⟨(OutgoingFile.nextChunkBounded_some ordered read).1.trans begins, path, file.identity,
    source, times.opened, times.looked, place, version, within.opened, within.looked, ?_,
    answers.opened openRead, there, own, part⟩
  exact within.started.trans (within.ended 0)

end Syntra.Files
