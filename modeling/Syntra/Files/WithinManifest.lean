import Syntra.Files.CleanUp

/-!
# Files stay within their manifest

In every state that a transfer of files reaches, whatever chunks arrive and whatever happens to the
file system meanwhile, its files hold what was accepted for them, one is finalised when all of it is
there, and dropping the transfer clears away what it created.
-/

namespace Syntra.Files

open ByteFormat StateMachine Proto

namespace Reception

variable {sha256 : Bytes → Digest} {transfer : IncomingTransfer} {reception : Reception}

/-- A run of the transfer reaches this state. -/
def Reached (sha256 : Bytes → Digest) (transfer : IncomingTransfer) (reception : Reception) :
    Prop :=
  ∃ (io : Io) (transferId : UInt64) (entries : List ClipboardManifestEntry)
    (destination : PathBuf) (sizeLimit : Option UInt64) (disk : Disk) (history : List Reception),
    IncomingTransfer.new io transferId entries destination sizeLimit = .ok transfer ∧
      Run (machine sha256 transfer disk) history ∧ reception ∈ history

theorem Reached.sound (reached : Reached sha256 transfer reception) :
    Sound transfer.entries reception := by
  rcases reached with ⟨_, _, _, _, _, _, _, fresh, run, member⟩
  apply run.invariant _ reception member
  exact ⟨sound_begin fresh, fun _ operation sound _ => sound.after (new_keyed fresh) operation⟩

/-- A file holds the chunks accepted for it unless a call on it has failed, it is finalised exactly
when all of it reaches the disk with the size and the digest announced, and the end of the transfer
clears away what the transfer created unless it is finished. -/
theorem within_manifest (reached : Reached sha256 transfer reception) :
    reception.transfer.entries = transfer.entries ∧
    (∀ fileId incoming, reception.transfer.files.lookup fileId = some incoming →
      reception.Holds fileId incoming) ∧
    (∀ answers fileId size digest,
      (finalizeFile sha256 answers fileId size digest reception).1 = .ok () ↔
        (∃ incoming, reception.transfer.files.lookup fileId = some incoming ∧
          size = incoming.expected ∧ incoming.file.length = size.toNat ∧
          sha256 incoming.file = digest) ∧
        answers.lastWrite = none ∧ answers.syncData = none) ∧
    (∀ entry ∈ reception.made, reception.Tracked entry) ∧
    ∀ answers, (reception.transfer.finished = true → drop answers reception = reception.disk) ∧
      (reception.transfer.finished = false →
        Clears answers reception (drop answers reception)) := by
  have sound := reached.sound
  refine ⟨sound.entries, sound.opened, ?_, sound.tracked, ?_⟩
  · exact fun answers _ _ _ => finalizeFile_ok_iff sound
  · intro _
    refine ⟨?_, fun unfinished => sound.clears unfinished⟩
    intro finished
    simp [drop, finished]

end Reception

namespace Reception.Abc

def r : Component := .normal (utf8 "r")

def d : Component := .normal (utf8 "d")

def entry : ClipboardManifestEntry := ⟨1, "d/a.txt", .file, 3⟩

def transfer : IncomingTransfer where
  transferId := 1
  destination := ⟨true, [r]⟩
  entries := .singleton 1 entry
  files := ∅
  createdFiles := ∅
  createdDirs := []
  cancelled := false
  finished := false

def disk : Disk := (AList.singleton [] (.dir ⟨1, 1⟩)).insert [r] (.dir ⟨1, 2⟩)

def answers : Answers where
  symlinkMetadata _ := none
  createDir _ := none
  createNew _ := none
  tryClone _ := none
  identify _ := none
  identifyWriter _ := none
  identifyPath _ := none
  removeFile _ := none
  removeDir _ := none
  lastWrite := none
  syncData := none
  identity path := ⟨2, UInt64.ofNat path.components.length⟩
  display _ := ""
  order := .asStored _

def full : Answers :=
  { answers with lastWrite := some (⟨.other, "No space left on device (os error 28)"⟩, 1) }

def unsynced : Answers :=
  { answers with syncData := some ⟨.other, "Input/output error (os error 5)"⟩ }

def sha256 (_ : Bytes) : Digest := abcDigest

def machine : Machine Reception Operation := Reception.machine sha256 transfer disk

def begun : List Operation := [.prepare answers, .writeChunk answers 1 0 [0x61, 0x62]]

def arrived : List Operation := begun ++ [.writeChunk answers 1 2 [0x63]]

def lost : List Operation := begun ++ [.writeChunk full 1 2 [0x63]]

def replaced : List Operation := [.prepare answers, .elsewhere (disk.insert [r, d] (.dir ⟨3, 1⟩))]

def reach (operations : List Operation) : Reception := machine.after machine.initial operations

theorem fresh :
    IncomingTransfer.new (Io.obliging 0 []) 1 [entry] ⟨true, [r]⟩ none = .ok transfer := by
  rfl

theorem reached (operations : List Operation) : Reached sha256 transfer (reach operations) := by
  have follows : machine.Follows machine.initial operations := by
    generalize machine.initial = before
    induction operations generalizing before with
    | nil => trivial
    | cons _ _ ih => exact ⟨trivial, ih _⟩
  rcases Run.of_follows follows with ⟨_, run⟩
  exact ⟨_, _, _, _, _, _, _, fresh, run, .head _⟩

end Reception.Abc

namespace Reception

open Abc

/-- Two bytes of the file are there, and the end of the transfer clears it away. -/
theorem within_manifest_abc :
    ∃ incoming, (reach begun).transfer.files.lookup 1 = some incoming ∧ incoming.offset = 2 ∧
      (reach begun).Holds 1 incoming ∧
      Clears answers (reach begun) (drop answers (reach begun)) := by
  have offset : ((reach begun).transfer.files.lookup 1).map (·.offset) = some 2 := by
    decide +kernel
  have unfinished : (reach begun).transfer.finished = false := by
    decide +kernel
  rcases within_manifest (Abc.reached begun) with ⟨_, holds, _, _, ends⟩
  rcases Option.map_eq_some_iff.mp offset with ⟨incoming, found, second⟩
  exact ⟨incoming, found, second, holds 1 incoming found, (ends answers).2 unfinished⟩

/-- The bytes of a write that failed are not in the file, a file is not finalised if it cannot be
synchronised, and the directory that goes can be someone else's. -/
theorem beyond_manifest :
    (¬∀ (sha256 : Bytes → Digest) (transfer : IncomingTransfer) (reception : Reception),
      Reached sha256 transfer reception → ∀ fileId incoming file,
        reception.transfer.files.lookup fileId = some incoming →
        reception.openFiles.lookup fileId = some file →
          file.written ++ file.pending = incoming.file) ∧
    (¬∀ (sha256 : Bytes → Digest) (transfer : IncomingTransfer) (reception : Reception),
      Reached sha256 transfer reception → ∀ answers fileId size digest incoming,
        reception.transfer.files.lookup fileId = some incoming → size = incoming.expected →
        incoming.file.length = size.toNat → sha256 incoming.file = digest →
          (finalizeFile sha256 answers fileId size digest reception).1 = .ok ()) ∧
    ¬∀ (sha256 : Bytes → Digest) (transfer : IncomingTransfer) (reception : Reception),
      Reached sha256 transfer reception → reception.transfer.finished = false →
        ∀ answers place node, reception.disk.lookup place = some node →
          (drop answers reception).lookup place = none → ∃ path, (path, node) ∈ reception.made := by
  refine ⟨?_, ?_, ?_⟩
  · intro whole
    have taken : ((reach lost).transfer.files.lookup 1).map (·.file) = some [0x61, 0x62] := by
      decide +kernel
    have written : (reach lost).openFiles.lookup 1 = some ⟨[0x61], [], true⟩ := by
      decide +kernel
    rcases Option.map_eq_some_iff.mp taken with ⟨incoming, found, bytes⟩
    have same := whole _ _ _ (Abc.reached lost) 1 incoming _ found written
    rw [bytes] at same
    exact absurd same (by decide)
  · intro finalised
    have taken : ((reach arrived).transfer.files.lookup 1).map
        (fun incoming => (incoming.expected, incoming.file)) = some (3, [0x61, 0x62, 0x63]) := by
      decide +kernel
    have refused :
        (finalizeFile Abc.sha256 unsynced 1 3 (Abc.sha256 []) (reach arrived)).1.toOption =
          none := by
      decide +kernel
    rcases Option.map_eq_some_iff.mp taken with ⟨incoming, found, same⟩
    rw [Prod.mk.injEq] at same
    have done := finalised _ _ _ (Abc.reached arrived) unsynced 1 3 (Abc.sha256 []) incoming found
      same.1.symm (by rw [same.2]; rfl) rfl
    rw [done] at refused
    cases refused
  · intro own
    have unfinished : (reach replaced).transfer.finished = false := by
      decide +kernel
    have there : (reach replaced).disk.lookup [r, d] = some (.dir ⟨3, 1⟩) := by
      decide +kernel
    have gone : (drop answers (reach replaced)).lookup [r, d] = none := by
      decide +kernel
    have made : ∀ entry ∈ (reach replaced).made, entry.2 ≠ .dir ⟨3, 1⟩ := by
      decide +kernel
    rcases own _ _ _ (Abc.reached replaced) unfinished answers _ _ there gone with ⟨_, member⟩
    exact made _ member rfl

end Reception

end Syntra.Files
