import Syntra.FileTree.Basic
import Syntra.Files.Transfer
import Syntra.StateMachine.Handler
import Syntra.StateMachine.Run

/-!
# The reception of files

An `IncomingTransfer` with the files it holds open and the file system around it
(`file_transfer.rs`): what `prepare` creates, what is written through the open files, and what is
removed when the transfer is dropped. An open file writes bytes later, and the next call on it
reports what became of them. Beside the transfer it is recorded what it created and accepted.
Between two operations anything may happen to the file system.
-/

namespace Syntra.Files

open ByteFormat FileTree StateMachine Proto Tables

abbrev Disk := FileTree.Tree FileIdentity Component

def ioError : Trouble → IoError
  | .notFound => ⟨.notFound, "No such file or directory (os error 2)"⟩
  | .alreadyExists => ⟨.alreadyExists, "File exists (os error 17)"⟩
  | .notADirectory => ⟨.other, "Not a directory (os error 20)"⟩
  | .isADirectory => ⟨.other, "Is a directory (os error 21)"⟩
  | .notEmpty => ⟨.other, "Directory not empty (os error 39)"⟩

/-- What the operating system answers during one operation besides what follows from the tree: which
calls it refuses, the identities of what is created, what became of the last write to an open file,
of which only so many bytes were written if it failed, and the order of the hash tables. `identify`
is asked of the new file, and `identifyWriter` of its duplicate. -/
structure Answers where
  symlinkMetadata : PathBuf → Option IoError
  createDir : PathBuf → Option IoError
  createNew : PathBuf → Option IoError
  tryClone : PathBuf → Option IoError
  identify : PathBuf → Option IoError
  identifyWriter : PathBuf → Option IoError
  identifyPath : PathBuf → Option IoError
  removeFile : PathBuf → Option IoError
  removeDir : PathBuf → Option IoError
  lastWrite : Option (IoError × ℕ)
  syncData : Option IoError
  identity : PathBuf → FileIdentity
  display : PathBuf → String
  order : IterOrder PathBuf

def refused (refusal : Option IoError) : Except IoError Unit :=
  match refusal with
  | none => .ok ()
  | some error => .error error

/-- What an operation on the transfer alone gets to hear, on this tree. -/
def Answers.io (answers : Answers) (disk : Disk) : Io :=
  { Io.obliging 0 [] with
    createNew := fun path => do
      refused (answers.createNew path)
      let _ ← (disk.enter path.components (.file (answers.identity path))).mapError ioError
    tryClone := fun path => refused (answers.tryClone path)
    identityOf := fun path => do
      refused (answers.identify path)
      pure (answers.identity path)
    writeAll := fun _ => refused (answers.lastWrite.map (·.1))
    flush := refused (answers.lastWrite.map (·.1))
    syncData := refused answers.syncData
    display := answers.display }

/-- A file with what has reached it and what is still buffered. -/
structure OpenFile where
  written : Bytes
  pending : Bytes
  failed : Bool
  deriving DecidableEq, Repr

def OpenFile.settle (answers : Answers) (file : OpenFile) : OpenFile :=
  match answers.lastWrite with
  | none => { file with written := file.written ++ file.pending, pending := [] }
  | some (_, count) =>
    { written := file.written ++ file.pending.take count, pending := [], failed := true }

/-- A transfer that is received, with the files that it has open. -/
structure Reception where
  transfer : IncomingTransfer
  openFiles : Table UInt64 OpenFile
  disk : Disk
  /-- What the transfer has created, and where. -/
  made : List (PathBuf × Node FileIdentity Component)
  /-- Where it could not use the file that it had created. -/
  abandoned : List PathBuf
  /-- The chunks accepted for each file since it was opened. -/
  accepted : Table UInt64 (List Bytes)

abbrev Receives (α : Type) : Type := Handler Reception TransferError α

namespace Reception

open Handler (read change stop)

def orFail {α : Type} (result : Except TransferError α) : Receives α :=
  match result with
  | .ok value => pure value
  | .error error => stop error

/-- A call that the operating system may refuse. -/
def allowed (refusal : Option IoError) : Receives Unit :=
  match refusal with
  | none => pure ()
  | some error => stop (.io error)

def ensureActive : Receives Unit := do
  let reception ← read
  orFail reception.transfer.ensureActive

/-- `create_dir` and `create_new`: something new stands where the path leads. -/
def create (refusal : Option IoError) (path : PathBuf) (node : Node FileIdentity Component) :
    Receives Unit := do
  allowed refusal
  let reception ← read
  match reception.disk.enter path.components node with
  | .error trouble => stop (.io (ioError trouble))
  | .ok (_, disk) => change fun reception => { reception with disk }

variable (answers : Answers)

/-- The answer to `symlink_metadata`, which the code looks at. -/
def symlinkMetadata (path : PathBuf) : Receives (Except IoError (Node FileIdentity Component)) := do
  let reception ← read
  match answers.symlinkMetadata path with
  | some error => pure (.error error)
  | none => pure ((reception.disk.stat path.components).mapError ioError)

/-- One directory on the way. -/
def createComponent (current : PathBuf) : Receives Unit := do
  match ← symlinkMetadata answers current with
  | .ok (.dir _) => pure ()
  | .ok _ => stop (.unsafePath (answers.display current))
  | .error error =>
    if error.kind = .notFound then do
      create (answers.createDir current) current (.dir (answers.identity current))
      change fun reception => { reception with
        transfer := { reception.transfer with
          createdDirs := reception.transfer.createdDirs.insert current }
        made := (current, .dir (answers.identity current)) :: reception.made }
    else
      stop (.io error)

/-- The loop of `create_parents` over the components below the destination. -/
def createComponents (answers : Answers) (current : PathBuf) : List Component → Receives Unit
  | [] => pure ()
  | component :: components => do
    createComponent answers (current.push component)
    createComponents answers (current.push component) components

def createParents (path : PathBuf) : Receives Unit := do
  let reception ← read
  match path.stripPrefix reception.transfer.destination with
  | none => stop (.unsafePath (answers.display path))
  | some relative => createComponents answers reception.transfer.destination relative

/-- `owns_created_file`: the path still leads to the very file. -/
def owns (disk : Disk) (path : PathBuf) (identity : FileIdentity) : Bool :=
  (answers.symlinkMetadata path).isNone && (answers.identifyPath path).isNone &&
    (disk.stat path.components).toOption = some (.file identity)

/-- A file that the transfer owns goes; whether that works is not looked at. -/
def removeOwned (disk : Disk) (path : PathBuf) (identity : FileIdentity) : Disk :=
  if owns answers disk path identity ∧ (answers.removeFile path).isNone then
    (disk.unlink path.components).toOption.getD disk
  else disk

/-- A new file that cannot be used goes with its `CreatedFileGuard`, if that could be made. -/
def guarded (identified : Option IoError) (path : PathBuf) : Receives Unit :=
  change fun reception => { reception with
    disk :=
      if identified.isNone then removeOwned answers reception.disk path (answers.identity path)
      else reception.disk
    made := (path, .file (answers.identity path)) :: reception.made
    abandoned := path :: reception.abandoned }

def createFile (target : PathBuf) : Receives Unit := do
  create (answers.createNew target) target (.file (answers.identity target))
  match answers.tryClone target with
  | some error => do
    guarded answers (answers.identify target) target
    stop (.io error)
  | none =>
    match answers.identify target with
    | some error => do
      guarded answers (answers.identifyWriter target) target
      stop (.io error)
    | none => pure ()

def openFile (fileId : UInt64) (target : PathBuf) (identity : FileIdentity) (expected : UInt64)
    (reception : Reception) : Reception :=
  { reception with
    transfer := reception.transfer.openFile fileId target identity expected
    openFiles := reception.openFiles.insert fileId ⟨[], [], false⟩
    made := (target, .file identity) :: reception.made
    accepted := reception.accepted.insert fileId [] }

/-- One turn of the loop of `prepare`. -/
def prepareEntry (entry : ClipboardManifestEntry) : Receives Unit := do
  let reception ← read
  let target := reception.transfer.destination.join (.ofText entry.path)
  orFail (ensureContained (answers.io reception.disk) reception.transfer.destination target)
  match entry.kind with
  | .directory => createParents answers target
  | .file =>
    match target.parent with
    | none => stop (.unsafePath entry.path)
    | some parent => do
      createParents answers parent
      createFile answers target
      change (openFile entry.fileId target (answers.identity target) entry.size)

def prepare : Receives (List (UInt64 × UInt64)) := do
  ensureActive
  let reception ← read
  .each reception.transfer.sortedEntries (prepareEntry answers)
  pure reception.transfer.requests

/-- A call on an open file waits for the last write and reports what became of it. -/
def settle (fileId : UInt64) : Receives Unit := do
  change fun reception => { reception with
    openFiles := Tables.modify reception.openFiles fileId (·.settle answers) }
  allowed (answers.lastWrite.map (·.1))

/-- `write_all`: the bytes are on their way. -/
def writeAll (fileId : UInt64) (data : Bytes) : Receives Unit := do
  settle answers fileId
  change fun reception => { reception with
    openFiles :=
      Tables.modify reception.openFiles fileId fun file => { file with pending := data } }

def acceptChunk (fileId : UInt64) (incoming : IncomingFile) (next : UInt64) (data : Bytes)
    (reception : Reception) : Reception :=
  { reception with
    transfer := reception.transfer.acceptChunk fileId incoming next data
    accepted := Tables.modify reception.accepted fileId (· ++ [data]) }

variable (transfer : IncomingTransfer)

def writeChunk (fileId offset : UInt64) (data : Bytes) : Receives Unit := do
  let reception ← read
  let (incoming, next) ← orFail (reception.transfer.checkChunk fileId offset data)
  writeAll answers fileId data
  change (acceptChunk fileId incoming next data)

def finish : Receives Unit := do
  let reception ← read
  let transfer ← orFail reception.transfer.finish
  change fun reception => { reception with transfer }

def finalizeFile (sha256 : Bytes → Digest) (answers : Answers) (fileId size : UInt64)
    (digest : Digest) : Receives Unit := do
  let reception ← read
  let incoming ← orFail (reception.transfer.checkSize fileId size)
  settle answers fileId
  allowed answers.syncData
  if sha256 incoming.hasher ≠ digest then
    stop (.digestMismatch fileId)
  else
    change fun reception => { reception with
      transfer := { reception.transfer with files := reception.transfer.files.erase fileId }
      openFiles := reception.openFiles.erase fileId }

/-- A created directory goes if it is empty; whether that works is not looked at. -/
def removeCreated (disk : Disk) (path : PathBuf) : Disk :=
  if (answers.removeDir path).isNone then
    (disk.removeDir path.components).toOption.getD disk
  else disk

/-- The created files, and then the created directories, the deepest ones first. -/
def cleanUp (disk : Disk) : Disk :=
  let disk := (answers.order.arrange transfer.createdFiles.keys).foldl (fun disk path =>
    (transfer.createdFiles.lookup path).elim disk (removeOwned answers disk path)) disk
  let dirs := (answers.order.arrange transfer.createdDirs).mergeSort
    (fun left right => right.components.length ≤ left.components.length)
  dirs.foldl (removeCreated answers) disk

def drop (reception : Reception) : Disk :=
  if reception.transfer.finished then reception.disk
  else cleanUp answers reception.transfer reception.disk

/-- The operations on the transfer, and whatever else happens to the file system. -/
inductive Operation where
  | prepare (answers : Answers)
  | writeChunk (answers : Answers) (fileId offset : UInt64) (data : Bytes)
  | finalizeFile (answers : Answers) (fileId size : UInt64) (digest : Digest)
  | finish
  | elsewhere (disk : Disk)

def after (sha256 : Bytes → Digest) (reception : Reception) : Operation → Reception
  | .prepare answers => (prepare answers).stateAfter reception
  | .writeChunk answers fileId offset data =>
    (writeChunk answers fileId offset data).stateAfter reception
  | .finalizeFile answers fileId size digest =>
    (finalizeFile sha256 answers fileId size digest).stateAfter reception
  | .finish => finish.stateAfter reception
  | .elsewhere disk => { reception with disk }

def begin (disk : Disk) : Reception where
  transfer
  openFiles := ∅
  disk
  made := []
  abandoned := []
  accepted := ∅

/-- A transfer in any order of operations, among whatever else happens. -/
def machine (sha256 : Bytes → Digest) (transfer : IncomingTransfer) (disk : Disk) :
    Machine Reception Operation where
  initial := begin transfer disk
  enabled := fun _ _ => True
  next := after sha256

end Reception

end Syntra.Files
