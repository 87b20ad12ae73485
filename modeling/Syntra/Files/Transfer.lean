import Mathlib.Data.List.AList
import Mathlib.Data.List.Sort
import Syntra.Files.Path
import Syntra.Proto.Validate

/-!
# Source and destination files

The file side of a transfer (`file_transfer.rs`): a source handle that is read in order and checked
against the identity recorded in the offer, and a destination that takes chunks in order and is
compared with a digest at the end. What the operating system answers is an oracle, `Io`.
-/

namespace Syntra.Files

open ByteFormat Proto

/-- The kinds of errors that are told apart. -/
inductive IoErrorKind where
  | notFound
  | alreadyExists
  | invalidInput
  | other
  deriving DecidableEq, Repr

/-- An error of the operating system. -/
structure IoError where
  kind : IoErrorKind
  message : String
  deriving DecidableEq, Repr

/-- What the operating system says of a file. -/
structure Metadata where
  len : UInt64
  modified : Option ℕ
  dev : UInt64
  ino : UInt64
  isFile : Bool
  isDir : Bool
  isSymlink : Bool
  deriving DecidableEq, Repr

/-- `same_file::Handle`. -/
structure FileIdentity where
  dev : UInt64
  ino : UInt64
  deriving DecidableEq, Repr

/-- What the operating system answers during one operation. Calls on an open file that are
repeated within the operation are numbered. -/
structure Io where
  symlinkMetadata : PathBuf → Except IoError Metadata
  openRead : PathBuf → Except IoError Unit
  metadata : ℕ → Except IoError Metadata
  seek : UInt64 → Except IoError Unit
  read : ℕ → Except IoError Bytes
  canonicalize : PathBuf → Except IoError PathBuf
  createDirAll : PathBuf → Except IoError Unit
  createDir : PathBuf → Except IoError Unit
  createNew : PathBuf → Except IoError Unit
  tryClone : PathBuf → Except IoError Unit
  identityOf : PathBuf → Except IoError FileIdentity
  writeAll : Bytes → Except IoError Unit
  flush : Except IoError Unit
  syncData : Except IoError Unit
  rename : PathBuf → PathBuf → Except IoError Unit
  tempdirIn : PathBuf → Except IoError PathBuf
  spawnBlocking : Except String Unit
  display : PathBuf → String

/-- An operating system that does all it is asked; the open file has `len` bytes and yields `next`
when it is read. -/
def Io.obliging (len : UInt64) (next : Bytes) : Io where
  symlinkMetadata _ := .ok
    { len, modified := some 0, dev := 1, ino := 1,
      isFile := true, isDir := false, isSymlink := false }
  openRead _ := .ok ()
  metadata _ := .ok
    { len, modified := some 0, dev := 1, ino := 1,
      isFile := true, isDir := false, isSymlink := false }
  seek _ := .ok ()
  read _ := .ok next
  canonicalize := .ok
  createDirAll _ := .ok ()
  createDir _ := .ok ()
  createNew _ := .ok ()
  tryClone _ := .ok ()
  identityOf _ := .ok ⟨1, 1⟩
  writeAll _ := .ok ()
  flush := .ok ()
  syncData := .ok ()
  rename _ _ := .ok ()
  tempdirIn := .ok
  spawnBlocking := .ok ()
  display _ := ""

/-- Why an operation on files fails. -/
inductive TransferError where
  | io (error : IoError)
  | invalidUri (uri : String)
  | unsafePath (path : String)
  | unsupportedEntry (path : PathBuf)
  | tooManyEntries
  | tooLarge
  | staleTransfer (transferId : UInt64)
  | unknownFile (transferId fileId : UInt64)
  | unexpectedOffset (fileId expected actual : UInt64)
  | sizeMismatch (fileId expected actual : UInt64)
  | digestMismatch (fileId : UInt64)
  | cancelled
  | sourceChanged (fileId : UInt64)
  deriving DecidableEq, Repr

/-- `TransferError::to_string`. -/
def TransferError.message (io : Io) : TransferError → String
  | .io error => error.message
  | .invalidUri uri => s!"invalid file URI: {uri}"
  | .unsafePath path => s!"unsafe transfer path: {path}"
  | .unsupportedEntry path => "unsupported filesystem entry: " ++ io.display path
  | .tooManyEntries => "manifest contains too many entries"
  | .tooLarge => "manifest is larger than the clipboard transfer limit"
  | .staleTransfer transferId => s!"unknown or stale transfer {transferId}"
  | .unknownFile transferId fileId => s!"unknown file {fileId} in transfer {transferId}"
  | .unexpectedOffset fileId expected actual =>
    s!"unexpected offset for file {fileId}: expected {expected}, got {actual}"
  | .sizeMismatch fileId expected actual =>
    s!"size mismatch for file {fileId}: expected {expected}, got {actual}"
  | .digestMismatch fileId => s!"digest mismatch for file {fileId}"
  | .cancelled => "transfer was cancelled"
  | .sourceChanged _ => "source changed during transfer"

/-- `?` on an I/O result. -/
def orIo {α : Type} (result : Except IoError α) : Except TransferError α :=
  result.mapError .io

@[simp]
theorem orIo_eq_ok {α : Type} {result : Except IoError α} {value : α} :
    orIo result = .ok value ↔ result = .ok value := by
  cases result <;> simp [orIo, Except.mapError]

/-- By what a source is known to be unchanged. -/
structure SourceIdentity where
  len : UInt64
  modified : Option ℕ
  dev : UInt64
  ino : UInt64
  deriving DecidableEq, Repr

def SourceIdentity.fromMetadata (metadata : Metadata) : SourceIdentity where
  len := metadata.len
  modified := metadata.modified
  dev := metadata.dev
  ino := metadata.ino

/-- Named after `matches`, which is taken. -/
def SourceIdentity.matchesMetadata (identity : SourceIdentity) (metadata : Metadata) : Bool :=
  if identity.len ≠ metadata.len ∨ identity.modified = none ∨ metadata.modified = none ∨
      identity.modified ≠ metadata.modified then
    false
  else
    identity.dev = metadata.dev && identity.ino = metadata.ino

/-- The files that are offered, with where they are read. -/
structure FileOffer where
  transferId : UInt64
  entries : List ClipboardManifestEntry
  sources : AList (fun _ : UInt64 => PathBuf × SourceIdentity)

def FileOffer.fromRegularFile (io : Io) (transferId : UInt64) (path : PathBuf) :
    Except TransferError FileOffer := do
  if transferId = 0 then
    throw (.staleTransfer transferId)
  let metadata ← orIo (io.symlinkMetadata path)
  if metadata.isSymlink ∨ ¬metadata.isFile then
    throw (.unsupportedEntry path)
  let name ← okOr (path.fileName.bind fromUtf8?) (TransferError.unsafePath "invalid file name")
  if validateManualFileName name ≠ .ok () then
    throw (.unsafePath "invalid file name")
  let entry : ClipboardManifestEntry :=
    { fileId := 1, path := name, kind := .file, size := metadata.len }
  let sources : AList (fun _ : UInt64 => PathBuf × SourceIdentity) :=
    .singleton 1 (path, .fromMetadata metadata)
  pure { transferId, entries := [entry], sources }

/-- An open source. The hasher is kept as the bytes it was fed, which are the bytes that the
handle has yielded. -/
structure OutgoingFile where
  fileId : UInt64
  offset : UInt64
  size : UInt64
  identity : SourceIdentity
  hasher : Bytes
  cancelled : Bool
  deriving DecidableEq, Repr

/-- `open`; the word is taken. -/
def FileOffer.openFile (io : Io) (offer : FileOffer) (fileId offset : UInt64) :
    Except TransferError OutgoingFile := do
  let entry ← okOr (offer.entries.find? (fun entry => entry.fileId = fileId))
    (TransferError.unknownFile offer.transferId fileId)
  if entry.kind ≠ .file ∨ offset > entry.size then
    throw (.unexpectedOffset fileId entry.size offset)
  let (path, identity) ← okOr (offer.sources.lookup fileId)
    (TransferError.unknownFile offer.transferId fileId)
  orIo (io.openRead path)
  let metadata ← orIo (io.metadata 0)
  if ¬metadata.isFile ∨ ¬identity.matchesMetadata metadata then
    throw (.sourceChanged fileId)
  orIo (io.seek offset)
  pure { fileId, offset, size := entry.size, identity, hasher := [], cancelled := false }

namespace OutgoingFile

/-- The comparison of the open file with the identity in the offer, made on its `call`-th
metadata. -/
def checkIdentity (io : Io) (file : OutgoingFile) (call : ℕ) : Except TransferError Unit := do
  let metadata ← orIo (io.metadata call)
  if ¬file.identity.matchesMetadata metadata then
    throw (.sourceChanged file.fileId)

/-- The `while filled < requested` loop. Every turn reads at least one byte, so `requested` turns
are enough. -/
def fill (io : Io) (file : OutgoingFile) (requested : ℕ) :
    (turns turn : ℕ) → (data : Bytes) → Except TransferError Bytes
  | 0, _, data => pure data
  | turns + 1, turn, data => do
    if requested ≤ data.length then
      return data
    file.checkIdentity io (2 * turn + 1)
    let read ← orIo (io.read turn)
    let read := read.take (requested - data.length)
    if read.isEmpty then
      throw (.sourceChanged file.fileId)
    file.checkIdentity io (2 * turn + 2)
    file.fill io requested turns (turn + 1) (data ++ read)

def nextChunkBounded (io : Io) (file : OutgoingFile) (maxLen : ℕ) :
    Except TransferError (Option (UInt64 × Bytes) × OutgoingFile) := do
  if file.cancelled then
    throw .cancelled
  if file.offset = file.size then
    return (none, file)
  if maxLen = 0 ∨ maxLen > max maxClipboardFileChunkSize maxManualFileChunkSize then
    throw (.unexpectedOffset file.fileId file.offset file.offset)
  file.checkIdentity io 0
  let requested := min (file.size - file.offset).toNat maxLen
  let data ← file.fill io requested requested 0 []
  let offset ← okOr (checkedAdd file.offset (UInt64.ofNat data.length)) TransferError.tooLarge
  pure (some (file.offset, data), { file with offset, hasher := file.hasher ++ data })

def finalizeDigest (sha256 : Bytes → Digest) (io : Io) (file : OutgoingFile) :
    Except TransferError Digest := do
  if file.offset ≠ file.size then
    throw (.sizeMismatch file.fileId file.size file.offset)
  file.checkIdentity io 0
  pure (sha256 file.hasher)

end OutgoingFile

/-- A file being received; `file` holds the bytes written through the handle. -/
structure IncomingFile where
  file : Bytes
  expected : UInt64
  offset : UInt64
  hasher : Bytes
  deriving DecidableEq, Repr

/-- The manifest of a transfer, with what was created for it. -/
structure IncomingTransfer where
  transferId : UInt64
  destination : PathBuf
  entries : AList (fun _ : UInt64 => ClipboardManifestEntry)
  files : AList (fun _ : UInt64 => IncomingFile)
  createdFiles : AList (fun _ : PathBuf => FileIdentity)
  createdDirs : List PathBuf
  cancelled : Bool
  finished : Bool

def validateRelativePath (path : String) : Except TransferError Unit := do
  let bytes := utf8 path
  if bytes.isEmpty || bytes.length > maxClipboardPathSize || bytes.contains 0x5c ||
      bytes.contains 0 then
    throw (.unsafePath path)
  let parsed := PathBuf.ofText path
  if parsed.absolute || parsed.components.any (fun component =>
      component = .curDir || component = .parentDir) then
    throw (.unsafePath path)

def ensureContained (io : Io) (root path : PathBuf) : Except TransferError Unit :=
  if ¬path.startsWith root ∨ path = root then
    .error (.unsafePath (io.display path))
  else
    .ok ()

namespace IncomingTransfer

/-- The loop of `new` over the declared entries. -/
def collectEntries (sizeLimit : Option UInt64) (paths : List String)
    (previous total : UInt64) (byId : AList (fun _ : UInt64 => ClipboardManifestEntry)) :
    List ClipboardManifestEntry →
      Except TransferError (AList (fun _ : UInt64 => ClipboardManifestEntry))
  | [] => pure byId
  | entry :: entries => do
    if entry.fileId = 0 ∨ entry.fileId ≤ previous ∨ entry.path ∈ paths then
      throw (.unsafePath entry.path)
    validateRelativePath entry.path
    if entry.kind = .directory ∧ entry.size ≠ 0 then
      throw (.sizeMismatch entry.fileId 0 entry.size)
    let total ← okOr (checkedAdd total entry.size) TransferError.tooLarge
    if sizeLimit.any (fun limit => total > limit) then
      throw .tooLarge
    collectEntries sizeLimit (entry.path :: paths) entry.fileId total
      (byId.insert entry.fileId entry) entries

def new (io : Io) (transferId : UInt64) (entries : List ClipboardManifestEntry)
    (destination : PathBuf) (sizeLimit : Option UInt64) :
    Except TransferError IncomingTransfer := do
  if entries.isEmpty || entries.length > maxClipboardManifestEntries then
    throw .tooManyEntries
  let destination ← orIo (io.canonicalize destination)
  let entries ← collectEntries sizeLimit [] 0 0 ∅ entries
  pure { transferId, destination, entries, files := ∅, createdFiles := ∅, createdDirs := []
         cancelled := false, finished := false }

def ensureActive (transfer : IncomingTransfer) : Except TransferError Unit :=
  if transfer.cancelled then .error .cancelled else .ok ()

/-- The loop of `create_parents` over the components below the destination. -/
def createComponents (io : Io) (transfer : IncomingTransfer) (current : PathBuf) :
    List Component → Except TransferError IncomingTransfer
  | [] => pure transfer
  | component :: components => do
    let current := current.push component
    match io.symlinkMetadata current with
    | .ok metadata =>
      if metadata.isSymlink ∨ ¬metadata.isDir then
        throw (.unsafePath (io.display current))
      transfer.createComponents io current components
    | .error error =>
      if error.kind = .notFound then
        orIo (io.createDir current)
        let createdDirs := transfer.createdDirs.insert current
        { transfer with createdDirs }.createComponents io current components
      else
        throw (.io error)

def createParents (io : Io) (transfer : IncomingTransfer) (path : PathBuf) :
    Except TransferError IncomingTransfer := do
  let relative ← okOr (path.stripPrefix transfer.destination)
    (TransferError.unsafePath (io.display path))
  transfer.createComponents io transfer.destination relative

/-- A created file that takes chunks from now on. -/
def openFile (transfer : IncomingTransfer) (fileId : UInt64) (target : PathBuf)
    (identity : FileIdentity) (expected : UInt64) : IncomingTransfer :=
  { transfer with
    createdFiles := transfer.createdFiles.insert target identity
    files := transfer.files.insert fileId { file := [], expected, offset := 0, hasher := [] } }

/-- One turn of the loop of `prepare`. -/
def prepareEntry (io : Io) (transfer : IncomingTransfer) (entry : ClipboardManifestEntry) :
    Except TransferError IncomingTransfer := do
  let target := transfer.destination.join (.ofText entry.path)
  ensureContained io transfer.destination target
  match entry.kind with
  | .directory => transfer.createParents io target
  | .file =>
    let parent ← okOr target.parent (TransferError.unsafePath entry.path)
    let transfer ← transfer.createParents io parent
    orIo (io.createNew target)
    orIo (io.tryClone target)
    let identity ← orIo (io.identityOf target)
    pure (transfer.openFile entry.fileId target identity entry.size)

def prepareEntries (io : Io) (transfer : IncomingTransfer) :
    List ClipboardManifestEntry → Except TransferError IncomingTransfer
  | [] => pure transfer
  | entry :: entries => do
    let transfer ← transfer.prepareEntry io entry
    transfer.prepareEntries io entries

def sortedEntries (transfer : IncomingTransfer) : List ClipboardManifestEntry :=
  (transfer.entries.entries.map (·.2)).mergeSort (fun left right => left.fileId ≤ right.fileId)

/-- The list of files to ask for. -/
def requests (transfer : IncomingTransfer) : List (UInt64 × UInt64) :=
  (transfer.sortedEntries.filter (fun entry => entry.kind = .file)).map (·.fileId, 0)

/-- `prepare`, with the list of files to ask for. -/
def prepare (io : Io) (transfer : IncomingTransfer) :
    Except TransferError (List (UInt64 × UInt64) × IncomingTransfer) := do
  transfer.ensureActive
  let prepared ← transfer.prepareEntries io transfer.sortedEntries
  pure (transfer.requests, prepared)

/-- The checks of `write_chunk`: the file, and where the chunk ends in it. -/
def checkChunk (transfer : IncomingTransfer) (fileId offset : UInt64) (data : Bytes) :
    Except TransferError (IncomingFile × UInt64) := do
  transfer.ensureActive
  if data.isEmpty || data.length > max maxClipboardFileChunkSize maxManualFileChunkSize then
    throw (.unexpectedOffset fileId offset offset)
  let incoming ← okOr (transfer.files.lookup fileId)
    (TransferError.unknownFile transfer.transferId fileId)
  if offset ≠ incoming.offset then
    throw (.unexpectedOffset fileId incoming.offset offset)
  let next ← okOr (checkedAdd offset (UInt64.ofNat data.length)) TransferError.tooLarge
  if next > incoming.expected then
    throw (.sizeMismatch fileId incoming.expected next)
  pure (incoming, next)

def acceptChunk (transfer : IncomingTransfer) (fileId : UInt64) (incoming : IncomingFile)
    (next : UInt64) (data : Bytes) : IncomingTransfer :=
  { transfer with
    files := transfer.files.insert fileId { incoming with
      file := incoming.file ++ data, hasher := incoming.hasher ++ data, offset := next } }

def writeChunk (io : Io) (transfer : IncomingTransfer) (fileId offset : UInt64) (data : Bytes) :
    Except TransferError IncomingTransfer := do
  let (incoming, next) ← transfer.checkChunk fileId offset data
  orIo (io.writeAll data)
  pure (transfer.acceptChunk fileId incoming next data)

def finish (transfer : IncomingTransfer) : Except TransferError IncomingTransfer := do
  transfer.ensureActive
  if transfer.files.entries ≠ [] then
    throw .cancelled
  pure { transfer with finished := true }

/-- The checks of `finalize_file` before the digest. -/
def checkSize (transfer : IncomingTransfer) (fileId size : UInt64) :
    Except TransferError IncomingFile := do
  transfer.ensureActive
  let incoming ← okOr (transfer.files.lookup fileId)
    (TransferError.unknownFile transfer.transferId fileId)
  if size ≠ incoming.expected ∨ incoming.offset ≠ incoming.expected then
    throw (.sizeMismatch fileId size incoming.offset)
  pure incoming

def finalizeFile (sha256 : Bytes → Digest) (io : Io) (transfer : IncomingTransfer)
    (fileId size : UInt64) (digest : Digest) : Except TransferError IncomingTransfer := do
  let incoming ← transfer.checkSize fileId size
  orIo io.flush
  orIo io.syncData
  if sha256 incoming.hasher ≠ digest then
    throw (.digestMismatch fileId)
  pure { transfer with files := transfer.files.erase fileId }

section

variable {transfer : IncomingTransfer} {fileId : UInt64} {incoming : IncomingFile}

theorem ensureActive_eq_ok {value : Unit} :
    transfer.ensureActive = .ok value ↔ transfer.cancelled = false := by
  unfold ensureActive
  split
  · rename_i cancelled
    simp [cancelled]
  · rename_i active
    simp [active]

theorem checkChunk_eq_ok {offset next : UInt64} {data : Bytes} :
    transfer.checkChunk fileId offset data = .ok (incoming, next) ↔
      transfer.cancelled = false ∧ data ≠ [] ∧
      data.length ≤ max maxClipboardFileChunkSize maxManualFileChunkSize ∧
      transfer.files.lookup fileId = some incoming ∧ offset = incoming.offset ∧
      next.toNat = incoming.offset.toNat + data.length ∧ next ≤ incoming.expected := by
  simp only [checkChunk, bind_ok, guard_bind_ok, okOr_eq_ok, pure_ok, Prod.mk.injEq,
    ensureActive_eq_ok, not_not, Bool.or_eq_true, List.isEmpty_iff, decide_eq_true_eq, not_or,
    Nat.not_lt, gt_iff_lt, UInt64.not_lt, checkedAdd_eq_some]
  have length (limited : data.length ≤ max maxClipboardFileChunkSize maxManualFileChunkSize) :
      (UInt64.ofNat data.length).toNat = data.length :=
    UInt64.toNat_ofNat_of_lt (lt_of_le_of_lt limited (by decide))
  constructor
  · rintro ⟨_, active, ⟨nonempty, limited⟩, file, found, rfl, _, ⟨small, rfl⟩, fits, rfl, rfl⟩
    refine ⟨active, nonempty, limited, found, rfl, ?_, fits⟩
    rw [toNat_add_of_le small, length limited]
  · rintro ⟨active, nonempty, limited, found, rfl, ends, fits⟩
    have small : incoming.offset.toNat + (UInt64.ofNat data.length).toNat ≤ u64Max := by
      rw [length limited, ← ends]
      exact Nat.le_of_lt_succ next.toNat_lt
    have sum : next = incoming.offset + UInt64.ofNat data.length := by
      apply UInt64.toNat_inj.mp
      rw [toNat_add_of_le small, length limited, ends]
    exact ⟨(), active, ⟨nonempty, limited⟩, incoming, found, rfl, next, ⟨small, sum⟩, fits, rfl,
      rfl⟩

theorem checkSize_eq_ok {size : UInt64} :
    transfer.checkSize fileId size = .ok incoming ↔ transfer.cancelled = false ∧
      transfer.files.lookup fileId = some incoming ∧ size = incoming.expected ∧
      incoming.offset = incoming.expected := by
  simp only [checkSize, ensureActive_eq_ok, bind_ok, guard_bind_ok, okOr_eq_ok, pure_ok, not_or,
    not_not]
  constructor
  · rintro ⟨_, active, _, found, ⟨size, offset⟩, rfl⟩
    exact ⟨active, found, size, offset⟩
  · rintro ⟨active, found, size, offset⟩
    exact ⟨(), active, incoming, found, ⟨size, offset⟩, rfl⟩

end

end IncomingTransfer

end Syntra.Files
