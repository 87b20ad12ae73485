import Syntra.Files.Transfer
import Syntra.Tables.Association

/-!
# Clipboard file transfers

What a device keeps of the file offers it serves to peers and of those peers serve to it
(`transfer_manager.rs`), what it tells peers, adapters and clients, and the check of the chunk that
answers a range request. The digest and the base 64 encoding are parameters.
-/

namespace Syntra.Clipboard

open ByteFormat Proto Files Tables

abbrev UiTransferId := UInt64

abbrev AdapterId := String

/-- A transfer as its peer numbers it. -/
structure TransferOwner (P : Type) where
  peer : P
  wireId : UInt64
  deriving DecidableEq, Repr

/-- What a range was asked for. -/
structure PendingRangeKey (P : Type) where
  owner : TransferOwner P
  fileId : UInt64
  requestId : UInt64
  offset : UInt64
  length : UInt64
  deriving DecidableEq, Repr

abbrev RequestKey (P : Type) := TransferOwner P × UInt64 × UInt64

/-- Whether the files stay where they are. -/
inductive Operation where
  | copy
  | move
  deriving DecidableEq, Repr

/-- What adapters know entries as. -/
inductive EntryKind where
  | file
  | directory
  | other
  deriving DecidableEq, Repr

/-- An entry of a manifest as an adapter is told of it. -/
structure RemoteEntry where
  entryId : UInt64
  path : String
  kind : EntryKind
  size : Option UInt64
  deriving DecidableEq, Repr

/-- The part of a copied selection that the state machine reads. -/
structure CopyManifest where
  transferId : String
  operation : Operation
  deriving DecidableEq, Repr

/-- An adapter asks for a range of a file. -/
structure RangeRequest where
  transferId : String
  requestId : UInt64
  entryId : UInt64
  offset : UInt64
  length : UInt32
  deriving DecidableEq, Repr

/-- An adapter is given the range, or told why not. -/
structure RangeResponse where
  transferId : String
  requestId : UInt64
  offset : UInt64
  dataBase64 : String
  eof : Bool
  error : Option String
  deriving DecidableEq, Repr

structure MountReady where
  transferId : String
  uris : List String
  deriving DecidableEq, Repr

structure AdapterProgress where
  transferId : String
  completedBytes : Option UInt64
  totalBytes : Option UInt64
  deriving DecidableEq, Repr

structure Completion where
  transferId : String
  success : Bool
  error : Option String
  deriving DecidableEq, Repr

structure Unmounted where
  transferId : String
  success : Bool
  error : Option String
  deriving DecidableEq, Repr

/-- The messages that the state machine sends to adapters. -/
inductive AdapterMessage where
  | remoteManifest (transferId : String) (operation : Operation) (entries : List RemoteEntry)
  | rangeResponse (response : RangeResponse)
  | publishFileClipboard (transferId : String) (operation : Operation) (uris : List String)
  | unmounted (unmounted : Unmounted)
  | cancel (transferId : String)
  deriving DecidableEq, Repr

/-- What users are shown of a transfer. -/
inductive TransferFrontendEvent where
  | progress (uiId : UiTransferId) (completed total : UInt64)
  | completed (uiId : UiTransferId) (fileId : Option UInt64) (completed total : UInt64)
  | cancelled (uiId : UiTransferId) (fileId : Option UInt64) (completed total : UInt64)
  | failed (uiId : UiTransferId) (fileId : Option UInt64) (completed total : UInt64)
      (error : String)
  deriving DecidableEq, Repr

/-- What the service is to do after an operation. -/
inductive TransferAction (P : Type) where
  | peer (peer : P) (event : ProtoEvent)
  | adapter (adapterId : AdapterId) (message : AdapterMessage)
  | frontend (event : TransferFrontendEvent)
  | readSource (owner : TransferOwner P) (fileId requestId offset length : UInt64)
      (offer : FileOffer)

/-- Why an operation is refused. -/
inductive TransferStateError (P : Type) where
  | unknownOwner (owner : TransferOwner P)
  | unknownAdapterTransfer (adapterId : AdapterId) (transferId : String)
  | duplicateOwner (owner : TransferOwner P)
  | duplicateAdapterTransfer (adapterId : AdapterId) (transferId : String)
  | duplicateUiId (uiId : UiTransferId)
  | uiIdExhausted
  | unknownFile (owner : TransferOwner P) (fileId : UInt64)
  | unknownRequest (owner : TransferOwner P) (fileId requestId : UInt64)
  | duplicateRequest (owner : TransferOwner P) (fileId requestId : UInt64)
  | invalidManifest (reason : String)
  | invalidRange (reason : String)
  | protocol (error : ProtocolError)
  | digestMismatch (owner : TransferOwner P) (fileId : UInt64)
  | unsupportedProtocolEvent
  deriving DecidableEq, Repr

/-- `?` on a result of the protocol crate. -/
def orProtocol {P α : Type} (result : Except ProtocolError α) : Except (TransferStateError P) α :=
  result.mapError .protocol

/-- What the chunks of one range must look like. -/
structure ClipboardFileChunkValidator where
  transferId : UInt64
  fileId : UInt64
  requestId : UInt64
  offset : UInt64
  length : UInt64
  chunkReceived : Bool
  chunkEnd : Option UInt64
  eof : Bool
  complete : Bool
  deriving DecidableEq, Repr

namespace ClipboardFileChunkValidator

def new (transferId fileId requestId offset length : UInt64) :
    Except ProtocolError ClipboardFileChunkValidator := do
  if fileId = 0 then
    throw (.invalidFileChunk "zero file id")
  validateRequest offset length
  if requestId = 0 then
    throw (.invalidFileChunk "zero request id")
  pure
    { transferId, fileId, requestId, offset, length, chunkReceived := false, chunkEnd := none,
      eof := false, complete := false }

def validateChunk (validator : ClipboardFileChunkValidator)
    (transferId fileId requestId offset : UInt64) (dataLen : ℕ) :
    Except ProtocolError ClipboardFileChunkValidator := do
  if validator.complete ∨ validator.chunkReceived then
    throw (.invalidFileChunk "duplicate chunk")
  if (transferId, fileId, requestId) ≠
      (validator.transferId, validator.fileId, validator.requestId) then
    throw (.invalidFileChunk "unexpected transfer identity")
  if offset ≠ validator.offset then
    throw (.invalidFileChunk "unexpected offset")
  validateFileChunk offset dataLen
  if dataLen > validator.length.toNat then
    throw (.invalidFileChunk "chunk exceeds requested length")
  let chunkEnd ← okOr (checkedAdd offset (UInt64.ofNat dataLen)) ProtocolError.lengthOverflow
  pure
    { validator with
      chunkReceived := true
      chunkEnd := some chunkEnd
      eof := UInt64.ofNat dataLen < validator.length }

end ClipboardFileChunkValidator

/-- Files that this device offers. -/
structure LocalTransfer where
  uiId : UiTransferId
  adapterId : AdapterId
  adapterTransferId : String
  offer : FileOffer
  outgoing : Table (UInt64 × UInt64) OutgoingFile
  announced : Bool
  transferredByFile : Table UInt64 UInt64

/-- Files that a peer offers. -/
structure RemoteTransfer where
  uiId : UiTransferId
  adapterId : AdapterId
  adapterTransferId : String
  operation : Operation
  entries : Table UInt64 ClipboardManifestEntry
  announced : Bool
  transferredByFile : Table UInt64 UInt64

/-- A range that was asked for, with what has come of it. -/
structure PendingRange (P : Type) where
  key : PendingRangeKey P
  validator : ClipboardFileChunkValidator
  received : UInt64
  hasher : Bytes
  chunk : Bytes
  deriving DecidableEq, Repr

/-- The fields `local` and `remote` have longer names here. -/
structure TransferState (P : Type) where
  nextUiId : UiTransferId
  localTransfers : Table (TransferOwner P) LocalTransfer
  remoteTransfers : Table (TransferOwner P) RemoteTransfer
  pending : Table (RequestKey P) (PendingRange P)
  adapterToOwner : Table (AdapterId × String) (List (TransferOwner P))
  sourcePending : Table (RequestKey P) (UInt64 × UInt64)
  uiToOwner : Table UiTransferId (TransferOwner P)
  fileClipboardAdapter : String

/-- What an operation leaves behind and returns. -/
structure Outcome (P : Type) where
  state : TransferState P
  result : Except (TransferStateError P) (List (TransferAction P))

def validateRange {P : Type} (size offset length : UInt64) :
    Except (TransferStateError P) Unit := do
  if length = 0 ∨ length.toNat > maxClipboardFileChunkSize then
    throw (.invalidRange "length is zero or exceeds one wire chunk")
  let finish ← okOr (checkedAdd offset length) (.invalidRange "range overflows u64")
  if offset > size ∨ finish > size then
    throw (.invalidRange s!"range {offset}..{finish} exceeds file size {size}")

/-- The part of `str::split('/')` that a relative path may not contain. -/
def isUnsafePart (part : Bytes) : Bool :=
  part.isEmpty || part = utf8 "." || part = utf8 ".."

/-- One turn of the loop of `validate_wire_manifest` after another: the ids and paths seen, and
the size so far. -/
def validateEntries {P : Type} : List ClipboardManifestEntry → List UInt64 → List String → UInt64 →
    Except (TransferStateError P) Unit
  | [], _, _, _ => pure ()
  | entry :: entries, ids, paths, total => do
    if entry.fileId = 0 ∨ entry.fileId ∈ ids then
      throw (.invalidManifest "zero or duplicate file id")
    if (utf8 entry.path).isEmpty ∨ (utf8 entry.path).length > maxClipboardPathSize ∨
        entry.path ∈ paths then
      throw (.invalidManifest "empty, oversized, or duplicate path")
    if (utf8 entry.path).head? = some 0x2f ∨
        ((utf8 entry.path).splitOn 0x2f).any isUnsafePart then
      throw (.invalidManifest "unsafe relative path")
    if entry.kind = .directory ∧ entry.size ≠ 0 then
      throw (.invalidManifest "directory has non-zero size")
    let total ← okOr (checkedAdd total entry.size) (.invalidManifest "manifest size overflow")
    if total.toNat > maxClipboardSize then
      throw (.invalidManifest "manifest exceeds transfer size limit")
    validateEntries entries (entry.fileId :: ids) (entry.path :: paths) total

def validateWireManifest {P : Type} (entries : List ClipboardManifestEntry) :
    Except (TransferStateError P) Unit := do
  if entries.isEmpty ∨ entries.length > maxClipboardManifestEntries then
    throw (.invalidManifest "invalid entry count")
  validateEntries entries [] [] 0

end Syntra.Clipboard
