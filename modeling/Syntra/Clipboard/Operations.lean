import Syntra.Clipboard.State

/-!
# The public operations

What the service calls on a `TransferState`, one definition for each method, and the machine
whose actions are these calls.
-/

namespace Syntra.Clipboard

open ByteFormat Proto Files Tables

variable {P : Type} [DecidableEq P]

def PendingRange.feed (range : PendingRange P) (validator : ClipboardFileChunkValidator)
    (data : Bytes) : PendingRange P :=
  { range with
    validator := validator
    received := UInt64.ofNat data.length
    hasher := range.hasher ++ data
    chunk := data }

namespace TransferState

variable (state : TransferState P)

variable (order : IterOrder (TransferOwner P)) (owner : TransferOwner P) (adapterId : String)

def setFileClipboardAdapter : TransferState P :=
  { state with fileClipboardAdapter := adapterId }

def noMoves : TransferStateError P :=
  .invalidManifest "move clipboard transfers are not supported by the wire manifest"

/-- The unannounced offers to a peer. -/
def supersededLocal (peer : P) : List (TransferOwner P) :=
  (state.localTransfers.entries.filter fun entry =>
    entry.1.peer = peer && !entry.2.announced).map (·.1)

def localCopyManifest (peer : P) (wireId : UInt64) (adapterId : AdapterId) (manifest : CopyManifest)
    (offer : FileOffer) : Outcome P :=
  let owner : TransferOwner P := ⟨peer, wireId⟩
  state.replaceOffers
    (do
      state.ensureOwnerAvailable owner
      if offer.transferId ≠ wireId then
        throw (.invalidManifest "file offer transfer id differs from wire id")
      validateWireManifest offer.entries
      if manifest.operation = .move then
        throw noMoves)
    (order.arrange (state.supersededLocal peer)) true
    (fun state uiId => state.addLocal owner
      { uiId, adapterId, adapterTransferId := manifest.transferId, offer, outgoing := ∅,
        announced := false, transferredByFile := ∅ })
    (.peer peer (.clipboardManifest wireId offer.entries))

def supersededRemote (peer : P) : List (TransferOwner P) :=
  state.remoteTransfers.keys.filter fun owner => owner.peer = peer

/-- `iter().map(|entry| (entry.file_id, entry)).collect()`. -/
def entriesById (entries : List ClipboardManifestEntry) : Table UInt64 ClipboardManifestEntry :=
  entries.foldl (fun table entry => table.insert entry.fileId entry) ∅

def remoteEntry (entry : ClipboardManifestEntry) : RemoteEntry where
  entryId := entry.fileId
  path := entry.path
  kind := match entry.kind with
    | .file => .file
    | .directory => .directory
  size := if entry.kind = .file then some entry.size else none

def inboundManifest (peer : P) (adapterId : AdapterId) (adapterTransferId : String)
    (wireId : UInt64) (operation : Operation) (entries : List ClipboardManifestEntry) : Outcome P :=
  let owner : TransferOwner P := ⟨peer, wireId⟩
  state.replaceOffers
    (do
      if operation = .move then
        throw noMoves
      state.ensureIdsAvailable owner adapterId adapterTransferId
      validateWireManifest entries)
    (order.arrange (state.supersededRemote owner.peer)) false
    (fun state uiId => state.addRemote owner
      { uiId, adapterId, adapterTransferId, operation, entries := entriesById entries,
        announced := false, transferredByFile := ∅ })
    (.adapter adapterId (.remoteManifest adapterTransferId operation (entries.map remoteEntry)))

def firstOwner (adapterId transferId : String) : Except (TransferStateError P) (TransferOwner P) :=
  okOr (state.ownersForAdapter order adapterId transferId).head?
    (.unknownAdapterTransfer adapterId transferId)

def adapterRangeRequest (request : RangeRequest) : Outcome P :=
  let length := request.length.toUInt64
  state.attempt
    (do
      let owner ← state.firstOwner order adapterId request.transferId
      let transfer ← okOr (state.remoteTransfers.lookup owner) (.unknownOwner owner)
      if transfer.adapterId ≠ adapterId ∨ transfer.adapterTransferId ≠ request.transferId then
        throw (.unknownAdapterTransfer adapterId request.transferId)
      let entry ← okOr (transfer.entries.lookup request.entryId)
        (.unknownFile owner request.entryId)
      if entry.kind ≠ .file then
        throw (.invalidRange "directory range requested")
      validateRange entry.size request.offset length
      if (owner, request.entryId, request.requestId) ∈ state.pending then
        throw (.duplicateRequest owner request.entryId request.requestId)
      let validator ← orProtocol (ClipboardFileChunkValidator.new owner.wireId request.entryId
        request.requestId request.offset length)
      pure (owner, validator))
    fun (owner, validator) =>
      let range : PendingRange P :=
        { key :=
            { owner, fileId := request.entryId, requestId := request.requestId,
              offset := request.offset, length }
          validator
          received := 0
          hasher := []
          chunk := [] }
      let state :=
        { state with
          pending := state.pending.insert (owner, request.entryId, request.requestId) range }
      (state.announceRemote owner,
        [.peer owner.peer (.clipboardFileRequest owner.wireId request.entryId request.requestId
          request.offset length)])

def adapterMountReady (fuseAdapterId : String) (ready : MountReady) : Outcome P :=
  state.attempt
    (do
      let owner ← state.firstOwner order fuseAdapterId ready.transferId
      okOr (state.remoteTransfers.lookup owner) (.unknownOwner owner))
    fun transfer =>
      (state, [.adapter state.fileClipboardAdapter
        (.publishFileClipboard ready.transferId transfer.operation ready.uris)])

/-- The progress that an adapter reports is filed under file 0. -/
def noteProgress (completed : UInt64) (state : TransferState P) (owner : TransferOwner P) :
    TransferState P :=
  { state with
    localTransfers := modify state.localTransfers owner fun transfer =>
      { transfer with transferredByFile := transfer.transferredByFile.insert 0 completed }
    remoteTransfers := modify state.remoteTransfers owner fun transfer =>
      { transfer with transferredByFile := transfer.transferredByFile.insert 0 completed } }

def adapterProgress (progress : AdapterProgress) : Outcome P :=
  let owners := state.ownersForAdapter order adapterId progress.transferId
  let total := ((owners.head?).map fun owner => (state.transferTotals owner).2).getD 0
  state.attempt
    (do
      if owners.isEmpty then
        throw (.unknownAdapterTransfer adapterId progress.transferId)
      let completed ← okOr progress.completedBytes
        (.invalidRange "adapter progress lacks byte accounting")
      if progress.totalBytes.any (· ≠ total) then
        throw (.invalidRange "adapter progress total differs from manifest")
      if completed > total then
        throw (.invalidRange "adapter progress exceeds total")
      pure completed)
    fun completed =>
      let state := owners.foldl (noteProgress completed) state
      (state, owners.filterMap fun owner => (state.transferUiId owner).map fun uiId =>
        .frontend (.progress uiId completed total))

def endTransfer (adapterId transferId : String)
    (tell : TransferOwner P → UiTransferId → UInt64 × UInt64 → List (TransferAction P)) :
    Outcome P :=
  let owners := state.ownersForAdapter order adapterId transferId
  if owners.isEmpty then
    ⟨state, .error (.unknownAdapterTransfer adapterId transferId)⟩
  else
    endOwners tell state owners

def adapterCompleted (completion : Completion) : Outcome P :=
  state.endTransfer order adapterId completion.transferId fun _ uiId totals =>
    if completion.success then
      [.frontend (.completed uiId none totals.1 totals.2)]
    else
      [.frontend (.failed uiId none totals.1 totals.2
        (completion.error.getD "adapter transfer failed"))]

def tellCancelled (uiId : UiTransferId) (totals : UInt64 × UInt64) : List (TransferAction P) :=
  [.peer owner.peer (.clipboardTransferCancel owner.wireId none .user),
    .frontend (.cancelled uiId none totals.1 totals.2)]

def adapterCancelled (adapterId transferId : String) : Outcome P :=
  state.endTransfer order adapterId transferId tellCancelled

def adapterUnmounted (unmounted : Unmounted) : Outcome P :=
  state.endTransfer order adapterId unmounted.transferId fun _ uiId totals =>
    if unmounted.success then
      [.frontend (.cancelled uiId none totals.1 totals.2)]
    else
      [.frontend (.failed uiId none totals.1 totals.2
        (unmounted.error.getD "adapter unmount failed"))]

/-- The loop of `adapter_released`: a remote transfer is only told to unmount. -/
def releaseOwners : TransferState P → List (TransferOwner P) →
    TransferState P × List (TransferAction P)
  | state, [] => (state, [])
  | state, owner :: owners =>
    match state.remoteTransfers.lookup owner with
    | some remote =>
      let rest := releaseOwners state owners
      (rest.1, .adapter remote.adapterId
        (.unmounted ⟨remote.adapterTransferId, true, none⟩) :: rest.2)
    | none =>
      match state.localTransfers.lookup owner with
      | none => releaseOwners state owners
      | some transfer =>
        let rest := releaseOwners (state.removeOwner owner) owners
        (rest.1, tellCancelled owner transfer.uiId (state.transferTotals owner) ++ rest.2)

def adapterReleased (adapterId transferId : String) : Outcome P :=
  state.attempt
    (okOr (state.adapterToOwner.lookup (adapterId, transferId))
      (.unknownAdapterTransfer adapterId transferId))
    fun owners =>
      releaseOwners
        { state with adapterToOwner := state.adapterToOwner.erase (adapterId, transferId) }
        (order.arrange owners)

def sourceFileRequest (peer : P) (wireId fileId requestId offset length : UInt64) : Outcome P :=
  let owner : TransferOwner P := ⟨peer, wireId⟩
  state.attempt
    (do
      let transfer ← okOr (state.localTransfers.lookup owner) (.unknownOwner owner)
      let entry ← okOr (transfer.offer.entries.find? (fun entry => entry.fileId = fileId))
        (.unknownFile owner fileId)
      if entry.kind ≠ .file then
        throw (.invalidRange "directory range requested")
      validateRange entry.size offset length
      if (owner, fileId, requestId) ∈ state.sourcePending then
        throw (.duplicateRequest owner fileId requestId)
      pure transfer.offer)
    fun offer =>
      let state :=
        { state with
          sourcePending := state.sourcePending.insert (owner, fileId, requestId) (offset, length) }
      (state.announceLocal owner, [.readSource owner fileId requestId offset length offer])

def insertOutgoingFile (fileId requestId expectedOffset expectedLength : UInt64)
    (file : OutgoingFile) : Outcome P :=
  state.attempt
    (do
      let transfer ← okOr (state.localTransfers.lookup owner) (.unknownOwner owner)
      if file.fileId ≠ fileId then
        throw (.unknownFile owner fileId)
      if (fileId, requestId) ∈ transfer.outgoing then
        throw (.duplicateRequest owner fileId requestId)
      let reservation ← okOr (state.sourcePending.lookup (owner, fileId, requestId))
        (.unknownRequest owner fileId requestId)
      if reservation ≠ (expectedOffset, expectedLength) then
        throw (.invalidRange "source reservation mismatch"))
    fun _ =>
      ({ state with
          localTransfers := modify state.localTransfers owner fun transfer =>
            { transfer with outgoing := transfer.outgoing.insert (fileId, requestId) file } },
        [])

def sourceChunk (fileId requestId offset : UInt64) (data : Bytes) : Outcome P :=
  state.attempt
    (do
      let transfer ← okOr (state.localTransfers.lookup owner) (.unknownOwner owner)
      let _ ← okOr (transfer.outgoing.lookup (fileId, requestId))
        (.unknownRequest owner fileId requestId)
      let reservation ← okOr (state.sourcePending.lookup (owner, fileId, requestId))
        (.unknownRequest owner fileId requestId)
      if offset ≠ reservation.1 ∨ data.length > reservation.2.toNat ∨ data.isEmpty ∨
          data.length > maxClipboardFileChunkSize then
        throw (.invalidRange "source chunk outside reservation"))
    fun _ =>
      (state, [.peer owner.peer (.clipboardFileChunk owner.wireId fileId requestId offset data)])

/-- The end of a range that did not reach the end of the file. -/
def sourceRangeServed (fileId requestId : UInt64) : TransferState P :=
  { state with
    localTransfers := modify state.localTransfers owner fun transfer =>
      { transfer with outgoing := transfer.outgoing.erase (fileId, requestId) }
    sourcePending := state.sourcePending.erase (owner, fileId, requestId) }

def sourceComplete (fileId requestId size : UInt64) (digest : Digest) : Outcome P :=
  state.attempt
    (do
      let transfer ← okOr (state.localTransfers.lookup owner) (.unknownOwner owner)
      let _ ← okOr (transfer.outgoing.lookup (fileId, requestId))
        (.unknownRequest owner fileId requestId)
      pure ())
    fun _ =>
      (state.sourceRangeServed owner fileId requestId,
        [.peer owner.peer (.clipboardFileComplete owner.wireId fileId requestId size digest)])

section Inbound

variable (sha256 : Bytes → Digest) (base64 : Bytes → String)

def inboundChunk (peer : P) (wireId fileId requestId offset : UInt64) (data : Bytes) : Outcome P :=
  let owner : TransferOwner P := ⟨peer, wireId⟩
  let index : RequestKey P := (owner, fileId, requestId)
  match state.pending.lookup index with
  | none => ⟨state, .error (.unknownRequest owner fileId requestId)⟩
  | some pending =>
    match pending.validator.validateChunk wireId fileId requestId offset data.length with
    | .error error => ⟨state, .error (.protocol error)⟩
    | .ok validator =>
      let received := UInt64.ofNat data.length
      let state :=
        { state with
          pending := state.pending.insert index (pending.feed validator data) }
      match state.remoteTransfers.lookup owner with
      | none => ⟨state, .error (.unknownOwner owner)⟩
      | some transfer =>
        match transfer.entries.lookup fileId with
        | none => ⟨state, .error (.unknownFile owner fileId)⟩
        | some entry =>
          match checkedAdd offset received with
          | none => ⟨state, .error (.protocol .lengthOverflow)⟩
          | some finish =>
            let progress := .frontend (.progress transfer.uiId finish entry.size)
            if finish = entry.size then
              ⟨state, .ok [progress]⟩
            else if received ≠ pending.key.length then
              ⟨state, .error (.protocol (.invalidFileChunk "short non-EOF chunk"))⟩
            else
              ⟨{ state with pending := state.pending.erase index },
                .ok [.adapter transfer.adapterId (.rangeResponse
                  { transferId := transfer.adapterTransferId, requestId, offset,
                    dataBase64 := base64 data, eof := false, error := none }),
                  progress]⟩

def inboundProgress (peer : P) (wireId fileId completed total : UInt64) : Outcome P :=
  let owner : TransferOwner P := ⟨peer, wireId⟩
  state.attempt
    (do
      if completed > total then
        throw (.invalidRange "progress exceeds total")
      let transfer ← okOr (state.localTransfers.lookup owner) (.unknownOwner owner)
      if ¬transfer.offer.entries.any (fun entry => entry.fileId = fileId && entry.size = total) then
        throw (.unknownFile owner fileId)
      pure transfer)
    fun transfer => (state, [.frontend (.progress transfer.uiId completed total)])

/-- The checks that `inbound_complete` makes before it takes the range out. -/
def checkCompletion (owner : TransferOwner P) (fileId requestId size : UInt64) (digest : Digest) :
    Except (TransferStateError P) (PendingRange P) := do
  let entry ← okOr ((state.remoteTransfers.lookup owner).bind (·.entries.lookup fileId))
    (.unknownFile owner fileId)
  let pending ← okOr (state.pending.lookup (owner, fileId, requestId))
    (.unknownRequest owner fileId requestId)
  let receivedEnd ← okOr (checkedAdd pending.key.offset pending.received)
    (.protocol .lengthOverflow)
  if pending.received = 0 ∨ receivedEnd ≠ entry.size then
    throw (.protocol (.invalidFileChunk "completion does not cover the requested file range"))
  if size ≠ entry.size then
    throw (.protocol (.invalidFileChunk "completion size differs from manifest"))
  if sha256 pending.hasher ≠ digest then
    throw (.digestMismatch owner fileId)
  pure pending

def inboundComplete (peer : P) (wireId fileId requestId size : UInt64) (digest : Digest) :
    Outcome P :=
  let owner : TransferOwner P := ⟨peer, wireId⟩
  match state.checkCompletion sha256 owner fileId requestId size digest with
  | .error error => ⟨state, .error error⟩
  | .ok pending =>
    let state := { state with pending := state.pending.erase (owner, fileId, requestId) }
    match state.remoteTransfers.lookup pending.key.owner with
    | none => ⟨state, .error (.unknownOwner pending.key.owner)⟩
    | some transfer =>
      ⟨state, .ok
        [.adapter transfer.adapterId (.rangeResponse
          { transferId := transfer.adapterTransferId, requestId, offset := pending.key.offset,
            dataBase64 := base64 pending.chunk, eof := true, error := none }),
          .frontend (.progress transfer.uiId pending.received
            (((transfer.entries.lookup fileId).map (·.size)).getD pending.received))]⟩

def inboundCancel (peer : P) (wireId : UInt64) (fileId : Option UInt64)
    (reason : ClipboardCancelReason) : Outcome P :=
  state.cancelOwner ⟨peer, wireId⟩ fileId reason false

def cancelUi (uiId : UiTransferId) (fileId : Option UInt64) (reason : ClipboardCancelReason) :
    Outcome P :=
  match state.uiToOwner.lookup uiId with
  | none => ⟨state, .error (.duplicateUiId uiId)⟩
  | some owner => state.cancelOwner owner fileId reason true

def ownersOfPeer (peer : P) : List (TransferOwner P) :=
  ((state.localTransfers.keys ++ state.remoteTransfers.keys).filter fun owner =>
    owner.peer = peer).dedup

def peerLost (order : IterOrder (TransferOwner P)) (peer : P) :
    TransferState P × List (TransferAction P) :=
  cancelOwners .ioError false state (order.arrange (state.ownersOfPeer peer))

def ownersOfAdapter (adapterId : String) : List (TransferOwner P) :=
  ((state.adapterToOwner.entries.filter fun entry => entry.1.1 = adapterId).flatMap (·.2)).dedup

def adapterLost (order : IterOrder (TransferOwner P)) (adapterId : String) :
    TransferState P × List (TransferAction P) :=
  cancelOwners .ioError true state (order.arrange (state.ownersOfAdapter adapterId))

def handleProtocol (peer : P) : ProtoEvent → Outcome P
  | .clipboardFileChunk transferId fileId requestId offset data =>
    state.inboundChunk base64 peer transferId fileId requestId offset data
  | .clipboardFileComplete transferId fileId requestId size digest =>
    state.inboundComplete sha256 base64 peer transferId fileId requestId size digest
  | .clipboardFileRequest transferId fileId requestId offset length =>
    state.sourceFileRequest peer transferId fileId requestId offset length
  | .clipboardTransferCancel transferId fileId reason =>
    state.inboundCancel peer transferId fileId reason
  | .clipboardTransferProgress transferId fileId completed total =>
    state.inboundProgress peer transferId fileId completed total
  | .clipboardManifest _ _ =>
    ⟨state, .error (.invalidManifest "manifest requires an explicit adapter and operation")⟩
  | _ => ⟨state, .error .unsupportedProtocolEvent⟩

end Inbound

end TransferState

/-- A call of a public operation. The calls that go through a hash map or a hash set say in
which order. -/
inductive Call (P : Type) where
  | setFileClipboardAdapter (adapterId : String)
  | localCopyManifest (order : IterOrder (TransferOwner P)) (peer : P) (wireId : UInt64)
      (adapterId : AdapterId) (manifest : CopyManifest) (offer : FileOffer)
  | inboundManifest (order : IterOrder (TransferOwner P)) (peer : P) (adapterId : AdapterId)
      (adapterTransferId : String) (wireId : UInt64) (operation : Operation)
      (entries : List ClipboardManifestEntry)
  | adapterRangeRequest (order : IterOrder (TransferOwner P)) (adapterId : String)
      (request : RangeRequest)
  | adapterMountReady (order : IterOrder (TransferOwner P)) (fuseAdapterId : String)
      (ready : MountReady)
  | adapterProgress (order : IterOrder (TransferOwner P)) (adapterId : String)
      (progress : AdapterProgress)
  | adapterCompleted (order : IterOrder (TransferOwner P)) (adapterId : String)
      (completion : Completion)
  | adapterCancelled (order : IterOrder (TransferOwner P)) (adapterId transferId : String)
  | adapterReleased (order : IterOrder (TransferOwner P)) (adapterId transferId : String)
  | adapterUnmounted (order : IterOrder (TransferOwner P)) (adapterId : String)
      (unmounted : Unmounted)
  | sourceFileRequest (peer : P) (wireId fileId requestId offset length : UInt64)
  | insertOutgoingFile (owner : TransferOwner P)
      (fileId requestId expectedOffset expectedLength : UInt64) (file : OutgoingFile)
  | sourceChunk (owner : TransferOwner P) (fileId requestId offset : UInt64) (data : Bytes)
  | sourceRangeServed (owner : TransferOwner P) (fileId requestId : UInt64)
  | sourceComplete (owner : TransferOwner P) (fileId requestId size : UInt64) (digest : Digest)
  | inboundChunk (peer : P) (wireId fileId requestId offset : UInt64) (data : Bytes)
  | inboundProgress (peer : P) (wireId fileId completed total : UInt64)
  | inboundComplete (peer : P) (wireId fileId requestId size : UInt64) (digest : Digest)
  | inboundCancel (peer : P) (wireId : UInt64) (fileId : Option UInt64)
      (reason : ClipboardCancelReason)
  | cancelUi (uiId : UiTransferId) (fileId : Option UInt64) (reason : ClipboardCancelReason)
  | peerLost (order : IterOrder (TransferOwner P)) (peer : P)
  | adapterLost (order : IterOrder (TransferOwner P)) (adapterId : String)
  | handleProtocol (peer : P) (event : ProtoEvent)

/-- What an operation that cannot fail leaves and returns. -/
def Outcome.sure (result : TransferState P × List (TransferAction P)) : Outcome P :=
  ⟨result.1, .ok result.2⟩

/-- The methods of `TransferState`. -/
def TransferState.perform (sha256 : Bytes → Digest) (base64 : Bytes → String)
    (state : TransferState P) : Call P → Outcome P
  | .setFileClipboardAdapter adapterId => .sure (state.setFileClipboardAdapter adapterId, [])
  | .localCopyManifest order peer wireId adapterId manifest offer =>
    state.localCopyManifest order peer wireId adapterId manifest offer
  | .inboundManifest order peer adapterId adapterTransferId wireId operation entries =>
    state.inboundManifest order peer adapterId adapterTransferId wireId operation entries
  | .adapterRangeRequest order adapterId request =>
    state.adapterRangeRequest order adapterId request
  | .adapterMountReady order fuseAdapterId ready =>
    state.adapterMountReady order fuseAdapterId ready
  | .adapterProgress order adapterId progress => state.adapterProgress order adapterId progress
  | .adapterCompleted order adapterId completion =>
    state.adapterCompleted order adapterId completion
  | .adapterCancelled order adapterId transferId =>
    state.adapterCancelled order adapterId transferId
  | .adapterReleased order adapterId transferId =>
    state.adapterReleased order adapterId transferId
  | .adapterUnmounted order adapterId unmounted =>
    state.adapterUnmounted order adapterId unmounted
  | .sourceFileRequest peer wireId fileId requestId offset length =>
    state.sourceFileRequest peer wireId fileId requestId offset length
  | .insertOutgoingFile owner fileId requestId expectedOffset expectedLength file =>
    state.insertOutgoingFile owner fileId requestId expectedOffset expectedLength file
  | .sourceChunk owner fileId requestId offset data =>
    state.sourceChunk owner fileId requestId offset data
  | .sourceRangeServed owner fileId requestId =>
    .sure (state.sourceRangeServed owner fileId requestId, [])
  | .sourceComplete owner fileId requestId size digest =>
    state.sourceComplete owner fileId requestId size digest
  | .inboundChunk peer wireId fileId requestId offset data =>
    state.inboundChunk base64 peer wireId fileId requestId offset data
  | .inboundProgress peer wireId fileId completed total =>
    state.inboundProgress peer wireId fileId completed total
  | .inboundComplete peer wireId fileId requestId size digest =>
    state.inboundComplete sha256 base64 peer wireId fileId requestId size digest
  | .inboundCancel peer wireId fileId reason => state.inboundCancel peer wireId fileId reason
  | .cancelUi uiId fileId reason => state.cancelUi uiId fileId reason
  | .peerLost order peer => .sure (state.peerLost order peer)
  | .adapterLost order adapterId => .sure (state.adapterLost order adapterId)
  | .handleProtocol peer event => state.handleProtocol sha256 base64 peer event

end Syntra.Clipboard
