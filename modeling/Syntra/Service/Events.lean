import Syntra.Clipboard.Operations
import Syntra.StateMachine.Run

/-!
# The events of the service

How the service turns what it is told by the capture side, the emulation side, the adapters and the
clients into calls on the transfer state (`service/input.rs`, `service/peers.rs`,
`service/transfers.rs`). Of the service only what these handlers decide by is kept. What the client
manager and the plugins answer is part of each event.
-/

namespace Syntra

open ByteFormat Proto Files Clipboard StateMachine Tables

namespace Service

abbrev ClientHandle := UInt64

/-- A peer, by the side on which it is connected. -/
inductive Peer (Address : Type) where
  | capture (handle : ClientHandle)
  | emulation (addr : Address)
  deriving DecidableEq, Repr

/-- A clipboard selection scanned off the event loop. -/
structure ManifestOffer where
  generation : UInt64
  adapterId : AdapterId
  manifest : CopyManifest
  offer : Except TransferError FileOffer

/-- One range read from a local file: the chunk, and its digest at the end of the file. -/
structure SourceReadResult (Address : Type) where
  owner : TransferOwner (Peer Address)
  fileId : UInt64
  requestId : UInt64
  offset : UInt64
  length : UInt64
  result : Except TransferError (OutgoingFile × Option (UInt64 × Bytes) × Option Digest)

/-- What an adapter says; `other` is what the service does not act upon. -/
inductive AdapterWord where
  | rangeRequest (request : RangeRequest)
  | remoteManifest
  | mountReady (ready : MountReady)
  | progress (progress : AdapterProgress)
  | completed (completion : Completion)
  | cancelled (transferId : String)
  | released (transferId : String)
  | unmounted (unmounted : Unmounted)
  | copyManifest (manifest : CopyManifest)
  | other

/-- The events that the service takes one after another. An adapter is named by the key that
the transfer state knows it under; copied text or an image is shared with every client under a
number of its own; `other` stands for the events whose handlers touch nothing that is kept here. -/
inductive Event (Address : Type) where
  | connected (addr : Address) (fingerprint : String)
  | disconnected (addr : Address)
  | clipboardProtocol (addr : Address) (event : ProtoEvent)
  | clipboard (handle : ClientHandle) (fingerprint : String) (event : ProtoEvent)
  | peerAuthenticated (handle : ClientHandle) (fingerprint : String)
  | peerLost (handle : ClientHandle)
  | peerStateChanged (handle : ClientHandle)
  | adapterMessage (adapterId : AdapterId) (word : AdapterWord)
  | adapterCancelled (adapterId : AdapterId) (transferId : String)
  | adapterExited (adapterId : AdapterId)
  | manifestOffer (result : ManifestOffer)
  | sourceResult (result : SourceReadResult Address)
  | cancelClipboardTransfer (uiId : UiTransferId)
  | syncFileClipboardProvider (provider : String)
  | removeClient (handle : ClientHandle)
  | clipboardShared
  | other

/-- What the service finds around it when it handles an event: the client manager's answers,
whether a plugin takes a mounted transfer, and the order of its hash tables. -/
structure Surroundings (Address : Type) where
  contains : ClientHandle → Bool
  alive : ClientHandle → Bool
  clipboardClients : List ClientHandle
  startMountedReceive : String → Bool
  order : IterOrder (TransferOwner (Peer Address))

end Service

/-- The part of the service that shares files. -/
structure Service (Address : Type) where
  transfers : TransferState (Service.Peer Address)
  authenticatedCaptureFingerprints : Table Service.ClientHandle String
  authenticatedPeerFingerprints : Table Address String
  nextClipboardTransfer : UInt64
  manifestGeneration : UInt64

namespace Service

variable {Address : Type} [DecidableEq Address]

/-- `Service::new`; the first offer is numbered by the clock. -/
def new (startedAt : UInt64) : Service Address where
  transfers := .new
  authenticatedCaptureFingerprints := ∅
  authenticatedPeerFingerprints := ∅
  nextClipboardTransfer := startedAt
  manifestGeneration := 0

variable (sha256 : Bytes → Digest) (base64 : Bytes → String) (around : Surroundings Address)
  (service : Service Address)

def call (operation : Call (Peer Address)) :
    Service Address × Except (TransferStateError (Peer Address))
      (List (TransferAction (Peer Address))) :=
  let outcome := service.transfers.perform sha256 base64 operation
  ({ service with transfers := outcome.state }, outcome.result)

/-- One action of `execute_transfer_actions`: a received offer that no plugin takes is given up.
What that returns holds no further offer, and the other actions are sent away. -/
def executeAction (service : Service Address) : TransferAction (Peer Address) → Service Address
  | .adapter _ (.remoteManifest transferId _ _) =>
    if around.startMountedReceive transferId then
      service
    else
      (service.call sha256 base64 (.adapterLost around.order transferId)).1
  | _ => service

def executeTransferActions (actions : List (TransferAction (Peer Address))) : Service Address :=
  actions.foldl (executeAction sha256 base64 around) service

def callAndExecute (operation : Call (Peer Address)) : Service Address :=
  match service.call sha256 base64 operation with
  | (service, .ok actions) => service.executeTransferActions sha256 base64 around actions
  | (service, .error _) => service

def historyPeerLost : Peer Address → Service Address
  | .capture handle =>
    { service with
      authenticatedCaptureFingerprints := service.authenticatedCaptureFingerprints.erase handle }
  | .emulation addr =>
    { service with
      authenticatedPeerFingerprints := service.authenticatedPeerFingerprints.erase addr }

def identity : Peer Address → Option String
  | .capture handle => service.authenticatedCaptureFingerprints.lookup handle
  | .emulation addr => service.authenticatedPeerFingerprints.lookup addr

def handleFileProtocol (peer : Peer Address) : ProtoEvent → Service Address
  | .clipboardManifest transferId entries =>
    service.callAndExecute sha256 base64 around (.inboundManifest around.order peer
      (toString transferId) (toString transferId) transferId .copy entries)
  | event => service.callAndExecute sha256 base64 around (.handleProtocol peer event)

def handlePeerProtocol (peer : Peer Address) (event : ProtoEvent) : Service Address :=
  match service.identity peer with
  | none => service
  | some _ =>
    match event with
    | .manualFileOffer .. | .manualFileDecision .. | .manualFileRequest .. | .manualFileChunk ..
    | .manualFileComplete .. | .manualFileResult .. | .manualFileCancel .. | .profileChanged
    | .profileRequest .. | .profileStart .. | .profileChunk .. | .historySyncRequest ..
    | .historyRecordStart .. | .historyRecordChunk .. | .historySyncPageEnd ..
    | .historyClearBoundaryRequest .. | .historyClearBoundary .. | .historyClearApply ..
    | .historyClearAck .. => service
    | event => service.handleFileProtocol sha256 base64 around peer event

def handleAdapterWord (adapterId : AdapterId) : AdapterWord → Service Address
  | .rangeRequest request =>
    service.callAndExecute sha256 base64 around
      (.adapterRangeRequest around.order adapterId request)
  | .remoteManifest =>
    service.callAndExecute sha256 base64 around (.adapterLost around.order adapterId)
  | .mountReady ready =>
    service.callAndExecute sha256 base64 around (.adapterMountReady around.order adapterId ready)
  | .progress progress =>
    service.callAndExecute sha256 base64 around (.adapterProgress around.order adapterId progress)
  | .completed completion =>
    service.callAndExecute sha256 base64 around
      (.adapterCompleted around.order adapterId completion)
  | .cancelled transferId =>
    service.callAndExecute sha256 base64 around
      (.adapterCancelled around.order adapterId transferId)
  | .released transferId =>
    service.callAndExecute sha256 base64 around (.adapterReleased around.order adapterId transferId)
  | .unmounted unmounted =>
    service.callAndExecute sha256 base64 around (.adapterUnmounted around.order adapterId unmounted)
  | .copyManifest manifest =>
    if manifest.operation = .move then
      service
    else
      { service with manifestGeneration := service.manifestGeneration + 1 }
  | .other => service

/-- The offer of a selection to one client, and what is to be executed in the end. -/
def offerToClient (result : ManifestOffer) (offer : FileOffer)
    (sofar : Service Address × List (TransferAction (Peer Address))) (handle : ClientHandle) :
    Service Address × List (TransferAction (Peer Address)) :=
  let wireId := max (sofar.1.nextClipboardTransfer + 1) 1
  let service := { sofar.1 with nextClipboardTransfer := wireId }
  let offered := service.call sha256 base64 (.localCopyManifest around.order (.capture handle)
    wireId result.adapterId result.manifest { offer with transferId := wireId })
  (offered.1, sofar.2 ++ offered.2.toOption.getD [])

def handleManifestOffer (result : ManifestOffer) : Service Address :=
  if result.generation ≠ service.manifestGeneration then
    service
  else
    match result.offer with
    | .error _ => service
    | .ok offer =>
      let offered := around.clipboardClients.foldl
        (offerToClient sha256 base64 around result offer) (service, [])
      offered.1.executeTransferActions sha256 base64 around offered.2

def sendSource (result : SourceReadResult Address) (file : OutgoingFile) (offset : UInt64)
    (data : Bytes) (digest : Option Digest) : Service Address :=
  let (service, inserted) := service.call sha256 base64 (.insertOutgoingFile result.owner
    result.fileId result.requestId result.offset result.length file)
  match inserted with
  | .error _ => service
  | .ok _ =>
    let (service, sent) := service.call sha256 base64 (.sourceChunk result.owner result.fileId
      result.requestId offset data)
    match sent with
    | .error _ => service
    | .ok actions =>
      let service := service.executeTransferActions sha256 base64 around actions
      match digest with
      | none => service
      | some digest =>
        service.callAndExecute sha256 base64 around (.sourceComplete result.owner
          result.fileId result.requestId (result.offset + result.length) digest)

def handleSourceResult (result : SourceReadResult Address) : Service Address :=
  let service :=
    match result.result with
    | .ok (file, some (offset, data), digest) =>
      service.sendSource sha256 base64 around result file offset data digest
    | _ => service
  (service.call sha256 base64 (.sourceRangeServed result.owner result.fileId result.requestId)).1

/-- The handlers of the event loop. The capture side's events about a client that is no longer
configured are dropped, but for its loss. -/
def handle : Event Address → Service Address
  | .connected addr fingerprint =>
    { service with
      authenticatedPeerFingerprints :=
        service.authenticatedPeerFingerprints.insert addr fingerprint }
  | .disconnected addr => service.historyPeerLost (.emulation addr)
  | .clipboardProtocol addr event =>
    service.handlePeerProtocol sha256 base64 around (.emulation addr) event
  | .clipboard handle fingerprint event =>
    if around.contains handle then
      let service :=
        { service with
          authenticatedCaptureFingerprints :=
            service.authenticatedCaptureFingerprints.insert handle fingerprint }
      service.handlePeerProtocol sha256 base64 around (.capture handle) event
    else
      service
  | .peerAuthenticated handle fingerprint =>
    if around.contains handle then
      { service with
        authenticatedCaptureFingerprints :=
          service.authenticatedCaptureFingerprints.insert handle fingerprint }
    else
      service
  | .peerLost handle =>
    let (service, lost) :=
      service.call sha256 base64 (.peerLost around.order (.capture handle))
    let service := service.historyPeerLost (.capture handle)
    service.executeTransferActions sha256 base64 around (lost.toOption.getD [])
  | .peerStateChanged handle =>
    if around.contains handle ∧ ¬around.alive handle then
      service.historyPeerLost (.capture handle)
    else
      service
  | .adapterMessage adapterId word => service.handleAdapterWord sha256 base64 around adapterId word
  | .adapterCancelled adapterId transferId =>
    service.callAndExecute sha256 base64 around
      (.adapterCancelled around.order adapterId transferId)
  | .adapterExited adapterId =>
    service.callAndExecute sha256 base64 around (.adapterLost around.order adapterId)
  | .manifestOffer result => service.handleManifestOffer sha256 base64 around result
  | .sourceResult result => service.handleSourceResult sha256 base64 around result
  | .cancelClipboardTransfer uiId =>
    service.callAndExecute sha256 base64 around (.cancelUi uiId none .user)
  | .syncFileClipboardProvider provider =>
    if service.transfers.fileClipboardAdapter ≠ provider then
      (service.call sha256 base64 (.setFileClipboardAdapter provider)).1
    else
      service
  | .removeClient handle => service.historyPeerLost (.capture handle)
  | .clipboardShared =>
    { service with
      nextClipboardTransfer := around.clipboardClients.foldl (fun transfer _ => transfer + 1)
        service.nextClipboardTransfer }
  | .other => service

def machine (startedAt : UInt64) :
    Machine (Service Address) (Surroundings Address × Event Address) where
  initial := new startedAt
  enabled := fun _ _ => True
  next := fun service action => service.handle sha256 base64 action.1 action.2

end Service

end Syntra
