import Syntra.Clipboard.Ranges
import Syntra.Service.Events

/-!
# What an event sends

What the service sends to its peers while it handles an event, beside what the event does to the
transfers. Most events lead to one call, and what the call returns is executed.
-/

namespace Syntra

open ByteFormat Proto Files Clipboard Tables TransferState List

namespace Service

variable {Address : Type} [DecidableEq Address]

section Sending

variable (sha256 : Bytes → Digest) (base64 : Bytes → String) (around : Surroundings Address)
  (service : Service Address)

/-- What one action of `execute_transfer_actions` sends to peers. -/
def sentByAction : TransferAction (Peer Address) → List (Peer Address × ProtoEvent)
  | .peer peer event => [(peer, event)]
  | .adapter _ (.remoteManifest transferId _ _) =>
    if around.startMountedReceive transferId then
      []
    else
      peerMessages ((service.call sha256 base64
        (.adapterLost around.order transferId)).2.toOption.getD [])
  | _ => []

/-- What `execute_transfer_actions` sends to peers. -/
def sentByActions (service : Service Address) :
    List (TransferAction (Peer Address)) → List (Peer Address × ProtoEvent)
  | [] => []
  | action :: actions =>
    service.sentByAction sha256 base64 around action ++
      sentByActions (service.executeAction sha256 base64 around action) actions

def sentByCall (operation : Call (Peer Address)) : List (Peer Address × ProtoEvent) :=
  match service.call sha256 base64 operation with
  | (service, .ok actions) => service.sentByActions sha256 base64 around actions
  | (_, .error _) => []

/-- The call that a message of a peer leads to, unless another part of the service takes it. -/
def fileOperation (peer : Peer Address) : ProtoEvent → Option (Call (Peer Address))
  | .manualFileOffer .. | .manualFileDecision .. | .manualFileRequest .. | .manualFileChunk ..
  | .manualFileComplete .. | .manualFileResult .. | .manualFileCancel .. | .profileChanged
  | .profileRequest .. | .profileStart .. | .profileChunk .. | .historySyncRequest ..
  | .historyRecordStart .. | .historyRecordChunk .. | .historySyncPageEnd ..
  | .historyClearBoundaryRequest .. | .historyClearBoundary .. | .historyClearApply ..
  | .historyClearAck .. => none
  | .clipboardManifest transferId entries =>
    some (.inboundManifest around.order peer (toString transferId) (toString transferId)
      transferId .copy entries)
  | event => some (.handleProtocol peer event)

def AdapterWord.operation (adapterId : AdapterId) : AdapterWord → Option (Call (Peer Address))
  | .rangeRequest request => some (.adapterRangeRequest around.order adapterId request)
  | .remoteManifest => some (.adapterLost around.order adapterId)
  | .mountReady ready => some (.adapterMountReady around.order adapterId ready)
  | .progress report => some (.adapterProgress around.order adapterId report)
  | .completed completion => some (.adapterCompleted around.order adapterId completion)
  | .cancelled transferId => some (.adapterCancelled around.order adapterId transferId)
  | .released transferId => some (.adapterReleased around.order adapterId transferId)
  | .unmounted report => some (.adapterUnmounted around.order adapterId report)
  | .copyManifest _ | .other => none

/-- The call of an event that makes one and executes what it returns. -/
def Event.operation : Event Address → Option (Call (Peer Address))
  | .clipboardProtocol addr event =>
    if (service.identity (.emulation addr)).isSome then
      fileOperation around (.emulation addr) event
    else none
  | .clipboard handle _ event =>
    if around.contains handle then fileOperation around (.capture handle) event else none
  | .peerLost handle => some (.peerLost around.order (.capture handle))
  | .adapterMessage adapterId word => word.operation around adapterId
  | .adapterCancelled adapterId transferId =>
    some (.adapterCancelled around.order adapterId transferId)
  | .adapterExited adapterId => some (.adapterLost around.order adapterId)
  | .cancelClipboardTransfer uiId => some (.cancelUi uiId none .user)
  | _ => none

/-- What `handle_manifest_offer` sends. -/
def sentByManifestOffer (result : ManifestOffer) : List (Peer Address × ProtoEvent) :=
  if result.generation ≠ service.manifestGeneration then
    []
  else
    match result.offer with
    | .error _ => []
    | .ok offer =>
      let offered := around.clipboardClients.foldl
        (offerToClient sha256 base64 around result offer) (service, [])
      offered.1.sentByActions sha256 base64 around offered.2

def sentBySource (result : SourceReadResult Address) (file : OutgoingFile) (offset : UInt64)
    (data : Bytes) (digest : Option Digest) : List (Peer Address × ProtoEvent) :=
  let (service, inserted) := service.call sha256 base64 (.insertOutgoingFile result.owner
    result.fileId result.requestId result.offset result.length file)
  match inserted with
  | .error _ => []
  | .ok _ =>
    let (service, sent) := service.call sha256 base64 (.sourceChunk result.owner result.fileId
      result.requestId offset data)
    match sent with
    | .error _ => []
    | .ok actions =>
      service.sentByActions sha256 base64 around actions ++
        match digest with
        | none => []
        | some digest =>
          (service.executeTransferActions sha256 base64 around actions).sentByCall sha256
            base64 around (.sourceComplete result.owner result.fileId result.requestId
              (result.offset + result.length) digest)

/-- What `handle_source_result` sends. -/
def sentBySourceResult (result : SourceReadResult Address) : List (Peer Address × ProtoEvent) :=
  match result.result with
  | .ok (file, some (offset, data), digest) =>
    service.sentBySource sha256 base64 around result file offset data digest
  | _ => []

def sentBy (event : Event Address) : List (Peer Address × ProtoEvent) :=
  match event with
  | .manifestOffer result => service.sentByManifestOffer sha256 base64 around result
  | .sourceResult result => service.sentBySourceResult sha256 base64 around result
  | event =>
    match event.operation around service with
    | some operation => service.sentByCall sha256 base64 around operation
    | none => []

end Sending

variable {sha256 : Bytes → Digest} {base64 : Bytes → String} {around : Surroundings Address}
  {service : Service Address} {actions : List (TransferAction (Peer Address))}
  {peer : Peer Address} {operation : Call (Peer Address)} {event : Event Address}

theorem historyPeerLost_transfers (peer : Peer Address) :
    (service.historyPeerLost peer).transfers = service.transfers := by
  cases peer <;> rfl

theorem handlePeerProtocol_unknown {peer : Peer Address}
    (unknown : service.identity peer = none) (event : ProtoEvent) :
    service.handlePeerProtocol sha256 base64 around peer event = service := by
  unfold handlePeerProtocol
  rw [unknown]

theorem executeTransferActions_eq {actions : List (TransferAction (Peer Address))}
    (notices : ∀ action ∈ actions, action.IsNotice) :
    service.executeTransferActions sha256 base64 around actions = service := by
  induction actions generalizing service with
  | nil => rfl
  | cons action _ ih =>
    have same : service.executeAction sha256 base64 around action = service := by
      have first := notices action (.head _)
      unfold executeAction
      split
      · exact first.elim
      · rfl
    simp only [executeTransferActions, foldl_cons, same]
    exact ih fun other member => notices other (.tail _ member)

theorem handle_peerLost_transfers (handle : ClientHandle) :
    (service.handle sha256 base64 around (.peerLost handle)).transfers =
      (service.transfers.peerLost around.order (.capture handle)).1 := by
  simp only [Service.handle]
  rw [executeTransferActions_eq, historyPeerLost_transfers]
  · rfl
  · exact cancelOwners_notices .ioError false _

theorem executeTransferActions_transfers {other : Service Address}
    (same : service.transfers = other.transfers) (actions : List (TransferAction (Peer Address))) :
    (service.executeTransferActions sha256 base64 around actions).transfers =
      (other.executeTransferActions sha256 base64 around actions).transfers := by
  induction actions generalizing service other with
  | nil => exact same
  | cons action _ ih =>
    have executed : (service.executeAction sha256 base64 around action).transfers =
        (other.executeAction sha256 base64 around action).transfers := by
      unfold executeAction
      split
      · split
        · exact same
        · simp only [call, same]
      · exact same
    exact ih executed

theorem callAndExecute_transfers {other : Service Address}
    (same : service.transfers = other.transfers) (operation : Call (Peer Address)) :
    (service.callAndExecute sha256 base64 around operation).transfers =
      (other.callAndExecute sha256 base64 around operation).transfers := by
  simp only [callAndExecute, call, same]
  split
  · rename_i first actions outcome
    rw [Prod.mk.injEq] at outcome
    rw [outcome.2]
    refine executeTransferActions_transfers ?_ actions
    rw [← outcome.1]
  · rename_i first error outcome
    rw [Prod.mk.injEq] at outcome
    rw [outcome.2, ← outcome.1]

theorem handlePeerProtocol_transfers (known : (service.identity peer).isSome) (event : ProtoEvent) :
    (service.handlePeerProtocol sha256 base64 around peer event).transfers =
      match fileOperation around peer event with
      | some operation =>
        (service.callAndExecute sha256 base64 around operation).transfers
      | none => service.transfers := by
  rcases Option.isSome_iff_exists.mp known with ⟨_, found⟩
  unfold handlePeerProtocol
  rw [found]
  cases event <;> rfl

theorem handle_transfers_of_operation (leads : event.operation around service = some operation) :
    (service.handle sha256 base64 around event).transfers =
      (service.callAndExecute sha256 base64 around operation).transfers := by
  cases event with
  | clipboardProtocol =>
    simp only [Event.operation] at leads
    split at leads
    · rename_i known
      simp only [handle, handlePeerProtocol_transfers known, leads]
    · cases leads
  | clipboard =>
    simp only [Event.operation] at leads
    split at leads
    · rename_i present
      simp only [handle, if_pos present]
      rw [handlePeerProtocol_transfers (by simp [identity]), leads]
      refine callAndExecute_transfers ?_ operation
      rfl
    · cases leads
  | peerLost =>
    cases leads
    rw [handle_peerLost_transfers]
    simp only [callAndExecute, call, TransferState.perform, Outcome.sure]
    rw [executeTransferActions_eq]
    exact TransferState.cancelOwners_notices .ioError false _
  | adapterMessage _ word =>
    cases word with
    | copyManifest | other => cases leads
    | _ =>
      cases leads
      rfl
  | adapterCancelled | adapterExited | cancelClipboardTransfer =>
    cases leads
    rfl
  | _ => cases leads

theorem handle_of_silent {P : TransferState (Peer Address) → Prop}
    (silent : event.operation around service = none)
    (notOffer : ∀ result, event ≠ .manifestOffer result)
    (notRead : ∀ result, event ≠ .sourceResult result) (same : P service.transfers)
    (published : ∀ adapterId, P (service.transfers.setFileClipboardAdapter adapterId)) :
    P (service.handle sha256 base64 around event).transfers := by
  cases event with
  | clipboardProtocol addr =>
    cases known : service.identity (.emulation addr) with
    | none =>
      rw [handle, handlePeerProtocol_unknown known]
      exact same
    | some =>
      have present : (service.identity (.emulation addr)).isSome := by simp [known]
      simp only [Event.operation, if_pos present] at silent
      simp only [handle, handlePeerProtocol_transfers present, silent]
      exact same
  | clipboard =>
    simp only [handle]
    split
    · rename_i present
      simp only [Event.operation, if_pos present] at silent
      rw [handlePeerProtocol_transfers (by simp [identity]), silent]
      exact same
    · exact same
  | adapterMessage _ word =>
    cases word with
    | copyManifest =>
      simp only [handle, handleAdapterWord]
      split
      · exact same
      · exact same
    | other => exact same
    | _ => cases silent
  | peerLost | adapterCancelled | adapterExited | cancelClipboardTransfer => cases silent
  | manifestOffer result => exact absurd rfl (notOffer result)
  | sourceResult result => exact absurd rfl (notRead result)
  | syncFileClipboardProvider =>
    simp only [handle]
    split
    · exact published _
    · exact same
  | peerAuthenticated | peerStateChanged =>
    simp only [handle]
    split
    · exact same
    · exact same
  | _ => exact same

end Service

end Syntra
