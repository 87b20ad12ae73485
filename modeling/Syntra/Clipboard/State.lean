import Mathlib.Data.UInt
import Syntra.Clipboard.Transfer

/-!
# The operations on the transfer state

`TransferState`: its public operations and the helpers they share. The state is part of the outcome
also when an operation fails. Where the source goes through a hash map or a hash set, the order is
an argument.
-/

namespace Syntra.Clipboard

open ByteFormat Proto Tables

variable {P : Type} [DecidableEq P]

namespace TransferState

variable (state : TransferState P)

/-- `TransferState::default`. -/
def new : TransferState P where
  nextUiId := 1
  localTransfers := ∅
  remoteTransfers := ∅
  pending := ∅
  adapterToOwner := ∅
  sourcePending := ∅
  uiToOwner := ∅
  fileClipboardAdapter := ""

/-- A sequence of checks and, when all pass, what the operation does and returns. -/
def attempt {α : Type} (checks : Except (TransferStateError P) α)
    (commit : α → TransferState P × List (TransferAction P)) : Outcome P :=
  match checks with
  | .error error => ⟨state, .error error⟩
  | .ok value => ⟨(commit value).1, .ok (commit value).2⟩

def ownersForAdapter (order : IterOrder (TransferOwner P)) (adapterId transferId : String) :
    List (TransferOwner P) :=
  order.arrange ((state.adapterToOwner.lookup (adapterId, transferId)).getD [])

variable (owner : TransferOwner P)

def transferTotals : UInt64 × UInt64 :=
  match state.localTransfers.lookup owner with
  | some transfer =>
    ((transfer.transferredByFile.entries.map (·.2)).sum, (transfer.offer.entries.map (·.size)).sum)
  | none =>
    match state.remoteTransfers.lookup owner with
    | some transfer =>
      ((transfer.transferredByFile.entries.map (·.2)).sum,
        (transfer.entries.entries.map (·.2.size)).sum)
    | none => (0, 0)

def transferUiId : Option UiTransferId :=
  ((state.localTransfers.lookup owner).map (·.uiId)).or
    ((state.remoteTransfers.lookup owner).map (·.uiId))

def adapterPair : Option (AdapterId × String) :=
  ((state.localTransfers.lookup owner).map fun transfer =>
      (transfer.adapterId, transfer.adapterTransferId)).or
    ((state.remoteTransfers.lookup owner).map fun transfer =>
      (transfer.adapterId, transfer.adapterTransferId))

def isAnnounced : Bool :=
  (((state.localTransfers.lookup owner).map (·.announced)).or
    ((state.remoteTransfers.lookup owner).map (·.announced))).getD false

def knowsFile (fileId : UInt64) : Bool :=
  (((state.localTransfers.lookup owner).map fun transfer =>
      transfer.offer.entries.any (fun entry => entry.fileId = fileId)).or
    ((state.remoteTransfers.lookup owner).map fun transfer =>
      (transfer.entries.lookup fileId).isSome)).getD false

def ensureOwnerAvailable : Except (TransferStateError P) Unit :=
  if owner ∈ state.localTransfers ∨ owner ∈ state.remoteTransfers then
    throw (.duplicateOwner owner)
  else
    pure ()

def ensureIdsAvailable (adapterId transferId : String) : Except (TransferStateError P) Unit := do
  state.ensureOwnerAvailable owner
  if (adapterId, transferId) ∈ state.adapterToOwner then
    throw (.duplicateAdapterTransfer adapterId transferId)

/-- `checked_add(1).unwrap_or(1)`. -/
def followingUiId (id : UiTransferId) : UiTransferId :=
  (checkedAdd id 1).getD 1

/-- The loop of `allocate_ui_id`. The ids come round to the first one after at most `u64Max`
turns. -/
def allocateLoop (start : UiTransferId) : ℕ → TransferState P →
    TransferState P × Except (TransferStateError P) UiTransferId
  | 0, state => (state, .error .uiIdExhausted)
  | turns + 1, state =>
    let id := state.nextUiId
    let state := { state with nextUiId := followingUiId id }
    if id ≠ 0 ∧ id ∉ state.uiToOwner then
      (state, .ok id)
    else if state.nextUiId = start then
      (state, .error .uiIdExhausted)
    else
      allocateLoop start turns state

def allocateUiId : TransferState P × Except (TransferStateError P) UiTransferId :=
  allocateLoop state.nextUiId u64Max state

def insertMapping (uiId : UiTransferId) (owner : TransferOwner P) (adapterId transferId : String) :
    TransferState P :=
  { state with
    uiToOwner := state.uiToOwner.insert uiId owner
    adapterToOwner := state.adapterToOwner.insert (adapterId, transferId)
      (((state.adapterToOwner.lookup (adapterId, transferId)).getD []).insert owner) }

def addLocal (transfer : LocalTransfer) : TransferState P :=
  { state.insertMapping transfer.uiId owner transfer.adapterId transfer.adapterTransferId with
    localTransfers := state.localTransfers.insert owner transfer }

def addRemote (transfer : RemoteTransfer) : TransferState P :=
  { state.insertMapping transfer.uiId owner transfer.adapterId transfer.adapterTransferId with
    remoteTransfers := state.remoteTransfers.insert owner transfer }

def removeOwner : TransferState P :=
  let found := state.localTransfers.lookup owner
  { state with
    localTransfers := state.localTransfers.erase owner
    remoteTransfers :=
      if found.isSome then state.remoteTransfers else state.remoteTransfers.erase owner
    uiToOwner :=
      match state.transferUiId owner with
      | some uiId => state.uiToOwner.erase uiId
      | none => state.uiToOwner
    adapterToOwner := state.adapterToOwner.filterMap fun _ owners =>
      if (owners.erase owner).isEmpty then none else some (owners.erase owner)
    pending := state.pending.retain fun key _ => key.1 ≠ owner
    sourcePending := state.sourcePending.retain fun key _ => key.1 ≠ owner }

/-- The part of `cancel_owner` that forgets the requests of one file. -/
def removeFile (fileId : UInt64) : TransferState P :=
  { state with
    pending := state.pending.retain fun key _ => key.1 ≠ owner ∨ key.2.1 ≠ fileId
    sourcePending := state.sourcePending.retain fun key _ => key.1 ≠ owner ∨ key.2.1 ≠ fileId
    localTransfers := modify state.localTransfers owner fun transfer =>
      { transfer with outgoing := transfer.outgoing.retain fun key _ => key.1 ≠ fileId } }

def announceLocal : TransferState P :=
  { state with
    localTransfers := modify state.localTransfers owner fun transfer =>
      { transfer with announced := true } }

def announceRemote : TransferState P :=
  { state with
    remoteTransfers := modify state.remoteTransfers owner fun transfer =>
      { transfer with announced := true } }

/-- What `cancel_owner` tells, given what it knew of the transfer before. -/
def cancelActions (uiId : UiTransferId) (pair : AdapterId × String) (fileId : Option UInt64)
    (reason : ClipboardCancelReason) (notifyPeer : Bool) :
    List (TransferAction P) :=
  (if notifyPeer then
      [.peer owner.peer (.clipboardTransferCancel owner.wireId fileId reason)]
    else []) ++
    [.adapter pair.1 (.cancel pair.2)] ++
    (if state.isAnnounced owner then
      [.frontend (.cancelled uiId fileId (state.transferTotals owner).1
        (state.transferTotals owner).2)]
    else [])

def cancelOwner (fileId : Option UInt64) (reason : ClipboardCancelReason) (notifyPeer : Bool) :
    Outcome P :=
  state.attempt
    (do
      let uiId ← okOr (state.transferUiId owner) (.unknownOwner owner)
      let pair ← okOr (state.adapterPair owner) (.unknownOwner owner)
      match fileId with
      | some fileId =>
        if ¬state.knowsFile owner fileId then
          throw (.unknownFile owner fileId)
      | none => pure ()
      pure (uiId, pair))
    fun (uiId, pair) =>
      (match fileId with
        | some fileId => state.removeFile owner fileId
        | none => state.removeOwner owner,
        state.cancelActions owner uiId pair fileId reason notifyPeer)

/-- `cancel_owner` on one owner after another, with `unwrap_or_default` on what each returns. -/
def cancelOwners (reason : ClipboardCancelReason) (notifyPeer : Bool) :
    TransferState P → List (TransferOwner P) → TransferState P × List (TransferAction P)
  | state, [] => (state, [])
  | state, owner :: owners =>
    let outcome := state.cancelOwner owner none reason notifyPeer
    let rest := cancelOwners reason notifyPeer outcome.state owners
    (rest.1, (outcome.result.toOption.getD []) ++ rest.2)

def enterNumbered (enter : TransferState P → UiTransferId → TransferState P)
    (actions : List (TransferAction P)) :
    TransferState P × Except (TransferStateError P) UiTransferId → Outcome P
  | (state, .error error) => ⟨state, .error error⟩
  | (state, .ok uiId) => ⟨enter state uiId, .ok actions⟩

def replaceOffers (checks : Except (TransferStateError P) Unit)
    (superseded : List (TransferOwner P)) (notifyPeer : Bool)
    (enter : TransferState P → UiTransferId → TransferState P) (announcement : TransferAction P) :
    Outcome P :=
  match checks with
  | .error error => ⟨state, .error error⟩
  | .ok _ =>
    let (remaining, staleActions) := cancelOwners .user notifyPeer state superseded
    enterNumbered enter (staleActions ++ [announcement]) remaining.allocateUiId

/-- The loop in which an adapter's word ends the transfer of one owner after another. -/
def endOwners (tell : TransferOwner P → UiTransferId → UInt64 × UInt64 → List (TransferAction P)) :
    TransferState P → List (TransferOwner P) → Outcome P
  | state, [] => ⟨state, .ok []⟩
  | state, owner :: owners =>
    match state.transferUiId owner with
    | none => ⟨state, .error (.unknownOwner owner)⟩
    | some uiId =>
      let rest := endOwners tell (state.removeOwner owner) owners
      { rest with
        result := rest.result.map (tell owner uiId (state.transferTotals owner) ++ ·) }

end TransferState

end Syntra.Clipboard
