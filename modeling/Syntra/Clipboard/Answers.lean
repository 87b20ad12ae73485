import Syntra.Clipboard.Atomicity
import Syntra.Clipboard.Cancellation

/-!
# Requests for local files

A peer that asks for a range of a local file has its request kept until it is answered, by a chunk,
by a completion or by a cancellation. The operations that end requests also tell the peer, but for
the end of a range that was not sent and for two endings by an adapter.
-/

namespace Syntra.Clipboard

open ByteFormat Proto Files StateMachine Tables List AList

variable {P : Type} [DecidableEq P]

/-- The message answers the request. -/
def Answers (key : RequestKey P) : ProtoEvent → Prop
  | .clipboardFileChunk transferId fileId requestId _ _
  | .clipboardFileComplete transferId fileId requestId _ _ =>
    transferId = key.1.wireId ∧ fileId = key.2.1 ∧ requestId = key.2.2
  | .clipboardTransferCancel transferId fileId _ =>
    transferId = key.1.wireId ∧ ∀ id, fileId = some id → id = key.2.1
  | _ => False

def peerMessages (actions : List (TransferAction P)) : List (P × ProtoEvent) :=
  actions.filterMap fun action =>
    match action with
    | .peer peer event => some (peer, event)
    | _ => none

/-- What is sent to peers when the actions of an operation are executed. -/
def Outcome.sent (outcome : Outcome P) : List (P × ProtoEvent) :=
  peerMessages (outcome.result.toOption.getD [])

def Accounted (key : RequestKey P) (state later : TransferState P)
    (messages : List (P × ProtoEvent)) : Prop :=
  key ∈ state.sourcePending → key ∉ later.sourcePending →
    ∃ message, (key.1.peer, message) ∈ messages ∧ Answers key message

def Call.Excuses (key : RequestKey P) : Call P → Prop
  | .inboundCancel peer wireId _ _
  | .handleProtocol peer (.clipboardTransferCancel wireId _ _) => key.1 = ⟨peer, wireId⟩
  | .peerLost _ peer => key.1.peer = peer
  | _ => False

/-- A request is ended and its peer is not told by the operation. -/
def Call.Drops (state : TransferState P) (key : RequestKey P) : Call P → Prop
  | .adapterCompleted _ adapterId completion =>
    state.IsRegistered key.1 (adapterId, completion.transferId)
  | .adapterUnmounted _ adapterId unmounted =>
    state.IsRegistered key.1 (adapterId, unmounted.transferId)
  | .sourceRangeServed owner fileId requestId => key = (owner, fileId, requestId)
  | _ => False

namespace Accounted

omit [DecidableEq P]

variable {state later : TransferState P} {key : RequestKey P} {messages : List (P × ProtoEvent)}

theorem of_kept (kept : key ∈ state.sourcePending → key ∈ later.sourcePending) :
    Accounted key state later messages :=
  fun there gone => absurd (kept there) gone

theorem of_same (same : later.sourcePending = state.sourcePending) :
    Accounted key state later messages :=
  .of_kept fun there => same ▸ there

theorem of_told {message : ProtoEvent} (told : (key.1.peer, message) ∈ messages)
    (answers : Answers key message) : Accounted key state later messages :=
  fun _ _ => ⟨message, told, answers⟩

theorem of_earlier {earlier : TransferState P} (same : state.sourcePending = earlier.sourcePending)
    (accounted : Accounted key state later messages) : Accounted key earlier later messages :=
  fun there gone => accounted (same ▸ there) gone

variable {more : List (P × ProtoEvent)}

theorem mono (accounted : Accounted key state later messages)
    (further : ∀ message ∈ messages, message ∈ more) : Accounted key state later more := by
  intro there gone
  rcases accounted there gone with ⟨message, told, answers⟩
  exact ⟨message, further _ told, answers⟩

theorem trans {last : TransferState P} (first : Accounted key state later messages)
    (second : Accounted key later last more) : Accounted key state last (messages ++ more) := by
  intro there gone
  by_cases kept : key ∈ later.sourcePending
  · rcases second kept gone with ⟨message, told, answers⟩
    exact ⟨message, mem_append_right _ told, answers⟩
  · rcases first there kept with ⟨message, told, answers⟩
    exact ⟨message, mem_append_left _ told, answers⟩

end Accounted

omit [DecidableEq P] in
@[simp]
theorem peerMessages_append (actions further : List (TransferAction P)) :
    peerMessages (actions ++ further) = peerMessages actions ++ peerMessages further :=
  filterMap_append

variable {actions : List (TransferAction P)} {file : OutgoingFile}
  {fileId length offset requestId : UInt64}

omit [DecidableEq P] in
theorem mem_peerMessages {peer : P} {message : ProtoEvent} :
    (peer, message) ∈ peerMessages actions ↔ .peer peer message ∈ actions := by
  simp only [peerMessages, mem_filterMap]
  refine ⟨?_, fun member => ⟨_, member, rfl⟩⟩
  rintro ⟨action, member, shown⟩
  cases action with
  | peer =>
    cases shown
    exact member
  | _ => cases shown

namespace TransferState

variable {whole : Prop} {state later : TransferState P} {key : RequestKey P}
  {owner : TransferOwner P}

theorem mem_sourcePending_removeOwner :
    key ∈ (state.removeOwner owner).sourcePending ↔ key ∈ state.sourcePending ∧ key.1 ≠ owner := by
  simp only [mem_iff_lookup, removeOwner, lookup_retain, Option.filter_eq_some_iff,
    decide_eq_true_eq, exists_and_right]

theorem mem_sourcePending_removeFile :
    key ∈ (state.removeFile owner fileId).sourcePending ↔
      key ∈ state.sourcePending ∧ (key.1 ≠ owner ∨ key.2.1 ≠ fileId) := by
  simp only [mem_iff_lookup, removeFile, lookup_retain, Option.filter_eq_some_iff,
    decide_eq_true_eq, exists_and_right]

variable {α : Type} {notifyPeer : Bool} {messages : List (P × ProtoEvent)}
  {checks : Except (TransferStateError P) α}
  {commit : α → TransferState P × List (TransferAction P)}

omit [DecidableEq P] in
theorem attempt_accounted (committed : ∀ value, checks = .ok value →
      Accounted key state (commit value).1 (peerMessages (commit value).2)) :
    Accounted key state (state.attempt checks commit).state (state.attempt checks commit).sent := by
  rcases attempt_cases state checks commit with ⟨_, failed⟩ | ⟨value, passed, done⟩
  · rw [failed]
    exact .of_same rfl
  · rw [done]
    exact committed value passed

theorem cancelOwner_accounted (owner : TransferOwner P) (fileId : Option UInt64)
    (reason : ClipboardCancelReason) (tells : notifyPeer = true ∨ key.1 ≠ owner) :
    Accounted key state (state.cancelOwner owner fileId reason notifyPeer).state
      (state.cancelOwner owner fileId reason notifyPeer).sent := by
  apply attempt_accounted
  rintro ⟨_, _⟩ _
  by_cases own : key.1 = owner
  · rcases tells with rfl | other
    · intro there gone
      refine ⟨.clipboardTransferCancel owner.wireId fileId reason, ?_, own ▸ rfl, ?_⟩
      · rw [own, mem_peerMessages]
        simp [cancelActions]
      · rintro _ rfl
        rw [mem_sourcePending_removeFile] at gone
        by_contra different
        exact gone ⟨there, .inr (Ne.symm different)⟩
    · exact absurd own other
  · apply Accounted.of_kept
    intro there
    cases fileId with
    | none => exact mem_sourcePending_removeOwner.mpr ⟨there, own⟩
    | some => exact mem_sourcePending_removeFile.mpr ⟨there, .inl own⟩

variable {owners : List (TransferOwner P)} {actions : List (TransferAction P)}

theorem cancelOwners_accounted (reason : ClipboardCancelReason)
    (tells : notifyPeer = true ∨ key.1 ∉ owners) :
    Accounted key state (cancelOwners reason notifyPeer state owners).1
      (peerMessages (cancelOwners reason notifyPeer state owners).2) := by
  induction owners generalizing state with
  | nil => exact .of_same rfl
  | cons owner _ ih =>
    simp only [cancelOwners, peerMessages_append]
    refine (cancelOwner_accounted owner none reason ?_).trans (ih ?_)
    · exact tells.imp_right fun unlisted same => unlisted (same ▸ .head _)
    · exact tells.imp_right fun unlisted member => unlisted (mem_cons_of_mem owner member)

theorem replaceOffers_accounted (sound : state.Sound whole)
    {checks : Except (TransferStateError P) Unit} {superseded : List (TransferOwner P)}
    (live : ∀ owner ∈ superseded, state.transferUiId owner ≠ none)
    (tells : notifyPeer = true ∨ key.1 ∉ superseded)
    {enter : TransferState P → UiTransferId → TransferState P} {announcement : TransferAction P}
    (enters : ∀ earlier uiId, (enter earlier uiId).sourcePending = earlier.sourcePending) :
    Accounted key state (state.replaceOffers checks superseded notifyPeer enter announcement).state
      (state.replaceOffers checks superseded notifyPeer enter announcement).sent := by
  have atomic := replaceOffers_atomic sound checks live notifyPeer enter announcement
  rcases replaceOffers_cases sound checks superseded notifyPeer enter announcement with
    ⟨_, _, refused⟩ | ⟨_, _, _, ⟨error, _, full⟩ | ⟨uiId, _, _, entered⟩⟩
  · rw [refused]
    exact .of_same rfl
  · rw [full] at atomic ⊢
    exact .of_same (congrArg sourcePending (atomic error rfl))
  · rw [entered]
    have ended : Accounted key state (cancelOwners .user notifyPeer state superseded).1 _ :=
      cancelOwners_accounted .user tells
    simp only [Outcome.sent, Except.toOption, Option.getD_some, peerMessages_append]
    exact ended.trans (.of_same (enters _ uiId))

theorem not_mem_supersededRemote (sound : state.Sound whole) (order : IterOrder (TransferOwner P))
    (peer : P) (requested : key ∈ state.sourcePending) :
    key.1 ∉ order.arrange (state.supersededRemote peer) := by
  intro member
  rcases (mem_iff_lookup _ _).mp requested with ⟨reservation, found⟩
  rcases sound.reserved key reservation found with ⟨_, own⟩
  rw [order.mem_arrange, supersededRemote, mem_filter] at member
  exact lookup_eq_none.mp (sound.disjoint _ _ own) member.1

omit [DecidableEq P] in
theorem mem_tellCancelled {uiId : UiTransferId} {totals : UInt64 × UInt64} :
    (owner.peer, .clipboardTransferCancel owner.wireId none .user) ∈
      peerMessages (tellCancelled owner uiId totals) := by
  simp [tellCancelled, peerMessages]

theorem removeOwner_accounted
    (told : (owner.peer, .clipboardTransferCancel owner.wireId none .user) ∈ messages) :
    Accounted key state (state.removeOwner owner) messages := by
  by_cases own : key.1 = owner
  · rw [← own] at told
    exact .of_told told ⟨rfl, by simp⟩
  · exact .of_kept fun there => mem_sourcePending_removeOwner.mpr ⟨there, own⟩

theorem endOwners_accounted (ended : (endOwners tellCancelled state owners).result = .ok actions) :
    Accounted key state (endOwners tellCancelled state owners).state (peerMessages actions) := by
  induction owners generalizing state actions with
  | nil => exact .of_same rfl
  | cons owner owners ih =>
    cases known : state.transferUiId owner with
    | none =>
      simp only [endOwners, known] at ended
      cases ended
    | some =>
      simp only [endOwners, known] at ended ⊢
      cases rest : (endOwners tellCancelled (state.removeOwner owner) owners).result with
      | error =>
        rw [rest] at ended
        cases ended
      | ok =>
        rw [rest] at ended
        cases ended
        rw [peerMessages_append]
        exact (removeOwner_accounted mem_tellCancelled).trans (ih rest)

theorem adapterCancelled_accounted (sound : state.Sound whole)
    (order : IterOrder (TransferOwner P)) (adapterId transferId : String) :
    Accounted key state (state.adapterCancelled order adapterId transferId).state
      (state.adapterCancelled order adapterId transferId).sent := by
  cases outcome : (state.adapterCancelled order adapterId transferId).result with
  | error error =>
    have same := endTransfer_atomic sound order adapterId transferId tellCancelled error outcome
    exact .of_same (congrArg sourcePending same)
  | ok =>
    rw [Outcome.sent, outcome]
    simp only [adapterCancelled, endTransfer] at outcome ⊢
    split at outcome
    · cases outcome
    · rename_i nonempty
      rw [if_neg nonempty]
      exact endOwners_accounted outcome

theorem releaseOwners_accounted (owners : List (TransferOwner P)) :
    Accounted key state (releaseOwners state owners).1
      (peerMessages (releaseOwners state owners).2) := by
  induction owners generalizing state with
  | nil => exact .of_same rfl
  | cons _ _ ih =>
    rw [releaseOwners]
    split
    · exact ih
    · split
      · exact ih
      · rw [peerMessages_append]
        exact (removeOwner_accounted mem_tellCancelled).trans ih

theorem endOwners_absent (sound : state.Sound whole)
    (tell : TransferOwner P → UiTransferId → UInt64 × UInt64 → List (TransferAction P))
    (ended : (endOwners tell state owners).result = .ok actions) (member : owner ∈ owners) :
    (endOwners tell state owners).state.localTransfers.lookup owner = none := by
  induction owners generalizing state actions with
  | nil => cases member
  | cons first owners ih =>
    cases known : state.transferUiId first with
    | none =>
      simp only [endOwners, known] at ended
      cases ended
    | some =>
      simp only [endOwners, known] at ended ⊢
      cases rest : (endOwners tell (state.removeOwner first) owners).result with
      | error =>
        rw [rest] at ended
        cases ended
      | ok =>
        rcases mem_cons.mp member with rfl | later
        · have shrinks : (state.removeOwner owner).Shrinks
              (endOwners tell (state.removeOwner owner) owners).state :=
            endOwners_shrinks tell owners
          refine (shrinks.absent ?_ ?_).1
          · rw [removeOwner_local, if_pos rfl]
          · rw [removeOwner_remote sound, if_pos rfl]
        · exact ih (sound.removeOwner first) rest later

theorem endOwners_spares
    (tell : TransferOwner P → UiTransferId → UInt64 × UInt64 → List (TransferAction P))
    (unlisted : key.1 ∉ owners) (requested : key ∈ state.sourcePending) :
    key ∈ (endOwners tell state owners).state.sourcePending := by
  induction owners generalizing state with
  | nil => exact requested
  | cons _ _ ih =>
    rw [mem_cons, not_or] at unlisted
    rw [endOwners]
    split
    · exact requested
    · exact ih unlisted.2 (mem_sourcePending_removeOwner.mpr ⟨requested, unlisted.1⟩)

omit [DecidableEq P] in
theorem mem_ownersForAdapter (order : IterOrder (TransferOwner P)) {adapterId transferId : String} :
    owner ∈ state.ownersForAdapter order adapterId transferId ↔
      state.IsRegistered owner (adapterId, transferId) := by
  rw [ownersForAdapter, order.mem_arrange, IsRegistered]
  cases state.adapterToOwner.lookup (adapterId, transferId) with
  | none | some => simp

theorem mem_sourcePending_endTransfer (sound : state.Sound whole)
    (order : IterOrder (TransferOwner P)) {adapterId transferId : String}
    (tell : TransferOwner P → UiTransferId → UInt64 × UInt64 → List (TransferAction P))
    (requested : key ∈ state.sourcePending) :
    key ∈ (state.endTransfer order adapterId transferId tell).state.sourcePending ↔
      ¬state.IsRegistered key.1 (adapterId, transferId) := by
  rw [← mem_ownersForAdapter order]
  have ended := (endTransfer_shrinks order adapterId transferId tell).sound sound
  simp only [endTransfer] at ended ⊢
  split
  · rename_i empty
    rw [isEmpty_iff.mp empty]
    simp [requested]
  · rename_i nonempty
    rw [if_neg nonempty] at ended
    refine ⟨?_, fun unlisted => endOwners_spares tell unlisted requested⟩
    intro kept listed
    rcases endOwners_registered sound order adapterId transferId tell with ⟨_, done⟩
    rcases (mem_iff_lookup _ _).mp kept with ⟨reservation, found⟩
    rcases ended.reserved key reservation found with ⟨_, own⟩
    rw [endOwners_absent sound tell done listed] at own
    cases own

theorem endOwners_shows
    {tell : TransferOwner P → UiTransferId → UInt64 × UInt64 → List (TransferAction P)}
    (shows : ∀ owner uiId totals, ∀ action ∈ tell owner uiId totals,
      ∃ event, action = .frontend event)
    (ended : (endOwners tell state owners).result = .ok actions) :
    ∀ action ∈ actions, ∃ event, action = .frontend event := by
  induction owners generalizing state actions with
  | nil =>
    cases ended
    exact fun action member => nomatch member
  | cons owner owners ih =>
    cases known : state.transferUiId owner with
    | none =>
      simp only [endOwners, known] at ended
      cases ended
    | some =>
      simp only [endOwners, known] at ended
      cases rest : (endOwners tell (state.removeOwner owner) owners).result with
      | error =>
        rw [rest] at ended
        cases ended
      | ok =>
        rw [rest] at ended
        cases ended
        intro action member
        rcases mem_append.mp member with first | later
        · exact shows _ _ _ action first
        · exact ih rest action later

theorem sourceRangeServed_accounted (other : key ≠ (owner, fileId, requestId)) :
    Accounted key state (state.sourceRangeServed owner fileId requestId) messages := by
  apply Accounted.of_kept
  intro there
  exact mem_erase.mpr ⟨other, there⟩

theorem sourceComplete_accounted (fileId requestId size : UInt64) (digest : Digest) :
    Accounted key state (state.sourceComplete owner fileId requestId size digest).state
      (state.sourceComplete owner fileId requestId size digest).sent := by
  apply attempt_accounted
  intro _ _
  by_cases own : key = (owner, fileId, requestId)
  · subst own
    exact .of_told (.head _) ⟨rfl, rfl, rfl⟩
  · exact sourceRangeServed_accounted own

theorem sourceFileRequest_accounted (peer : P) (wireId fileId requestId offset length : UInt64) :
    Accounted key state (state.sourceFileRequest peer wireId fileId requestId offset length).state
      (state.sourceFileRequest peer wireId fileId requestId offset length).sent := by
  apply attempt_accounted
  intro _ _
  apply Accounted.of_kept
  intro there
  exact (mem_insert _).mpr (.inr there)

theorem inboundChunk_sourcePending (base64 : Bytes → String) (peer : P)
    (wireId fileId requestId offset : UInt64) (data : Bytes) :
    (state.inboundChunk base64 peer wireId fileId requestId offset data).state.sourcePending =
      state.sourcePending := by
  simp only [inboundChunk]
  repeat' split
  all_goals rfl

variable (sha256 : Bytes → Digest)

theorem inboundComplete_sourcePending (base64 : Bytes → String) (peer : P)
    (wireId fileId requestId size : UInt64) (digest : Digest) :
    (state.inboundComplete sha256 base64 peer wireId fileId requestId size
      digest).state.sourcePending = state.sourcePending := by
  simp only [TransferState.inboundComplete]
  split
  · rfl
  · split
    · rfl
    · rfl

omit [DecidableEq P] in
theorem attempt_same (same : ∀ value, (commit value).1.sourcePending = state.sourcePending) :
    Accounted key state (state.attempt checks commit).state (state.attempt checks commit).sent :=
  attempt_accounted fun value _ => .of_same (same value)

theorem handleProtocol_accounted (base64 : Bytes → String) {peer : P} {event : ProtoEvent}
    (unexcused : ¬(Call.handleProtocol peer event).Excuses key) :
    Accounted key state (state.handleProtocol sha256 base64 peer event).state
      (state.handleProtocol sha256 base64 peer event).sent := by
  cases event with
  | clipboardFileChunk wireId fileId requestId offset data =>
    exact .of_same (inboundChunk_sourcePending base64 peer wireId fileId requestId offset data)
  | clipboardFileComplete wireId fileId requestId size digest =>
    exact .of_same
      (inboundComplete_sourcePending sha256 base64 peer wireId fileId requestId size digest)
  | clipboardFileRequest wireId fileId requestId offset length =>
    exact sourceFileRequest_accounted peer wireId fileId requestId offset length
  | clipboardTransferCancel wireId fileId reason =>
    exact cancelOwner_accounted ⟨peer, wireId⟩ fileId reason (.inr unexcused)
  | clipboardTransferProgress => exact attempt_same fun _ => rfl
  | _ => exact .of_same rfl

theorem perform_accounted (sound : state.Sound whole) (sha256 : Bytes → Digest)
    (base64 : Bytes → String) {call : Call P} (unexcused : ¬call.Excuses key)
    (undropped : ¬call.Drops state key) :
    Accounted key state (state.perform sha256 base64 call).state
      (state.perform sha256 base64 call).sent := by
  cases call with
  | setFileClipboardAdapter => exact .of_same rfl
  | localCopyManifest order =>
    refine replaceOffers_accounted sound ?_ (.inl rfl) (fun _ _ => rfl)
    intro owner member
    exact supersededLocal_live (order.mem_arrange.mp member)
  | inboundManifest order peer =>
    intro there
    refine replaceOffers_accounted sound ?_ (.inr ?_) (fun _ _ => rfl) there
    · intro _ member
      exact supersededRemote_live (order.mem_arrange.mp member)
    · exact not_mem_supersededRemote sound order peer there
  | adapterRangeRequest | adapterMountReady => exact attempt_same fun _ => rfl
  | adapterProgress =>
    exact attempt_same fun completed => (unmoved_noteProgress_all completed _).sourcePending
  | adapterCompleted order =>
    exact .of_kept fun there =>
      (mem_sourcePending_endTransfer sound order _ there).mpr undropped
  | adapterCancelled order adapterId transferId =>
    exact adapterCancelled_accounted sound order adapterId transferId
  | adapterReleased order adapterId transferId =>
    apply attempt_accounted
    intro owners _
    have released : Accounted key
        { state with adapterToOwner := state.adapterToOwner.erase (adapterId, transferId) } _ _ :=
      releaseOwners_accounted (order.arrange owners)
    exact released
  | adapterUnmounted order =>
    exact .of_kept fun there =>
      (mem_sourcePending_endTransfer sound order _ there).mpr undropped
  | sourceFileRequest peer wireId fileId requestId offset length =>
    exact sourceFileRequest_accounted peer wireId fileId requestId offset length
  | insertOutgoingFile =>
    exact attempt_same fun _ => rfl
  | sourceChunk => exact attempt_same fun _ => rfl
  | sourceRangeServed => exact sourceRangeServed_accounted undropped
  | sourceComplete _ fileId requestId size digest =>
    exact sourceComplete_accounted fileId requestId size digest
  | inboundChunk peer wireId fileId requestId offset data =>
    exact .of_same (inboundChunk_sourcePending base64 peer wireId fileId requestId offset data)
  | inboundProgress => exact attempt_same fun _ => rfl
  | inboundComplete peer wireId fileId requestId size digest =>
    exact .of_same
      (inboundComplete_sourcePending sha256 base64 peer wireId fileId requestId size digest)
  | inboundCancel peer wireId fileId reason =>
    exact cancelOwner_accounted ⟨peer, wireId⟩ fileId reason (.inr unexcused)
  | cancelUi _ fileId reason =>
    simp only [perform, cancelUi]
    split
    · exact .of_same rfl
    · exact cancelOwner_accounted _ fileId reason (.inl rfl)
  | peerLost order =>
    refine cancelOwners_accounted .ioError (.inr ?_)
    rw [order.mem_arrange, mem_ownersOfPeer]
    exact fun lost => unexcused lost.1
  | adapterLost => exact cancelOwners_accounted .ioError (.inl rfl)
  | handleProtocol => exact handleProtocol_accounted sha256 base64 unexcused

omit [DecidableEq P] in
theorem attempt_succeeds {α : Type} {checks : Except (TransferStateError P) α}
    {commit : α → TransferState P × List (TransferAction P)} :
    (∃ actions, (state.attempt checks commit).result = .ok actions) ↔
      ∃ value, checks = .ok value := by
  cases checks with
  | error | ok => simp [attempt]

theorem insertOutgoingFile_succeeds :
    (∃ actions, (state.insertOutgoingFile owner fileId requestId offset length file).result =
        .ok actions) ↔
      ∃ transfer, state.localTransfers.lookup owner = some transfer ∧ file.fileId = fileId ∧
        (fileId, requestId) ∉ transfer.outgoing ∧
        state.sourcePending.lookup (owner, fileId, requestId) = some (offset, length) := by
  rw [insertOutgoingFile, attempt_succeeds]
  simp only [bind_ok, guard_bind_ok, guard_ok, okOr_eq_ok, not_not]
  constructor
  · rintro ⟨_, transfer, found, same, fresh, _, reserved, rfl, _⟩
    exact ⟨transfer, found, same, fresh, reserved⟩
  · rintro ⟨transfer, found, same, fresh, reserved⟩
    exact ⟨(), transfer, found, same, fresh, _, reserved, rfl, rfl⟩

variable {data : Bytes} {transfer : LocalTransfer}

theorem sourceChunk_succeeds :
    (∃ actions, (state.sourceChunk owner fileId requestId offset data).result = .ok actions) ↔
      ∃ transfer reservation, state.localTransfers.lookup owner = some transfer ∧
        (fileId, requestId) ∈ transfer.outgoing ∧
        state.sourcePending.lookup (owner, fileId, requestId) = some reservation ∧
        offset = reservation.1 ∧ data.length ≤ reservation.2.toNat ∧ data ≠ [] ∧
        data.length ≤ maxClipboardFileChunkSize := by
  rw [sourceChunk, attempt_succeeds]
  simp only [bind_ok, guard_ok, okOr_eq_ok, not_or, not_not, gt_iff_lt,
    not_lt, List.isEmpty_iff, mem_iff_lookup]
  constructor
  · rintro ⟨_, transfer, found, file, kept, reservation, reserved, ⟨same, fits, some_, small⟩, _⟩
    exact ⟨transfer, reservation, found, ⟨file, kept⟩, reserved, same, fits, some_, small⟩
  · rintro ⟨transfer, reservation, found, ⟨file, kept⟩, reserved, same, fits, some_, small⟩
    exact ⟨(), transfer, found, file, kept, reservation, reserved, ⟨same, fits, some_, small⟩, rfl⟩

theorem insertOutgoingFile_sourcePending :
    (state.insertOutgoingFile owner fileId requestId offset length file).state.sourcePending =
      state.sourcePending := by
  rw [insertOutgoingFile]
  rcases attempt_cases state _ _ with ⟨_, failed⟩ | ⟨_, _, done⟩
  · rw [failed]
  · rw [done]

theorem insertOutgoingFile_local
    (taken : (state.insertOutgoingFile owner fileId requestId offset length file).result =
      .ok actions) (found : state.localTransfers.lookup owner = some transfer) :
    (state.insertOutgoingFile owner fileId requestId offset
        length file).state.localTransfers.lookup owner =
      some { transfer with outgoing := transfer.outgoing.insert (fileId, requestId) file } := by
  rw [insertOutgoingFile] at taken ⊢
  rcases attempt_cases state _ _ with ⟨_, failed⟩ | ⟨_, _, done⟩
  · rw [failed] at taken
    cases taken
  · rw [done]
    simp only [lookup_modify, found, if_true, Option.map_some]

theorem sourceChunk_eq_ok
    (sent : (state.sourceChunk owner fileId requestId offset data).result = .ok actions) :
    actions = [.peer owner.peer (.clipboardFileChunk owner.wireId fileId requestId offset data)] ∧
      (state.sourceChunk owner fileId requestId offset data).state = state := by
  rw [sourceChunk] at sent ⊢
  rcases attempt_cases state _ _ with ⟨_, failed⟩ | ⟨_, _, done⟩
  · rw [failed] at sent
    cases sent
  · rw [done] at sent ⊢
    cases sent
    exact ⟨rfl, rfl⟩

theorem serving_succeeds {start : UInt64} {inserted : Outcome P}
    (insertion : state.insertOutgoingFile owner fileId requestId offset length file = inserted)
    (found : state.localTransfers.lookup owner = some transfer) :
    ((∃ actions, inserted.result = .ok actions) ∧ ∃ actions,
        (inserted.state.sourceChunk owner fileId requestId start data).result = .ok actions) ↔
      file.fileId = fileId ∧ (fileId, requestId) ∉ transfer.outgoing ∧
        state.sourcePending.lookup (owner, fileId, requestId) = some (offset, length) ∧
        start = offset ∧ data ≠ [] ∧ data.length ≤ length.toNat ∧
        data.length ≤ maxClipboardFileChunkSize := by
  subst insertion
  rw [insertOutgoingFile_succeeds, sourceChunk_succeeds, insertOutgoingFile_sourcePending]
  constructor
  · rintro ⟨⟨_, there, same, fresh, reserved⟩, _, _, _, _, again, begins, fits, some_, small⟩
    rw [found] at there
    cases there
    rw [reserved] at again
    cases again
    exact ⟨same, fresh, reserved, begins, some_, fits, small⟩
  · rintro ⟨same, fresh, reserved, begins, some_, fits, small⟩
    have taken := insertOutgoingFile_succeeds.mpr ⟨transfer, found, same, fresh, reserved⟩
    rcases taken with ⟨_, taken⟩
    refine ⟨⟨transfer, found, same, fresh, reserved⟩, _, (offset, length),
      insertOutgoingFile_local taken found, ?_, reserved, begins, fits, some_, small⟩
    exact (mem_insert _).mpr (.inl rfl)

end TransferState

end Syntra.Clipboard
