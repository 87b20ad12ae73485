import Syntra.Clipboard.Answers

/-!
# Where chunks and responses come from

What is new in a transfer state after an operation, and what the operation returns for it: an offer
is entered when its manifest is sent, a range when it is asked for, a chunk when a peer brings it. A
response to an adapter has the chunk of a range that is pending.
-/

namespace Syntra.Clipboard

open ByteFormat Proto Files Tables List Option

variable {P : Type}

def Call.message : Call P → Option (P × ProtoEvent)
  | .inboundManifest _ peer _ _ wireId _ entries => some (peer, .clipboardManifest wireId entries)
  | .sourceFileRequest peer wireId fileId requestId offset length =>
    some (peer, .clipboardFileRequest wireId fileId requestId offset length)
  | .inboundChunk peer wireId fileId requestId offset data =>
    some (peer, .clipboardFileChunk wireId fileId requestId offset data)
  | .inboundProgress peer wireId fileId completed total =>
    some (peer, .clipboardTransferProgress wireId fileId completed total)
  | .inboundComplete peer wireId fileId requestId size digest =>
    some (peer, .clipboardFileComplete wireId fileId requestId size digest)
  | .inboundCancel peer wireId fileId reason =>
    some (peer, .clipboardTransferCancel wireId fileId reason)
  | .handleProtocol peer event => some (peer, event)
  | _ => none

def Call.Offers (owner : TransferOwner P) (offer : FileOffer) : Call P → Prop
  | .localCopyManifest _ peer wireId _ _ offered => owner = ⟨peer, wireId⟩ ∧ offer = offered
  | _ => False

/-- Nothing is entered by a call and nothing but notices comes out of it. -/
def Call.IsQuiet : Call P → Prop
  | .localCopyManifest .. | .inboundManifest .. | .adapterRangeRequest .. | .adapterMountReady ..
  | .sourceFileRequest .. | .sourceChunk .. | .sourceComplete .. | .inboundChunk ..
  | .inboundComplete .. => False
  | .handleProtocol _ (.clipboardFileRequest ..) | .handleProtocol _ (.clipboardFileChunk ..)
  | .handleProtocol _ (.clipboardFileComplete ..) => False
  | _ => True

/-- Told by a cancellation or an ending. -/
def TransferAction.IsNotice : TransferAction P → Prop
  | .peer _ (.clipboardTransferCancel ..) | .adapter _ (.cancel _) | .adapter _ (.unmounted _)
  | .frontend _ => True
  | _ => False

variable [DecidableEq P]

namespace TransferState

/-- A call leaves at most what was there. -/
structure Remains (state later : TransferState P) : Prop where
  offers : ∀ owner transfer, later.localTransfers.lookup owner = some transfer →
    ∃ before, state.localTransfers.lookup owner = some before ∧ before.offer = transfer.offer
  manifests : ∀ owner transfer, later.remoteTransfers.lookup owner = some transfer →
    ∃ before, state.remoteTransfers.lookup owner = some before ∧ before.entries = transfer.entries
  ranges : ∀ key range, later.pending.lookup key = some range →
    state.pending.lookup key = some range

/-- What is new after a call is there because of it. -/
structure Traced (state : TransferState P) (call : Call P) (later : TransferState P)
    (messages : List (P × ProtoEvent)) : Prop where
  offers : ∀ owner transfer, later.localTransfers.lookup owner = some transfer →
    (∃ before, state.localTransfers.lookup owner = some before ∧
      before.offer = transfer.offer) ∨
      call.Offers owner transfer.offer ∧
        (owner.peer, .clipboardManifest owner.wireId transfer.offer.entries) ∈ messages
  manifests : ∀ owner transfer, later.remoteTransfers.lookup owner = some transfer →
    (∃ before, state.remoteTransfers.lookup owner = some before ∧
      before.entries = transfer.entries) ∨
      ∃ entries, call.message = some (owner.peer, .clipboardManifest owner.wireId entries) ∧
        transfer.entries = entriesById entries
  ranges : ∀ key range, later.pending.lookup key = some range →
    (∃ before, state.pending.lookup key = some before ∧ before.key = range.key ∧
      (before.chunk = range.chunk ∨ call.message = some (key.1.peer,
        .clipboardFileChunk key.1.wireId key.2.1 key.2.2 range.key.offset range.chunk))) ∨
      range.chunk = [] ∧ (key.1.peer, .clipboardFileRequest key.1.wireId key.2.1 key.2.2
        range.key.offset range.key.length) ∈ messages

/-- A response is to the adapter of the transfer whose range it is, and under its name there. -/
structure Responds (state : TransferState P) (base64 : Bytes → String) (call : Call P)
    (adapterId : AdapterId) (response : RangeResponse) (key : RequestKey P) (range : PendingRange P)
    (entry : ClipboardManifestEntry) (data : Bytes) : Prop where
  pending : state.pending.lookup key = some range
  listed : ∃ transfer, state.remoteTransfers.lookup key.1 = some transfer ∧
    transfer.entries.lookup key.2.1 = some entry ∧ transfer.adapterId = adapterId ∧
    transfer.adapterTransferId = response.transferId
  request : response.requestId = key.2.2
  offset : response.offset = range.key.offset
  encoded : response.dataBase64 = base64 data
  brought : (∃ event, call.message = some (key.1.peer, event)) ∧
    (call.message = some (key.1.peer, .clipboardFileChunk key.1.wireId key.2.1 key.2.2
      range.key.offset data) ∨ data = range.chunk ∧ data ≠ [])
  covers : data.length = range.key.length.toNat ∨
    range.key.offset.toNat + data.length = entry.size.toNat

def Returns (state : TransferState P) (base64 : Bytes → String) (call : Call P) :
    TransferAction P → Prop
  | .peer peer (.clipboardManifest wireId entries) =>
    ∃ offer, call.Offers ⟨peer, wireId⟩ offer ∧ entries = offer.entries
  | .peer peer (.clipboardFileChunk wireId fileId requestId offset data) =>
    call = .sourceChunk ⟨peer, wireId⟩ fileId requestId offset data
  | .adapter adapterId (.rangeResponse response) =>
    ∃ key range entry data, state.Responds base64 call adapterId response key range entry data
  | .readSource owner fileId requestId offset length offer =>
    call.message = some (owner.peer, .clipboardFileRequest owner.wireId fileId requestId offset
      length) ∧
      ∃ transfer, state.localTransfers.lookup owner = some transfer ∧ transfer.offer = offer
  | _ => True

variable {whole : Prop} {state later : TransferState P} {owner : TransferOwner P} {call : Call P}
  {base64 : Bytes → String}

theorem returns_of_isNotice {action : TransferAction P} (notice : action.IsNotice) :
    state.Returns base64 call action := by
  cases action with
  | peer _ event =>
    cases event with
    | clipboardTransferCancel => trivial
    | _ => exact notice.elim
  | adapter _ message =>
    cases message with
    | cancel | unmounted => trivial
    | _ => exact notice.elim
  | frontend => trivial
  | readSource => exact notice.elim

namespace Remains

theorem refl (state : TransferState P) : state.Remains state where
  offers := fun _ transfer found => ⟨transfer, found, rfl⟩
  manifests := fun _ transfer found => ⟨transfer, found, rfl⟩
  ranges := fun _ _ found => found

theorem trans {last : TransferState P} (first : state.Remains later)
    (second : later.Remains last) : state.Remains last where
  offers := by
    intro owner transfer found
    rcases second.offers owner transfer found with ⟨between, there, same⟩
    rcases first.offers owner between there with ⟨before, earlier, kept⟩
    exact ⟨before, earlier, kept.trans same⟩
  manifests := by
    intro owner transfer found
    rcases second.manifests owner transfer found with ⟨between, there, same⟩
    rcases first.manifests owner between there with ⟨before, earlier, kept⟩
    exact ⟨before, earlier, kept.trans same⟩
  ranges := fun key range found => first.ranges key range (second.ranges key range found)

theorem of_same (offers : ∀ owner, (later.localTransfers.lookup owner).map (·.offer) =
      (state.localTransfers.lookup owner).map (·.offer))
    (manifests : ∀ owner, (later.remoteTransfers.lookup owner).map (·.entries) =
      (state.remoteTransfers.lookup owner).map (·.entries)) (ranges : later.pending = state.pending)
    : state.Remains later where
  offers := by
    intro owner transfer found
    have same := offers owner
    rw [found, map_some, eq_comm, map_eq_some_iff] at same
    exact same
  manifests := by
    intro owner _ found
    have same := manifests owner
    rw [found, map_some, eq_comm, map_eq_some_iff] at same
    exact same
  ranges := fun _ _ found => ranges ▸ found

theorem removeOwner (state : TransferState P) (owner : TransferOwner P) :
    state.Remains (state.removeOwner owner) where
  offers := by
    intro other transfer found
    rw [removeOwner_local] at found
    split at found
    · cases found
    · exact ⟨transfer, found, rfl⟩
  manifests := by
    intro _ transfer found
    refine ⟨transfer, ?_, rfl⟩
    simp only [TransferState.removeOwner] at found
    split at found
    · exact found
    · rw [lookup_erase] at found
      split at found
      · cases found
      · exact found
  ranges := by
    intro _ _ found
    simp only [TransferState.removeOwner, AList.lookup_retain, Option.filter_eq_some_iff] at found
    exact found.1

theorem of_shrinks (shrinks : state.Shrinks later) : state.Remains later :=
  shrinks.preserves (fun earlier other remains => remains.trans (.removeOwner earlier other))
    (.refl state)

theorem removeFile (fileId : UInt64) : state.Remains (state.removeFile owner fileId) where
  offers := by
    intro _ transfer found
    simp only [TransferState.removeFile, lookup_modify] at found
    split at found
    · rename_i same
      rcases map_eq_some_iff.mp found with ⟨before, there, rfl⟩
      exact ⟨before, same ▸ there, rfl⟩
    · exact ⟨transfer, found, rfl⟩
  manifests := fun _ transfer found => ⟨transfer, found, rfl⟩
  ranges := by
    intro _ _ found
    simp only [TransferState.removeFile, AList.lookup_retain, Option.filter_eq_some_iff] at found
    exact found.1

theorem cancelOwner (fileId : Option UInt64) (reason : ClipboardCancelReason) (notifyPeer : Bool) :
    state.Remains (state.cancelOwner owner fileId reason notifyPeer).state := by
  apply attempt_preserves (.refl state)
  rintro ⟨_, _⟩ _
  cases fileId with
  | none => exact .removeOwner state owner
  | some fileId => exact .removeFile fileId

theorem announceLocal (owner : TransferOwner P) : state.Remains (state.announceLocal owner) :=
  .of_same (fun _ => map_lookup_modify _ _ _ fun _ => rfl) (fun _ => rfl) rfl

theorem announceRemote (owner : TransferOwner P) : state.Remains (state.announceRemote owner) :=
  .of_same (fun _ => rfl) (fun _ => map_lookup_modify _ _ _ fun _ => rfl) rfl

theorem sourceRangeServed (owner : TransferOwner P) (fileId requestId : UInt64) :
    state.Remains (state.sourceRangeServed owner fileId requestId) :=
  .of_same (fun _ => map_lookup_modify _ _ _ fun _ => rfl) (fun _ => rfl) rfl

theorem noteProgress_all (completed : UInt64) (owners : List (TransferOwner P)) :
    state.Remains (owners.foldl (noteProgress completed) state) := by
  induction owners generalizing state with
  | nil => exact .refl state
  | cons owner _ ih =>
    have noted : state.Remains (noteProgress completed state owner) :=
      .of_same (fun _ => map_lookup_modify _ _ _ fun _ => rfl)
        (fun _ => map_lookup_modify _ _ _ fun _ => rfl) rfl
    exact noted.trans ih

theorem erasePending (key : RequestKey P) :
    state.Remains { state with pending := state.pending.erase key } where
  offers := fun _ transfer found => ⟨transfer, found, rfl⟩
  manifests := fun _ transfer found => ⟨transfer, found, rfl⟩
  ranges := by
    intro _ _ found
    rw [lookup_erase] at found
    split at found
    · cases found
    · exact found

theorem traced (remains : state.Remains later) (messages : List (P × ProtoEvent)) :
    state.Traced call later messages where
  offers := fun owner transfer found => .inl (remains.offers owner transfer found)
  manifests := fun owner transfer found => .inl (remains.manifests owner transfer found)
  ranges := fun key range found => .inl ⟨range, remains.ranges key range found, rfl, .inl rfl⟩

end Remains

theorem Traced.remains {between : TransferState P} {messages : List (P × ProtoEvent)}
    (traced : state.Traced call between messages) (remains : between.Remains later) :
    state.Traced call later messages where
  offers := by
    intro owner transfer found
    rcases remains.offers owner transfer found with ⟨between, there, same⟩
    exact same ▸ traced.offers owner between there
  manifests := by
    intro owner transfer found
    rcases remains.manifests owner transfer found with ⟨between, there, same⟩
    exact same ▸ traced.manifests owner between there
  ranges := fun key range found => traced.ranges key range (remains.ranges key range found)

variable {α : Type} {outcome : Outcome P} {checks : Except (TransferStateError P) α}
  {commit : α → TransferState P × List (TransferAction P)}

omit [DecidableEq P] in
theorem forall_attempt {holds : TransferAction P → Prop}
    (returned : ∀ value, checks = .ok value → ∀ action ∈ (commit value).2, holds action) :
    ∀ action ∈ (state.attempt checks commit).result.toOption.getD [], holds action := by
  rcases attempt_cases state checks commit with ⟨_, failed⟩ | ⟨value, passed, done⟩
  · rw [failed]
    exact fun _ member => absurd member not_mem_nil
  · rw [done]
    exact returned value passed

theorem cancelOwner_notices (fileId : Option UInt64) (reason : ClipboardCancelReason)
    (notifyPeer : Bool) :
    ∀ action ∈ (state.cancelOwner owner fileId reason notifyPeer).result.toOption.getD [],
      action.IsNotice := by
  apply forall_attempt
  rintro ⟨_, _⟩ _ _ member
  simp only [cancelActions, mem_append] at member
  rcases member with (told | ended) | shown
  · split at told
    · rw [mem_singleton.mp told]
      trivial
    · cases told
  · rw [mem_singleton.mp ended]
    trivial
  · split at shown
    · rw [mem_singleton.mp shown]
      trivial
    · cases shown

theorem cancelOwners_notices (reason : ClipboardCancelReason) (notifyPeer : Bool)
    (owners : List (TransferOwner P)) :
    ∀ action ∈ (cancelOwners reason notifyPeer state owners).2, action.IsNotice := by
  induction owners generalizing state with
  | nil => exact fun action member => absurd member not_mem_nil
  | cons _ _ ih =>
    intro action member
    rcases mem_append.mp member with first | rest
    · exact cancelOwner_notices none reason notifyPeer action first
    · exact ih action rest

variable {tell : TransferOwner P → UiTransferId → UInt64 × UInt64 → List (TransferAction P)}

theorem endOwners_notices
    (notices : ∀ owner uiId totals, ∀ action ∈ tell owner uiId totals, action.IsNotice)
    (owners : List (TransferOwner P)) :
    ∀ action ∈ (endOwners tell state owners).result.toOption.getD [], action.IsNotice := by
  induction owners generalizing state with
  | nil => exact fun action member => absurd member not_mem_nil
  | cons owner owners ih =>
    rw [endOwners]
    split
    · exact fun action member => absurd member not_mem_nil
    · dsimp only
      cases rest : (endOwners tell (state.removeOwner owner) owners).result with
      | error => exact fun action member => absurd member not_mem_nil
      | ok =>
        have others := @ih (state.removeOwner owner)
        rw [rest] at others
        intro action member
        rcases mem_append.mp member with first | later
        · exact notices _ _ _ action first
        · exact others action later

variable (order : IterOrder (TransferOwner P))

theorem endTransfer_notices (adapterId transferId : String)
    (notices : ∀ owner uiId totals, ∀ action ∈ tell owner uiId totals, action.IsNotice) :
    ∀ action ∈ (state.endTransfer order adapterId transferId tell).result.toOption.getD [],
      action.IsNotice := by
  simp only [endTransfer]
  split
  · exact fun _ member => absurd member not_mem_nil
  · exact endOwners_notices notices _

omit [DecidableEq P] in
theorem tellCancelled_notices (owner : TransferOwner P) (uiId : UiTransferId)
    (totals : UInt64 × UInt64) :
    ∀ action ∈ tellCancelled owner uiId totals, action.IsNotice := by
  intro _ member
  rcases mem_cons.mp member with rfl | member
  · trivial
  · rw [mem_singleton.mp member]
    trivial

theorem releaseOwners_notices (owners : List (TransferOwner P)) :
    ∀ action ∈ (releaseOwners state owners).2, action.IsNotice := by
  induction owners generalizing state with
  | nil => exact fun action member => absurd member not_mem_nil
  | cons _ _ ih =>
    rw [releaseOwners]
    split
    · intro action member
      rcases mem_cons.mp member with rfl | member
      · trivial
      · exact ih action member
    · split
      · exact ih
      · intro action member
        rcases mem_append.mp member with first | member
        · exact tellCancelled_notices _ _ _ action first
        · exact ih action member

/-- What a call leaves and returns comes from the state before it. -/
structure Follows (state : TransferState P) (base64 : Bytes → String) (call : Call P)
    (outcome : Outcome P) : Prop where
  traced : state.Traced call outcome.state outcome.sent
  returns : ∀ action ∈ outcome.result.toOption.getD [], state.Returns base64 call action

theorem Follows.of_remains (remains : state.Remains outcome.state)
    (notices : ∀ action ∈ outcome.result.toOption.getD [], action.IsNotice) :
    state.Follows base64 call outcome where
  traced := remains.traced _
  returns := fun action member => returns_of_isNotice (notices action member)

theorem Follows.of_error {error : TransferStateError P} (failed : outcome = ⟨state, .error error⟩) :
    state.Follows base64 call outcome := by
  subst failed
  exact .of_remains (.refl state) fun _ member => absurd member not_mem_nil

theorem Follows.attempt (committed : ∀ value, checks = .ok value →
      state.Follows base64 call ⟨(commit value).1, .ok (commit value).2⟩) :
    state.Follows base64 call (state.attempt checks commit) := by
  rcases attempt_cases state checks commit with ⟨_, failed⟩ | ⟨value, passed, done⟩
  · exact .of_error failed
  · rw [done]
    exact committed value passed

theorem remains_cancelOwners (superseded : List (TransferOwner P)) (notifyPeer : Bool)
    (next : UiTransferId) : state.Remains
      { (cancelOwners .user notifyPeer state superseded).1 with nextUiId := next } :=
  (Remains.of_shrinks (cancelOwners_shrinks state .user notifyPeer superseded)).trans
    (.of_same (fun _ => rfl) (fun _ => rfl) rfl)

theorem replaceOffers_follows (sound : state.Sound whole)
    (checks : Except (TransferStateError P) Unit) (superseded : List (TransferOwner P))
    (notifyPeer : Bool) {enter : TransferState P → UiTransferId → TransferState P}
    {announcement : TransferAction P} (entered : ∀ earlier uiId messages, state.Remains earlier →
      (∀ message ∈ peerMessages [announcement], message ∈ messages) →
      state.Traced call (enter earlier uiId) messages)
    (announced : state.Returns base64 call announcement) :
    state.Follows base64 call
      (state.replaceOffers checks superseded notifyPeer enter announcement) := by
  rcases replaceOffers_cases sound checks superseded notifyPeer enter announcement with
    ⟨_, _, refused⟩ | ⟨_, next, _, ⟨_, _, full⟩ | ⟨uiId, _, _, done⟩⟩
  · rw [refused]
    exact .of_error rfl
  · rw [full]
    exact .of_remains (remains_cancelOwners superseded notifyPeer next) fun action member =>
      absurd member not_mem_nil
  · rw [done]
    refine ⟨?_, ?_⟩
    · apply entered _ uiId _ (remains_cancelOwners superseded notifyPeer next)
      intro _ member
      simp only [Outcome.sent, Except.toOption, getD_some, peerMessages_append]
      exact mem_append_right _ member
    · intro action member
      rcases mem_append.mp member with stale | last
      · exact returns_of_isNotice (cancelOwners_notices .user notifyPeer superseded action stale)
      · rw [mem_singleton.mp last]
        exact announced

theorem localCopyManifest_follows (sound : state.Sound whole)
    (order : IterOrder (TransferOwner P)) (peer : P) (wireId : UInt64) (adapterId : AdapterId)
    (manifest : CopyManifest) (offer : FileOffer) :
    state.Follows base64 (.localCopyManifest order peer wireId adapterId manifest offer)
      (state.localCopyManifest order peer wireId adapterId manifest offer) := by
  refine replaceOffers_follows sound _ _ true ?_ ⟨offer, ⟨rfl, rfl⟩, rfl⟩
  intro earlier _ messages remains sent
  have others : state.Traced (.localCopyManifest order peer wireId adapterId manifest offer)
      earlier messages := remains.traced messages
  refine ⟨?_, others.manifests, others.ranges⟩
  intro owner transfer found
  simp only [addLocal, insertMapping, lookup_insert] at found
  split at found
  · rename_i same
    cases found
    subst same
    exact .inr ⟨⟨rfl, rfl⟩, sent _ (.head _)⟩
  · exact others.offers owner transfer found

theorem inboundManifest_follows (sound : state.Sound whole) (order : IterOrder (TransferOwner P))
    (peer : P) (adapterId : AdapterId) (adapterTransferId : String) (wireId : UInt64)
    (operation : Operation) (entries : List ClipboardManifestEntry) :
    state.Follows base64
      (.inboundManifest order peer adapterId adapterTransferId wireId operation entries)
      (state.inboundManifest order peer adapterId adapterTransferId wireId operation entries) := by
  refine replaceOffers_follows sound _ _ false ?_ trivial
  intro earlier _ messages remains _
  have others : state.Traced
      (.inboundManifest order peer adapterId adapterTransferId wireId operation entries) earlier
      messages := remains.traced messages
  refine ⟨others.offers, ?_, others.ranges⟩
  intro owner transfer found
  simp only [addRemote, insertMapping, lookup_insert] at found
  split at found
  · rename_i same
    cases found
    subst same
    exact .inr ⟨entries, rfl, rfl⟩
  · exact others.manifests owner transfer found

theorem adapterRangeRequest_follows (adapterId : String) (request : RangeRequest) :
    state.Follows base64 (.adapterRangeRequest order adapterId request)
      (state.adapterRangeRequest order adapterId request) := by
  apply Follows.attempt
  rintro ⟨owner, _⟩ _
  refine ⟨Traced.remains ⟨?_, ?_, ?_⟩ (.announceRemote owner), ?_⟩
  · exact fun other transfer found => .inl ⟨transfer, found, rfl⟩
  · exact fun _ transfer found => .inl ⟨transfer, found, rfl⟩
  · intro _ range found
    rw [lookup_insert] at found
    split at found
    · rename_i same
      cases found
      subst same
      exact .inr ⟨rfl, .head _⟩
    · exact .inl ⟨range, found, rfl, .inl rfl⟩
  · exact forall_mem_singleton.mpr trivial

theorem sourceFileRequest_follows (peer : P) (wireId fileId requestId offset length : UInt64)
    (handed : call.message = some (peer, .clipboardFileRequest wireId fileId requestId offset
      length)) :
    state.Follows base64 call
      (state.sourceFileRequest peer wireId fileId requestId offset length) := by
  apply Follows.attempt
  intro _ passed
  simp only [bind_ok, okOr_eq_ok, guard_bind_ok, pure_ok] at passed
  rcases passed with ⟨transfer, found, _, _, _, _, _, _, rfl⟩
  refine ⟨(Remains.trans ?_ (.announceLocal ⟨peer, wireId⟩)).traced _, ?_⟩
  · exact .of_same (fun _ => rfl) (fun _ => rfl) rfl
  · exact forall_mem_singleton.mpr ⟨handed, transfer, found, rfl⟩

theorem sourceChunk_follows (fileId requestId offset : UInt64) (data : Bytes) :
    state.Follows base64 (.sourceChunk owner fileId requestId offset data)
      (state.sourceChunk owner fileId requestId offset data) := by
  apply Follows.attempt
  intro _ _
  refine ⟨(Remains.refl state).traced _, ?_⟩
  intro _ member
  rw [mem_singleton.mp member]
  rfl

theorem sourceComplete_follows (fileId requestId size : UInt64) (digest : Digest) :
    state.Follows base64 call (state.sourceComplete owner fileId requestId size digest) := by
  apply Follows.attempt
  intro _ _
  refine ⟨(Remains.sourceRangeServed owner fileId requestId).traced _, ?_⟩
  exact forall_mem_singleton.mpr trivial

theorem inboundChunk_follows (sound : state.Sound whole) (base64 : Bytes → String) (peer : P)
    (wireId fileId requestId offset : UInt64) (data : Bytes)
    (handed : call.message = some (peer, .clipboardFileChunk wireId fileId requestId offset data)) :
    state.Follows base64 call
      (state.inboundChunk base64 peer wireId fileId requestId offset data) := by
  rcases inboundChunk_cases sound base64 peer wireId fileId requestId offset data with
    ⟨_, error, refused⟩ |
    ⟨range, validator, transfer, entry, finish, found, valid, remote, listed, sums, outcome⟩
  · exact .of_error refused
  · have consistent := (sound.awaited _ _ found).consistent
    rcases ClipboardFileChunkValidator.validateChunk_eq_ok.mp valid with
      ⟨_, _, _, _, _, begins, chunk, _⟩
    have start : offset = range.key.offset := begins.trans consistent.offset
    have fed : ∀ messages : List (P × ProtoEvent), state.Traced call
        { state with
          pending := state.pending.insert (⟨peer, wireId⟩, fileId, requestId)
            (range.feed validator data) } messages := by
      intro _
      refine ⟨fun _ transfer found => .inl ⟨transfer, found, rfl⟩,
        fun _ transfer found => .inl ⟨transfer, found, rfl⟩, ?_⟩
      intro _ later there
      rw [lookup_insert] at there
      split at there
      · rename_i same
        cases there
        subst same
        refine .inl ⟨range, found, rfl, .inr ?_⟩
        rw [handed, start]
        rfl
      · exact .inl ⟨later, there, rfl, .inl rfl⟩
    rw [outcome]
    split
    · refine ⟨fed _, ?_⟩
      exact forall_mem_singleton.mpr trivial
    · split
      · exact ⟨fed _, fun action member => absurd member not_mem_nil⟩
      · rename_i full
        have small : data.length < 2 ^ 64 :=
          lt_of_le_of_lt (validateFileChunk_pos chunk).2 (by decide)
        refine ⟨(fed _).remains (.erasePending _), ?_⟩
        intro _ member
        rcases mem_cons.mp member with rfl | member
        · refine ⟨_, range, entry, data, found, ⟨transfer, remote, listed, rfl, rfl⟩, rfl, start,
            rfl, ⟨⟨_, handed⟩, .inl (start ▸ handed)⟩, .inl ?_⟩
          rw [← not_not.mp full]
          exact (UInt64.toNat_ofNat_of_lt' small).symm
        · rw [mem_singleton.mp member]
          trivial

theorem inboundComplete_follows (sound : state.Sound whole) (sha256 : Bytes → Digest)
    (base64 : Bytes → String) (peer : P) (wireId fileId requestId size : UInt64) (digest : Digest)
    (handed : call.message = some (peer, .clipboardFileComplete wireId fileId requestId size
      digest)) :
    state.Follows base64 call
      (state.inboundComplete sha256 base64 peer wireId fileId requestId size digest) := by
  simp only [TransferState.inboundComplete]
  split
  · exact .of_error rfl
  · rename_i range passed
    rcases checkCompletion_eq_ok.mp passed with
      ⟨transfer, entry, remote, listed, found, nonzero, covered, _, _⟩
    have awaited := sound.awaited _ _ found
    have erased : state.Remains
        { state with pending := state.pending.erase (⟨peer, wireId⟩, fileId, requestId) } :=
      .erasePending _
    split
    · exact .of_remains erased fun action member => absurd member not_mem_nil
    · rename_i answered there
      rw [awaited.owner] at there
      obtain rfl : transfer = answered := Option.some.inj (remote.symm.trans there)
      refine ⟨erased.traced _, ?_⟩
      intro _ member
      rcases mem_cons.mp member with rfl | member
      · have received := awaited.consistent.received
        refine ⟨_, range, entry, range.chunk, found, ⟨transfer, remote, listed, rfl, rfl⟩, rfl, rfl,
          rfl, ⟨⟨_, handed⟩, .inr ⟨rfl, ?_⟩⟩, .inr ?_⟩
        · rintro missing
          rw [missing] at received
          exact nonzero (UInt64.toNat_inj.mp received)
        · rcases checkedAdd_eq_some.mp covered with ⟨fits, ends⟩
          rw [ends, toNat_add_of_le fits, received]
      · rw [mem_singleton.mp member]
        trivial

/-- What a quiet call leaves and returns. -/
structure Quiet (state : TransferState P) (outcome : Outcome P) : Prop where
  remains : state.Remains outcome.state
  notices : ∀ action ∈ outcome.result.toOption.getD [], action.IsNotice

theorem Quiet.follows (quiet : state.Quiet outcome) : state.Follows base64 call outcome :=
  .of_remains quiet.remains quiet.notices

theorem Quiet.refused (error : TransferStateError P) : state.Quiet ⟨state, .error error⟩ :=
  ⟨.refl state, fun _ member => absurd member not_mem_nil⟩

theorem Quiet.attempt (committed : ∀ value, checks = .ok value → state.Quiet
      ⟨(commit value).1, .ok (commit value).2⟩) :
    state.Quiet (state.attempt checks commit) := by
  rcases attempt_cases state checks commit with ⟨error, failed⟩ | ⟨value, passed, done⟩
  · rw [failed]
    exact .refused error
  · rw [done]
    exact committed value passed

theorem cancelOwner_quiet (fileId : Option UInt64) (reason : ClipboardCancelReason)
    (notifyPeer : Bool) : state.Quiet (state.cancelOwner owner fileId reason notifyPeer) :=
  ⟨.cancelOwner fileId reason notifyPeer, cancelOwner_notices fileId reason notifyPeer⟩

theorem endTransfer_quiet (adapterId transferId : String)
    (notices : ∀ owner uiId totals, ∀ action ∈ tell owner uiId totals, action.IsNotice) :
    state.Quiet (state.endTransfer order adapterId transferId tell) :=
  ⟨.of_shrinks (endTransfer_shrinks order adapterId transferId tell),
    endTransfer_notices order adapterId transferId notices⟩

theorem inboundProgress_quiet (peer : P) (wireId fileId completed total : UInt64) :
    state.Quiet (state.inboundProgress peer wireId fileId completed total) := by
  apply Quiet.attempt
  intro _ _
  refine ⟨.refl state, fun _ member => ?_⟩
  rw [mem_singleton.mp member]
  trivial

theorem perform_quiet (sha256 : Bytes → Digest) (base64 : Bytes → String)
    (quiet : call.IsQuiet) : state.Quiet (state.perform sha256 base64 call) := by
  cases call with
  | setFileClipboardAdapter =>
    exact ⟨.of_same (fun _ => rfl) (fun _ => rfl) rfl, fun _ member => absurd member not_mem_nil⟩
  | adapterProgress =>
    apply Quiet.attempt
    intro completed _
    refine ⟨.noteProgress_all completed _, fun action member => ?_⟩
    rcases mem_filterMap.mp member with ⟨owner, _, shown⟩
    rcases map_eq_some_iff.mp shown with ⟨uiId, _, rfl⟩
    trivial
  | adapterCompleted order adapterId =>
    refine endTransfer_quiet order adapterId _ fun owner uiId totals action member => ?_
    split at member
    · rw [mem_singleton.mp member]
      trivial
    · rw [mem_singleton.mp member]
      trivial
  | adapterCancelled order adapterId =>
    exact endTransfer_quiet order adapterId _ tellCancelled_notices
  | adapterReleased =>
    apply Quiet.attempt
    intro _ _
    refine ⟨Remains.trans ?_ (.of_shrinks (releaseOwners_shrinks _)), releaseOwners_notices _⟩
    exact .of_same (fun _ => rfl) (fun _ => rfl) rfl
  | adapterUnmounted order adapterId =>
    refine endTransfer_quiet order adapterId _ fun owner _ _ _ member => ?_
    split at member
    · rw [mem_singleton.mp member]
      trivial
    · rw [mem_singleton.mp member]
      trivial
  | insertOutgoingFile =>
    apply Quiet.attempt
    intro _ _
    refine ⟨.of_same (fun _ => ?_) (fun _ => rfl) rfl, fun _ member => absurd member not_mem_nil⟩
    exact map_lookup_modify _ _ _ fun _ => rfl
  | sourceRangeServed owner fileId requestId =>
    exact ⟨.sourceRangeServed owner fileId requestId, fun _ member => absurd member not_mem_nil⟩
  | inboundProgress peer wireId fileId completed total =>
    exact inboundProgress_quiet peer wireId fileId completed total
  | inboundCancel _ _ fileId reason => exact cancelOwner_quiet fileId reason false
  | cancelUi _ fileId reason =>
    simp only [perform, cancelUi]
    split
    · exact .refused _
    · exact cancelOwner_quiet fileId reason true
  | peerLost =>
    exact ⟨.of_shrinks (cancelOwners_shrinks state .ioError false _),
      cancelOwners_notices .ioError false _⟩
  | adapterLost =>
    exact ⟨.of_shrinks (cancelOwners_shrinks state .ioError true _),
      cancelOwners_notices .ioError true _⟩
  | handleProtocol peer event =>
    cases event with
    | clipboardTransferCancel _ fileId reason => exact cancelOwner_quiet fileId reason false
    | clipboardTransferProgress wireId fileId completed total =>
      exact inboundProgress_quiet peer wireId fileId completed total
    | clipboardFileRequest | clipboardFileChunk | clipboardFileComplete => exact quiet.elim
    | _ => exact .refused _
  | _ => exact quiet.elim

theorem perform_follows (sound : state.Sound whole) (sha256 : Bytes → Digest)
    (base64 : Bytes → String) (call : Call P) :
    state.Follows base64 call (state.perform sha256 base64 call) := by
  cases call with
  | localCopyManifest order peer wireId adapterId manifest offer =>
    exact localCopyManifest_follows sound order peer wireId adapterId manifest offer
  | inboundManifest order peer adapterId adapterTransferId wireId operation entries =>
    exact inboundManifest_follows sound order peer adapterId adapterTransferId wireId operation
      entries
  | adapterRangeRequest order adapterId request =>
    exact adapterRangeRequest_follows order adapterId request
  | adapterMountReady =>
    apply Follows.attempt
    intro _ _
    refine ⟨(Remains.refl state).traced _, ?_⟩
    exact forall_mem_singleton.mpr trivial
  | sourceFileRequest peer wireId fileId requestId offset length =>
    exact sourceFileRequest_follows peer wireId fileId requestId offset length rfl
  | sourceChunk _ fileId requestId offset data =>
    exact sourceChunk_follows fileId requestId offset data
  | sourceComplete _ fileId requestId size digest =>
    exact sourceComplete_follows fileId requestId size digest
  | inboundChunk peer wireId fileId requestId offset data =>
    exact inboundChunk_follows sound base64 peer wireId fileId requestId offset data rfl
  | inboundComplete peer wireId fileId requestId size digest =>
    exact inboundComplete_follows sound sha256 base64 peer wireId fileId requestId size digest rfl
  | handleProtocol peer event =>
    cases event with
    | clipboardFileChunk wireId fileId requestId offset data =>
      exact inboundChunk_follows sound base64 peer wireId fileId requestId offset data rfl
    | clipboardFileComplete wireId fileId requestId size digest =>
      exact inboundComplete_follows sound sha256 base64 peer wireId fileId requestId size digest rfl
    | clipboardFileRequest wireId fileId requestId offset length =>
      exact sourceFileRequest_follows peer wireId fileId requestId offset length rfl
    | _ =>
      apply Quiet.follows
      exact perform_quiet sha256 base64 trivial
  | _ =>
    apply Quiet.follows
    exact perform_quiet sha256 base64 trivial

end TransferState

end Syntra.Clipboard
