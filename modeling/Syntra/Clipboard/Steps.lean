import Syntra.Clipboard.Invariant

/-!
# What the operations do to the tables

Every operation removes transfers one by one, adds one, or changes what the indices do not look
at. So it keeps the tables in agreement.
-/

namespace Syntra.Clipboard

open ByteFormat Proto Files Tables Option ClipboardFileChunkValidator

variable {P : Type} [DecidableEq P]

namespace TransferState

variable {whole : Prop} {state later : TransferState P}

variable {α : Type} {owner : TransferOwner P}

omit [DecidableEq P] in
theorem attempt_cases (state : TransferState P) (checks : Except (TransferStateError P) α)
    (commit : α → TransferState P × List (TransferAction P)) :
    (∃ error, state.attempt checks commit = ⟨state, .error error⟩) ∨
      ∃ value, checks = .ok value ∧
        state.attempt checks commit = ⟨(commit value).1, .ok (commit value).2⟩ := by
  cases checks with
  | error error => exact .inl ⟨error, rfl⟩
  | ok value => exact .inr ⟨value, rfl, rfl⟩

omit [DecidableEq P] in
theorem attempt_preserves {holds : TransferState P → Prop}
    {checks : Except (TransferStateError P) α}
    {commit : α → TransferState P × List (TransferAction P)} (before : holds state)
    (committed : ∀ value, checks = .ok value → holds (commit value).1) :
    holds (state.attempt checks commit).state := by
  rcases attempt_cases state checks commit with ⟨_, failed⟩ | ⟨value, passed, done⟩
  · rw [failed]
    exact before
  · rw [done]
    exact committed value passed

theorem cancelOwner_shrinks (owner : TransferOwner P) (reason : ClipboardCancelReason)
    (notifyPeer : Bool) : state.Shrinks (state.cancelOwner owner none reason notifyPeer).state := by
  apply attempt_preserves
  · exact .refl
  · intro _ _
    exact .removeOwner state owner

theorem cancelOwner_of_live {uiId : UiTransferId} (live : state.transferUiId owner = some uiId)
    (reason : ClipboardCancelReason) (notifyPeer : Bool) :
    (state.cancelOwner owner none reason notifyPeer).state = state.removeOwner owner := by
  have carried : ∃ pair, state.adapterPair owner = some pair := by
    rw [← ne_none_iff_exists', Ne, adapterPair_eq_none, ← transferUiId_eq_none, live]
    simp
  rcases carried with ⟨_, carried⟩
  simp only [TransferState.cancelOwner, live, carried]
  rfl

theorem cancelOwners_shrinks (state : TransferState P) (reason : ClipboardCancelReason)
    (notifyPeer : Bool) (owners : List (TransferOwner P)) :
    state.Shrinks (cancelOwners reason notifyPeer state owners).1 := by
  induction owners generalizing state with
  | nil => exact .refl
  | cons owner _ ih => exact (cancelOwner_shrinks owner reason notifyPeer).trans (ih _)

theorem endOwners_shrinks
    (tell : TransferOwner P → UiTransferId → UInt64 × UInt64 → List (TransferAction P))
    (owners : List (TransferOwner P)) : state.Shrinks (endOwners tell state owners).state := by
  induction owners generalizing state with
  | nil => exact .refl
  | cons owner _ ih =>
    rw [endOwners]
    split
    · exact .refl
    · exact (Shrinks.removeOwner state owner).trans ih

theorem endTransfer_shrinks (order : IterOrder (TransferOwner P)) (adapterId transferId : String)
    (tell : TransferOwner P → UiTransferId → UInt64 × UInt64 → List (TransferAction P)) :
    state.Shrinks (state.endTransfer order adapterId transferId tell).state := by
  simp only [endTransfer]
  split
  · exact .refl
  · exact endOwners_shrinks tell _

theorem releaseOwners_shrinks (owners : List (TransferOwner P)) :
    state.Shrinks (releaseOwners state owners).1 := by
  induction owners generalizing state with
  | nil => exact .refl
  | cons owner _ ih =>
    rw [releaseOwners]
    split
    · exact ih
    · split
      · exact ih
      · exact (Shrinks.removeOwner state owner).trans ih

theorem Shrinks.absent (shrinks : state.Shrinks later)
    (noLocal : state.localTransfers.lookup owner = none)
    (noRemote : state.remoteTransfers.lookup owner = none) :
    later.localTransfers.lookup owner = none ∧ later.remoteTransfers.lookup owner = none := by
  apply shrinks.preserves _ ⟨noLocal, noRemote⟩
  rintro _ _ ⟨noLocal, noRemote⟩
  refine ⟨?_, ?_⟩
  · rw [removeOwner_local, noLocal, ite_self]
  · simp only [TransferState.removeOwner]
    split
    · exact noRemote
    · rw [lookup_erase, noRemote, ite_self]

theorem followingUiId_ne_zero (id : UiTransferId) : followingUiId id ≠ 0 := by
  unfold followingUiId
  cases next : checkedAdd id 1 with
  | none => decide
  | some =>
    rcases checkedAdd_eq_some.mp next with ⟨fits, rfl⟩
    intro zero
    have value : (id + 1).toNat = id.toNat + 1 := toNat_add_of_le fits
    rw [getD_some] at zero
    rw [zero] at value
    exact absurd value (by simp)

theorem Sound.renumber (sound : state.Sound whole) {next : UiTransferId} (positive : next ≠ 0) :
    { state with nextUiId := next }.Sound whole where
  disjoint := sound.disjoint
  inverse := sound.inverse
  counting := positive
  nonzero := sound.nonzero
  registered := sound.registered
  listed := sound.listed
  awaited := fun key range found =>
    have awaited := sound.awaited key range found
    ⟨awaited.owner, awaited.fileId, awaited.requestId, awaited.covered, awaited.consistent⟩
  reserved := sound.reserved
  streaming := sound.streaming

section

omit [DecidableEq P]

theorem allocateLoop_state (start : UiTransferId) (turns : ℕ) (positive : state.nextUiId ≠ 0) :
    ∃ next, next ≠ 0 ∧ (allocateLoop start turns state).1 = { state with nextUiId := next } := by
  induction turns generalizing state with
  | zero => exact ⟨state.nextUiId, positive, rfl⟩
  | succ _ ih =>
    have following := followingUiId_ne_zero state.nextUiId
    simp only [allocateLoop]
    split
    · exact ⟨_, following, rfl⟩
    · split
      · exact ⟨_, following, rfl⟩
      · have numbered : { state with nextUiId := followingUiId state.nextUiId }.nextUiId ≠ 0 :=
          following
        exact ih numbered

theorem allocateLoop_ok {start : UiTransferId} {turns : ℕ} {uiId : UiTransferId}
    (allocated : (allocateLoop start turns state).2 = .ok uiId) :
    uiId ≠ 0 ∧ uiId ∉ state.uiToOwner := by
  induction turns generalizing state with
  | zero => cases allocated
  | succ _ ih =>
    simp only [allocateLoop] at allocated
    split at allocated
    · rename_i free
      cases allocated
      exact free
    · split at allocated
      · cases allocated
      · have later := ih allocated
        exact later

theorem allocateUiId_state (positive : state.nextUiId ≠ 0) :
    ∃ next, next ≠ 0 ∧ state.allocateUiId.1 = { state with nextUiId := next } :=
  allocateLoop_state state.nextUiId u64Max positive

theorem allocateUiId_ok {uiId : UiTransferId} (allocated : state.allocateUiId.2 = .ok uiId) :
    uiId ≠ 0 ∧ uiId ∉ state.uiToOwner :=
  allocateLoop_ok allocated

end

/-- Neither the transfers nor the requests change. -/
structure Unmoved (state later : TransferState P) : Prop extends Alike state later where
  pending : later.pending = state.pending
  sourcePending : later.sourcePending = state.sourcePending
  outgoing : ∀ owner, (later.localTransfers.lookup owner).map (·.outgoing) =
    (state.localTransfers.lookup owner).map (·.outgoing)

namespace Unmoved

theorem refl (state : TransferState P) : state.Unmoved state :=
  ⟨.refl state, rfl, rfl, fun _ => rfl⟩

theorem trans {last : TransferState P} (first : state.Unmoved later) (second : later.Unmoved last) :
    state.Unmoved last where
  localTransfers := fun owner => (second.localTransfers owner).trans (first.localTransfers owner)
  remoteTransfers := fun owner => (second.remoteTransfers owner).trans (first.remoteTransfers owner)
  nextUiId := second.nextUiId.trans first.nextUiId
  adapterToOwner := second.adapterToOwner.trans first.adapterToOwner
  uiToOwner := second.uiToOwner.trans first.uiToOwner
  pending := second.pending.trans first.pending
  sourcePending := second.sourcePending.trans first.sourcePending
  outgoing := fun owner => (second.outgoing owner).trans (first.outgoing owner)

theorem sound (unmoved : state.Unmoved later) (sound : state.Sound whole) : later.Sound whole := by
  apply unmoved.toAlike.sound sound
  · intro key range found
    exact sound.awaited key range (unmoved.pending ▸ found)
  · intro key reservation found
    exact sound.reserved key reservation (unmoved.sourcePending ▸ found)
  · intro owner _ key file found streamed
    have same := unmoved.outgoing owner
    rw [found, map_some, eq_comm, map_eq_some_iff] at same
    rcases same with ⟨earlier, there, outgoing⟩
    rw [unmoved.sourcePending]
    exact sound.streaming owner earlier key file there (outgoing ▸ streamed)

end Unmoved

theorem unmoved_setFileClipboardAdapter (adapterId : String) :
    state.Unmoved (state.setFileClipboardAdapter adapterId) :=
  ⟨⟨fun _ => rfl, fun _ => rfl, rfl, rfl, rfl⟩, rfl, rfl, fun _ => rfl⟩

theorem unmoved_announceLocal (owner : TransferOwner P) :
    state.Unmoved (state.announceLocal owner) where
  localTransfers := fun _ => map_lookup_modify _ _ _ fun _ => rfl
  remoteTransfers := fun _ => rfl
  nextUiId := rfl
  adapterToOwner := rfl
  uiToOwner := rfl
  pending := rfl
  sourcePending := rfl
  outgoing := fun _ => map_lookup_modify _ _ _ fun _ => rfl

theorem unmoved_announceRemote (owner : TransferOwner P) :
    state.Unmoved (state.announceRemote owner) where
  localTransfers := fun _ => rfl
  remoteTransfers := fun _ => map_lookup_modify _ _ _ fun _ => rfl
  nextUiId := rfl
  adapterToOwner := rfl
  uiToOwner := rfl
  pending := rfl
  sourcePending := rfl
  outgoing := fun _ => rfl

theorem unmoved_noteProgress (completed : UInt64) (owner : TransferOwner P) :
    state.Unmoved (noteProgress completed state owner) where
  localTransfers := fun _ => map_lookup_modify _ _ _ fun _ => rfl
  remoteTransfers := fun _ => map_lookup_modify _ _ _ fun _ => rfl
  nextUiId := rfl
  adapterToOwner := rfl
  uiToOwner := rfl
  pending := rfl
  sourcePending := rfl
  outgoing := fun _ => map_lookup_modify _ _ _ fun _ => rfl

theorem unmoved_noteProgress_all (completed : UInt64) (owners : List (TransferOwner P)) :
    state.Unmoved (owners.foldl (noteProgress completed) state) := by
  induction owners generalizing state with
  | nil => exact .refl state
  | cons owner _ ih => exact (unmoved_noteProgress completed owner).trans ih

variable (sound : state.Sound whole)
include sound

theorem Sound.removeFile (owner : TransferOwner P) (fileId : UInt64) :
    (state.removeFile owner fileId).Sound whole := by
  have alike : state.Alike (state.removeFile owner fileId) :=
    ⟨fun _ => map_lookup_modify _ _ _ fun _ => rfl, fun _ => rfl, rfl, rfl, rfl⟩
  apply alike.sound sound
  · intro key range found
    simp only [TransferState.removeFile, AList.lookup_retain, Option.filter_eq_some_iff] at found
    exact sound.awaited key range found.1
  · intro key reservation found
    simp only [TransferState.removeFile, AList.lookup_retain, Option.filter_eq_some_iff] at found
    exact sound.reserved key reservation found.1
  · intro other transfer key file found streamed
    simp only [TransferState.removeFile, lookup_modify] at found
    simp only [TransferState.removeFile, AList.lookup_retain]
    split at found
    · rename_i same
      rcases map_eq_some_iff.mp found with ⟨earlier, there, rfl⟩
      simp only [AList.lookup_retain, filter_eq_some_iff, decide_eq_true_eq] at streamed
      rcases sound.streaming owner earlier key file there streamed.1 with ⟨reservation, kept⟩
      refine ⟨reservation, ?_⟩
      rw [same, kept]
      simp [streamed.2]
    · rename_i different
      rcases sound.streaming other transfer key file found streamed with ⟨reservation, kept⟩
      refine ⟨reservation, ?_⟩
      rw [kept]
      simp [different]

theorem Sound.setPending {pending : Table (RequestKey P) (PendingRange P)}
    (awaited : ∀ key range, pending.lookup key = some range → state.Awaited key range) :
    { state with pending := pending }.Sound whole := by
  have alike : state.Alike { state with pending := pending } :=
    ⟨fun _ => rfl, fun _ => rfl, rfl, rfl, rfl⟩
  exact alike.sound sound awaited sound.reserved sound.streaming

theorem Sound.insertPending {key : RequestKey P} {range : PendingRange P}
    (awaited : state.Awaited key range) :
    { state with pending := state.pending.insert key range }.Sound whole := by
  apply sound.setPending
  intro other found there
  rw [lookup_insert] at there
  split at there
  · rename_i same
    cases there
    rw [same]
    exact awaited
  · exact sound.awaited other found there

theorem Sound.erasePending (key : RequestKey P) :
    { state with pending := state.pending.erase key }.Sound whole := by
  apply sound.setPending
  intro other found there
  rw [lookup_erase] at there
  split at there
  · cases there
  · exact sound.awaited other found there

theorem Sound.insertSourcePending (request : UInt64 × UInt64) {transfer : LocalTransfer}
    (found : state.localTransfers.lookup owner = some transfer) (reservation : UInt64 × UInt64) :
    { state with
      sourcePending := state.sourcePending.insert (owner, request) reservation }.Sound whole := by
  have alike : state.Alike
      { state with sourcePending := state.sourcePending.insert (owner, request) reservation } :=
    ⟨fun _ => rfl, fun _ => rfl, rfl, rfl, rfl⟩
  apply alike.sound sound sound.awaited
  · intro other reserved there
    rw [lookup_insert] at there
    split at there
    · rename_i same
      rw [same]
      exact ⟨transfer, found⟩
    · exact sound.reserved other reserved there
  · intro other streaming key file there streamed
    simp only [lookup_insert]
    split
    · exact ⟨reservation, rfl⟩
    · exact sound.streaming other streaming key file there streamed

omit sound

theorem Sound.insertOutgoing (sound : state.Sound whole) {request : UInt64 × UInt64}
    {reservation : UInt64 × UInt64}
    (reserved : state.sourcePending.lookup (owner, request) = some reservation)
    (file : OutgoingFile) :
    { state with
      localTransfers := modify state.localTransfers owner fun transfer =>
        { transfer with outgoing := transfer.outgoing.insert request file } }.Sound whole := by
  have alike : state.Alike
      { state with
        localTransfers := modify state.localTransfers owner fun transfer =>
          { transfer with outgoing := transfer.outgoing.insert request file } } :=
    ⟨fun _ => map_lookup_modify _ _ _ fun _ => rfl, fun _ => rfl, rfl, rfl, rfl⟩
  apply alike.sound sound sound.awaited sound.reserved
  intro other transfer key streamed found there
  simp only [lookup_modify] at found
  split at found
  · rename_i same
    rcases map_eq_some_iff.mp found with ⟨earlier, before, rfl⟩
    simp only [lookup_insert] at there
    split at there
    · rename_i own
      rw [same, own]
      exact ⟨reservation, reserved⟩
    · rw [same]
      exact sound.streaming owner earlier key streamed before there
  · exact sound.streaming other transfer key streamed found there

theorem Sound.sourceRangeServed (sound : state.Sound whole) (owner : TransferOwner P)
    (fileId requestId : UInt64) : (state.sourceRangeServed owner fileId requestId).Sound whole := by
  have alike : state.Alike (state.sourceRangeServed owner fileId requestId) :=
    ⟨fun _ => map_lookup_modify _ _ _ fun _ => rfl, fun _ => rfl, rfl, rfl, rfl⟩
  apply alike.sound sound sound.awaited
  · intro key reservation found
    simp only [TransferState.sourceRangeServed, lookup_erase] at found
    split at found
    · cases found
    · exact sound.reserved key reservation found
  · intro other transfer key file found streamed
    simp only [TransferState.sourceRangeServed, lookup_modify] at found
    simp only [TransferState.sourceRangeServed, lookup_erase, Prod.mk.injEq]
    split at found
    · rename_i same
      rcases map_eq_some_iff.mp found with ⟨earlier, there, rfl⟩
      simp only [lookup_erase] at streamed
      split at streamed
      · cases streamed
      · rename_i open_
        rw [if_neg, same]
        · exact sound.streaming owner earlier key file there streamed
        · rintro ⟨_, named⟩
          exact open_ named
    · rename_i different
      rw [if_neg]
      · exact sound.streaming other transfer key file found streamed
      · rintro ⟨named, _⟩
        exact different named

end TransferState

variable {validator : ClipboardFileChunkValidator} {offset : UInt64} {dataLen : ℕ}

theorem ClipboardFileChunkValidator.validateChunk_eq_ok {later : ClipboardFileChunkValidator}
    {transferId fileId requestId : UInt64} :
    validator.validateChunk transferId fileId requestId offset dataLen = .ok later ↔
      validator.complete = false ∧ validator.chunkReceived = false ∧
      transferId = validator.transferId ∧ fileId = validator.fileId ∧
      requestId = validator.requestId ∧ offset = validator.offset ∧
      validateFileChunk offset dataLen = .ok () ∧ dataLen ≤ validator.length.toNat ∧
      ∃ chunkEnd, checkedAdd offset (UInt64.ofNat dataLen) = some chunkEnd ∧
        { validator with
          chunkReceived := true
          chunkEnd := some chunkEnd
          eof := UInt64.ofNat dataLen < validator.length } = later := by
  simp only [validateChunk, guard_bind_ok, bind_ok, okOr_eq_ok, pure_ok]
  have accepted : (∃ passed, validateFileChunk offset dataLen = .ok passed) ↔
      validateFileChunk offset dataLen = .ok () :=
    Unique.exists_iff
  simp [and_assoc, accepted]

theorem validateFileChunk_pos (valid : validateFileChunk offset dataLen = .ok ()) :
    0 < dataLen ∧ dataLen ≤ maxClipboardFileChunkSize := by
  simp only [validateFileChunk, guard_bind_ok] at valid
  omega

omit [DecidableEq P] in
theorem PendingRange.Consistent.feed {range : PendingRange P} (consistent : range.Consistent)
    {transferId fileId requestId : UInt64} {data : Bytes}
    (valid : range.validator.validateChunk transferId fileId requestId offset data.length =
      .ok validator) : (range.feed validator data).Consistent := by
  rcases validateChunk_eq_ok.mp valid with ⟨_, unfed, _, _, _, _, chunk, _, _, _, rfl⟩
  have empty : range.chunk = [] := by
    by_contra nonempty
    rw [consistent.single.mpr nonempty] at unfed
    cases unfed
  have sizes := validateFileChunk_pos chunk
  have small : data.length < 2 ^ 64 := lt_of_le_of_lt sizes.2 (by decide)
  refine ⟨consistent.transferId, consistent.fileId, consistent.requestId, consistent.offset,
    consistent.length, consistent.requested, consistent.incomplete, ?_, ?_, ?_⟩
  · exact UInt64.toNat_ofNat_of_lt' small
  · change range.hasher ++ data = data
    rw [consistent.fed, empty, List.nil_append]
  · change true = true ↔ data ≠ []
    simp only [true_iff]
    exact List.ne_nil_of_length_pos sizes.1

namespace TransferState

variable {whole : Prop} {state : TransferState P}

variable {range : PendingRange P}

theorem Awaited.feed {key : RequestKey P} (awaited : state.Awaited key range)
    {transferId fileId requestId : UInt64} {data : Bytes}
    (valid : range.validator.validateChunk transferId fileId requestId offset data.length =
      .ok validator) : state.Awaited key (range.feed validator data) :=
  ⟨awaited.owner, awaited.fileId, awaited.requestId, awaited.covered, awaited.consistent.feed valid⟩

/-- Where a chunk leads: it is refused, it is kept for the completion, it is one that the code
refuses after having taken it, or it answers the request. -/
theorem inboundChunk_cases (sound : state.Sound whole) (base64 : Bytes → String) (peer : P)
    (wireId fileId requestId offset : UInt64) (data : Bytes) :
    ((∀ range, state.pending.lookup (⟨peer, wireId⟩, fileId, requestId) = some range →
        ∀ validator, range.validator.validateChunk wireId fileId requestId offset data.length ≠
          .ok validator) ∧
      ∃ error, state.inboundChunk base64 peer wireId fileId requestId offset data =
        ⟨state, .error error⟩) ∨
      ∃ range validator transfer entry finish,
        state.pending.lookup (⟨peer, wireId⟩, fileId, requestId) = some range ∧
        range.validator.validateChunk wireId fileId requestId offset data.length = .ok validator ∧
        state.remoteTransfers.lookup ⟨peer, wireId⟩ = some transfer ∧
        transfer.entries.lookup fileId = some entry ∧
        checkedAdd offset (UInt64.ofNat data.length) = some finish ∧
        state.inboundChunk base64 peer wireId fileId requestId offset data =
          let taken :=
            { state with
              pending := state.pending.insert (⟨peer, wireId⟩, fileId, requestId)
                (range.feed validator data) }
          let progress := TransferAction.frontend (.progress transfer.uiId finish entry.size)
          if finish = entry.size then
            ⟨taken, .ok [progress]⟩
          else if UInt64.ofNat data.length ≠ range.key.length then
            ⟨taken, .error (.protocol (.invalidFileChunk "short non-EOF chunk"))⟩
          else
            ⟨{ taken with
                pending := taken.pending.erase (⟨peer, wireId⟩, fileId, requestId) },
              .ok [.adapter transfer.adapterId (.rangeResponse
                { transferId := transfer.adapterTransferId, requestId, offset,
                  dataBase64 := base64 data, eof := false, error := none }), progress]⟩ := by
  cases found : state.pending.lookup (⟨peer, wireId⟩, fileId, requestId) with
  | none =>
    left
    refine ⟨?_, ?_⟩
    · intro _ named
      cases named
    · simp only [inboundChunk, found]
      exact ⟨_, rfl⟩
  | some range =>
    rcases (sound.awaited _ _ found).covered with ⟨transfer, entry, there, listed, _, _⟩
    cases valid : range.validator.validateChunk wireId fileId requestId offset data.length with
    | error =>
      left
      refine ⟨?_, ?_⟩
      · rintro _ ⟨⟩ validator passed
        rw [valid] at passed
        cases passed
      · simp only [inboundChunk, found, valid]
        exact ⟨_, rfl⟩
    | ok validator =>
      right
      rcases validateChunk_eq_ok.mp valid with ⟨_, _, _, _, _, _, _, _, finish, fits, _⟩
      refine ⟨range, validator, transfer, entry, finish, rfl, valid, there, listed, fits, ?_⟩
      simp only [inboundChunk, found, valid, there, listed, fits]

theorem checkCompletion_eq_ok {sha256 : Bytes → Digest} {owner : TransferOwner P}
    {fileId requestId size : UInt64} {digest : Digest} :
    state.checkCompletion sha256 owner fileId requestId size digest = .ok range ↔
      ∃ transfer entry, state.remoteTransfers.lookup owner = some transfer ∧
        transfer.entries.lookup fileId = some entry ∧
        state.pending.lookup (owner, fileId, requestId) = some range ∧ range.received ≠ 0 ∧
        checkedAdd range.key.offset range.received = some entry.size ∧ size = entry.size ∧
        sha256 range.hasher = digest := by
  simp only [checkCompletion, bind_ok, okOr_eq_ok, guard_bind_ok,
    pure_ok, bind_eq_some_iff, not_or, not_not]
  constructor
  · rintro ⟨entry, ⟨transfer, remote, listed⟩, _, found, _, fits, ⟨nonzero, rfl⟩, rfl, matching,
      rfl⟩
    exact ⟨transfer, entry, remote, listed, found, nonzero, fits, rfl, matching⟩
  · rintro ⟨transfer, entry, remote, listed, found, nonzero, fits, rfl, matching⟩
    exact ⟨entry, ⟨transfer, remote, listed⟩, range, found, _, fits, ⟨nonzero, rfl⟩, rfl, matching,
      rfl⟩

end TransferState

end Syntra.Clipboard
