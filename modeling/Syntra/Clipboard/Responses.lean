import Syntra.Clipboard.Ranges

/-!
# Responses to range requests

An adapter that asks for a range is answered from the messages of a peer, by the chunk of a range
within the file and by the completion of the range at its end. The pending ranges are what a run has
logged of requests without responses.
-/

namespace Syntra.Clipboard

open ByteFormat StateMachine Proto Files Tables List

variable {P : Type}

/-- A range is asked for, or answered. -/
inductive RangeEvent (P : Type) where
  | requested (key : RequestKey P) (offset length : UInt64)
  | responded (key : RequestKey P) (response : RangeResponse)
  deriving DecidableEq, Repr

namespace RangeEvent

def key : RangeEvent P → RequestKey P
  | .requested key _ _ => key
  | .responded key _ => key

variable [DecidableEq P]

def requests (key : RequestKey P) : RangeEvent P → Bool
  | .requested other _ _ => other = key
  | .responded _ _ => false

def responds (key : RequestKey P) : RangeEvent P → Bool
  | .requested _ _ _ => false
  | .responded other _ => other = key

variable {key other : RequestKey P} {offset length : UInt64} {response : RangeResponse}

@[simp]
theorem requests_requested : (requested other offset length).requests key = decide (other = key) :=
  rfl

@[simp]
theorem requests_responded : (responded other response).requests key = false :=
  rfl

@[simp]
theorem responds_requested : (requested other offset length).responds key = false :=
  rfl

@[simp]
theorem responds_responded : (responded other response).responds key = decide (other = key) :=
  rfl

end RangeEvent

def Call.answering (call : Call P) : Option (RequestKey P) :=
  match call.message with
  | some (peer, .clipboardFileChunk wireId fileId requestId _ _)
  | some (peer, .clipboardFileComplete wireId fileId requestId _ _) =>
    some (⟨peer, wireId⟩, fileId, requestId)
  | _ => none

def TransferAction.response : TransferAction P → Option RangeResponse
  | .adapter _ (.rangeResponse response) => some response
  | _ => none

namespace TransferState

variable [DecidableEq P] (sha256 : Bytes → Digest) (base64 : Bytes → String)

/-- What a call enters in the log. -/
def rangeEvents (state : TransferState P) (call : Call P) :
    Except (TransferStateError P) (List (TransferAction P)) → List (RangeEvent P)
  | .error _ => []
  | .ok actions =>
    match call with
    | .adapterRangeRequest order adapterId request =>
      match state.firstOwner order adapterId request.transferId with
      | .ok owner =>
        [.requested (owner, request.entryId, request.requestId) request.offset
          request.length.toUInt64]
      | .error _ => []
    | call =>
      match call.answering with
      | some key => (actions.filterMap (·.response)).map (.responded key)
      | none => []

def rangeStep (state : TransferState P) (call : Call P) : TransferState P × List (RangeEvent P) :=
  ((state.perform sha256 base64 call).state,
    state.rangeEvents call (state.perform sha256 base64 call).result)

/-- A response carries the bytes of the range that the call has completed. -/
structure Serves (state : TransferState P) (sha256 : Bytes → Digest) (base64 : Bytes → String)
    (call : Call P) (key : RequestKey P) (range : PendingRange P) (adapterId : AdapterId)
    (response : RangeResponse) : Prop where
  answering : call.answering = some key
  pending : state.pending.lookup key = some range
  request : response.requestId = key.2.2
  offset : response.offset = range.key.offset
  content : ∃ transfer entry data, state.remoteTransfers.lookup key.1 = some transfer ∧
    transfer.entries.lookup key.2.1 = some entry ∧ transfer.adapterId = adapterId ∧
    transfer.adapterTransferId = response.transferId ∧ response.dataBase64 = base64 data ∧
    data ≠ [] ∧ data.length ≤ range.key.length.toNat ∧
    (response.eof = true ↔ range.key.offset.toNat + data.length = entry.size.toNat) ∧
    (response.eof = true → ∃ size digest,
      call.message = some (key.1.peer, .clipboardFileComplete key.1.wireId key.2.1 key.2.2 size
        digest) ∧ sha256 data = digest)

/-- How a call changes the pending ranges, what it logs and which responses it returns. -/
inductive RangeEffect (sha256 : Bytes → Digest) (base64 : Bytes → String)
    (state : TransferState P) (call : Call P) (outcome : Outcome P) : List (RangeEvent P) → Prop
  | silent
      (kept : ∀ key range, outcome.state.pending.lookup key = some range →
        ∃ before, state.pending.lookup key = some before ∧ before.key = range.key ∧
          (before.chunk = range.chunk ∨ range.chunk.length ≤ range.key.length.toNat))
      (none : ∀ action ∈ outcome.result.toOption.getD [], action.response = none) :
      RangeEffect sha256 base64 state call outcome []
  | request (key : RequestKey P) (range : PendingRange P) (fresh : state.pending.lookup key = none)
      (entered : outcome.state.pending = state.pending.insert key range)
      (empty : range.chunk = [])
      (none : ∀ action ∈ outcome.result.toOption.getD [], action.response = none) :
      RangeEffect sha256 base64 state call outcome
        [.requested key range.key.offset range.key.length]
  | response (key : RequestKey P) (range : PendingRange P) (adapterId : AdapterId)
      (response : RangeResponse)
      (serves : state.Serves sha256 base64 call key range adapterId response)
      (removed : outcome.state.pending = state.pending.erase key)
      (returned : ∀ other answer,
        .adapter other (.rangeResponse answer) ∈ outcome.result.toOption.getD [] →
        other = adapterId ∧ answer = response) :
      RangeEffect sha256 base64 state call outcome [.responded key response]

variable {sha256 base64} {whole : Prop} {state : TransferState P} {call : Call P}

theorem RangeEffect.refused (error : TransferStateError P) :
    RangeEffect sha256 base64 state call ⟨state, .error error⟩ [] :=
  .silent (fun _ range found => ⟨range, found, rfl, .inl rfl⟩) fun _ member => nomatch member

omit [DecidableEq P] in
theorem response_of_isNotice {action : TransferAction P} (notice : action.IsNotice) :
    action.response = none := by
  cases action with
  | adapter _ message =>
    cases message with
    | rangeResponse => exact notice.elim
    | _ => rfl
  | _ => rfl

theorem RangeEffect.of_quiet {outcome : Outcome P} (quiet : state.Quiet outcome) :
    RangeEffect sha256 base64 state call outcome [] :=
  .silent (fun key range found => ⟨range, quiet.remains.ranges key range found, rfl, .inl rfl⟩)
    fun action member => response_of_isNotice (quiet.notices action member)

theorem RangeEffect.attempt {α : Type} {checks : Except (TransferStateError P) α}
    {commit : α → TransferState P × List (TransferAction P)}
    (committed : ∀ value, checks = .ok value →
      RangeEffect sha256 base64 state call ⟨(commit value).1, .ok (commit value).2⟩
        (state.rangeEvents call (.ok (commit value).2))) :
    RangeEffect sha256 base64 state call (state.attempt checks commit)
      (state.rangeEvents call (state.attempt checks commit).result) := by
  rcases attempt_cases state checks commit with ⟨error, failed⟩ | ⟨value, passed, done⟩
  · rw [failed]
    exact .refused error
  · rw [done]
    exact committed value passed

theorem RangeEffect.of_attempt {α : Type} {checks : Except (TransferStateError P) α}
    {commit : α → TransferState P × List (TransferAction P)}
    (pending : ∀ value, (commit value).1.pending = state.pending)
    (none : ∀ value, ∀ action ∈ (commit value).2, action.response = none) :
    RangeEffect sha256 base64 state call (state.attempt checks commit) [] := by
  rcases attempt_cases state checks commit with ⟨error, failed⟩ | ⟨value, -, done⟩
  · rw [failed]
    exact .refused error
  · rw [done]
    refine .silent (fun _ range found => ?_) (none value)
    exact ⟨range, pending value ▸ found, rfl, .inl rfl⟩

theorem replaceOffers_rangeEffect (sound : state.Sound whole)
    (checks : Except (TransferStateError P) Unit) (superseded : List (TransferOwner P))
    (notifyPeer : Bool) {enter : TransferState P → UiTransferId → TransferState P}
    {announcement : TransferAction P}
    (pending : ∀ earlier uiId, (enter earlier uiId).pending = earlier.pending)
    (none : announcement.response = none) :
    RangeEffect sha256 base64 state call
      (state.replaceOffers checks superseded notifyPeer enter announcement) [] := by
  have remains := Remains.of_shrinks (cancelOwners_shrinks state .user notifyPeer superseded)
  rcases replaceOffers_cases sound checks superseded notifyPeer enter announcement with
    ⟨error, _, refused⟩ | ⟨_, _, _, ⟨_, _, full⟩ | ⟨_, _, _, entered⟩⟩
  · rw [refused]
    exact .refused error
  · rw [full]
    refine .silent (fun key range found => ?_) fun _ member => absurd member not_mem_nil
    exact ⟨range, remains.ranges key range found, rfl, .inl rfl⟩
  · rw [entered]
    refine .silent (fun key range found => ?_) fun action member => ?_
    · rw [pending] at found
      exact ⟨range, remains.ranges key range found, rfl, .inl rfl⟩
    · rcases mem_append.mp member with before | last
      · exact response_of_isNotice (cancelOwners_notices .user notifyPeer superseded action before)
      · rw [mem_singleton.mp last]
        exact none

theorem adapterRangeRequest_rangeEffect (order : IterOrder (TransferOwner P)) (adapterId : String)
    (request : RangeRequest) :
    RangeEffect sha256 base64 state (.adapterRangeRequest order adapterId request)
      (state.adapterRangeRequest order adapterId request)
      (state.rangeEvents (.adapterRangeRequest order adapterId request)
        (state.adapterRangeRequest order adapterId request).result) := by
  apply RangeEffect.attempt
  rintro ⟨owner, validator⟩ passed
  simp only [bind_ok, okOr_eq_ok, guard_bind_ok, orProtocol_eq_ok,
    pure_ok, Prod.mk.injEq, not_not] at passed
  rcases passed with ⟨asked, first, _, _, _, _, _, _, _, _, fresh, created, _, rfl, rfl⟩
  simp only [rangeEvents, first]
  let range : PendingRange P :=
    { key :=
        { owner := asked, fileId := request.entryId, requestId := request.requestId,
          offset := request.offset, length := request.length.toUInt64 }
      validator := created
      received := 0
      hasher := []
      chunk := [] }
  refine .request (asked, request.entryId, request.requestId) range ?_ rfl rfl ?_
  · exact AList.lookup_eq_none.mpr fresh
  · intro _ member
    rw [mem_singleton.mp member]
    rfl

omit [DecidableEq P] in
theorem rangeEvents_of_answering {key : RequestKey P} (answering : call.answering = some key)
    (actions : List (TransferAction P)) :
    state.rangeEvents call (.ok actions) =
      (actions.filterMap (·.response)).map (.responded key) := by
  cases call with
  | adapterRangeRequest => cases answering
  | _ => simp only [rangeEvents, answering]

theorem inboundChunk_rangeEffect (sound : state.Sound whole) (peer : P)
    (wireId fileId requestId offset : UInt64) (data : Bytes)
    (handed : call.message = some (peer, .clipboardFileChunk wireId fileId requestId offset data)) :
    RangeEffect sha256 base64 state call
      (state.inboundChunk base64 peer wireId fileId requestId offset data) (state.rangeEvents call
        (state.inboundChunk base64 peer wireId fileId requestId offset data).result) := by
  rcases inboundChunk_cases sound base64 peer wireId fileId requestId offset data with
    ⟨_, error, refused⟩ |
    ⟨range, validator, transfer, entry, finish, found, valid, remote, listed, sums, outcome⟩
  · rw [refused]
    exact .refused error
  · have consistent := (sound.awaited _ _ found).consistent
    rcases ClipboardFileChunkValidator.validateChunk_eq_ok.mp valid with
      ⟨_, _, _, _, _, begins, chunk, fits, _⟩
    have start : offset = range.key.offset := begins.trans consistent.offset
    have within : data.length ≤ range.key.length.toNat := consistent.length ▸ fits
    have sizes := validateFileChunk_pos chunk
    have small : data.length < 2 ^ 64 := lt_of_le_of_lt sizes.2 (by decide)
    -- the range keeps its chunk, whatever comes of it
    have fed : ∀ key later, (state.pending.insert (⟨peer, wireId⟩, fileId, requestId)
          (range.feed validator data)).lookup key = some later →
        ∃ before, state.pending.lookup key = some before ∧ before.key = later.key ∧
          (before.chunk = later.chunk ∨ later.chunk.length ≤ later.key.length.toNat) := by
      intro _ later there
      rw [lookup_insert] at there
      split at there
      · rename_i same
        cases there
        exact ⟨range, same ▸ found, rfl, .inr within⟩
      · exact ⟨later, there, rfl, .inl rfl⟩
    rw [outcome]
    have answering : call.answering = some (⟨peer, wireId⟩, fileId, requestId) := by
      rw [Call.answering, handed]
    split
    · rw [rangeEvents_of_answering answering]
      refine .silent fed fun _ member => ?_
      rw [mem_singleton.mp member]
      rfl
    · rename_i inner
      split
      · exact .silent fed fun _ member => nomatch member
      · rw [rangeEvents_of_answering answering]
        refine .response (⟨peer, wireId⟩, fileId, requestId) range transfer.adapterId _ ?_ ?_ ?_
        · refine ⟨answering, found, rfl, start, transfer, entry, data, remote, listed, rfl, rfl,
            rfl, ne_nil_of_length_pos sizes.1, within, ?_, ?_⟩
          · refine iff_of_false Bool.false_ne_true fun ends => inner ?_
            exact (finish_eq_iff small sums).mpr (start ▸ ends)
          · exact fun atEnd => absurd atEnd Bool.false_ne_true
        · exact AList.erase_insert _ _ _
        · intro _ _ member
          rcases mem_pair.mp member with same | same
          · cases same
            exact ⟨rfl, rfl⟩
          · cases same

theorem inboundComplete_rangeEffect (sound : state.Sound whole)
    (bounded : ∀ key range, state.pending.lookup key = some range →
      range.chunk.length ≤ range.key.length.toNat)
    (peer : P) (wireId fileId requestId size : UInt64) (digest : Digest)
    (handed : call.message = some (peer, .clipboardFileComplete wireId fileId requestId size
      digest)) :
    RangeEffect sha256 base64 state call
      (state.inboundComplete sha256 base64 peer wireId fileId requestId size digest)
      (state.rangeEvents call
        (state.inboundComplete sha256 base64 peer wireId fileId requestId size digest).result) := by
  have answering : call.answering = some (⟨peer, wireId⟩, fileId, requestId) := by
    rw [Call.answering, handed]
  simp only [TransferState.inboundComplete]
  split
  · exact .refused _
  · rename_i range passed
    rcases checkCompletion_eq_ok.mp passed with
      ⟨transfer, entry, remote, listed, found, nonzero, covered, _, matched⟩
    have awaited := sound.awaited _ _ found
    have received := awaited.consistent.received
    have same : range.key.owner = ⟨peer, wireId⟩ := awaited.owner
    have there : state.remoteTransfers.lookup range.key.owner = some transfer := by
      rw [same]
      exact remote
    simp only [there]
    rw [rangeEvents_of_answering answering]
    refine .response (⟨peer, wireId⟩, fileId, requestId) range transfer.adapterId _ ?_ rfl ?_
    · refine ⟨answering, found, rfl, rfl, transfer, entry, range.chunk, remote, listed, rfl, rfl,
        rfl, ?_, bounded _ _ found, ?_, ?_⟩
      · intro missing
        rw [missing] at received
        exact nonzero (UInt64.toNat_inj.mp received)
      · rcases checkedAdd_eq_some.mp covered with ⟨fits, ends⟩
        refine iff_of_true rfl ?_
        rw [ends, toNat_add_of_le fits, received]
      · intro _
        exact ⟨size, digest, handed, awaited.consistent.fed ▸ matched⟩
    · intro _ _ member
      rcases mem_pair.mp member with same | same
      · cases same
        exact ⟨rfl, rfl⟩
      · cases same

theorem RangeEffect.logged {outcome : Outcome P}
    (effect : RangeEffect sha256 base64 state call outcome [])
    (other : ∀ order adapterId request, call ≠ .adapterRangeRequest order adapterId request) :
    RangeEffect sha256 base64 state call outcome (state.rangeEvents call outcome.result) := by
  cases effect with
  | silent kept none =>
    have empty : state.rangeEvents call outcome.result = [] := by
      cases result : outcome.result with
      | error => rfl
      | ok actions =>
        rw [result] at none
        have unanswered : actions.filterMap (·.response) = [] :=
          filterMap_eq_nil_iff.mpr none
        cases call with
        | adapterRangeRequest order adapterId request =>
          exact absurd rfl (other order adapterId request)
        | _ =>
          simp only [rangeEvents, unanswered]
          split <;> rfl
    rw [empty]
    exact .silent kept none

theorem perform_rangeEffect (sound : state.Sound whole)
    (bounded : ∀ key range, state.pending.lookup key = some range →
      range.chunk.length ≤ range.key.length.toNat) (call : Call P) :
    RangeEffect sha256 base64 state call (state.perform sha256 base64 call)
      (state.rangeEvents call (state.perform sha256 base64 call).result) := by
  cases call with
  | localCopyManifest =>
    refine RangeEffect.logged ?_ nofun
    exact replaceOffers_rangeEffect sound _ _ true (fun _ _ => rfl) rfl
  | inboundManifest =>
    refine RangeEffect.logged ?_ nofun
    exact replaceOffers_rangeEffect sound _ _ false (fun _ _ => rfl) rfl
  | adapterRangeRequest order adapterId request =>
    exact adapterRangeRequest_rangeEffect order adapterId request
  | adapterMountReady =>
    refine RangeEffect.logged (.of_attempt (fun _ => rfl) fun _ action member => ?_) nofun
    rw [mem_singleton.mp member]
    rfl
  | sourceFileRequest =>
    refine RangeEffect.logged (.of_attempt (fun _ => rfl) fun offer action member => ?_) nofun
    rw [mem_singleton.mp member]
    rfl
  | sourceChunk | sourceComplete =>
    refine RangeEffect.logged (.of_attempt (fun _ => rfl) fun _ action member => ?_) nofun
    rw [mem_singleton.mp member]
    rfl
  | inboundChunk peer wireId fileId requestId offset data =>
    exact inboundChunk_rangeEffect sound peer wireId fileId requestId offset data rfl
  | inboundComplete peer wireId fileId requestId size digest =>
    exact inboundComplete_rangeEffect sound bounded peer wireId fileId requestId size digest rfl
  | handleProtocol peer event =>
    cases event with
    | clipboardFileChunk wireId fileId requestId offset data =>
      exact inboundChunk_rangeEffect sound peer wireId fileId requestId offset data rfl
    | clipboardFileComplete wireId fileId requestId size digest =>
      exact inboundComplete_rangeEffect sound bounded peer wireId fileId requestId size digest rfl
    | clipboardFileRequest =>
      refine RangeEffect.logged (.of_attempt (fun _ => rfl) fun _ _ member => ?_) nofun
      rw [mem_singleton.mp member]
      rfl
    | _ =>
      refine RangeEffect.logged (.of_quiet ?_) nofun
      exact perform_quiet sha256 base64 trivial
  | _ =>
    refine RangeEffect.logged (.of_quiet ?_) nofun
    exact perform_quiet sha256 base64 trivial

/-- The request of a key that was logged last, and that nothing has been logged for since. -/
def LastRequested (log : List (RangeEvent P)) (key : RequestKey P) (offset length : UInt64) :
    Prop :=
  ∃ earlier later, log = earlier ++ .requested key offset length :: later ∧
    ∀ event ∈ later, event.key ≠ key

omit [DecidableEq P] in
theorem LastRequested.further {log : List (RangeEvent P)} {key : RequestKey P}
    {offset length : UInt64} (last : LastRequested log key offset length) {event : RangeEvent P}
    (other : event.key ≠ key) : LastRequested (log ++ [event]) key offset length := by
  rcases last with ⟨earlier, later, rfl, others⟩
  refine ⟨earlier, later ++ [event], by simp, fun entered member => ?_⟩
  rcases mem_append.mp member with before | now
  · exact others entered before
  · rw [mem_singleton.mp now]
    exact other

/-- Every response was asked for, and no request has two. -/
structure Matched (state : TransferState P) (log : List (RangeEvent P)) : Prop where
  sound : state.Sound False
  bounded : ∀ key range, state.pending.lookup key = some range →
    range.chunk.length ≤ range.key.length.toNat
  requested : ∀ key range, state.pending.lookup key = some range →
    LastRequested log key range.key.offset range.key.length
  counted : ∀ key, log.countP (·.responds key) + (if key ∈ state.pending then 1 else 0) ≤
    log.countP (·.requests key)

theorem matched_new : (new : TransferState P).Matched [] where
  sound := new_sound
  bounded := by simp [new]
  requested := by simp [new]
  counted := by simp [new]

theorem Matched.effect {log events : List (RangeEvent P)} (matched : state.Matched log)
    {outcome : Outcome P} (sound : outcome.state.Sound False)
    (effect : RangeEffect sha256 base64 state call outcome events) :
    outcome.state.Matched (log ++ events) := by
  refine ⟨sound, ?_, ?_, ?_⟩
  · intro key range found
    cases effect with
    | silent kept =>
      rcases kept key range found with ⟨before, there, same, chunk | short⟩
      · rw [← chunk, ← same]
        exact matched.bounded key before there
      · exact short
    | request _ _ _ added empty =>
      rw [added, lookup_insert] at found
      split at found
      · cases found
        rw [empty]
        exact Nat.zero_le _
      · exact matched.bounded key range found
    | response _ _ _ _ _ removed =>
      rw [removed, lookup_erase] at found
      split at found
      · cases found
      · exact matched.bounded key range found
  · intro key range found
    cases effect with
    | silent kept =>
      rcases kept key range found with ⟨before, there, same, _⟩
      rw [append_nil, ← same]
      exact matched.requested key before there
    | request _ _ _ added =>
      rw [added, lookup_insert] at found
      split at found
      · rename_i same
        cases found
        exact ⟨log, [], same ▸ rfl, fun _ member => nomatch member⟩
      · rename_i different
        exact (matched.requested key range found).further (Ne.symm different)
    | response _ _ _ _ _ removed =>
      rw [removed, lookup_erase] at found
      split at found
      · cases found
      · rename_i different
        exact (matched.requested key range found).further (Ne.symm different)
  · intro key
    have before := matched.counted key
    cases effect with
    | silent kept =>
      have still : key ∈ outcome.state.pending → key ∈ state.pending := by
        simp only [mem_iff_lookup]
        rintro ⟨range, found⟩
        rcases kept key range found with ⟨earlier, there, _⟩
        exact ⟨earlier, there⟩
      rw [append_nil]
      split_ifs at before ⊢ with now then_ <;> first | omega | exact absurd (still now) then_
    | request asked _ fresh added =>
      rw [added]
      by_cases same : key = asked
      · subst same
        rw [if_neg (AList.lookup_eq_none.mp fresh)] at before
        simpa using before
      · simpa [same, Ne.symm same] using before
    | response served range _ _ serves removed =>
      rw [removed]
      by_cases same : key = served
      · subst same
        rw [if_pos ((mem_iff_lookup _ _).mpr ⟨range, serves.pending⟩)] at before
        simpa using before
      · simpa [same, Ne.symm same] using before

theorem matched_outcome (sha256 : Bytes → Digest) (base64 : Bytes → String)
    (calls : List (Call P)) :
    (outcome (rangeStep sha256 base64) new calls).1.Matched
      (outcome (rangeStep sha256 base64) new calls).2 := by
  apply outcome_accounts Matched _ matched_new
  intro state _ call matched
  have effect : RangeEffect sha256 base64 state call _ _ :=
    perform_rangeEffect matched.sound matched.bounded call
  exact matched.effect (matched.sound.perform sha256 base64 False.elim) effect

/-- In every run the accepted requests of a key are at least as many as the responses to it, and
every response is the only one to the request of its key that was accepted last: it is at the
offset of that request and no longer, it has the end of file exactly where it reaches the size of
the file in the manifest, and then only after the digest of the source has matched its bytes. -/
theorem range_responses (sha256 : Bytes → Digest) (base64 : Bytes → String)
    (calls : List (Call P)) :
    let before := outcome (rangeStep sha256 base64) new calls
    (∀ key, before.2.countP (·.responds key) ≤ before.2.countP (·.requests key)) ∧
    ∀ call adapterId response,
      .adapter adapterId (.rangeResponse response) ∈
        (before.1.perform sha256 base64 call).result.toOption.getD [] →
      ∃ key offset length transfer entry data,
        before.1.rangeEvents call (before.1.perform sha256 base64 call).result =
          [.responded key response] ∧
        LastRequested before.2 key offset length ∧
        before.1.remoteTransfers.lookup key.1 = some transfer ∧
        transfer.entries.lookup key.2.1 = some entry ∧ transfer.adapterId = adapterId ∧
        transfer.adapterTransferId = response.transferId ∧ response.requestId = key.2.2 ∧
        response.offset = offset ∧ response.dataBase64 = base64 data ∧
        data.length ≤ length.toNat ∧
        (response.eof = true ↔ offset.toNat + data.length = entry.size.toNat) ∧
        (response.eof = true → ∃ size digest,
          call.message = some (key.1.peer, .clipboardFileComplete key.1.wireId key.2.1 key.2.2
            size digest) ∧ sha256 data = digest) := by
  intro before
  have matched : before.1.Matched before.2 := matched_outcome sha256 base64 calls
  refine ⟨fun key => le_trans (Nat.le_add_right _ _) (matched.counted key), ?_⟩
  intro call _ response returned
  have effect : RangeEffect sha256 base64 before.1 call _ _ :=
    perform_rangeEffect matched.sound matched.bounded call
  generalize before.1.rangeEvents call (before.1.perform sha256 base64 call).result = events
    at effect ⊢
  cases effect with
  | silent _ none | request _ _ _ _ _ none => cases none _ returned
  | response key range adapter _ serves _ only =>
    rcases only _ _ returned with ⟨rfl, rfl⟩
    rcases serves.content with ⟨transfer, entry, data, remote, listed, adapter, named, encoded, _,
      within, ends, matches_⟩
    exact ⟨key, range.key.offset, range.key.length, transfer, entry, data, rfl,
      matched.requested key range serves.pending, remote, listed, adapter, named, serves.request,
      serves.offset, encoded, within, ends, matches_⟩

end TransferState

end Syntra.Clipboard
