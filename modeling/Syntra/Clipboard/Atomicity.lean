import Syntra.Clipboard.Representation

/-!
# Failing operations

An operation that fails leaves the state as it was. The exception is a chunk that is shorter than
the range and does not end at the end of the file: it is taken before it is refused.
-/

namespace Syntra.Clipboard

open ByteFormat Proto StateMachine Tables Option

variable {P : Type} [DecidableEq P]

/-- An operation that failed has left the state as it was. -/
def Outcome.Atomic (state : TransferState P) (outcome : Outcome P) : Prop :=
  ∀ error, outcome.result = .error error → outcome.state = state

namespace TransferState

variable {whole : Prop} {state : TransferState P}

omit [DecidableEq P] in
theorem attempt_atomic {α : Type} (checks : Except (TransferStateError P) α)
    (commit : α → TransferState P × List (TransferAction P)) :
    (state.attempt checks commit).Atomic state := by
  intro error failed
  cases checks with
  | error => rfl
  | ok => cases failed

omit [DecidableEq P] in
theorem sure_atomic (result : TransferState P × List (TransferAction P)) :
    (Outcome.sure result).Atomic state := by
  intro _ failed
  cases failed

variable {id uiId : UiTransferId} {turns : ℕ} {error : TransferStateError P}
  {owner : TransferOwner P} {peer : P}

theorem followingUiId_toNat (positive : id ≠ 0) :
    (followingUiId id).toNat = (id.toNat - 1 + 1) % u64Max + 1 := by
  have bound := id.toNat_lt
  have nonzero : id.toNat ≠ 0 := fun zero => positive (UInt64.toNat_inj.mp zero)
  unfold followingUiId checkedAdd
  simp only [u64Max, UInt64.toNat_one]
  split
  · rename_i fits
    rw [getD_some, UInt64.toNat_add, UInt64.toNat_one]
    omega
  · rw [getD_none, UInt64.toNat_one]
    omega

theorem iterate_followingUiId (positive : id ≠ 0) (turns : ℕ) :
    (followingUiId^[turns] id).toNat = (id.toNat - 1 + turns) % u64Max + 1 := by
  have bound := id.toNat_lt
  have nonzero : id.toNat ≠ 0 := fun zero => positive (UInt64.toNat_inj.mp zero)
  induction turns with
  | zero =>
    simp only [Function.iterate_zero, id_eq, u64Max]
    omega
  | succ turns ih =>
    have later : followingUiId^[turns] id ≠ 0 := by
      intro zero
      rw [zero] at ih
      exact absurd ih (by simp)
    rw [Function.iterate_succ_apply', followingUiId_toNat later, ih]
    simp only [u64Max]
    omega

theorem iterate_followingUiId_eq_self (positive : id ≠ 0) (some_ : 0 < turns)
    (bounded : turns ≤ u64Max) : followingUiId^[turns] id = id ↔ turns = u64Max := by
  have bound := id.toNat_lt
  have nonzero : id.toNat ≠ 0 := fun zero => positive (UInt64.toNat_inj.mp zero)
  rw [← UInt64.toNat_inj, iterate_followingUiId positive]
  simp only [u64Max] at bounded ⊢
  omega

theorem exists_iterate_followingUiId {other : UiTransferId} (positive : id ≠ 0)
    (otherPositive : other ≠ 0) : ∃ turns < u64Max, followingUiId^[turns] id = other := by
  have bound := id.toNat_lt
  have otherBound := other.toNat_lt
  have nonzero : id.toNat ≠ 0 := fun zero => positive (UInt64.toNat_inj.mp zero)
  have otherNonzero : other.toNat ≠ 0 := fun zero => otherPositive (UInt64.toNat_inj.mp zero)
  refine ⟨(other.toNat + u64Max - id.toNat) % u64Max, ?_, ?_⟩
  · exact Nat.mod_lt _ (by decide)
  · rw [← UInt64.toNat_inj, iterate_followingUiId positive]
    simp only [u64Max]
    omega

omit [DecidableEq P] in
theorem allocateLoop_error {start : UiTransferId}
    (failed : (allocateLoop start turns state).2 = .error error) :
    ∃ tried ≤ turns, (tried = turns ∨ 0 < tried ∧ followingUiId^[tried] state.nextUiId = start) ∧
      (∀ turn < tried, followingUiId^[turn] state.nextUiId = 0 ∨
        followingUiId^[turn] state.nextUiId ∈ state.uiToOwner) ∧
      (allocateLoop start turns state).1 =
        { state with nextUiId := followingUiId^[tried] state.nextUiId } := by
  induction turns generalizing state with
  | zero => exact ⟨0, le_refl 0, .inl rfl, fun _ early => absurd early (by omega), rfl⟩
  | succ _ ih =>
    simp only [allocateLoop] at failed ⊢
    split at failed
    · cases failed
    · rename_i refused
      have taken : state.nextUiId = 0 ∨ state.nextUiId ∈ state.uiToOwner := by
        rw [not_and_or, not_not, not_not] at refused
        exact refused
      rw [if_neg refused]
      split at failed
      · rename_i round
        rw [if_pos round]
        refine ⟨1, by omega, .inr ⟨one_pos, round⟩, ?_, rfl⟩
        intro turn early
        rw [Nat.lt_one_iff.mp early]
        exact taken
      · rename_i onward
        rw [if_neg onward]
        rcases ih failed with ⟨tried, _, finished, visited, reached⟩
        refine ⟨tried + 1, by omega, ?_, ?_, reached⟩
        · rcases finished with _ | ⟨_, round⟩
          · exact .inl (by omega)
          · exact .inr ⟨Nat.succ_pos tried, round⟩
        · intro turn _
          cases turn with
          | zero => exact taken
          | succ turn => exact visited turn (by omega)

omit [DecidableEq P] in
theorem allocateUiId_error (counting : state.nextUiId ≠ 0)
    (failed : state.allocateUiId.2 = .error error) :
    state.allocateUiId.1 = state ∧ ∀ uiId, uiId ≠ 0 → uiId ∈ state.uiToOwner := by
  rcases allocateLoop_error failed with ⟨tried, bounded, finished, visited, reached⟩
  have all : tried = u64Max := by
    rcases finished with all | ⟨some_, round⟩
    · exact all
    · exact (iterate_followingUiId_eq_self counting some_ bounded).mp round
  subst all
  have back := (iterate_followingUiId_eq_self counting (by decide) (le_refl u64Max)).mpr rfl
  refine ⟨?_, ?_⟩
  · rw [back] at reached
    exact reached
  · intro _ positive
    rcases exists_iterate_followingUiId counting positive with ⟨turn, early, rfl⟩
    exact (visited turn early).resolve_left positive

theorem Shrinks.freed {later : TransferState P} (shrinks : state.Shrinks later)
    (free : state.uiToOwner.lookup uiId = none) : later.uiToOwner.lookup uiId = none := by
  apply shrinks.preserves _ free
  intro _ _ before
  rw [removeOwner_uiToOwner, before, ite_self]

theorem cancelOwners_frees (reason : ClipboardCancelReason) (notifyPeer : Bool)
    (owners : List (TransferOwner P)) (live : state.transferUiId owner = some uiId) :
    (cancelOwners reason notifyPeer state (owner :: owners)).1.uiToOwner.lookup uiId = none := by
  apply (cancelOwners_shrinks _ reason notifyPeer owners).freed
  rw [cancelOwner_of_live live, removeOwner_uiToOwner, if_pos live]

theorem replaceOffers_atomic (sound : state.Sound whole)
    (checks : Except (TransferStateError P) Unit) {superseded : List (TransferOwner P)}
    (live : ∀ owner ∈ superseded, state.transferUiId owner ≠ none) (notifyPeer : Bool)
    (enter : TransferState P → UiTransferId → TransferState P) (announcement : TransferAction P) :
    (state.replaceOffers checks superseded notifyPeer enter announcement).Atomic state := by
  intro _ failed
  rcases replaceOffers_cases sound checks superseded notifyPeer enter announcement with
    ⟨_, _, refused⟩ | ⟨_, _, _, ⟨_, allocation, full⟩ | ⟨_, _, _, entered⟩⟩
  · rw [refused]
  · rw [full]
    have counting :=
      ((cancelOwners_shrinks state .user notifyPeer superseded).sound sound).counting
    rcases allocateUiId_error counting (congrArg Prod.snd allocation) with ⟨same, taken⟩
    rw [allocation] at same
    cases superseded with
    | nil => exact same
    | cons owner owners =>
      have known := live owner (.head _)
      rcases ne_none_iff_exists'.mp known with ⟨uiId, own⟩
      have positive : uiId ≠ 0 := by
        rintro rfl
        have used := (sound.inverse 0 owner).mpr own
        rw [sound.nonzero] at used
        cases used
      have free := cancelOwners_frees .user notifyPeer owners own
      exact absurd (taken uiId positive) (AList.lookup_eq_none.mp free)
  · rw [entered] at failed
    cases failed

theorem supersededLocal_live (superseded : owner ∈ state.supersededLocal peer) :
    state.transferUiId owner ≠ none := by
  rw [Ne, transferUiId_eq_none]
  rintro ⟨notLocal, _⟩
  simp only [supersededLocal, List.mem_map, List.mem_filter] at superseded
  rcases superseded with ⟨_, ⟨member, _⟩, rfl⟩
  exact AList.lookup_eq_none.mp notLocal (List.mem_keys_of_mem member)

theorem supersededRemote_live (superseded : owner ∈ state.supersededRemote peer) :
    state.transferUiId owner ≠ none := by
  rw [Ne, transferUiId_eq_none]
  rintro ⟨_, notRemote⟩
  simp only [supersededRemote, List.mem_filter] at superseded
  exact AList.lookup_eq_none.mp notRemote superseded.1

variable (sound : state.Sound whole)
include sound

theorem endOwners_ok
    (tell : TransferOwner P → UiTransferId → UInt64 × UInt64 → List (TransferAction P))
    {owners : List (TransferOwner P)} (nodup : owners.Nodup)
    (live : ∀ owner ∈ owners, state.transferUiId owner ≠ none) :
    ∃ actions, (endOwners tell state owners).result = .ok actions := by
  induction owners generalizing state with
  | nil => exact ⟨[], rfl⟩
  | cons owner owners ih =>
    rcases ne_none_iff_exists'.mp (live owner (.head _)) with ⟨_, own⟩
    rw [List.nodup_cons] at nodup
    have later : ∀ other ∈ owners, (state.removeOwner owner).transferUiId other ≠ none := by
      intro other member
      rw [removeOwner_transferUiId sound, if_neg]
      · exact live other (.tail _ member)
      · rintro rfl
        exact nodup.1 member
    rcases ih (sound.removeOwner owner) nodup.2 later with ⟨_, ended⟩
    simp only [endOwners, own, ended]
    exact ⟨_, rfl⟩

theorem endOwners_registered (order : IterOrder (TransferOwner P)) (adapterId transferId : String)
    (tell : TransferOwner P → UiTransferId → UInt64 × UInt64 → List (TransferAction P)) :
    ∃ actions, (endOwners tell state
      (state.ownersForAdapter order adapterId transferId)).result = .ok actions := by
  unfold ownersForAdapter
  cases found : state.adapterToOwner.lookup (adapterId, transferId) with
  | none =>
    rw [getD_none, (order.perm []).eq_nil]
    exact ⟨[], rfl⟩
  | some owners =>
    rcases sound.registered _ owners found with ⟨_, nodup, carried⟩
    apply endOwners_ok sound tell (order.nodup_arrange.mpr nodup)
    intro owner member
    rw [Ne, transferUiId_eq_none, ← adapterPair_eq_none,
      carried owner (order.mem_arrange.mp member)]
    simp

theorem endTransfer_atomic (order : IterOrder (TransferOwner P)) (adapterId transferId : String)
    (tell : TransferOwner P → UiTransferId → UInt64 × UInt64 → List (TransferAction P)) :
    (state.endTransfer order adapterId transferId tell).Atomic state := by
  intro _ failed
  simp only [endTransfer] at failed ⊢
  split
  · rfl
  · rename_i nonempty
    rcases endOwners_registered sound order adapterId transferId tell with ⟨_, done⟩
    rw [if_neg nonempty, done] at failed
    cases failed

/-- A valid chunk is shorter than its range and does not end the file. -/
def TakesShortChunk (state : TransferState P) (peer : P) (wireId fileId requestId offset : UInt64)
    (data : Bytes) : Prop :=
  ∃ range validator transfer entry,
    state.pending.lookup (⟨peer, wireId⟩, fileId, requestId) = some range ∧
    range.validator.validateChunk wireId fileId requestId offset data.length = .ok validator ∧
    state.remoteTransfers.lookup ⟨peer, wireId⟩ = some transfer ∧
    transfer.entries.lookup fileId = some entry ∧
    data.length ≠ range.key.length.toNat ∧ offset.toNat + data.length ≠ entry.size.toNat

omit sound in
theorem finish_eq_iff {offset finish size : UInt64} {dataLen : ℕ} (small : dataLen < 2 ^ 64)
    (fits : checkedAdd offset (UInt64.ofNat dataLen) = some finish) :
    finish = size ↔ offset.toNat + dataLen = size.toNat := by
  rcases checkedAdd_eq_some.mp fits with ⟨bounded, rfl⟩
  rw [← UInt64.toNat_inj, toNat_add_of_le bounded, UInt64.toNat_ofNat_of_lt' small]

theorem inboundChunk_atomic (base64 : Bytes → String) (peer : P)
    (wireId fileId requestId offset : UInt64) (data : Bytes) :
    (state.inboundChunk base64 peer wireId fileId requestId offset data).Atomic state ↔
      ¬state.TakesShortChunk peer wireId fileId requestId offset data := by
  rcases inboundChunk_cases sound base64 peer wireId fileId requestId offset data with
    ⟨invalid, error, refused⟩ |
      ⟨range, validator, transfer, entry, finish, found, valid, there, listed, fits, outcome⟩
  · rw [refused]
    refine ⟨?_, fun _ _ _ => rfl⟩
    rintro _ ⟨range, validator, _, _, found, valid, _⟩
    exact invalid range found validator valid
  · have chunk := ClipboardFileChunkValidator.validateChunk_eq_ok.mp valid
    have small : data.length < 2 ^ 64 :=
      lt_of_le_of_lt (validateFileChunk_pos chunk.2.2.2.2.2.2.1).2 (by decide)
    have whole_ : UInt64.ofNat data.length ≠ range.key.length ↔
        data.length ≠ range.key.length.toNat := by
      rw [Ne, ← UInt64.toNat_inj, UInt64.toNat_ofNat_of_lt' small]
    rw [outcome]
    split
    · rename_i atEnd
      refine ⟨?_, fun _ _ failed => by cases failed⟩
      rintro _ ⟨_, _, other, _, _, _, here, named, _, inner⟩
      rw [there] at here
      cases here
      rw [listed] at named
      cases named
      exact inner ((finish_eq_iff small fits).mp atEnd)
    · rename_i inner
      split
      · rename_i short
        constructor
        · intro atomic
          have same :=
                  congrArg (·.pending.lookup (⟨peer, wireId⟩, fileId, requestId)) (atomic _ rfl)
          simp only [AList.lookup_insert, found, some_inj] at same
          have unfed := chunk.2.1
          rw [← same] at unfed
          rcases chunk with ⟨_, _, _, _, _, _, _, _, _, _, rfl⟩
          cases unfed
        · intro never
          refine absurd ⟨range, validator, transfer, entry, found, valid, there, listed, ?_, ?_⟩
            never
          · exact whole_.mp short
          · exact fun ends => inner ((finish_eq_iff small fits).mpr ends)
      · rename_i full
        refine ⟨?_, fun _ _ failed => by cases failed⟩
        rintro _ ⟨_, _, _, _, here, _, _, _, short, _⟩
        rw [found] at here
        cases here
        exact full (whole_.mpr short)

theorem inboundComplete_atomic (sha256 : Bytes → Digest) (base64 : Bytes → String) (peer : P)
    (wireId fileId requestId size : UInt64) (digest : Digest) :
    (state.inboundComplete sha256 base64 peer wireId fileId requestId size digest).Atomic
      state := by
  intro _ failed
  simp only [inboundComplete] at failed ⊢
  split
  · rfl
  · rename_i range passed
    rw [passed] at failed
    rcases checkCompletion_eq_ok.mp passed with ⟨_, _, found, _, awaited, _⟩
    have named := (sound.awaited _ _ awaited).owner
    dsimp only at failed
    rw [named, found] at failed
    cases failed

omit sound

theorem cancelUi_atomic (uiId : UiTransferId) (fileId : Option UInt64)
    (reason : ClipboardCancelReason) : (state.cancelUi uiId fileId reason).Atomic state := by
  unfold cancelUi
  split
  · exact fun _ _ => rfl
  · exact attempt_atomic _ _

end TransferState

/-- The call delivers a chunk that is taken before it is refused. -/
def Call.TakesShortChunk (state : TransferState P) : Call P → Prop
  | .inboundChunk peer wireId fileId requestId offset data =>
    state.TakesShortChunk peer wireId fileId requestId offset data
  | .handleProtocol peer (.clipboardFileChunk wireId fileId requestId offset data) =>
    state.TakesShortChunk peer wireId fileId requestId offset data
  | _ => False

namespace TransferState

variable {whole : Prop} {state : TransferState P}

omit [DecidableEq P] in
theorem atomic_iff_of_not {outcome : Outcome P} {takes : Prop} (atomic : outcome.Atomic state)
    (never : ¬takes) : outcome.Atomic state ↔ ¬takes :=
  iff_of_true atomic never

theorem handleProtocol_atomic (sound : state.Sound whole) (sha256 : Bytes → Digest)
    (base64 : Bytes → String) (peer : P) (event : ProtoEvent) :
    (state.handleProtocol sha256 base64 peer event).Atomic state ↔
      ¬(Call.handleProtocol peer event).TakesShortChunk state := by
  cases event with
  | clipboardFileChunk wireId fileId requestId offset data =>
    exact inboundChunk_atomic sound base64 peer wireId fileId requestId offset data
  | clipboardFileComplete wireId fileId requestId size digest =>
    exact atomic_iff_of_not
      (inboundComplete_atomic sound sha256 base64 peer wireId fileId requestId size digest) id
  | clipboardFileRequest | clipboardTransferCancel | clipboardTransferProgress =>
    exact atomic_iff_of_not (attempt_atomic _ _) id
  | _ => exact atomic_iff_of_not (fun _ _ => rfl) id

theorem perform_atomic (sound : state.Sound whole) (sha256 : Bytes → Digest)
    (base64 : Bytes → String) (call : Call P) :
    (state.perform sha256 base64 call).Atomic state ↔ ¬call.TakesShortChunk state := by
  cases call with
  | localCopyManifest order =>
    refine atomic_iff_of_not (replaceOffers_atomic sound _ ?_ true _ _) id
    intro owner member
    exact supersededLocal_live (order.mem_arrange.mp member)
  | inboundManifest order =>
    refine atomic_iff_of_not (replaceOffers_atomic sound _ ?_ false _ _) id
    intro _ member
    exact supersededRemote_live (order.mem_arrange.mp member)
  | adapterCompleted order adapterId | adapterCancelled order adapterId
  | adapterUnmounted order adapterId =>
    exact atomic_iff_of_not (endTransfer_atomic sound order adapterId _ _) id
  | inboundChunk peer wireId fileId requestId offset data =>
    exact inboundChunk_atomic sound base64 peer wireId fileId requestId offset data
  | inboundComplete peer wireId fileId requestId size digest =>
    exact atomic_iff_of_not
      (inboundComplete_atomic sound sha256 base64 peer wireId fileId requestId size digest) id
  | cancelUi uiId fileId reason => exact atomic_iff_of_not (cancelUi_atomic uiId fileId reason) id
  | handleProtocol peer event => exact handleProtocol_atomic sound sha256 base64 peer event
  | setFileClipboardAdapter | sourceRangeServed | peerLost | adapterLost =>
    exact atomic_iff_of_not (sure_atomic _) id
  | _ => exact atomic_iff_of_not (attempt_atomic _ _) id

/-- In every state that calls lead to, a call that fails leaves the state as it was, exactly when
it does not deliver a chunk that is taken before it is refused. -/
theorem atomic_of_run {sha256 : Bytes → Digest} {base64 : Bytes → String}
    {history : List (TransferState P)} (run : Run (machine sha256 base64 fun _ _ => True) history) :
    ∀ state ∈ history, ∀ call : Call P,
      (∀ error, (state.perform sha256 base64 call).result = .error error →
        (state.perform sha256 base64 call).state = state) ↔ ¬call.TakesShortChunk state := by
  intro state member call
  have sound : state.Sound False := sound_of_run run (fun _ _ _ => False.elim) state member
  exact perform_atomic sound sha256 base64 call

theorem atomic_of_run_abc :
    ∃ error, ((afterCalls [offerAbc]).perform (fun _ => abcDigest) (fun _ => "YWJj")
        (.inboundChunk 1 7 1 1 0 [0x61])).result = .error error ∧
      ((afterCalls [offerAbc]).perform (fun _ => abcDigest) (fun _ => "YWJj")
        (.inboundChunk 1 7 1 1 0 [0x61])).state = afterCalls [offerAbc] := by
  have follows : (machine (fun _ => abcDigest) (fun _ => "YWJj")
      fun (_ : TransferState ℕ) _ => True).Follows new [offerAbc] := ⟨trivial, trivial⟩
  rcases Run.of_follows follows with ⟨_, run⟩
  have unasked : (afterCalls [offerAbc]).pending.lookup (⟨1, 7⟩, 1, 1) = none := by decide +kernel
  have refused : ((afterCalls [offerAbc]).perform (fun _ => abcDigest) (fun _ => "YWJj")
      (.inboundChunk 1 7 1 1 0 [0x61])).result = .error (.unknownRequest ⟨1, 7⟩ 1 1) := rfl
  refine ⟨.unknownRequest ⟨1, 7⟩ 1 1, refused, ?_⟩
  apply (atomic_of_run run _ (.head _) (.inboundChunk 1 7 1 1 0 [0x61])).mpr _ _ refused
  rintro ⟨_, _, _, _, found, _⟩
  exact absurd (unasked.symm.trans found) (by simp)

/-- One byte arrives where three were asked for. -/
theorem shortChunk_not_atomic :
    ∃ history state call error, Run (machine (fun _ => abcDigest) (fun _ => "YWJj")
        fun (_ : TransferState ℕ) _ => True) history ∧ state ∈ history ∧
      (state.perform (fun _ => abcDigest) (fun _ => "YWJj") call).result = .error error ∧
      (state.perform (fun _ => abcDigest) (fun _ => "YWJj") call).state ≠ state := by
  have follows : (machine (fun _ => abcDigest) (fun _ => "YWJj")
      fun (_ : TransferState ℕ) _ => True).Follows new [offerAbc, requestAbc] :=
    ⟨trivial, trivial, trivial⟩
  rcases Run.of_follows follows with ⟨_, run⟩
  refine ⟨_, _, .inboundChunk 1 7 1 1 0 [0x61], .protocol (.invalidFileChunk "short non-EOF chunk"),
    run, .head _, ?_, ?_⟩
  · rfl
  · intro same
    have received := congrArg
      (fun state => (state.pending.lookup (⟨1, 7⟩, 1, 1)).map PendingRange.received) same
    have before : ((afterCalls [offerAbc, requestAbc]).pending.lookup (⟨1, 7⟩, 1, 1)).map
        PendingRange.received = some 0 := by decide +kernel
    have after : (((afterCalls [offerAbc, requestAbc]).perform (fun _ => abcDigest)
        (fun _ => "YWJj") (.inboundChunk 1 7 1 1 0 [0x61])).state.pending.lookup
          (⟨1, 7⟩, 1, 1)).map PendingRange.received = some 1 := by decide +kernel
    exact absurd (after.symm.trans (received.trans before)) (by decide)

end TransferState

end Syntra.Clipboard
