import Syntra.Clipboard.Atomicity

/-!
# The last range of a file

The source answers a range that ends at the end of the file with a chunk and a completion. The
completion is refused as long as the chunk is missing and is not asked for again, so the two lead
to a response in either order only when the range had its chunk before.
-/

namespace Syntra.Clipboard

open ByteFormat Proto StateMachine ClipboardFileChunkValidator

variable {P : Type} [DecidableEq P]

/-- The end of file responses that an operation sends to adapters. -/
def Outcome.eofResponses (outcome : Outcome P) : List (AdapterId × RangeResponse) :=
  (outcome.result.toOption.getD []).filterMap fun action =>
    match action with
    | .adapter adapterId (.rangeResponse response) =>
      if response.eof then some (adapterId, response) else none
    | _ => none

omit [DecidableEq P] in
theorem Outcome.eofResponses_error {state : TransferState P} {error : TransferStateError P} :
    (⟨state, .error error⟩ : Outcome P).eofResponses = [] :=
  rfl

namespace TransferState

variable {whole : Prop} {state : TransferState P} {sha256 : Bytes → Digest}
  {base64 : Bytes → String} {peer : P} {wireId fileId requestId : UInt64} {range : PendingRange P}
  {transfer : RemoteTransfer} {entry : ClipboardManifestEntry} {data : Bytes}

def chunkThenComplete (sha256 : Bytes → Digest) (base64 : Bytes → String) (state : TransferState P)
    (peer : P) (wireId fileId requestId offset : UInt64) (data : Bytes) (size : UInt64)
    (digest : Digest) : List (AdapterId × RangeResponse) :=
  let first := state.inboundChunk base64 peer wireId fileId requestId offset data
  let second := first.state.inboundComplete sha256 base64 peer wireId fileId requestId size digest
  first.eofResponses ++ second.eofResponses

def completeThenChunk (sha256 : Bytes → Digest) (base64 : Bytes → String) (state : TransferState P)
    (peer : P) (wireId fileId requestId offset : UInt64) (data : Bytes) (size : UInt64)
    (digest : Digest) : List (AdapterId × RangeResponse) :=
  let first := state.inboundComplete sha256 base64 peer wireId fileId requestId size digest
  let second := first.state.inboundChunk base64 peer wireId fileId requestId offset data
  first.eofResponses ++ second.eofResponses

/-- A range under way that ends with its file. -/
structure FinalRange (state : TransferState P) (peer : P) (wireId fileId requestId : UInt64)
    (range : PendingRange P) (transfer : RemoteTransfer) (entry : ClipboardManifestEntry) :
    Prop where
  pending : state.pending.lookup (⟨peer, wireId⟩, fileId, requestId) = some range
  remote : state.remoteTransfers.lookup ⟨peer, wireId⟩ = some transfer
  listed : transfer.entries.lookup fileId = some entry
  final : range.key.offset.toNat + range.key.length.toNat = entry.size.toNat

def eofResponse (base64 : Bytes → String) (range : PendingRange P) (transfer : RemoteTransfer) :
    AdapterId × RangeResponse :=
  (transfer.adapterId,
    { transferId := transfer.adapterTransferId, requestId := range.key.requestId,
      offset := range.key.offset, dataBase64 := base64 range.chunk, eof := true, error := none })

theorem validateRequest_eq_ok {offset length : UInt64}
    (valid : validateRequest offset length = .ok ()) :
    0 < length.toNat ∧ validateFileChunk offset length.toNat = .ok () := by
  simp only [validateRequest, bind_ok, guard_bind_ok, okOr_eq_ok, not_or] at valid
  rcases valid with ⟨_, position, ⟨nonzero, _⟩, finish, fits, within⟩
  have positive : 0 < length.toNat := by
    apply Nat.pos_of_ne_zero
    intro zero
    exact nonzero (UInt64.toNat_inj.mp zero)
  refine ⟨positive, ?_⟩
  simp only [validateFileChunk, bind_ok, guard_bind_ok, okOr_eq_ok, UInt64.ofNat_toNat]
  exact ⟨by omega, by omega, _, position, finish, fits, within⟩

theorem inboundChunk_eofResponses (sound : state.Sound whole) (offset : UInt64) :
    (state.inboundChunk base64 peer wireId fileId requestId offset data).eofResponses = [] := by
  rcases inboundChunk_cases sound base64 peer wireId fileId requestId offset data with
    ⟨_, _, refused⟩ | ⟨_, _, _, _, _, _, _, _, _, _, outcome⟩
  · rw [refused]
    rfl
  · rw [outcome]
    split
    · rfl
    · split <;> rfl

namespace FinalRange

theorem checkedAdd (final : state.FinalRange peer wireId fileId requestId range transfer entry) :
    Proto.checkedAdd range.key.offset range.key.length = some entry.size := by
  have bound := entry.size.toNat_lt
  have same := final.final
  have fits : range.key.offset.toNat + range.key.length.toNat ≤ u64Max := by
    simp only [u64Max]
    omega
  rw [checkedAdd_eq_some]
  refine ⟨fits, ?_⟩
  rw [← UInt64.toNat_inj, toNat_add_of_le fits, same]

theorem inboundComplete (final : state.FinalRange peer wireId fileId requestId range transfer entry)
    (sound : state.Sound whole) (sha256 : Bytes → Digest) (base64 : Bytes → String)
    (digest : Digest) :
    if range.received = range.key.length ∧ sha256 range.hasher = digest then
      (state.inboundComplete sha256 base64 peer wireId fileId requestId entry.size
        digest).eofResponses = [eofResponse base64 range transfer] ∧
      (state.inboundComplete sha256 base64 peer wireId fileId requestId entry.size
        digest).state = { state with
          pending := state.pending.erase (⟨peer, wireId⟩, fileId, requestId) }
    else
      ∃ error, state.inboundComplete sha256 base64 peer wireId fileId requestId entry.size digest =
        ⟨state, .error error⟩ := by
  have awaited := sound.awaited _ _ final.pending
  have remote : state.remoteTransfers.lookup range.key.owner = some transfer := by
    rw [awaited.owner]
    exact final.remote
  have named : range.key.requestId = requestId := awaited.requestId
  split
  · rename_i settled
    have nonzero : range.received ≠ 0 := by
      rintro zero
      have positive := (validateRequest_eq_ok awaited.consistent.requested).1
      rw [← settled.1, zero] at positive
      exact absurd positive (by simp)
    have passed : state.checkCompletion sha256 ⟨peer, wireId⟩ fileId requestId entry.size digest =
        .ok range := by
      rw [checkCompletion_eq_ok]
      refine ⟨transfer, entry, final.remote, final.listed, final.pending, nonzero, ?_, rfl,
        settled.2⟩
      rw [settled.1]
      exact final.checkedAdd
    simp only [TransferState.inboundComplete, passed, remote, Outcome.eofResponses, eofResponse,
      named]
    exact ⟨rfl, trivial⟩
  · rename_i unsettled
    simp only [TransferState.inboundComplete]
    split
    · exact ⟨_, rfl⟩
    · rename_i accepted passed
      exfalso
      rcases checkCompletion_eq_ok.mp passed with
        ⟨_, _, remote, listed, found, _, covered, _, matching⟩
      rw [final.remote] at remote
      cases remote
      rw [final.listed] at listed
      cases listed
      rw [final.pending] at found
      cases found
      apply unsettled
      refine ⟨?_, matching⟩
      rcases checkedAdd_eq_some.mp covered with ⟨fits, ends⟩
      have same := final.final
      rw [ends, toNat_add_of_le fits] at same
      rw [← UInt64.toNat_inj]
      omega

variable (final : state.FinalRange peer wireId fileId requestId range transfer entry)
include final

theorem inboundChunk_first (sound : state.Sound whole) (base64 : Bytes → String)
    (full : data.length = range.key.length.toNat) (missing : range.chunk = []) :
    ∃ later, (state.inboundChunk base64 peer wireId fileId requestId range.key.offset
        data).state.FinalRange peer wireId fileId requestId later transfer entry ∧
      later.key = range.key ∧ later.received = range.key.length ∧ later.hasher = data ∧
      later.chunk = data := by
  have awaited := sound.awaited _ _ final.pending
  have consistent := awaited.consistent
  have owner : range.key.owner = ⟨peer, wireId⟩ := awaited.owner
  have file : range.key.fileId = fileId := awaited.fileId
  have request : range.key.requestId = requestId := awaited.requestId
  have unfed : range.validator.chunkReceived = false := by
    rw [Bool.eq_false_iff]
    intro fed
    exact consistent.single.mp fed missing
  have fits : Proto.checkedAdd range.key.offset (UInt64.ofNat data.length) = some entry.size := by
    rw [full, UInt64.ofNat_toNat]
    exact final.checkedAdd
  rcases inboundChunk_cases sound base64 peer wireId fileId requestId range.key.offset data with
    ⟨invalid, _⟩ |
    ⟨found, validator, other, listed, finish, there, valid, remote, named, sums, outcome⟩
  · exfalso
    apply invalid range final.pending
    rw [validateChunk_eq_ok]
    refine ⟨consistent.incomplete, unfed, ?_, ?_, ?_, consistent.offset.symm, ?_, ?_, _, fits, rfl⟩
    · rw [consistent.transferId, owner]
    · rw [consistent.fileId, file]
    · rw [consistent.requestId, request]
    · rw [full]
      exact (validateRequest_eq_ok consistent.requested).2
    · rw [consistent.length, full]
  · rw [final.pending] at there
    cases there
    rw [final.remote] at remote
    cases remote
    rw [final.listed] at named
    cases named
    rw [fits] at sums
    cases sums
    rw [outcome]
    simp only [if_true]
    refine ⟨range.feed validator data, ?_, rfl, ?_, ?_, rfl⟩
    · exact ⟨AList.lookup_insert _, final.remote, final.listed, final.final⟩
    · change UInt64.ofNat data.length = range.key.length
      rw [full, UInt64.ofNat_toNat]
    · change range.hasher ++ data = data
      rw [consistent.fed, missing, List.nil_append]

theorem inboundChunk_again (sound : state.Sound whole) (offset : UInt64)
    (present : range.chunk ≠ []) :
    (state.inboundChunk base64 peer wireId fileId requestId offset data).state = state := by
  have consistent := (sound.awaited _ _ final.pending).consistent
  rcases inboundChunk_cases sound base64 peer wireId fileId requestId offset data with
    ⟨_, _, refused⟩ | ⟨_, _, _, _, _, there, valid, _⟩
  · rw [refused]
  · rw [final.pending] at there
    cases there
    have unfed := (validateChunk_eq_ok.mp valid).2.1
    rw [consistent.single.mpr present] at unfed
    cases unfed

theorem completeThenChunk_nil (sound : state.Sound whole) (sha256 : Bytes → Digest)
    (base64 : Bytes → String) (data : Bytes)
    (unsettled : ¬(range.received = range.key.length ∧ sha256 range.hasher = sha256 data)) :
    state.completeThenChunk sha256 base64 peer wireId fileId requestId range.key.offset data
      entry.size (sha256 data) = [] := by
  have completes := final.inboundComplete sound sha256 base64 (sha256 data)
  rw [if_neg unsettled] at completes
  rcases completes with ⟨_, refused⟩
  simp only [completeThenChunk, refused, inboundChunk_eofResponses sound,
    Outcome.eofResponses_error, List.append_nil]

end FinalRange

/-- In every state that calls lead to, and for a pending range that ends at the end of its file: the
chunk and the completion of the source lead to one and the same end of file response in either
order exactly when the range already had a whole chunk with the digest of the source's. A range
without a chunk is answered when the chunk comes first and never otherwise. -/
theorem finalRange_orders {history : List (TransferState P)}
    (run : Run (machine sha256 base64 fun _ _ => True) history) (member : state ∈ history)
    (final : state.FinalRange peer wireId fileId requestId range transfer entry)
    (full : data.length = range.key.length.toNat) :
    ((∃ response, response.2.eof = true ∧
      state.chunkThenComplete sha256 base64 peer wireId fileId requestId range.key.offset data
        entry.size (sha256 data) = [response] ∧
      state.completeThenChunk sha256 base64 peer wireId fileId requestId range.key.offset data
        entry.size (sha256 data) = [response]) ↔
      range.received = range.key.length ∧ sha256 range.hasher = sha256 data) ∧
    (range.received = 0 →
      (∃ response, response.2.eof = true ∧
        state.chunkThenComplete sha256 base64 peer wireId fileId requestId range.key.offset data
          entry.size (sha256 data) = [response]) ∧
      state.completeThenChunk sha256 base64 peer wireId fileId requestId range.key.offset data
        entry.size (sha256 data) = []) := by
  have sound : state.Sound False := sound_of_run run (fun _ _ _ => False.elim) state member
  have unanswered := fun unsettled =>
    final.completeThenChunk_nil sound sha256 base64 data unsettled
  have consistent := (sound.awaited _ _ final.pending).consistent
  have positive := (validateRequest_eq_ok consistent.requested).1
  refine ⟨⟨?_, ?_⟩, ?_⟩
  · rintro ⟨_, _, _, backward⟩
    by_contra unsettled
    rw [unanswered unsettled] at backward
    cases backward
  · intro settled
    have present : range.chunk ≠ [] := by
      intro missing
      have received := consistent.received
      rw [missing, settled.1] at received
      exact absurd received (by simpa using Nat.ne_of_gt positive)
    have completes := final.inboundComplete sound sha256 base64 (sha256 data)
    rw [if_pos settled] at completes
    refine ⟨eofResponse base64 range transfer, rfl, ?_, ?_⟩
    · simp only [chunkThenComplete, inboundChunk_eofResponses sound,
        final.inboundChunk_again sound range.key.offset present, completes.1, List.nil_append]
    · have erased := sound.erasePending (⟨peer, wireId⟩, fileId, requestId)
      simp only [completeThenChunk, completes.1, completes.2, inboundChunk_eofResponses erased,
        List.append_nil]
  · intro nothing
    have missing : range.chunk = [] := by
      have received := consistent.received
      rw [nothing] at received
      exact List.length_eq_zero_iff.mp received.symm
    refine ⟨?_, ?_⟩
    · rcases final.inboundChunk_first sound base64 full missing with
        ⟨later, finalLater, key, received, fed, _⟩
      have after := sound.inboundChunk base64 peer wireId fileId requestId range.key.offset data
      have completes := finalLater.inboundComplete after sha256 base64 (sha256 data)
      have whole := received.trans (congrArg PendingRangeKey.length key).symm
      rw [if_pos ⟨whole, by rw [fed]⟩] at completes
      refine ⟨eofResponse base64 later transfer, rfl, ?_⟩
      simp only [chunkThenComplete, inboundChunk_eofResponses sound, completes.1, List.nil_append]
    · apply unanswered
      rintro ⟨whole_, _⟩
      rw [← whole_, nothing] at positive
      exact absurd positive (by simp)

theorem finalRange_orders_abc :
    ∃ response, response.2.eof = true ∧
      (afterCalls [offerAbc, requestAbc,
          .inboundChunk 1 7 1 1 0 [0x61, 0x62, 0x63]]).chunkThenComplete
        (fun _ => abcDigest) (fun _ => "YWJj") 1 7 1 1 0 [0x61, 0x62, 0x63] 3 abcDigest =
          [response] ∧
      (afterCalls [offerAbc, requestAbc,
          .inboundChunk 1 7 1 1 0 [0x61, 0x62, 0x63]]).completeThenChunk
        (fun _ => abcDigest) (fun _ => "YWJj") 1 7 1 1 0 [0x61, 0x62, 0x63] 3 abcDigest =
          [response] := by
  have follows : (machine (fun _ => abcDigest) (fun _ => "YWJj")
      fun (_ : TransferState ℕ) _ => True).Follows new
        [offerAbc, requestAbc, .inboundChunk 1 7 1 1 0 [0x61, 0x62, 0x63]] :=
    ⟨trivial, trivial, trivial, trivial⟩
  rcases Run.of_follows follows with ⟨_, run⟩
  have final : ∃ range transfer entry, (afterCalls [offerAbc, requestAbc,
      .inboundChunk 1 7 1 1 0 [0x61, 0x62, 0x63]]).FinalRange 1 7 1 1 range transfer entry ∧
        range.key.offset = 0 ∧ range.key.length = 3 ∧ range.received = 3 ∧ entry.size = 3 :=
    ⟨_, _, _, ⟨rfl, rfl, rfl, rfl⟩, rfl, rfl, rfl, rfl⟩
  rcases final with ⟨range, _, _, final, offset, length, received, size⟩
  have full : ([0x61, 0x62, 0x63] : Bytes).length = range.key.length.toNat := by rw [length]; rfl
  have orders := (finalRange_orders run (.head _) final
    full).1.mpr ⟨received.trans length.symm, rfl⟩
  rw [offset, size] at orders
  exact orders

/-- The completion of a file of three bytes overtakes its only chunk. -/
theorem completion_first_unanswered :
    ∃ history state range transfer entry, Run (machine (fun _ => abcDigest) (fun _ => "YWJj")
        fun (_ : TransferState ℕ) _ => True) history ∧ state ∈ history ∧
      state.FinalRange 1 7 1 1 range transfer entry ∧ range.key.offset = 0 ∧
      range.key.length = 3 ∧ entry.size = 3 ∧
      (state.chunkThenComplete (fun _ => abcDigest) (fun _ => "YWJj") 1 7 1 1 0 [0x61, 0x62, 0x63] 3
        abcDigest).length = 1 ∧
      state.completeThenChunk (fun _ => abcDigest) (fun _ => "YWJj") 1 7 1 1 0 [0x61, 0x62, 0x63] 3
        abcDigest = [] := by
  have follows : (machine (fun _ => abcDigest) (fun _ => "YWJj")
      fun (_ : TransferState ℕ) _ => True).Follows new [offerAbc, requestAbc] :=
    ⟨trivial, trivial, trivial⟩
  rcases Run.of_follows follows with ⟨_, run⟩
  exact ⟨_, _, _, _, _, run, .head _, ⟨rfl, rfl, rfl, rfl⟩, rfl, rfl, rfl, rfl, rfl⟩

end TransferState

end Syntra.Clipboard
