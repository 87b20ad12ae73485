import Syntra.Clipboard.Representation

/-!
# Transfers that are cancelled one by one

A copied selection is offered to several peers, and their transfers are registered under one
transfer of the adapter. A transfer that is cancelled leaves the others as they are, but the adapter
is told to cancel its transfer also when others are still registered under it.
-/

namespace Syntra.Clipboard

open ByteFormat StateMachine Proto Tables Outcome Option List

variable {P : Type} [DecidableEq P]

namespace TransferState

/-- The transfer is there, and so is the file if one is named. -/
def Cancellable (state : TransferState P) (owner : TransferOwner P) (fileId : Option UInt64) :
    Prop :=
  state.adapterPair owner ≠ none ∧ ∀ id, fileId = some id → state.knowsFile owner id = true

/-- Nothing that is kept of the transfer has changed. -/
structure Untouched (state later : TransferState P) (owner : TransferOwner P) : Prop where
  localTransfer : later.localTransfers.lookup owner = state.localTransfers.lookup owner
  remoteTransfer : later.remoteTransfers.lookup owner = state.remoteTransfers.lookup owner
  pending : ∀ request, later.pending.lookup (owner, request) = state.pending.lookup (owner, request)
  sourcePending : ∀ request, later.sourcePending.lookup (owner, request) =
    state.sourcePending.lookup (owner, request)
  row : ∀ uiId, later.uiToOwner.lookup uiId = some owner ↔ state.uiToOwner.lookup uiId = some owner
  registered : ∀ pair, later.IsRegistered owner pair ↔ state.IsRegistered owner pair

end TransferState

/-- Calls that are to cancel, by whomever. -/
def Call.IsCancellation : Call P → Prop
  | .inboundCancel .. | .cancelUi .. | .peerLost .. => True
  | .handleProtocol _ (.clipboardTransferCancel ..) => True
  | _ => False

/-- The call is to cancel this transfer. -/
def Call.Cancels (state : TransferState P) (owner : TransferOwner P) : Call P → Prop
  | .inboundCancel peer wireId fileId _
  | .handleProtocol peer (.clipboardTransferCancel wireId fileId _) =>
    owner = ⟨peer, wireId⟩ ∧ state.Cancellable owner fileId
  | .cancelUi uiId fileId _ =>
    state.uiToOwner.lookup uiId = some owner ∧ state.Cancellable owner fileId
  | .peerLost _ peer => owner.peer = peer ∧ state.Cancellable owner none
  | _ => False

/-- The adapter is told that the transfer was cancelled. -/
def Outcome.CancelsAt (outcome : Outcome P) (pair : AdapterId × String) : Prop :=
  ∃ actions, outcome.result = .ok actions ∧ .adapter pair.1 (.cancel pair.2) ∈ actions

/-- A cancellation ends the transfer of an adapter only if nothing else is still registered under
it, and leaves the transfers that are not cancelled as they are. -/
structure Call.Spares (state : TransferState P) (call : Call P) (outcome : Outcome P) : Prop where
  alone : ∀ pair, outcome.CancelsAt pair → ∀ other, outcome.state.IsRegistered other pair →
    call.Cancels state other
  untouched : ∀ other, ¬call.Cancels state other → state.Untouched outcome.state other

/-- Transfers with one number at an adapter are cancelled together. -/
def Call.CancelsWhole (state : TransferState P) (call : Call P) : Prop :=
  ∀ owner pair, call.Cancels state owner → state.adapterPair owner = some pair →
    ∀ other, state.IsRegistered other pair → call.Cancels state other

namespace TransferState

/-- Just the chosen transfers end, and each of them is cancelled at its adapter. -/
structure Cancelling (state : TransferState P) (outcome : Outcome P)
    (cancels : TransferOwner P → Prop) : Prop where
  untouched : ∀ other, ¬cancels other → state.Untouched outcome.state other
  tells : ∀ pair, outcome.CancelsAt pair ↔
    ∃ owner, cancels owner ∧ state.adapterPair owner = some pair

variable {whole : Prop} {state later : TransferState P} {owner other : TransferOwner P}

theorem lookup_retain_of_kept {κ ν : Type} [DecidableEq κ] {keeps : κ → ν → Bool} {key : κ}
    (kept : ∀ value, keeps key value = true) (table : Table κ ν) :
    (table.retain keeps).lookup key = table.lookup key := by
  rw [AList.lookup_retain]
  cases table.lookup key with
  | none => rfl
  | some => simp [filter_some, kept]

namespace Untouched

theorem refl (state : TransferState P) (owner : TransferOwner P) : state.Untouched state owner :=
  ⟨rfl, rfl, fun _ => rfl, fun _ => rfl, fun _ => Iff.rfl, fun _ => Iff.rfl⟩

theorem trans {last : TransferState P} (first : state.Untouched later owner)
    (second : later.Untouched last owner) : state.Untouched last owner where
  localTransfer := second.localTransfer.trans first.localTransfer
  remoteTransfer := second.remoteTransfer.trans first.remoteTransfer
  pending := fun request => (second.pending request).trans (first.pending request)
  sourcePending := fun request => (second.sourcePending request).trans (first.sourcePending request)
  row := fun uiId => (second.row uiId).trans (first.row uiId)
  registered := fun pair => (second.registered pair).trans (first.registered pair)

theorem removeOwner (sound : state.Sound whole) (different : other ≠ owner) :
    state.Untouched (state.removeOwner owner) other where
  localTransfer := by rw [removeOwner_local, if_neg different]
  remoteTransfer := by rw [removeOwner_remote sound, if_neg different]
  pending := by
    intro request
    apply lookup_retain_of_kept
    simp [different]
  sourcePending := by
    intro _
    apply lookup_retain_of_kept
    simp [different]
  row := by
    intro uiId
    rw [removeOwner_uiToOwner]
    split
    · rename_i own
      rw [(sound.inverse uiId owner).mpr own]
      simp [Ne.symm different]
    · rfl
  registered := by
    intro _
    refine ⟨?_, fun registered => registered.removeOwner different⟩
    rintro ⟨_, found, member⟩
    rw [removeOwner_adapterToOwner, bind_eq_some_iff] at found
    rcases found with ⟨before, there, kept⟩
    split at kept
    · cases kept
    · cases kept
      exact ⟨before, there, mem_of_mem_erase member⟩

theorem removeFile (fileId : UInt64) (different : other ≠ owner) :
    state.Untouched (state.removeFile owner fileId) other where
  localTransfer := by
    simp only [TransferState.removeFile]
    rw [lookup_modify, if_neg different]
  remoteTransfer := rfl
  pending := by
    intro request
    apply lookup_retain_of_kept
    simp [different]
  sourcePending := by
    intro _
    apply lookup_retain_of_kept
    simp [different]
  row := fun _ => Iff.rfl
  registered := fun _ => Iff.rfl

theorem adapterPair (untouched : state.Untouched later owner) :
    later.adapterPair owner = state.adapterPair owner := by
  rw [TransferState.adapterPair, untouched.localTransfer, untouched.remoteTransfer]
  rfl

end Untouched

variable {fileId : Option UInt64} {reason : ClipboardCancelReason} {notifyPeer : Bool}
  {outcome : Outcome P} {call : Call P}

theorem mem_cancelActions {uiId : UiTransferId} {own pair : AdapterId × String} :
    .adapter pair.1 (.cancel pair.2) ∈
        state.cancelActions owner uiId own fileId reason notifyPeer ↔ pair = own := by
  rcases pair with ⟨_, _⟩
  rcases own with ⟨_, _⟩
  unfold cancelActions
  cases notifyPeer <;> cases state.isAnnounced owner <;> simp

theorem cancelOwner_eq (cancellable : state.Cancellable owner fileId)
    (reason : ClipboardCancelReason) (notifyPeer : Bool) :
    ∃ uiId pair, state.adapterPair owner = some pair ∧
      state.cancelOwner owner fileId reason notifyPeer =
        ⟨match fileId with
          | some fileId => state.removeFile owner fileId
          | none => state.removeOwner owner,
        .ok (state.cancelActions owner uiId pair fileId reason notifyPeer)⟩ := by
  rcases cancellable with ⟨exists_, known⟩
  rcases ne_none_iff_exists'.mp exists_ with ⟨pair, carried⟩
  have numbered : state.transferUiId owner ≠ none := by
    rw [Ne, transferUiId_eq_none, ← adapterPair_eq_none]
    exact exists_
  rcases ne_none_iff_exists'.mp numbered with ⟨uiId, own⟩
  refine ⟨uiId, pair, carried, ?_⟩
  cases fileId with
  | none =>
    simp only [cancelOwner, own, carried, okOr]
    rfl
  | some file =>
    simp only [cancelOwner, own, carried, okOr, known file rfl, not_true_eq_false, if_false]
    rfl

theorem cancelOwner_refused (refused : ¬state.Cancellable owner fileId)
    (reason : ClipboardCancelReason) (notifyPeer : Bool) :
    ∃ error, state.cancelOwner owner fileId reason notifyPeer = ⟨state, .error error⟩ := by
  cases carried : state.adapterPair owner with
  | none =>
    have unnumbered := transferUiId_eq_none.mpr (adapterPair_eq_none.mp carried)
    refine ⟨.unknownOwner owner, ?_⟩
    simp only [cancelOwner, unnumbered, okOr]
    rfl
  | some pair =>
    have numbered : state.transferUiId owner ≠ none := by
      rw [Ne, transferUiId_eq_none, ← adapterPair_eq_none, carried]
      exact some_ne_none pair
    rcases ne_none_iff_exists'.mp numbered with ⟨_, own⟩
    simp only [Cancellable, carried, ne_eq, reduceCtorEq, not_false_eq_true, true_and,
      not_forall, Bool.not_eq_true] at refused
    rcases refused with ⟨file, rfl, unknown⟩
    refine ⟨.unknownFile owner file, ?_⟩
    simp only [cancelOwner, own, carried, okOr, unknown, Bool.false_eq_true, not_false_eq_true,
      if_true]
    rfl

variable (sound : state.Sound whole)
include sound

theorem cancelOwner_cancelling (owner : TransferOwner P) (fileId : Option UInt64)
    (reason : ClipboardCancelReason) (notifyPeer : Bool) :
    state.Cancelling (state.cancelOwner owner fileId reason notifyPeer)
      fun other => other = owner ∧ state.Cancellable other fileId := by
  by_cases cancellable : state.Cancellable owner fileId
  · rcases cancelOwner_eq cancellable reason notifyPeer with ⟨_, _, carried, result⟩
    rw [result]
    refine ⟨?_, ?_⟩
    · intro other kept
      have different : other ≠ owner := by
        rintro rfl
        exact kept ⟨rfl, cancellable⟩
      cases fileId with
      | none => exact .removeOwner sound different
      | some file => exact .removeFile file different
    · intro pair
      simp only [CancelsAt, Except.ok.injEq, exists_eq_left', mem_cancelActions]
      refine ⟨?_, ?_⟩
      · rintro rfl
        exact ⟨owner, ⟨rfl, cancellable⟩, carried⟩
      · rintro ⟨_, ⟨rfl, _⟩, carries⟩
        exact some_injective _ (carries.symm.trans carried)
  · rcases cancelOwner_refused cancellable reason notifyPeer with ⟨_, result⟩
    rw [result]
    refine ⟨fun other _ => .refl state other, ?_⟩
    intro _
    simp only [CancelsAt, reduceCtorEq, false_and, exists_false, false_iff, not_exists, not_and]
    rintro _ ⟨rfl, possible⟩ _
    exact cancellable possible

omit sound in
theorem cancellable_none : state.Cancellable owner none ↔ state.adapterPair owner ≠ none := by
  simp [Cancellable]

theorem cancelOwner_adapterPair (owner other : TransferOwner P) (reason : ClipboardCancelReason)
    (notifyPeer : Bool) :
    (state.cancelOwner owner none reason notifyPeer).state.adapterPair other =
      if other = owner then none else state.adapterPair other := by
  by_cases cancellable : state.Cancellable owner none
  · rcases cancelOwner_eq cancellable reason notifyPeer with ⟨_, _, _, result⟩
    rw [result]
    exact removeOwner_adapterPair sound owner other
  · rcases cancelOwner_refused cancellable reason notifyPeer with ⟨_, result⟩
    rw [result]
    split
    · rename_i same
      rw [cancellable_none, not_not] at cancellable
      rw [same]
      exact cancellable
    · rfl

omit sound in
theorem cancelOwners_cancelsAt {owners : List (TransferOwner P)} {pair : AdapterId × String} :
    (sure (cancelOwners reason notifyPeer state (owner :: owners))).CancelsAt pair ↔
      (state.cancelOwner owner none reason notifyPeer).CancelsAt pair ∨
        (sure (cancelOwners reason notifyPeer
          (state.cancelOwner owner none reason notifyPeer).state owners)).CancelsAt pair := by
  simp only [CancelsAt, sure, cancelOwners, Except.ok.injEq, exists_eq_left', mem_append]
  cases (state.cancelOwner owner none reason notifyPeer).result with
  | error | ok => simp [Except.toOption]

theorem cancelOwners_cancelling (reason : ClipboardCancelReason) (notifyPeer : Bool)
    (owners : List (TransferOwner P)) :
    state.Cancelling (.sure (cancelOwners reason notifyPeer state owners))
      fun other => other ∈ owners ∧ state.Cancellable other none := by
  induction owners generalizing state with
  | nil =>
    refine ⟨fun other _ => .refl state other, ?_⟩
    intro pair
    simp [CancelsAt, sure, cancelOwners]
  | cons owner _ ih =>
    have first := cancelOwner_cancelling sound owner none reason notifyPeer
    have rest := ih (sound.cancelOwner owner none reason notifyPeer)
    have pairs := fun other => cancelOwner_adapterPair sound owner other reason notifyPeer
    refine ⟨?_, ?_⟩
    · intro other kept
      have before : state.Untouched
          (state.cancelOwner owner none reason notifyPeer).state other := by
        apply first.untouched
        rintro ⟨rfl, cancellable⟩
        exact kept ⟨.head _, cancellable⟩
      apply before.trans
      apply rest.untouched
      rintro ⟨member, cancellable⟩
      rw [cancellable_none, before.adapterPair, ← cancellable_none] at cancellable
      exact kept ⟨mem_cons_of_mem owner member, cancellable⟩
    · intro pair
      rw [cancelOwners_cancelsAt, first.tells, rest.tells]
      refine ⟨?_, ?_⟩
      · rintro (⟨_, ⟨rfl, cancellable⟩, carried⟩ | ⟨other, ⟨member, _⟩, carried⟩)
        · exact ⟨_, ⟨.head _, cancellable⟩, carried⟩
        · rw [pairs] at carried
          split at carried
          · cases carried
          · refine ⟨other, ⟨mem_cons_of_mem owner member, ?_⟩, carried⟩
            rw [cancellable_none, carried]
            exact some_ne_none pair
      · rintro ⟨other, ⟨member, cancellable⟩, carried⟩
        by_cases same : other = owner
        · exact .inl ⟨other, ⟨same, cancellable⟩, carried⟩
        · have still := pairs other
          rw [if_neg same] at still
          refine .inr ⟨other, ⟨mem_of_ne_of_mem same member, ?_⟩, still.trans carried⟩
          rw [cancellable_none, still, ← cancellable_none]
          exact cancellable

omit sound in
theorem Cancelling.congr {cancels named : TransferOwner P → Prop}
    (cancelling : state.Cancelling outcome cancels) (same : ∀ owner, cancels owner ↔ named owner) :
    state.Cancelling outcome named := by
  rw [← funext fun owner => propext (same owner)]
  exact cancelling

omit sound in
theorem mem_ownersOfPeer {peer : P} :
    owner ∈ state.ownersOfPeer peer ↔ owner.peer = peer ∧ state.Cancellable owner none := by
  rw [cancellable_none, Ne, adapterPair_eq_none, AList.lookup_eq_none, AList.lookup_eq_none]
  simp only [ownersOfPeer, mem_dedup, mem_filter, mem_append, decide_eq_true_eq, AList.mem_keys]
  tauto

theorem inboundCancel_cancelling (peer : P) (wireId : UInt64) (fileId : Option UInt64)
    (reason : ClipboardCancelReason) :
    state.Cancelling (state.inboundCancel peer wireId fileId reason) fun owner =>
      owner = ⟨peer, wireId⟩ ∧ state.Cancellable owner fileId :=
  cancelOwner_cancelling sound ⟨peer, wireId⟩ fileId reason false

theorem cancelUi_cancelling (uiId : UiTransferId) (fileId : Option UInt64)
    (reason : ClipboardCancelReason) :
    state.Cancelling (state.cancelUi uiId fileId reason) fun owner =>
      state.uiToOwner.lookup uiId = some owner ∧ state.Cancellable owner fileId := by
  unfold cancelUi
  cases own : state.uiToOwner.lookup uiId with
  | none =>
    refine ⟨fun other _ => .refl state other, ?_⟩
    intro _
    simp [CancelsAt]
  | some row =>
    apply (cancelOwner_cancelling sound row fileId reason true).congr
    intro _
    rw [some_inj, eq_comm]

theorem peerLost_cancelling (order : IterOrder (TransferOwner P)) (peer : P) :
    state.Cancelling (.sure (state.peerLost order peer)) fun owner =>
      owner.peer = peer ∧ state.Cancellable owner none := by
  apply (cancelOwners_cancelling sound .ioError false _).congr
  intro _
  rw [order.mem_arrange, mem_ownersOfPeer]
  tauto

theorem perform_cancelling (sha256 : Bytes → Digest) (base64 : Bytes → String)
    (isCancellation : call.IsCancellation) :
    state.Cancelling (state.perform sha256 base64 call) (call.Cancels state) := by
  cases call with
  | inboundCancel peer wireId fileId reason =>
    exact inboundCancel_cancelling sound peer wireId fileId reason
  | cancelUi uiId fileId reason => exact cancelUi_cancelling sound uiId fileId reason
  | peerLost order peer => exact peerLost_cancelling sound order peer
  | handleProtocol peer event =>
    cases event with
    | clipboardTransferCancel wireId fileId reason =>
      exact inboundCancel_cancelling sound peer wireId fileId reason
    | _ => exact isCancellation.elim
  | _ => exact isCancellation.elim

omit sound

theorem Cancelling.spares_iff (cancelling : state.Cancelling outcome (call.Cancels state)) :
    call.Spares state outcome ↔ call.CancelsWhole state := by
  refine ⟨?_, ?_⟩
  · intro spares owner pair cancelled carried other registered
    by_contra kept
    have told := (cancelling.tells pair).mpr ⟨owner, cancelled, carried⟩
    exact kept (spares.alone pair told other
      (((cancelling.untouched other kept).registered pair).mpr registered))
  · intro cancelsWhole
    refine ⟨?_, cancelling.untouched⟩
    intro pair told other registered
    by_contra kept
    rcases (cancelling.tells pair).mp told with ⟨owner, cancelled, carried⟩
    exact kept (cancelsWhole owner pair cancelled carried other
      (((cancelling.untouched other kept).registered pair).mp registered))

/-- In every state that is reached, a cancellation spares the transfers that it does not cancel
exactly when nothing else is registered together with those it cancels. -/
theorem spares_iff_of_run {sha256 : Bytes → Digest} {base64 : Bytes → String}
    {history : List (TransferState P)} (run : Run (machine sha256 base64 fun _ _ => True) history) :
    ∀ state ∈ history, ∀ call : Call P, call.IsCancellation →
      (call.Spares state (state.perform sha256 base64 call) ↔ call.CancelsWhole state) := by
  intro state member _ isCancellation
  exact (perform_cancelling (sound_of_run run (fun _ _ _ => False.elim) state member) sha256 base64
    isCancellation).spares_iff

def offerTo (peer : ℕ) (wireId : UInt64) : Call ℕ :=
  .localCopyManifest (.asStored _) peer wireId "7" ⟨"7", .copy⟩
    ⟨wireId, [⟨1, "abc.txt", .file, 3⟩], ∅⟩

def cancelFirst : Call ℕ :=
  .inboundCancel 1 7 none .user

theorem spares_iff_of_run_cancelFirst :
    cancelFirst.Spares (afterCalls [offerTo 1 7])
      ((afterCalls [offerTo 1 7]).perform (fun _ => abcDigest) (fun _ => "YWJj") cancelFirst) := by
  have follows : (machine (fun _ => abcDigest) (fun _ => "YWJj")
      fun (_ : TransferState ℕ) _ => True).Follows new [offerTo 1 7] := ⟨trivial, trivial⟩
  rcases Run.of_follows follows with ⟨_, run⟩
  apply (spares_iff_of_run run _ (.head _) cancelFirst trivial).mpr
  rintro _ _ ⟨rfl, _⟩ carried _ ⟨_, listed, member⟩
  have pairs : (afterCalls [offerTo 1 7]).adapterPair ⟨1, 7⟩ = some ("7", "7") := by
    decide +kernel
  have alone : (afterCalls [offerTo 1 7]).adapterToOwner.lookup ("7", "7") = some [⟨1, 7⟩] := by
    decide +kernel
  cases carried.symm.trans pairs
  cases listed.symm.trans alone
  rw [List.mem_singleton] at member
  subst member
  refine ⟨rfl, cancellable_none.mpr ?_⟩
  exact pairs.trans_ne (Option.some_ne_none _)

/-- Peer 2 has the same file, and the adapter is told to end it. -/
theorem cancelFirst_not_spares :
    ∃ history state, Run (machine (fun _ => abcDigest) (fun _ => "YWJj")
      fun (_ : TransferState ℕ) _ => True) history ∧ state ∈ history ∧
      ¬cancelFirst.Spares state
        (state.perform (fun _ => abcDigest) (fun _ => "YWJj") cancelFirst) := by
  have follows : (machine (fun _ => abcDigest) (fun _ => "YWJj")
      fun (_ : TransferState ℕ) _ => True).Follows new [offerTo 1 7, offerTo 2 8] :=
    ⟨trivial, trivial, trivial⟩
  rcases Run.of_follows follows with ⟨_, run⟩
  refine ⟨_, _, run, .head _, ?_⟩
  intro spares
  have pairs : (afterCalls [offerTo 1 7, offerTo 2 8]).adapterPair ⟨1, 7⟩ = some ("7", "7") := by
    decide +kernel
  have left : ((afterCalls [offerTo 1 7, offerTo 2 8]).perform (fun _ => abcDigest)
      (fun _ => "YWJj") cancelFirst).state.adapterToOwner.lookup ("7", "7") = some [⟨2, 8⟩] := by
    decide +kernel
  have sound := sound_of_run run (fun _ _ _ => False.elim) _ (.head _)
  have told := ((inboundCancel_cancelling sound 1 7 none .user).tells ("7", "7")).mpr
    ⟨⟨1, 7⟩, ⟨rfl, cancellable_none.mpr (pairs.trans_ne (Option.some_ne_none _))⟩, pairs⟩
  rcases spares.alone ("7", "7") told ⟨2, 8⟩ ⟨_, left, List.mem_singleton_self _⟩ with ⟨same, _⟩
  exact absurd same (by decide)

end TransferState

end Syntra.Clipboard
