import Syntra.Clipboard.Steps

/-!
# The representation of the transfers

In every state that the public operations lead to, the tables agree with each other. An adapter
that releases a remote transfer takes it out of the adapter index and leaves it alive; as long as
that does not happen, the adapter index is exact as well.
-/

namespace Syntra.Clipboard

open ByteFormat Proto Files StateMachine Tables TransferState

variable {P : Type} [DecidableEq P]

namespace TransferState

variable {whole : Prop} {state : TransferState P}

theorem ensureOwnerAvailable_eq_ok {owner : TransferOwner P}
    (available : state.ensureOwnerAvailable owner = .ok ()) :
    state.localTransfers.lookup owner = none ∧ state.remoteTransfers.lookup owner = none := by
  unfold ensureOwnerAvailable at available
  split at available
  · cases available
  · rename_i absent
    rw [not_or] at absent
    exact ⟨AList.lookup_eq_none.mpr absent.1, AList.lookup_eq_none.mpr absent.2⟩

/-- An offer that replaces others is refused, or ends them and finds no number, or is entered under
a free one. -/
theorem replaceOffers_cases (sound : state.Sound whole)
    (checks : Except (TransferStateError P) Unit) (superseded : List (TransferOwner P))
    (notifyPeer : Bool) (enter : TransferState P → UiTransferId → TransferState P)
    (announcement : TransferAction P) :
    (∃ error, checks = .error error ∧
      state.replaceOffers checks superseded notifyPeer enter announcement = ⟨state, .error error⟩) ∨
    checks = .ok () ∧ ∃ next, next ≠ 0 ∧
      let remaining := cancelOwners .user notifyPeer state superseded
      let numbered := { remaining.1 with nextUiId := next }
      ((∃ error, remaining.1.allocateUiId = (numbered, .error error) ∧
        state.replaceOffers checks superseded notifyPeer enter announcement =
          ⟨numbered, .error error⟩) ∨
      ∃ uiId, uiId ≠ 0 ∧ uiId ∉ numbered.uiToOwner ∧
        state.replaceOffers checks superseded notifyPeer enter announcement =
          ⟨enter numbered uiId, .ok (remaining.2 ++ [announcement])⟩) := by
  cases checks with
  | error error => exact .inl ⟨error, rfl, rfl⟩
  | ok =>
    have remaining := (cancelOwners_shrinks state .user notifyPeer superseded).sound sound
    rcases allocateUiId_state remaining.counting with ⟨next, positive, numbered⟩
    refine .inr ⟨rfl, next, positive, ?_⟩
    simp only [replaceOffers]
    rcases allocation : (cancelOwners .user notifyPeer state superseded).1.allocateUiId with
      ⟨_, error | uiId⟩
    · rw [allocation] at numbered
      cases numbered
      exact .inl ⟨error, rfl, rfl⟩
    · have free := allocateUiId_ok (congrArg Prod.snd allocation)
      rw [allocation] at numbered
      cases numbered
      exact .inr ⟨uiId, free.1, free.2, rfl⟩

variable {enter : TransferState P → UiTransferId → TransferState P}

theorem Sound.replaceOffers (sound : state.Sound whole)
    {checks : Except (TransferStateError P) Unit} (superseded : List (TransferOwner P))
    (notifyPeer : Bool) (announcement : TransferAction P)
    (entered : checks = .ok () → ∀ later uiId, later.Sound whole →
      uiId ≠ 0 ∧ uiId ∉ later.uiToOwner →
      (∀ owner, state.localTransfers.lookup owner = none →
        state.remoteTransfers.lookup owner = none →
        later.localTransfers.lookup owner = none ∧ later.remoteTransfers.lookup owner = none) →
      (enter later uiId).Sound whole) :
    (state.replaceOffers checks superseded notifyPeer enter announcement).state.Sound whole := by
  have shrinks := cancelOwners_shrinks state .user notifyPeer superseded
  rcases replaceOffers_cases sound checks superseded notifyPeer enter announcement with
    ⟨_, _, refused⟩ | ⟨passed, _, positive, ⟨_, _, full⟩ | ⟨uiId, nonzero, free, done⟩⟩
  · rw [refused]
    exact sound
  · rw [full]
    exact (shrinks.sound sound).renumber positive
  · rw [done]
    apply entered passed _ uiId ((shrinks.sound sound).renumber positive) ⟨nonzero, free⟩
    exact fun _ noLocal noRemote => shrinks.absent noLocal noRemote

theorem Sound.localCopyManifest (sound : state.Sound whole) (order : IterOrder (TransferOwner P))
    (peer : P) (wireId : UInt64) (adapterId : AdapterId) (manifest : CopyManifest)
    (offer : FileOffer) :
    (state.localCopyManifest order peer wireId adapterId manifest offer).state.Sound whole := by
  apply sound.replaceOffers
  intro passed _ _ kept free absent
  rw [bind_ok] at passed
  rcases passed with ⟨_, available, _⟩
  rcases ensureOwnerAvailable_eq_ok available with ⟨noLocal, noRemote⟩
  rcases absent ⟨peer, wireId⟩ noLocal noRemote with ⟨stillNoLocal, stillNoRemote⟩
  exact kept.addLocal stillNoLocal stillNoRemote free.2 free.1 rfl

theorem Sound.inboundManifest (sound : state.Sound whole) (order : IterOrder (TransferOwner P))
    (peer : P) (adapterId : AdapterId) (adapterTransferId : String) (wireId : UInt64)
    (operation : Operation) (entries : List ClipboardManifestEntry) :
    (state.inboundManifest order peer adapterId adapterTransferId wireId operation
      entries).state.Sound whole := by
  apply sound.replaceOffers
  intro passed _ _ kept free absent
  rw [guard_bind_ok, bind_ok] at passed
  rcases passed with ⟨_, _, ids, _⟩
  rw [ensureIdsAvailable, bind_ok] at ids
  rcases ids with ⟨_, available, _⟩
  rcases ensureOwnerAvailable_eq_ok available with ⟨noLocal, noRemote⟩
  rcases absent ⟨peer, wireId⟩ noLocal noRemote with ⟨stillNoLocal, stillNoRemote⟩
  exact kept.addRemote stillNoLocal stillNoRemote free.2 free.1

omit [DecidableEq P] in
theorem validateRange_eq_ok {size offset length : UInt64}
    (valid : validateRange (P := P) size offset length = .ok ()) :
    offset.toNat + length.toNat ≤ size.toNat := by
  simp only [validateRange, guard_bind_ok, bind_ok, okOr_eq_ok,
    guard_ok, not_or, checkedAdd_eq_some] at valid
  rcases valid with ⟨_, _, ⟨fits, rfl⟩, ⟨_, within⟩, _⟩
  rw [← toNat_add_of_le fits]
  exact UInt64.le_iff_toNat_le.mp (UInt64.not_lt.mp within)

theorem validator_new_eq_ok {transferId fileId requestId offset length : UInt64}
    {validator : ClipboardFileChunkValidator}
    (created : ClipboardFileChunkValidator.new transferId fileId requestId offset length =
      .ok validator) :
    validateRequest offset length = .ok () ∧ validator =
      { transferId, fileId, requestId, offset, length, chunkReceived := false, chunkEnd := none,
        eof := false, complete := false } := by
  simp only [ClipboardFileChunkValidator.new, guard_bind_ok, bind_ok, pure_ok] at created
  rcases created with ⟨_, _, valid, _, rfl⟩
  exact ⟨valid, rfl⟩

omit [DecidableEq P] in
@[simp]
theorem orProtocol_eq_ok {α : Type} {result : Except ProtocolError α} {value : α} :
    orProtocol (P := P) result = .ok value ↔ result = .ok value := by
  cases result <;> simp [orProtocol, Except.mapError]

variable (sound : state.Sound whole)
include sound

theorem Sound.adapterRangeRequest (order : IterOrder (TransferOwner P)) (adapterId : String)
    (request : RangeRequest) :
    (state.adapterRangeRequest order adapterId request).state.Sound whole := by
  apply attempt_preserves sound
  rintro ⟨_, _⟩ passed
  simp only [bind_ok, okOr_eq_ok, guard_bind_ok, orProtocol_eq_ok,
    pure_ok, Prod.mk.injEq, not_not] at passed
  rcases passed with ⟨_, _, transfer, found, _, entry, listed, isFile, _, range, _, _, created,
    rfl, rfl⟩
  rcases validator_new_eq_ok created with ⟨requested, rfl⟩
  apply (unmoved_announceRemote _).sound
  apply sound.insertPending
  refine ⟨rfl, rfl, rfl, ⟨transfer, entry, found, listed, isFile, validateRange_eq_ok range⟩, ?_⟩
  exact ⟨rfl, rfl, rfl, rfl, rfl, requested, rfl, rfl, rfl, by simp⟩

theorem Sound.sourceFileRequest (peer : P) (wireId fileId requestId offset length : UInt64) :
    (state.sourceFileRequest peer wireId fileId requestId offset length).state.Sound whole := by
  apply attempt_preserves sound
  intro _ passed
  rw [bind_ok] at passed
  rcases passed with ⟨_, found, _⟩
  apply (unmoved_announceLocal _).sound
  exact sound.insertSourcePending (fileId, requestId) (okOr_eq_ok.mp found) (offset, length)

variable (owner : TransferOwner P)

theorem Sound.insertOutgoingFile (fileId requestId expectedOffset expectedLength : UInt64)
    (file : OutgoingFile) :
    (state.insertOutgoingFile owner fileId requestId expectedOffset expectedLength
      file).state.Sound whole := by
  apply attempt_preserves sound
  intro _ passed
  simp only [bind_ok, okOr_eq_ok, guard_bind_ok] at passed
  rcases passed with ⟨_, _, _, _, _, reserved, _⟩
  exact sound.insertOutgoing reserved file

theorem Sound.sourceComplete (fileId requestId size : UInt64) (digest : Digest) :
    (state.sourceComplete owner fileId requestId size digest).state.Sound whole := by
  apply attempt_preserves sound
  intro _ _
  exact sound.sourceRangeServed owner fileId requestId

theorem Sound.inboundChunk (base64 : Bytes → String) (peer : P)
    (wireId fileId requestId offset : UInt64) (data : Bytes) :
    (state.inboundChunk base64 peer wireId fileId requestId offset data).state.Sound whole := by
  rcases inboundChunk_cases sound base64 peer wireId fileId requestId offset data with
    ⟨_, _, failed⟩ | ⟨_, _, _, _, _, found, valid, _, _, _, outcome⟩
  · rw [failed]
    exact sound
  · have taken := sound.insertPending ((sound.awaited _ _ found).feed valid)
    rw [outcome]
    split
    · exact taken
    · split
      · exact taken
      · exact taken.erasePending _

theorem Sound.inboundComplete (sha256 : Bytes → Digest) (base64 : Bytes → String) (peer : P)
    (wireId fileId requestId size : UInt64) (digest : Digest) :
    (state.inboundComplete sha256 base64 peer wireId fileId requestId size
      digest).state.Sound whole := by
  simp only [TransferState.inboundComplete]
  split
  · exact sound
  · split
    · exact sound.erasePending _
    · exact sound.erasePending _

theorem Sound.cancelOwner (fileId : Option UInt64) (reason : ClipboardCancelReason)
    (notifyPeer : Bool) :
    (state.cancelOwner owner fileId reason notifyPeer).state.Sound whole := by
  apply attempt_preserves sound
  intro _ _
  cases fileId with
  | none => exact sound.removeOwner owner
  | some fileId => exact sound.removeFile owner fileId

theorem Sound.cancelUi (uiId : UiTransferId) (fileId : Option UInt64)
    (reason : ClipboardCancelReason) : (state.cancelUi uiId fileId reason).state.Sound whole := by
  unfold TransferState.cancelUi
  split
  · exact sound
  · exact sound.cancelOwner _ fileId reason true

omit sound

theorem releaseOwners_registered (sound : state.Sound False) {owners : List (TransferOwner P)}
    (noneRemote : ∀ owner ∈ owners, state.remoteTransfers.lookup owner = none)
    (others : ∀ owner pair, state.adapterPair owner = some pair → owner ∉ owners →
      state.IsRegistered owner pair) (owner : TransferOwner P) (pair : AdapterId × String)
    (carried : (releaseOwners state owners).1.adapterPair owner = some pair) :
    (releaseOwners state owners).1.IsRegistered owner pair := by
  induction owners generalizing state with
  | nil => exact others owner pair carried (List.not_mem_nil)
  | cons first _ ih =>
    have notRemote := noneRemote first (.head _)
    simp only [releaseOwners, notRemote] at carried ⊢
    split at carried
    · rename_i notLocal
      apply ih sound _ _ carried
      · intro other member
        exact noneRemote other (.tail _ member)
      · intro other held carries outside
        apply others other held carries
        rw [List.mem_cons, not_or]
        refine ⟨?_, outside⟩
        rintro rfl
        rw [adapterPair_eq_none.mpr ⟨notLocal, notRemote⟩] at carries
        cases carries
    · apply ih (sound.removeOwner first) _ _ carried
      · intro other member
        rw [removeOwner_remote sound, noneRemote other (.tail _ member), ite_self]
      · intro other held carries outside
        rw [removeOwner_adapterPair sound] at carries
        split at carries
        · cases carries
        · rename_i different
          apply IsRegistered.removeOwner _ different
          apply others other held carries
          rw [List.mem_cons, not_or]
          exact ⟨different, outside⟩

end TransferState

/-- An adapter releases a transfer that a peer offers. -/
def Call.ReleasesRemote (state : TransferState P) : Call P → Prop
  | .adapterReleased _ adapterId transferId =>
    ∃ owners, state.adapterToOwner.lookup (adapterId, transferId) = some owners ∧
      ∃ owner ∈ owners, owner ∈ state.remoteTransfers
  | _ => False

namespace TransferState

variable {whole : Prop} {state : TransferState P}

variable (sound : state.Sound whole)
include sound

theorem Sound.eraseAdapter (pair : AdapterId × String) :
    { state with adapterToOwner := state.adapterToOwner.erase pair }.Sound False := by
  refine ⟨sound.disjoint, sound.inverse, sound.counting, sound.nonzero, ?_, False.elim, ?_,
    sound.reserved, sound.streaming⟩
  · intro other owners found
    rw [lookup_erase] at found
    split at found
    · cases found
    · exact sound.registered other owners found
  · intro key range found
    have awaited := sound.awaited key range found
    exact ⟨awaited.owner, awaited.fileId, awaited.requestId, awaited.covered, awaited.consistent⟩

theorem Sound.adapterReleased (order : IterOrder (TransferOwner P)) (adapterId transferId : String)
    (onlyLocal : whole → ¬Call.ReleasesRemote state (.adapterReleased order adapterId transferId)) :
    (state.adapterReleased order adapterId transferId).state.Sound whole := by
  apply attempt_preserves sound
  intro owners found
  rw [okOr_eq_ok] at found
  have erased := sound.eraseAdapter (adapterId, transferId)
  have released := (releaseOwners_shrinks (order.arrange owners)).sound erased
  refine ⟨released.disjoint, released.inverse, released.counting, released.nonzero,
    released.registered, ?_, released.awaited, released.reserved, released.streaming⟩
  intro all
  apply releaseOwners_registered erased
  · intro owner member
    by_contra isRemote
    apply onlyLocal all
    refine ⟨owners, found, owner, order.mem_arrange.mp member, ?_⟩
    exact AList.lookup_isSome.mp (Option.isSome_iff_ne_none.mpr isRemote)
  · intro owner pair carried outside
    rcases sound.listed all owner pair carried with ⟨members, there, member⟩
    refine ⟨members, ?_, member⟩
    rw [lookup_erase, if_neg]
    · exact there
    · rintro rfl
      rw [found] at there
      cases there
      exact outside (order.mem_arrange.mpr member)

variable (sha256 : Bytes → Digest) (base64 : Bytes → String)

theorem Sound.perform {call : Call P} (onlyLocal : whole → ¬call.ReleasesRemote state) :
    (state.perform sha256 base64 call).state.Sound whole := by
  cases call with
  | setFileClipboardAdapter adapterId =>
    exact (unmoved_setFileClipboardAdapter adapterId).sound sound
  | localCopyManifest order peer wireId adapterId manifest offer =>
    exact sound.localCopyManifest order peer wireId adapterId manifest offer
  | inboundManifest order peer adapterId adapterTransferId wireId operation entries =>
    exact sound.inboundManifest order peer adapterId adapterTransferId wireId operation entries
  | adapterRangeRequest order adapterId request =>
    exact sound.adapterRangeRequest order adapterId request
  | adapterMountReady =>
    exact attempt_preserves sound fun _ _ => sound
  | adapterProgress =>
    exact attempt_preserves sound fun completed _ =>
      (unmoved_noteProgress_all completed _).sound sound
  | adapterCompleted order adapterId completion =>
    exact (endTransfer_shrinks order adapterId completion.transferId _).sound sound
  | adapterCancelled order adapterId transferId =>
    exact (endTransfer_shrinks order adapterId transferId _).sound sound
  | adapterReleased order adapterId transferId =>
    exact sound.adapterReleased order adapterId transferId onlyLocal
  | adapterUnmounted order adapterId unmounted =>
    exact (endTransfer_shrinks order adapterId unmounted.transferId _).sound sound
  | sourceFileRequest peer wireId fileId requestId offset length =>
    exact sound.sourceFileRequest peer wireId fileId requestId offset length
  | insertOutgoingFile owner fileId requestId expectedOffset expectedLength file =>
    exact sound.insertOutgoingFile owner fileId requestId expectedOffset expectedLength file
  | sourceChunk => exact attempt_preserves sound fun _ _ => sound
  | sourceRangeServed owner fileId requestId =>
    exact sound.sourceRangeServed owner fileId requestId
  | sourceComplete owner fileId requestId size digest =>
    exact sound.sourceComplete owner fileId requestId size digest
  | inboundChunk peer wireId fileId requestId offset data =>
    exact sound.inboundChunk base64 peer wireId fileId requestId offset data
  | inboundProgress =>
    exact attempt_preserves sound fun _ _ => sound
  | inboundComplete peer wireId fileId requestId size digest =>
    exact sound.inboundComplete sha256 base64 peer wireId fileId requestId size digest
  | inboundCancel peer wireId fileId reason =>
    exact sound.cancelOwner ⟨peer, wireId⟩ fileId reason false
  | cancelUi uiId fileId reason => exact sound.cancelUi uiId fileId reason
  | peerLost => exact (cancelOwners_shrinks state .ioError false _).sound sound
  | adapterLost => exact (cancelOwners_shrinks state .ioError true _).sound sound
  | handleProtocol peer event =>
    change (state.handleProtocol sha256 base64 peer event).state.Sound whole
    unfold handleProtocol
    split
    · exact sound.inboundChunk base64 peer _ _ _ _ _
    · exact sound.inboundComplete sha256 base64 peer _ _ _ _ _
    · exact sound.sourceFileRequest peer _ _ _ _ _
    · exact sound.cancelOwner _ _ _ false
    · exact attempt_preserves sound fun _ _ => sound
    · exact sound
    · exact sound

/-- The state under calls of its public operations; `permits` says which calls are made. -/
def machine (sha256 : Bytes → Digest) (base64 : Bytes → String)
    (permits : TransferState P → Call P → Prop) : Machine (TransferState P) (Call P) where
  initial := new
  enabled := permits
  next := fun state call => (state.perform sha256 base64 call).state

/-- The six tables describe one set of transfers. -/
structure Represented (state : TransferState P) : Prop where
  disjoint : ∀ owner ∈ state.localTransfers, owner ∉ state.remoteTransfers
  uiIds : ∀ uiId owner, state.uiToOwner.lookup uiId = some owner ↔
    state.transferUiId owner = some uiId
  adapters : ∀ owner pair, state.IsRegistered owner pair ↔ state.adapterPair owner = some pair
  nonempty : ∀ pair owners, state.adapterToOwner.lookup pair = some owners → owners ≠ []
  pending : ∀ key range, state.pending.lookup key = some range →
    (range.key.owner, range.key.fileId, range.key.requestId) = key ∧
    ∃ transfer entry, state.remoteTransfers.lookup key.1 = some transfer ∧
      transfer.entries.lookup key.2.1 = some entry ∧ entry.kind = .file ∧
      range.key.offset.toNat + range.key.length.toNat ≤ entry.size.toNat
  sourcePending : ∀ key ∈ state.sourcePending, key.1 ∈ state.localTransfers
  outgoing : ∀ owner transfer, state.localTransfers.lookup owner = some transfer →
    ∀ request ∈ transfer.outgoing, (owner, request) ∈ state.sourcePending

omit sound in
theorem Sound.represented (sound : state.Sound True) : state.Represented where
  disjoint := by
    intro owner isLocal
    rcases (mem_iff_lookup _ _).mp isLocal with ⟨transfer, found⟩
    exact AList.lookup_eq_none.mp (sound.disjoint owner transfer found)
  uiIds := sound.inverse
  adapters := by
    intro owner pair
    constructor
    · rintro ⟨owners, found, member⟩
      exact (sound.registered pair owners found).2.2 owner member
    · exact sound.listed trivial owner pair
  nonempty := fun pair owners found => (sound.registered pair owners found).1
  pending := by
    intro key range found
    have awaited := sound.awaited key range found
    rw [awaited.owner, awaited.fileId, awaited.requestId]
    exact ⟨rfl, awaited.covered⟩
  sourcePending := by
    intro key reserved
    rcases (mem_iff_lookup _ _).mp reserved with ⟨reservation, found⟩
    exact (mem_iff_lookup _ _).mpr (sound.reserved key reservation found)
  outgoing := by
    intro owner transfer found request streamed
    rcases (mem_iff_lookup _ _).mp streamed with ⟨file, there⟩
    exact (mem_iff_lookup _ _).mpr (sound.streaming owner transfer request file found there)

omit sound in
theorem Shrinks.unregistered {later : TransferState P} (shrinks : state.Shrinks later)
    {pair : AdapterId × String} (absent : state.adapterToOwner.lookup pair = none) :
    later.adapterToOwner.lookup pair = none := by
  apply shrinks.preserves _ absent
  intro _ _ before
  rw [removeOwner_adapterToOwner, before]
  rfl

theorem releaseOwners_remote {owner : TransferOwner P} {transfer : RemoteTransfer}
    (found : state.remoteTransfers.lookup owner = some transfer) (owners : List (TransferOwner P)) :
    (releaseOwners state owners).1.adapterPair owner =
      some (transfer.adapterId, transfer.adapterTransferId) := by
  induction owners generalizing state with
  | nil =>
    have notLocal : state.localTransfers.lookup owner = none := by
      by_contra isLocal
      rcases Option.ne_none_iff_exists'.mp isLocal with ⟨other, there⟩
      rw [sound.disjoint owner other there] at found
      cases found
    simp [releaseOwners, adapterPair, notLocal, found]
  | cons first _ ih =>
    rw [releaseOwners]
    split
    · exact ih sound found
    · rename_i notRemote
      split
      · exact ih sound found
      · apply ih (sound.removeOwner first)
        rw [removeOwner_remote sound, if_neg]
        · exact found
        · rintro rfl
          rw [notRemote] at found
          cases found

/-- A remote transfer that its adapter releases is alive and no longer found under the adapter. -/
theorem released_not_represented {call : Call P} (releases : call.ReleasesRemote state) :
    ¬(state.perform sha256 base64 call).state.Represented := by
  intro represented
  cases call with
  | adapterReleased order adapterId transferId =>
    rcases releases with ⟨owners, found, owner, member, isRemote⟩
    rcases (mem_iff_lookup _ _).mp isRemote with ⟨transfer, there⟩
    have carried : state.adapterPair owner = some (adapterId, transferId) :=
      (sound.registered _ owners found).2.2 owner member
    simp only [perform, adapterReleased, found, okOr, attempt] at represented
    generalize erased : { state with
      adapterToOwner := state.adapterToOwner.erase (adapterId, transferId) } = cleared
      at represented
    have weakly : cleared.Sound False := by
      rw [← erased]
      exact sound.eraseAdapter (adapterId, transferId)
    have remote : cleared.remoteTransfers.lookup owner = some transfer := by
      rw [← erased]
      exact there
    have pair : some (transfer.adapterId, transfer.adapterTransferId) =
        some (adapterId, transferId) := by
      have before := releaseOwners_remote sound there []
      rw [releaseOwners, carried] at before
      exact before.symm
    have gone : (releaseOwners cleared (order.arrange owners)).1.adapterToOwner.lookup
        (adapterId, transferId) = none := by
      apply (releaseOwners_shrinks _).unregistered
      rw [← erased]
      exact AList.lookup_erase _ _
    have alive := (releaseOwners_remote weakly remote (order.arrange owners)).trans pair
    rcases (represented.adapters owner _).mpr alive with ⟨_, listed, _⟩
    rw [gone] at listed
    cases listed
  | _ => exact releases

omit sound

theorem sound_of_run {sha256 : Bytes → Digest} {base64 : Bytes → String}
    {history : List (TransferState P)} {permits : TransferState P → Call P → Prop}
    (run : Run (machine sha256 base64 permits) history)
    (onlyLocal : ∀ state call, permits state call → whole → ¬call.ReleasesRemote state) :
    ∀ state ∈ history, state.Sound whole :=
  run.invariant ⟨new_sound, fun _ call before permitted =>
    before.perform sha256 base64 (onlyLocal _ call permitted)⟩

/-- Whatever is called, no transfer is both local and remote, the numbers lead to the transfers and
back, and what is asked for or reserved is of a transfer that is there. -/
theorem tables_agree (sha256 : Bytes → Digest) (base64 : Bytes → String) (calls : List (Call P)) :
    ((machine sha256 base64 fun _ _ => True).after new calls).Sound False :=
  Machine.after_keeps
    (fun _ _ before => before.perform sha256 base64 fun impossible => nomatch impossible)
    new_sound calls

/-- As long as no adapter releases a remote transfer, the tables describe one set of transfers in
every state; the first such release ends that. -/
theorem represented_of_run {sha256 : Bytes → Digest} {base64 : Bytes → String}
    {history : List (TransferState P)}
    (run : Run (machine sha256 base64 fun state call => ¬call.ReleasesRemote state) history) :
    ∀ state ∈ history, state.Represented ∧ ∀ call : Call P, call.ReleasesRemote state →
      ¬(state.perform sha256 base64 call).state.Represented := by
  intro state member
  have sound : state.Sound True := sound_of_run run (fun _ _ permitted _ => permitted) state member
  exact ⟨sound.represented, fun _ => released_not_represented sound sha256 base64⟩

def abcDigest : Digest := Proto.abcDigest

def offerAbc : Call ℕ :=
  .inboundManifest (.asStored _) 1 "7" "7" 7 .copy [⟨1, "abc.txt", .file, 3⟩]

def requestAbc : Call ℕ :=
  .adapterRangeRequest (.asStored _) "7" ⟨"7", 1, 1, 0, 3⟩

def afterCalls (calls : List (Call ℕ)) : TransferState ℕ :=
  (machine (fun _ => abcDigest) (fun _ => "YWJj") fun _ _ => True).after new calls

theorem represented_of_run_abc :
    (afterCalls [offerAbc, requestAbc]).Represented ∧
      (⟨1, 7⟩, 1, 1) ∈ (afterCalls [offerAbc, requestAbc]).pending := by
  have follows : (machine (fun _ => abcDigest) (fun _ => "YWJj")
      fun (state : TransferState ℕ) call => ¬call.ReleasesRemote state).Follows new
        [offerAbc, requestAbc] := ⟨id, id, trivial⟩
  rcases Run.of_follows follows with ⟨_, run⟩
  refine ⟨(represented_of_run run _ (.head _)).1, ?_⟩
  decide +kernel

/-- The adapter that serves the offer of peer 1 releases it. -/
theorem released_abc_not_represented :
    ∃ history state, Run (machine (fun _ => abcDigest) (fun _ => "YWJj")
      fun (_ : TransferState ℕ) _ => True) history ∧ state ∈ history ∧ ¬state.Represented := by
  have follows : (machine (fun _ => abcDigest) (fun _ => "YWJj")
      fun (_ : TransferState ℕ) _ => True).Follows new
        [offerAbc, .adapterReleased (.asStored _) "7" "7"] := ⟨trivial, trivial, trivial⟩
  rcases Run.of_follows follows with ⟨_, run⟩
  refine ⟨_, _, run, .head _, ?_⟩
  intro represented
  have alive : (afterCalls [offerAbc, .adapterReleased (.asStored _) "7" "7"]).adapterPair ⟨1, 7⟩ =
      some ("7", "7") := by decide +kernel
  have gone : (afterCalls [offerAbc,
      .adapterReleased (.asStored _) "7" "7"]).adapterToOwner.lookup ("7", "7") = none := by
    decide +kernel
  rcases (represented.adapters _ _).mpr alive with ⟨_, listed, _⟩
  exact absurd (gone.symm.trans listed) (by simp)

end TransferState

end Syntra.Clipboard
