import Syntra.Service.PeerLoss

/-!
# The loss of an adapter

Only an offer puts a transfer under an adapter. The loss of the adapter ends every transfer that the
adapter index has under it, and a transfer that the index has lost is left.
-/

namespace Syntra

open ByteFormat Proto Files Clipboard StateMachine Tables TransferState List
open TransferState (cancelOwner perform)

namespace Clipboard.TransferState

variable {P : Type} [DecidableEq P] {whole : Prop} {state later : TransferState P}
  {adapterId : AdapterId}

/-- Nothing belongs to the adapter. -/
structure FreeOfAdapter (state : TransferState P) (adapterId : AdapterId) : Prop where
  localTransfers : ∀ owner transfer, state.localTransfers.lookup owner = some transfer →
    transfer.adapterId ≠ adapterId
  remoteTransfers : ∀ owner transfer, state.remoteTransfers.lookup owner = some transfer →
    transfer.adapterId ≠ adapterId
  index : ∀ pair ∈ state.adapterToOwner, pair.1 ≠ adapterId

theorem freeOfAdapter_iff (sound : state.Sound whole) :
    state.FreeOfAdapter adapterId ↔
      ∀ owner pair, state.adapterPair owner = some pair → pair.1 ≠ adapterId := by
  constructor
  · intro free owner pair carried
    rw [adapterPair, Option.or_eq_some_iff] at carried
    simp only [Option.map_eq_some_iff] at carried
    rcases carried with ⟨transfer, found, rfl⟩ | ⟨_, transfer, found, rfl⟩
    · exact free.localTransfers owner transfer found
    · exact free.remoteTransfers owner transfer found
  · intro free
    refine ⟨?_, ?_, ?_⟩
    · intro owner transfer found
      exact free owner (transfer.adapterId, transfer.adapterTransferId)
        (by simp [adapterPair, found])
    · intro owner transfer found
      have notLocal : state.localTransfers.lookup owner = none := by
        by_contra isLocal
        rcases Option.ne_none_iff_exists'.mp isLocal with ⟨other, there⟩
        rw [sound.disjoint owner other there] at found
        cases found
      exact free owner (transfer.adapterId, transfer.adapterTransferId)
        (by simp [adapterPair, notLocal, found])
    · intro pair indexed
      rcases (mem_iff_lookup _ _).mp indexed with ⟨owners, found⟩
      rcases sound.registered pair owners found with ⟨nonempty, _, carried⟩
      rcases exists_mem_of_ne_nil owners nonempty with ⟨owner, member⟩
      exact free owner pair (carried owner member)

def Indexed (state : TransferState P) (adapterId : AdapterId) : Prop :=
  ∀ owner ∈ state.localTransfers.keys ++ state.remoteTransfers.keys,
    ∀ pair ∈ state.adapterPair owner, pair.1 = adapterId →
      owner ∈ (state.adapterToOwner.lookup pair).getD []

instance : Decidable (state.Indexed adapterId) :=
  inferInstanceAs (Decidable (∀ owner ∈ state.localTransfers.keys ++ state.remoteTransfers.keys,
    ∀ pair ∈ state.adapterPair owner, pair.1 = adapterId →
      owner ∈ (state.adapterToOwner.lookup pair).getD []))

theorem indexed_iff :
    state.Indexed adapterId ↔ ∀ owner pair, state.adapterPair owner = some pair →
      pair.1 = adapterId → state.IsRegistered owner pair := by
  have registered : ∀ owner pair, owner ∈ (state.adapterToOwner.lookup pair).getD [] ↔
      state.IsRegistered owner pair := by
    intro owner pair
    unfold IsRegistered
    cases state.adapterToOwner.lookup pair with
    | none | some => simp
  constructor
  · intro indexed owner pair carried under
    have live : owner ∈ state.localTransfers.keys ++ state.remoteTransfers.keys := by
      by_contra absent
      rw [mem_append, not_or] at absent
      have none : state.adapterPair owner = none :=
        adapterPair_eq_none.mpr
          ⟨AList.lookup_eq_none.mpr absent.1, AList.lookup_eq_none.mpr absent.2⟩
      rw [none] at carried
      cases carried
    exact (registered owner pair).mp (indexed owner live pair carried under)
  · intro indexed owner _ pair carried under
    exact (registered owner pair).mpr (indexed owner pair carried under)

def AddsUnder (under : Option AdapterId) (state later : TransferState P) : Prop :=
  ∀ owner pair, later.adapterPair owner = some pair →
    state.adapterPair owner = some pair ∨ under = some pair.1

variable {under : Option AdapterId}

theorem AddsUnder.refl (state : TransferState P) : AddsUnder under state state :=
  fun _ _ carried => .inl carried

theorem AddsUnder.trans {last : TransferState P} (first : AddsUnder under state later)
    (second : AddsUnder under later last) : AddsUnder under state last := by
  intro owner pair carried
  rcases second owner pair carried with before | new
  · exact first owner pair before
  · exact .inr new

theorem AddsUnder.of_none (adds : AddsUnder none state later) : AddsUnder under state later := by
  intro owner pair carried
  rcases adds owner pair carried with before | new
  · exact .inl before
  · cases new

theorem Alike.addsUnder (alike : state.Alike later) : AddsUnder under state later := by
  intro _ _ carried
  rw [alike.adapterPair] at carried
  exact .inl carried

theorem addsUnder_removeOwner (sound : state.Sound whole) (owner : TransferOwner P) :
    AddsUnder under state (state.removeOwner owner) := by
  intro _ _ carried
  rw [removeOwner_adapterPair sound] at carried
  split at carried
  · cases carried
  · exact .inl carried

theorem Shrinks.addsUnder (shrinks : state.Shrinks later) (sound : state.Sound whole) :
    AddsUnder under state later := by
  have keeps : ∀ (earlier : TransferState P) (owner : TransferOwner P),
      earlier.Sound whole ∧ AddsUnder under state earlier →
      (earlier.removeOwner owner).Sound whole ∧ AddsUnder under state
        (earlier.removeOwner owner) := by
    rintro _ owner ⟨before, adds⟩
    exact ⟨before.removeOwner owner, adds.trans (addsUnder_removeOwner before owner)⟩
  exact (shrinks.preserves keeps ⟨sound, .refl state⟩).2

theorem AddsUnder.free (adds : AddsUnder under state later)
    (free : ∀ owner pair, state.adapterPair owner = some pair → pair.1 ≠ adapterId)
    (elsewhere : under ≠ some adapterId) (owner : TransferOwner P) (pair : AdapterId × String)
    (carried : later.adapterPair owner = some pair) : pair.1 ≠ adapterId := by
  rcases adds owner pair carried with before | rfl
  · exact free owner pair before
  · rintro rfl
    exact elsewhere rfl

theorem addsUnder_cancelOwners (sound : state.Sound whole) (superseded : List (TransferOwner P))
    (notifyPeer : Bool) (next : UiTransferId) : AddsUnder none state
      { (cancelOwners .user notifyPeer state superseded).1 with nextUiId := next } :=
  (cancelOwners_shrinks state .user notifyPeer superseded).addsUnder sound

theorem Extends.addsUnder {owner : TransferOwner P} {uiId : UiTransferId}
    {pair : AdapterId × String} (extension : state.Extends later owner uiId pair) :
    AddsUnder (some pair.1) state later := by
  intro _ _ carried
  rw [extension.adapterPair] at carried
  split at carried
  · cases carried
    exact .inr rfl
  · exact .inl carried

theorem addsUnder_localCopyManifest (sound : state.Sound whole)
    (order : IterOrder (TransferOwner P))
    (peer : P) (wireId : UInt64) (adapterId : AdapterId) (manifest : CopyManifest)
    (offer : FileOffer) :
    AddsUnder (some adapterId) state
      (state.localCopyManifest order peer wireId adapterId manifest offer).state := by
  rcases replaceOffers_cases sound _ _ _ _ _ with
    ⟨error, _, refused⟩ | ⟨_, next, _, ⟨_, _, full⟩ | ⟨_, _, _, entered⟩⟩
  · rw [localCopyManifest, refused]
    exact .refl state
  · rw [localCopyManifest, full]
    exact (addsUnder_cancelOwners sound _ _ next).of_none
  · rw [localCopyManifest, entered]
    exact (addsUnder_cancelOwners sound _ _ next).of_none.trans extends_addLocal.addsUnder

theorem inboundManifest_cases (sound : state.Sound whole) (order : IterOrder (TransferOwner P))
    (peer : P) (adapterId : AdapterId) (adapterTransferId : String) (wireId : UInt64)
    (entries : List ClipboardManifestEntry) :
    let outcome := state.inboundManifest order peer adapterId adapterTransferId wireId .copy entries
    (∃ error, outcome = ⟨state, .error error⟩) ∨
      state.ensureIdsAvailable ⟨peer, wireId⟩ adapterId adapterTransferId = .ok () ∧
        (validateWireManifest entries : Except (TransferStateError P) Unit) = .ok () ∧
        ((∃ numbered error, AddsUnder none state numbered ∧ outcome = ⟨numbered, .error error⟩) ∨
          ∃ numbered uiId stale, AddsUnder none state numbered ∧
            numbered.Extends outcome.state ⟨peer, wireId⟩ uiId (adapterId, adapterTransferId) ∧
            (∀ action ∈ stale, action.IsNotice) ∧
            outcome.result = .ok (stale ++ [.adapter adapterId
              (.remoteManifest adapterTransferId .copy (entries.map remoteEntry))])) := by
  intro outcome
  rcases replaceOffers_cases sound (do
      if Operation.copy = .move then
        throw noMoves
      state.ensureIdsAvailable ⟨peer, wireId⟩ adapterId adapterTransferId
      validateWireManifest entries) (order.arrange (state.supersededRemote peer)) false
      (fun state uiId => state.addRemote ⟨peer, wireId⟩
        { uiId, adapterId, adapterTransferId, operation := .copy, entries := entriesById entries,
          announced := false, transferredByFile := ∅ })
      (.adapter adapterId (.remoteManifest adapterTransferId .copy (entries.map remoteEntry))) with
    ⟨error, _, refused⟩ | ⟨passed, next, _, after⟩
  · exact .inl ⟨error, refused⟩
  · rw [guard_bind_ok, bind_ok] at passed
    rcases passed with ⟨_, _, available, valid⟩
    refine .inr ⟨available, valid, ?_⟩
    have adds := addsUnder_cancelOwners sound (order.arrange (state.supersededRemote peer)) false
      next
    rcases after with ⟨error, _, full⟩ | ⟨uiId, _, _, entered⟩
    · exact .inl ⟨_, error, adds, full⟩
    · have owned := available
      rw [ensureIdsAvailable, bind_ok] at owned
      rcases owned with ⟨_, unowned, _⟩
      rcases ensureOwnerAvailable_eq_ok unowned with ⟨noLocal, noRemote⟩
      have here : outcome = _ := entered
      have shrinks := cancelOwners_shrinks state .user false
        (order.arrange (state.supersededRemote peer))
      have notices : ∀ action ∈ (cancelOwners .user false state
          (order.arrange (state.supersededRemote peer))).2, action.IsNotice :=
        cancelOwners_notices .user false _
      refine .inr ⟨_, uiId, _, adds, ?_, notices, ?_⟩
      · rw [here]
        exact extends_addRemote (shrinks.absent noLocal noRemote).1
      · rw [here]

theorem addsUnder_inboundManifest (sound : state.Sound whole) (order : IterOrder (TransferOwner P))
    (peer : P) (adapterId : AdapterId) (adapterTransferId : String) (wireId : UInt64)
    (operation : Operation) (entries : List ClipboardManifestEntry) :
    AddsUnder (some adapterId) state (state.inboundManifest order peer adapterId adapterTransferId
      wireId operation entries).state := by
  cases operation with
  | move => exact .refl state
  | copy =>
    rcases inboundManifest_cases sound order peer adapterId adapterTransferId wireId entries with
      ⟨error, refused⟩ | ⟨_, _, ⟨numbered, error, adds, full⟩ |
        ⟨numbered, uiId, stale, adds, extension, _, _⟩⟩
    · rw [refused]
      exact .refl state
    · rw [full]
      exact adds.of_none
    · exact adds.of_none.trans extension.addsUnder

end Clipboard.TransferState

def Clipboard.Call.offersUnder {P : Type} : Call P → Option AdapterId
  | .localCopyManifest _ _ _ adapterId _ _ | .inboundManifest _ _ adapterId _ _ _ _ =>
    some adapterId
  | _ => none

namespace Clipboard.TransferState

variable {P : Type} [DecidableEq P] {whole : Prop} {state later : TransferState P}
  {adapterId : AdapterId} {under : Option AdapterId}

theorem addsUnder_cancelOwner (sound : state.Sound whole) (owner : TransferOwner P)
    (fileId : Option UInt64) (reason : ClipboardCancelReason) (notifyPeer : Bool) :
    AddsUnder under state (state.cancelOwner owner fileId reason notifyPeer).state := by
  cases fileId with
  | none => exact (cancelOwner_shrinks owner reason notifyPeer).addsUnder sound
  | some fileId =>
    apply attempt_preserves (.refl state)
    intro _ _
    have alike : state.Alike (state.removeFile owner fileId) :=
      ⟨fun _ => map_lookup_modify _ _ _ fun _ => rfl, fun _ => rfl, rfl, rfl, rfl⟩
    exact alike.addsUnder

theorem addsUnder_inboundChunk (base64 : Bytes → String) (peer : P)
    (wireId fileId requestId offset : UInt64) (data : Bytes) :
    AddsUnder under state
      (state.inboundChunk base64 peer wireId fileId requestId offset data).state := by
  simp only [inboundChunk]
  repeat' split
  all_goals exact .refl state

theorem addsUnder_inboundComplete (sha256 : Bytes → Digest) (base64 : Bytes → String) (peer : P)
    (wireId fileId requestId size : UInt64) (digest : Digest) :
    AddsUnder under state
      (state.inboundComplete sha256 base64 peer wireId fileId requestId size digest).state := by
  simp only [inboundComplete]
  split
  · exact .refl state
  · split
    · exact .refl state
    · exact .refl state

theorem addsUnder_sourceFileRequest (peer : P) (wireId fileId requestId offset length : UInt64) :
    AddsUnder under state
      (state.sourceFileRequest peer wireId fileId requestId offset length).state := by
  apply attempt_preserves (.refl state)
  intro _ _
  exact (unmoved_announceLocal _).toAlike.addsUnder

variable (sound : state.Sound whole)
include sound

theorem addsUnder_perform (sha256 : Bytes → Digest) (base64 : Bytes → String) (call : Call P) :
    AddsUnder call.offersUnder state (state.perform sha256 base64 call).state := by
  have served : ∀ owner fileId requestId, AddsUnder none state
      (state.sourceRangeServed owner fileId requestId) := by
    intro owner fileId requestId
    have alike : state.Alike (state.sourceRangeServed owner fileId requestId) :=
      ⟨fun _ => map_lookup_modify _ _ _ fun _ => rfl, fun _ => rfl, rfl, rfl, rfl⟩
    exact alike.addsUnder
  cases call with
  | setFileClipboardAdapter => exact .refl state
  | localCopyManifest order peer wireId adapterId manifest offer =>
    exact addsUnder_localCopyManifest sound order peer wireId adapterId manifest offer
  | inboundManifest order peer adapterId adapterTransferId wireId operation entries =>
    exact addsUnder_inboundManifest sound order peer adapterId adapterTransferId wireId operation
      entries
  | adapterRangeRequest =>
    apply attempt_preserves (.refl state)
    intro _ _
    exact (unmoved_announceRemote _).toAlike.addsUnder
  | adapterMountReady =>
    exact attempt_preserves (.refl state) fun _ _ => .refl state
  | adapterProgress =>
    exact attempt_preserves (.refl state) fun completed _ =>
      (unmoved_noteProgress_all completed _).toAlike.addsUnder
  | adapterCompleted order adapterId completion =>
    exact (endTransfer_shrinks order adapterId completion.transferId _).addsUnder sound
  | adapterCancelled order adapterId transferId =>
    exact (endTransfer_shrinks order adapterId transferId _).addsUnder sound
  | adapterReleased _ adapterId transferId =>
    apply attempt_preserves (.refl state)
    intro _ _
    -- the transfers are looked up apart from the index, so its entry may go first
    exact (releaseOwners_shrinks _).addsUnder (sound.eraseAdapter (adapterId, transferId))
  | adapterUnmounted order adapterId unmounted =>
    exact (endTransfer_shrinks order adapterId unmounted.transferId _).addsUnder sound
  | sourceFileRequest peer wireId fileId requestId offset length =>
    exact addsUnder_sourceFileRequest peer wireId fileId requestId offset length
  | insertOutgoingFile owner fileId requestId _ _ file =>
    apply attempt_preserves (.refl state)
    intro _ _
    have alike : state.Alike
        { state with
          localTransfers := modify state.localTransfers owner fun transfer =>
            { transfer with outgoing := transfer.outgoing.insert (fileId, requestId) file } } :=
      ⟨fun _ => map_lookup_modify _ _ _ fun _ => rfl, fun _ => rfl, rfl, rfl, rfl⟩
    exact alike.addsUnder
  | sourceChunk =>
    exact attempt_preserves (.refl state) fun _ _ => .refl state
  | sourceRangeServed owner fileId requestId => exact served owner fileId requestId
  | sourceComplete owner fileId requestId =>
    exact attempt_preserves (.refl state) fun _ _ => served owner fileId requestId
  | inboundChunk peer wireId fileId requestId offset data =>
    exact addsUnder_inboundChunk base64 peer wireId fileId requestId offset data
  | inboundProgress =>
    exact attempt_preserves (.refl state) fun _ _ => .refl state
  | inboundComplete peer wireId fileId requestId size digest =>
    exact addsUnder_inboundComplete sha256 base64 peer wireId fileId requestId size digest
  | inboundCancel peer wireId fileId reason =>
    exact addsUnder_cancelOwner sound ⟨peer, wireId⟩ fileId reason false
  | cancelUi _ fileId reason =>
    simp only [perform, cancelUi]
    split
    · exact .refl state
    · exact addsUnder_cancelOwner sound _ fileId reason true
  | peerLost => exact (cancelOwners_shrinks state .ioError false _).addsUnder sound
  | adapterLost =>
    exact (cancelOwners_shrinks state .ioError true _).addsUnder sound
  | handleProtocol peer event =>
    change AddsUnder none state (state.handleProtocol sha256 base64 peer event).state
    unfold handleProtocol
    split
    · exact addsUnder_inboundChunk base64 peer _ _ _ _ _
    · exact addsUnder_inboundComplete sha256 base64 peer _ _ _ _ _
    · exact addsUnder_sourceFileRequest peer _ _ _ _ _
    · exact addsUnder_cancelOwner sound _ _ _ false
    · exact attempt_preserves (.refl state) fun _ _ => .refl state
    · exact .refl state
    · exact .refl state

variable {owner : TransferOwner P}

theorem adapterLost_gone (order : IterOrder (TransferOwner P)) {pair : AdapterId × String}
    (registered : state.IsRegistered owner pair) :
    (state.adapterLost order pair.1).1.adapterPair owner = none := by
  rcases registered with ⟨owners, found, member⟩
  have lost : owner ∈ order.arrange (state.ownersOfAdapter pair.1) := by
    rw [order.mem_arrange, ownersOfAdapter, mem_dedup, mem_flatMap]
    refine ⟨⟨pair, owners⟩, ?_, member⟩
    rw [mem_filter]
    exact ⟨AList.mem_lookup_iff.mp found, by simp⟩
  exact adapterPair_eq_none.mpr (cancelOwners_gone sound .ioError true lost)

theorem cancelOwners_spares (reason : ClipboardCancelReason) (notifyPeer : Bool)
    {owners : List (TransferOwner P)} (unlisted : owner ∉ owners) :
    (cancelOwners reason notifyPeer state owners).1.adapterPair owner = state.adapterPair
      owner := by
  induction owners generalizing state with
  | nil => rfl
  | cons first _ ih =>
    rw [mem_cons, not_or] at unlisted
    have kept := sound.cancelOwner first none reason notifyPeer
    have spared : (state.cancelOwner first none reason notifyPeer).state.adapterPair owner =
        state.adapterPair owner := by
      rcases attempt_cases state _ _ with ⟨_, failed⟩ | ⟨_, _, done⟩
      · rw [cancelOwner, failed]
      · rw [cancelOwner, done]
        exact (removeOwner_adapterPair sound first owner).trans (if_neg unlisted.1)
    exact (ih kept unlisted.2).trans spared

theorem adapterLost_freeOfAdapter_iff (order : IterOrder (TransferOwner P)) :
    (state.adapterLost order adapterId).1.FreeOfAdapter adapterId ↔ state.Indexed adapterId := by
  have shrinks := cancelOwners_shrinks state .ioError true
    (order.arrange (state.ownersOfAdapter adapterId))
  have kept : (state.adapterLost order adapterId).1.Sound whole := shrinks.sound sound
  rw [freeOfAdapter_iff kept, indexed_iff]
  constructor
  · rintro free owner pair carried rfl
    by_contra lost
    have unlisted : owner ∉ order.arrange (state.ownersOfAdapter pair.1) := by
      rw [order.mem_arrange, ownersOfAdapter, mem_dedup, mem_flatMap]
      rintro ⟨⟨other, owners⟩, listed, member⟩
      have found := AList.mem_lookup_iff.mpr (mem_filter.mp listed).1
      have same := (sound.registered other owners found).2.2 owner member
      rw [carried] at same
      cases same
      exact lost ⟨owners, found, member⟩
    exact free owner pair ((cancelOwners_spares sound .ioError true unlisted).trans carried) rfl
  · rintro indexed owner pair carried rfl
    have adds : AddsUnder none state (state.adapterLost order pair.1).1 := shrinks.addsUnder sound
    have before : state.adapterPair owner = some pair := by
      rcases adds owner pair carried with before | new
      · exact before
      · cases new
    have gone := adapterLost_gone sound order (indexed owner pair before rfl)
    rw [gone] at carried
    cases carried

end Clipboard.TransferState

namespace Service

variable {Address : Type} [DecidableEq Address] {sha256 : Bytes → Digest}
  {base64 : Bytes → String} {around : Surroundings Address} {service : Service Address}
  {under : Option AdapterId}

def takesOffer (around : Surroundings Address) (service : Service Address) (peer : Peer Address)
    (transferId : UInt64) (entries : List ClipboardManifestEntry) : Bool :=
  (service.transfers.ensureIdsAvailable ⟨peer, transferId⟩ (toString transferId)
      (toString transferId)).isOk &&
    (validateWireManifest (P := Peer Address) entries).isOk &&
    around.startMountedReceive (toString transferId)

def Event.registers (around : Surroundings Address) (service : Service Address) :
    Event Address → Option AdapterId
  | .clipboardProtocol addr (.clipboardManifest transferId entries) =>
    if (service.identity (.emulation addr)).isSome ∧
        takesOffer around service (.emulation addr) transferId entries then
      some (toString transferId)
    else none
  | .clipboard handle _ (.clipboardManifest transferId entries) =>
    if around.contains handle ∧ takesOffer around service (.capture handle) transferId entries then
      some (toString transferId)
    else none
  | .manifestOffer result =>
    match result.offer with
    | .ok offer =>
      if result.generation = service.manifestGeneration ∧ around.clipboardClients ≠ [] ∧
          (validateWireManifest (P := Peer Address) offer.entries).isOk ∧
          result.manifest.operation ≠ .move then
        some result.adapterId
      else none
    | .error _ => none
  | _ => none

theorem Performs.addsUnder {allows : Call (Peer Address) → Prop}
    {state later : TransferState (Peer Address)} {messages : List (Peer Address × ProtoEvent)}
    (performs : Performs sha256 base64 allows state later messages) (sound : state.Sound False)
    (elsewhere : ∀ operation, allows operation →
      operation.offersUnder = none ∨ operation.offersUnder = under) :
    AddsUnder under state later := by
  induction performs with
  | nothing state => exact .refl state
  | @call state _ operation _ allowed _ ih =>
    have adds := addsUnder_perform sound sha256 base64 operation
    refine AddsUnder.trans ?_ (ih (sound.perform sha256 base64 False.elim))
    rcases elsewhere operation allowed with none | same
    · rw [none] at adds
      exact adds.of_none
    · rw [same] at adds
      exact adds

variable (sound : service.transfers.Sound False)
include sound

theorem executeTransferActions_addsUnder (actions : List (TransferAction (Peer Address))) :
    AddsUnder under service.transfers
      (service.executeTransferActions sha256 base64 around actions).transfers := by
  let plain (operation : Call (Peer Address)) : Prop := operation.offersUnder = none
  have lost : ∀ order adapterId, plain (.adapterLost order adapterId) := fun _ _ => rfl
  rcases executeTransferActions_performs sha256 base64 around service lost actions with
    ⟨_, performs, _⟩
  exact performs.addsUnder sound fun _ => .inl

theorem callAndExecute_addsUnder (operation : Call (Peer Address)) :
    AddsUnder operation.offersUnder service.transfers
      (service.callAndExecute sha256 base64 around operation).transfers := by
  let alike (other : Call (Peer Address)) : Prop :=
    other.offersUnder = none ∨ other.offersUnder = operation.offersUnder
  have lost : ∀ order adapterId, alike (.adapterLost order adapterId) := fun _ _ => .inl rfl
  have own : alike operation := .inr rfl
  rcases executed_performs sha256 base64 around service lost own with ⟨_, performs, _⟩
  exact performs.addsUnder sound fun _ => id

variable (peer : Peer Address)

theorem inboundManifest_registers (transferId : UInt64) (entries : List ClipboardManifestEntry) :
    AddsUnder
      (if takesOffer around service peer transferId entries then some (toString transferId)
        else none)
      service.transfers
      (service.callAndExecute sha256 base64 around (.inboundManifest around.order peer
        (toString transferId) (toString transferId) transferId .copy entries)).transfers := by
  by_cases taken : around.startMountedReceive (toString transferId) = true
  · by_cases accepted : takesOffer around service peer transferId entries = true
    · rw [if_pos accepted]
      exact callAndExecute_addsUnder sound _
    · rcases inboundManifest_cases sound around.order peer (toString transferId)
        (toString transferId) transferId entries with ⟨error, refused⟩ | ⟨available, valid, _⟩
      · simp only [callAndExecute, call, perform, refused]
        exact .refl _
      · rw [takesOffer, available, valid, taken] at accepted
        exact absurd rfl accepted
  · have unaccepted : ¬takesOffer around service peer transferId entries = true := by
      simp [takesOffer, taken]
    rw [if_neg unaccepted]
    have kept := sound.inboundManifest around.order peer (toString transferId) (toString transferId)
      transferId .copy entries
    rcases inboundManifest_cases sound around.order peer (toString transferId)
      (toString transferId) transferId entries with
      ⟨error, refused⟩ | ⟨_, _, ⟨numbered, error, adds, full⟩ |
        ⟨numbered, uiId, stale, adds, extension, quiet, done⟩⟩
    · simp only [callAndExecute, call, perform, refused]
      exact .refl _
    · simp only [callAndExecute, call, perform, full]
      exact adds
    · generalize reached : service.transfers.inboundManifest around.order peer (toString transferId)
        (toString transferId) transferId .copy entries = outcome at kept extension done
      have after : (service.callAndExecute sha256 base64 around (.inboundManifest around.order peer
          (toString transferId) (toString transferId) transferId .copy entries)).transfers =
          (outcome.state.adapterLost around.order (toString transferId)).1 := by
        have silent : executeTransferActions sha256 base64 around
            { service with transfers := outcome.state } stale =
              { service with transfers := outcome.state } := executeTransferActions_eq quiet
        rw [executeTransferActions] at silent
        simp only [callAndExecute, call, perform, reached, done, executeTransferActions,
          foldl_append, silent, foldl_cons, foldl_nil, executeAction]
        rw [if_neg taken]
        rfl
      rw [after]
      intro owner pair carried
      have shrinks := cancelOwners_shrinks outcome.state .ioError true
        (around.order.arrange (outcome.state.ownersOfAdapter (toString transferId)))
      have lost : AddsUnder none outcome.state
          (outcome.state.adapterLost around.order (toString transferId)).1 := shrinks.addsUnder kept
      rcases lost owner pair carried with before | new
      · rw [extension.adapterPair] at before
        split at before
        · rename_i same
          have registered : outcome.state.IsRegistered owner
              (toString transferId, toString transferId) := by
            rw [IsRegistered, extension.adapterToOwner, lookup_insert, if_pos rfl, same]
            exact ⟨_, rfl, mem_insert_self⟩
          rw [adapterLost_gone kept around.order registered] at carried
          cases carried
        · exact adds owner pair before
      · cases new

theorem handlePeerProtocol_known {peer : Peer Address} (known : (service.identity peer).isSome)
    (transferId : UInt64) (entries : List ClipboardManifestEntry) :
    AddsUnder
      (if takesOffer around service peer transferId entries then some (toString transferId)
        else none)
      service.transfers (service.handlePeerProtocol sha256 base64 around peer
        (.clipboardManifest transferId entries)).transfers := by
  rcases Option.isSome_iff_exists.mp known with ⟨_, found⟩
  unfold handlePeerProtocol
  rw [found]
  exact inboundManifest_registers sound peer transferId entries

theorem handlePeerProtocol_manifest (transferId : UInt64) (entries : List ClipboardManifestEntry) :
    AddsUnder
      (if (service.identity peer).isSome ∧ takesOffer around service peer transferId entries then
        some (toString transferId) else none)
      service.transfers (service.handlePeerProtocol sha256 base64 around peer
        (.clipboardManifest transferId entries)).transfers := by
  by_cases known : (service.identity peer).isSome
  · simp only [known, true_and]
    exact handlePeerProtocol_known sound known transferId entries
  · have unknown : service.identity peer = none := by simpa using known
    rw [handlePeerProtocol_unknown unknown]
    exact .refl _

omit sound

theorem offerToClients_registers {result : ManifestOffer} {offer : FileOffer}
    (handles : List ClientHandle) (sofar : Service Address × List (TransferAction (Peer Address)))
    (sound : sofar.1.transfers.Sound False) :
    AddsUnder (if (validateWireManifest (P := Peer Address) offer.entries).isOk ∧
          result.manifest.operation ≠ .move then some result.adapterId else none) sofar.1.transfers
      (handles.foldl (offerToClient sha256 base64 around result offer) sofar).1.transfers := by
  induction handles generalizing sofar with
  | nil => exact .refl _
  | cons _ _ ih =>
    refine AddsUnder.trans ?_ (ih _ (sound.perform sha256 base64 False.elim))
    split
    · exact addsUnder_localCopyManifest sound _ _ _ _ _ _
    · rename_i refused
      simp only [offerToClient, call, perform, localCopyManifest]
      rcases replaceOffers_cases sound _ _ _ _ _ with ⟨_, _, failed⟩ | ⟨passed, _⟩
      · rw [failed]
        exact .refl _
      · simp only [bind_ok, guard_bind_ok, guard_ok] at passed
        rcases passed with ⟨_, _, _, _, valid, notMove, _⟩
        rw [valid] at refused
        exact absurd ⟨rfl, notMove⟩ refused

theorem handleManifestOffer_registers (sound : service.transfers.Sound False)
    (result : ManifestOffer) :
    AddsUnder (Event.registers around service (.manifestOffer result))
      service.transfers (service.handleManifestOffer sha256 base64 around result).transfers := by
  unfold handleManifestOffer
  by_cases superseded : result.generation ≠ service.manifestGeneration
  · rw [if_pos superseded]
    exact .refl _
  · rw [if_neg superseded]
    cases scanned : result.offer with
    | error => exact .refl _
    | ok offer =>
      have offered : (around.clipboardClients.foldl
          (offerToClient sha256 base64 around result offer) (service, [])).1.transfers.Sound
            False :=
        offerToClients_sound around.clipboardClients (service, []) sound
      refine AddsUnder.trans ?_ (executeTransferActions_addsUnder offered _)
      simp only [Event.registers, scanned]
      by_cases alone : around.clipboardClients = []
      · rw [alone]
        exact .refl _
      · simp only [not_not.mp superseded, alone, ne_eq, not_false_eq_true, true_and]
        exact offerToClients_registers around.clipboardClients (service, []) sound

omit [DecidableEq Address] in
theorem manifest_of_fileOperation {peer : Peer Address} {event : ProtoEvent}
    {operation : Call (Peer Address)} (leads : fileOperation around peer event = some operation)
    (offers : operation.offersUnder ≠ none) :
    ∃ transferId entries, event = .clipboardManifest transferId entries := by
  cases event with
  | clipboardManifest transferId entries => exact ⟨transferId, entries, rfl⟩
  | _ =>
    cases leads
    try exact absurd rfl offers

theorem operation_of_offers {event : Event Address} {operation : Call (Peer Address)}
    (allowed : event.Allows around service operation) (offers : operation.offersUnder ≠ none) :
    (∃ result, event = .manifestOffer result) ∨
      event.operation around service = some operation := by
  cases operation with
  | localCopyManifest =>
    obtain ⟨result, _, same, _⟩ := allowed
    exact .inl ⟨result, same⟩
  | inboundManifest => exact .inr (allowed.resolve_left nofun)
  | _ => exact absurd rfl offers

theorem handle_registers (sound : service.transfers.Sound False) (event : Event Address) :
    AddsUnder (event.registers around service) service.transfers
      (service.handle sha256 base64 around event).transfers := by
  have plain (unoffered : ∀ result, event ≠ .manifestOffer result)
      (elsewhere : ∀ operation, event.operation around service = some operation →
        operation.offersUnder = none) :
      AddsUnder (event.registers around service) service.transfers
        (service.handle sha256 base64 around event).transfers := by
    rcases handle_performs sha256 base64 around service event with ⟨_, performs, _⟩
    refine performs.addsUnder sound fun operation allowed => .inl ?_
    by_contra offers
    rcases operation_of_offers allowed offers with ⟨result, same⟩ | leads
    · exact unoffered result same
    · exact offers (elsewhere operation leads)
  cases event with
  | manifestOffer result => exact handleManifestOffer_registers sound result
  | clipboardProtocol addr event =>
    by_cases offers : ∃ transferId entries, event = .clipboardManifest transferId entries
    · rcases offers with ⟨transferId, entries, rfl⟩
      exact handlePeerProtocol_manifest sound _ transferId entries
    · refine plain (by rintro _ ⟨⟩) fun operation leads => ?_
      by_contra under
      simp only [Event.operation] at leads
      split at leads
      · exact offers (manifest_of_fileOperation leads under)
      · cases leads
  | clipboard handle _ event =>
    by_cases offers : ∃ transferId entries, event = .clipboardManifest transferId entries
    · rcases offers with ⟨transferId, entries, rfl⟩
      simp only [Service.handle]
      by_cases known : around.contains handle = true
      · simp only [Event.registers, known, true_and]
        refine handlePeerProtocol_known ?_ ?_ transferId entries
        · exact sound
        · simp [identity]
      · rw [if_neg known]
        exact .refl _
    · refine plain (by rintro _ ⟨⟩) fun operation leads => ?_
      by_contra under
      simp only [Event.operation] at leads
      split at leads
      · exact offers (manifest_of_fileOperation leads under)
      · cases leads
  | adapterMessage _ word =>
    refine plain (by rintro _ ⟨⟩) fun operation leads => ?_
    cases word <;> cases leads <;> rfl
  | _ =>
    refine plain (by rintro _ ⟨⟩) fun operation leads => ?_
    cases leads
    try rfl

theorem handle_exited_transfers (adapterId : AdapterId) :
    (service.handle sha256 base64 around (.adapterExited adapterId)).transfers =
      (service.transfers.adapterLost around.order adapterId).1 := by
  simp only [Service.handle, callAndExecute, call, perform, Outcome.sure]
  rw [executeTransferActions_eq]
  exact cancelOwners_notices .ioError true _

end Service

end Syntra
