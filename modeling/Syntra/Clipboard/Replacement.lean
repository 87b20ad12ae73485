import Syntra.Clipboard.Atomicity
import Syntra.Clipboard.Cancellation

/-!
# Offers that replace offers

A copied selection replaces the unannounced offers to its peer, and a received one all offers of
its peer. Each goes through the cancellation of what it replaces, which other peers' transfers must
not notice, and a selection that is refused leaves all transfers in place.
-/

namespace Syntra.Clipboard

open ByteFormat StateMachine Proto Files Tables

variable {P : Type} [DecidableEq P]

namespace TransferState

variable {whole : Prop} {state later : TransferState P} {owner other : TransferOwner P}

theorem Untouched.numbered (next : UiTransferId) :
    state.Untouched { state with nextUiId := next } other :=
  ⟨rfl, rfl, fun _ => rfl, fun _ => rfl, fun _ => Iff.rfl, fun _ => Iff.rfl⟩

theorem Untouched.insertMapping {uiId : UiTransferId} (free : uiId ∉ state.uiToOwner)
    (different : other ≠ owner) (adapterId transferId : String) :
    state.Untouched (state.insertMapping uiId owner adapterId transferId) other where
  localTransfer := rfl
  remoteTransfer := rfl
  pending := fun _ => rfl
  sourcePending := fun _ => rfl
  row := by
    intro _
    simp only [TransferState.insertMapping]
    rw [lookup_insert]
    split
    · rename_i same
      rw [same, AList.lookup_eq_none.mpr free]
      simp [different.symm]
    · rfl
  registered := by
    rintro _
    simp only [IsRegistered, TransferState.insertMapping]
    rw [lookup_insert]
    split
    · rename_i same
      subst same
      cases found : state.adapterToOwner.lookup (adapterId, transferId) with
      | none => simp [different]
      | some => simp [List.mem_insert_iff, different]
    · rfl

theorem Untouched.addLocal {transfer : LocalTransfer} (free : transfer.uiId ∉ state.uiToOwner)
    (different : other ≠ owner) : state.Untouched (state.addLocal owner transfer) other :=
  { Untouched.insertMapping free different transfer.adapterId transfer.adapterTransferId with
    localTransfer := AList.lookup_insert_ne different }

theorem Untouched.addRemote {transfer : RemoteTransfer} (free : transfer.uiId ∉ state.uiToOwner)
    (different : other ≠ owner) : state.Untouched (state.addRemote owner transfer) other :=
  { Untouched.insertMapping free different transfer.adapterId transfer.adapterTransferId with
    remoteTransfer := AList.lookup_insert_ne different }

theorem cancelOwners_adapterPair (sound : state.Sound whole) (reason : ClipboardCancelReason)
    (notifyPeer : Bool) (owners : List (TransferOwner P)) (other : TransferOwner P) :
    (cancelOwners reason notifyPeer state owners).1.adapterPair other =
      if other ∈ owners then none else state.adapterPair other := by
  induction owners generalizing state with
  | nil => rfl
  | cons owner _ ih =>
    rw [cancelOwners, ih (sound.cancelOwner owner none reason notifyPeer),
      cancelOwner_adapterPair sound]
    by_cases same : other = owner <;> simp [same]

variable {actions : List (TransferAction P)}

theorem replaceOffers_replaces (sound : state.Sound whole)
    {checks : Except (TransferStateError P) Unit} {superseded : List (TransferOwner P)}
    {notifyPeer : Bool} {enter : TransferState P → UiTransferId → TransferState P}
    {announcement : TransferAction P}
    (accepted : (state.replaceOffers checks superseded notifyPeer enter announcement).result =
      .ok actions) :
    checks = .ok () ∧ ∃ numbered uiId, uiId ∉ numbered.uiToOwner ∧
      (state.replaceOffers checks superseded notifyPeer enter announcement).state =
        enter numbered uiId ∧
      (∀ other ∈ superseded, numbered.adapterPair other = none) ∧
      ∀ other, other ∉ superseded → state.Untouched numbered other := by
  rcases replaceOffers_cases sound checks superseded notifyPeer enter announcement with
    ⟨_, _, refused⟩ | ⟨passed, next, _, ⟨_, _, full⟩ | ⟨uiId, _, free, entered⟩⟩
  · rw [refused] at accepted
    cases accepted
  · rw [full] at accepted
    cases accepted
  · refine ⟨passed, _, uiId, free, congrArg Outcome.state entered, ?_, ?_⟩
    · intro other member
      have gone := cancelOwners_adapterPair sound .user notifyPeer superseded other
      rw [if_pos member] at gone
      exact gone
    · intro other kept
      have before := (cancelOwners_cancelling sound .user notifyPeer superseded).untouched other
        fun cancelled => kept cancelled.1
      exact before.trans (.numbered next)

theorem mem_supersededLocal {peer : P} :
    other ∈ state.supersededLocal peer ↔ other.peer = peer ∧
      ∃ transfer, state.localTransfers.lookup other = some transfer ∧
        transfer.announced = false := by
  simp only [supersededLocal, List.mem_map, List.mem_filter, Bool.and_eq_true, decide_eq_true_eq,
    Bool.not_eq_true']
  constructor
  · rintro ⟨⟨_, transfer⟩, ⟨listed, same, quiet⟩, rfl⟩
    exact ⟨same, transfer, AList.mem_lookup_iff.mpr listed, quiet⟩
  · rintro ⟨same, transfer, found, quiet⟩
    exact ⟨⟨other, transfer⟩, ⟨AList.mem_lookup_iff.mp found, same, quiet⟩, rfl⟩

theorem mem_supersededRemote {peer : P} :
    other ∈ state.supersededRemote peer ↔ other.peer = peer ∧
      ∃ transfer, state.remoteTransfers.lookup other = some transfer := by
  rw [supersededRemote, List.mem_filter, ← AList.mem_keys, mem_iff_lookup, and_comm]
  simp

theorem inboundManifest_replaces (sound : state.Sound whole) {order : IterOrder (TransferOwner P)}
    {peer : P} {adapterId : AdapterId} {adapterTransferId : String} {wireId : UInt64}
    {operation : Operation} {entries : List ClipboardManifestEntry}
    (accepted : (state.inboundManifest order peer adapterId adapterTransferId wireId operation
      entries).result = .ok actions) :
    let later := (state.inboundManifest order peer adapterId adapterTransferId wireId operation
      entries).state
    (∃ transfer, later.remoteTransfers.lookup ⟨peer, wireId⟩ = some transfer ∧
      transfer.entries = entriesById entries ∧ transfer.adapterId = adapterId ∧
      transfer.adapterTransferId = adapterTransferId) ∧
    (∀ other, other.peer = peer → (other ∈ later.remoteTransfers ↔ other = ⟨peer, wireId⟩)) ∧
    ∀ other, other.peer ≠ peer → state.Untouched later other := by
  rcases replaceOffers_replaces sound accepted with ⟨_, numbered, _, free, entered, gone, kept⟩
  intro later
  have here : later = _ := entered
  rw [here]
  refine ⟨⟨_, AList.lookup_insert _, rfl, rfl, rfl⟩, ?_, ?_⟩
  · intro other same
    change other ∈ numbered.remoteTransfers.insert _ _ ↔ _
    rw [AList.mem_insert, or_iff_left_of_imp]
    intro remains
    rcases (mem_iff_lookup _ _).mp remains with ⟨transfer, found⟩
    by_cases listed : other ∈ order.arrange (state.supersededRemote peer)
    · have none := (adapterPair_eq_none.mp (gone other listed)).2
      cases none.symm.trans found
    · rw [(kept other listed).remoteTransfer] at found
      rw [order.mem_arrange, mem_supersededRemote] at listed
      exact absurd ⟨same, transfer, found⟩ listed
  · intro other different
    have unlisted : other ∉ order.arrange (state.supersededRemote peer) := by
      rw [order.mem_arrange, mem_supersededRemote]
      exact fun listed => different listed.1
    refine (kept other unlisted).trans (.addRemote free ?_)
    rintro rfl
    exact different rfl

theorem localCopyManifest_replaces (sound : state.Sound whole)
    {order : IterOrder (TransferOwner P)} {peer : P} {wireId : UInt64} {adapterId : AdapterId}
    {manifest : CopyManifest} {offer : FileOffer}
    (accepted : (state.localCopyManifest order peer wireId adapterId manifest offer).result =
      .ok actions) :
    let later := (state.localCopyManifest order peer wireId adapterId manifest offer).state
    (∃ transfer, later.localTransfers.lookup ⟨peer, wireId⟩ = some transfer ∧
      transfer.offer = offer ∧ transfer.announced = false ∧ transfer.adapterId = adapterId ∧
      transfer.adapterTransferId = manifest.transferId) ∧
    (∀ other, other.peer = peer →
      ((∃ transfer, later.localTransfers.lookup other = some transfer ∧
        transfer.announced = false) ↔ other = ⟨peer, wireId⟩)) ∧
    ∀ other, other.peer ≠ peer → state.Untouched later other := by
  rcases replaceOffers_replaces sound accepted with ⟨_, numbered, _, free, entered, gone, kept⟩
  intro later
  have here : later = _ := entered
  rw [here]
  refine ⟨⟨_, AList.lookup_insert _, rfl, rfl, rfl, rfl⟩, ?_, ?_⟩
  · intro other same
    constructor
    · rintro ⟨transfer, found, quiet⟩
      by_contra different
      have before : numbered.localTransfers.lookup other = some transfer :=
        (AList.lookup_insert_ne different).symm.trans found
      by_cases listed : other ∈ order.arrange (state.supersededLocal peer)
      · have none := (adapterPair_eq_none.mp (gone other listed)).1
        cases none.symm.trans before
      · rw [(kept other listed).localTransfer] at before
        rw [order.mem_arrange, mem_supersededLocal] at listed
        exact listed ⟨same, transfer, before, quiet⟩
    · rintro rfl
      exact ⟨_, AList.lookup_insert _, rfl⟩
  · intro other different
    have unlisted : other ∉ order.arrange (state.supersededLocal peer) := by
      rw [order.mem_arrange, mem_supersededLocal]
      exact fun listed => different listed.1
    refine (kept other unlisted).trans (.addLocal free ?_)
    rintro rfl
    exact different rfl

/-- In every state that is reached, an offer that is refused leaves everything in place, and one
that is accepted is then the only one of its kind of its peer; what other peers have offered or
asked for has not been touched. -/
theorem replacement_all_or_nothing {sha256 : Bytes → Digest} {base64 : Bytes → String}
    {history : List (TransferState P)}
    (run : Run (machine sha256 base64 fun _ _ => True) history) :
    ∀ state ∈ history, ∀ (order : IterOrder (TransferOwner P)) (peer : P) (adapterId : AdapterId)
      (wireId : UInt64),
      (∀ adapterTransferId operation entries,
        let outcome := state.inboundManifest order peer adapterId adapterTransferId wireId
          operation entries
        (∀ error, outcome.result = .error error → outcome.state = state) ∧
        ∀ actions, outcome.result = .ok actions →
          (∃ transfer, outcome.state.remoteTransfers.lookup ⟨peer, wireId⟩ = some transfer ∧
            transfer.entries = entriesById entries ∧
            transfer.adapterId = adapterId ∧
            transfer.adapterTransferId = adapterTransferId) ∧
          (∀ other, other.peer = peer →
            (other ∈ outcome.state.remoteTransfers ↔ other = ⟨peer, wireId⟩)) ∧
          ∀ other, other.peer ≠ peer → state.Untouched outcome.state other) ∧
      ∀ manifest offer,
        let outcome := state.localCopyManifest order peer wireId adapterId manifest offer
        (∀ error, outcome.result = .error error → outcome.state = state) ∧
        ∀ actions, outcome.result = .ok actions →
          (∃ transfer, outcome.state.localTransfers.lookup ⟨peer, wireId⟩ = some transfer ∧
            transfer.offer = offer ∧ transfer.announced = false ∧
            transfer.adapterId = adapterId ∧
            transfer.adapterTransferId = manifest.transferId) ∧
          (∀ other, other.peer = peer →
            ((∃ transfer, outcome.state.localTransfers.lookup other = some transfer ∧
              transfer.announced = false) ↔ other = ⟨peer, wireId⟩)) ∧
          ∀ other, other.peer ≠ peer → state.Untouched outcome.state other := by
  intro state member order _ _ _
  have sound : state.Sound False := sound_of_run run (fun _ _ _ => False.elim) state member
  refine ⟨fun _ _ _ => ⟨?_, fun actions accepted => ?_⟩,
    fun _ _ => ⟨?_, fun _ accepted => ?_⟩⟩
  · refine replaceOffers_atomic sound _ (fun owner listed => ?_) false _ _
    exact supersededRemote_live (order.mem_arrange.mp listed)
  · exact inboundManifest_replaces sound accepted
  · refine replaceOffers_atomic sound _ (fun _ listed => ?_) true _ _
    exact supersededLocal_live (order.mem_arrange.mp listed)
  · exact localCopyManifest_replaces sound accepted

/-- A second selection for peer 1, while peer 2 has been offered one. -/
theorem replacement_all_or_nothing_offerTo :
    let state := afterCalls [offerTo 1 7, offerTo 2 7]
    let outcome := state.localCopyManifest (.asStored _) 1 8 "7" ⟨"8", .copy⟩
      ⟨8, [⟨1, "abc.txt", .file, 3⟩], ∅⟩
    ((∃ transfer, outcome.state.localTransfers.lookup ⟨1, 7⟩ = some transfer ∧
      transfer.announced = false) ↔ (⟨1, 7⟩ : TransferOwner ℕ) = ⟨1, 8⟩) ∧
    state.Untouched outcome.state ⟨2, 7⟩ := by
  intro state outcome
  have follows : (machine (fun _ => abcDigest) (fun _ => "YWJj")
      fun (_ : TransferState ℕ) _ => True).Follows new [offerTo 1 7, offerTo 2 7] :=
    ⟨trivial, trivial, trivial⟩
  rcases Run.of_follows follows with ⟨_, run⟩
  have replaced := (replacement_all_or_nothing run state (List.mem_cons_self ..) (.asStored _) 1
    "7" 8).2 ⟨"8", .copy⟩ ⟨8, [⟨1, "abc.txt", .file, 3⟩], ∅⟩
  have accepted : outcome.result.isOk = true := by decide +kernel
  cases result : outcome.result with
  | error =>
    rw [result] at accepted
    cases accepted
  | ok actions =>
    have after := (replaced.2 actions result).2
    exact ⟨after.1 ⟨1, 7⟩ rfl, after.2 ⟨2, 7⟩ (by decide)⟩

end TransferState

end Syntra.Clipboard
