import Syntra.Service.Calls

/-!
# The loss of a peer

Three events report that a peer is gone. The capture side's `PeerLost` ends every transfer with it;
the other two leave the transfers as they are.
-/

namespace Syntra

open ByteFormat Proto Files Clipboard StateMachine Tables TransferState List

namespace Clipboard.TransferState

variable {P : Type} [DecidableEq P] {whole : Prop} {state : TransferState P}

/-- Nothing belongs to the peer. -/
structure FreeOf (state : TransferState P) (peer : P) : Prop where
  localTransfers : ∀ owner ∈ state.localTransfers, owner.peer ≠ peer
  remoteTransfers : ∀ owner ∈ state.remoteTransfers, owner.peer ≠ peer
  pending : ∀ key ∈ state.pending, key.1.peer ≠ peer
  sourcePending : ∀ key ∈ state.sourcePending, key.1.peer ≠ peer

variable (sound : state.Sound whole)
include sound

theorem Sound.freeOf {peer : P} (gone : ∀ owner : TransferOwner P, owner.peer = peer →
      state.localTransfers.lookup owner = none ∧ state.remoteTransfers.lookup owner = none) :
    state.FreeOf peer where
  localTransfers := by
    intro owner live same
    exact AList.lookup_eq_none.mp (gone owner same).1 live
  remoteTransfers := by
    intro owner live same
    exact AList.lookup_eq_none.mp (gone owner same).2 live
  pending := by
    intro key requested same
    rcases (mem_iff_lookup _ _).mp requested with ⟨range, found⟩
    rcases (sound.awaited key range found).covered with ⟨transfer, _, there, _⟩
    rw [(gone key.1 same).2] at there
    cases there
  sourcePending := by
    intro key requested same
    rcases (mem_iff_lookup _ _).mp requested with ⟨reservation, found⟩
    rcases sound.reserved key reservation found with ⟨_, there⟩
    rw [(gone key.1 same).1] at there
    cases there

theorem cancelOwner_gone (owner : TransferOwner P) (reason : ClipboardCancelReason)
    (notifyPeer : Bool) :
    (state.cancelOwner owner none reason notifyPeer).state.localTransfers.lookup owner = none ∧
      (state.cancelOwner owner none reason notifyPeer).state.remoteTransfers.lookup owner =
        none := by
  cases known : state.transferUiId owner with
  | none =>
    have same : (state.cancelOwner owner none reason notifyPeer).state = state := by
      simp only [cancelOwner, known, okOr]
      rfl
    rw [same]
    exact transferUiId_eq_none.mp known
  | some =>
    rw [cancelOwner_of_live known, removeOwner_local, removeOwner_remote sound, if_pos rfl,
      if_pos rfl]
    exact ⟨rfl, rfl⟩

theorem cancelOwners_gone (reason : ClipboardCancelReason) (notifyPeer : Bool)
    {owners : List (TransferOwner P)} {owner : TransferOwner P} (member : owner ∈ owners) :
    (cancelOwners reason notifyPeer state owners).1.localTransfers.lookup owner = none ∧
      (cancelOwners reason notifyPeer state owners).1.remoteTransfers.lookup owner = none := by
  induction owners generalizing state with
  | nil => cases member
  | cons first owners ih =>
    rcases mem_cons.mp member with rfl | later
    · have gone := cancelOwner_gone sound owner reason notifyPeer
      exact (cancelOwners_shrinks _ reason notifyPeer owners).absent gone.1 gone.2
    · exact ih (sound.cancelOwner first none reason notifyPeer) later

theorem peerLost_freeOf (order : IterOrder (TransferOwner P)) (peer : P) :
    (state.peerLost order peer).1.FreeOf peer := by
  have shrinks := cancelOwners_shrinks state .ioError false
    (order.arrange (state.ownersOfPeer peer))
  apply (shrinks.sound sound).freeOf
  intro owner same
  by_cases listed : owner ∈ state.ownersOfPeer peer
  · exact cancelOwners_gone sound .ioError false (order.mem_arrange.mpr listed)
  · simp only [ownersOfPeer, mem_dedup, mem_filter, mem_append, same, decide_true,
      and_true, not_or] at listed
    apply shrinks.absent
    · exact AList.lookup_eq_none.mpr listed.1
    · exact AList.lookup_eq_none.mpr listed.2

end Clipboard.TransferState

namespace Service

variable {Address : Type} [DecidableEq Address] {sha256 : Bytes → Digest}
  {base64 : Bytes → String} {around : Surroundings Address} {service : Service Address}

theorem handle_sound (sound : service.transfers.Sound False) (event : Event Address) :
    (service.handle sha256 base64 around event).transfers.Sound False := by
  rcases handle_performs sha256 base64 around service event with ⟨_, performs, _⟩
  exact performs.sound sound

def Event.reportsLoss (around : Surroundings Address) : Event Address → Option (Peer Address)
  | .peerLost handle => some (.capture handle)
  | .peerStateChanged handle => if around.alive handle then none else some (.capture handle)
  | .disconnected addr => some (.emulation addr)
  | _ => none

theorem transfers_sound_of_run {startedAt : UInt64} {history : List (Service Address)}
    (run : Run (machine sha256 base64 startedAt) history) :
    ∀ service ∈ history, service.transfers.Sound False :=
  run.invariant ⟨new_sound, fun _ action before _ => handle_sound before action.2⟩

/-- In every run of the event loop, and right after an event that reports the loss of a peer: no
offer and no request with that peer is left exactly when the event is the capture side's loss of
the peer, or there was none before. -/
theorem nothing_left_of_lost_peer {startedAt : UInt64} {history : List (Service Address)}
    (run : Run (machine sha256 base64 startedAt) history) (member : service ∈ history)
    {event : Event Address} {peer : Peer Address} (lost : event.reportsLoss around = some peer) :
    (service.handle sha256 base64 around event).transfers.FreeOf peer ↔
      (∃ handle, event = .peerLost handle) ∨ service.transfers.FreeOf peer := by
  have sound := transfers_sound_of_run run service member
  cases event with
  | peerLost handle =>
    cases lost
    refine iff_of_true ?_ (.inl ⟨handle, rfl⟩)
    rw [handle_peerLost_transfers]
    exact TransferState.peerLost_freeOf sound around.order (.capture handle)
  | disconnected addr =>
    have same : (service.handle sha256 base64 around (.disconnected addr)).transfers =
        service.transfers := historyPeerLost_transfers _
    simp [same]
  | peerStateChanged handle =>
    have same : (service.handle sha256 base64 around (.peerStateChanged handle)).transfers =
        service.transfers := by
      simp only [Service.handle]
      split
      · exact historyPeerLost_transfers _
      · rfl
    simp [same]
  | _ => cases lost

def calm : Surroundings String where
  contains _ := true
  alive _ := true
  clipboardClients := [1]
  startMountedReceive _ := true
  order := .asStored _

def offered : List (Surroundings String × Event String) :=
  [(calm, .connected "10.0.0.2:4242" "aa"),
    (calm, .clipboardProtocol "10.0.0.2:4242" (.clipboardManifest 7 [⟨1, "abc.txt", .file, 3⟩]))]

def afterEvents (events : List (Surroundings String × Event String)) : Service String :=
  (machine (fun _ => TransferState.abcDigest) (fun _ => "YWJj") 0).after (new 0) events

theorem nothing_left_of_lost_peer_client :
    ((afterEvents
        [(calm, .clipboard 1 "aa" (.clipboardManifest 7 [⟨1, "abc.txt", .file, 3⟩]))]).handle
      (fun _ => TransferState.abcDigest) (fun _ => "YWJj") calm
        (.peerLost 1)).transfers.FreeOf (.capture 1) := by
  have follows : (machine (fun _ => TransferState.abcDigest) (fun _ => "YWJj") 0).Follows (new 0)
      [(calm, .clipboard 1 "aa" (.clipboardManifest 7 [⟨1, "abc.txt", .file, 3⟩]))] :=
    ⟨trivial, trivial⟩
  rcases Run.of_follows follows with ⟨_, run⟩
  exact (nothing_left_of_lost_peer run (.head _) rfl).mpr (.inl ⟨1, rfl⟩)

/-- The device that offered the file disconnects, and its offer stays. -/
theorem offer_left_of_disconnected :
    ∃ (history : List (Service String)) (service : Service String),
      Run (machine (fun _ => TransferState.abcDigest) (fun _ => "YWJj") 0) history ∧
      service ∈ history ∧
      Event.reportsLoss calm (.disconnected "10.0.0.2:4242") = some (.emulation "10.0.0.2:4242") ∧
      ¬(service.handle (fun _ => TransferState.abcDigest) (fun _ => "YWJj") calm
        (.disconnected "10.0.0.2:4242")).transfers.FreeOf (.emulation "10.0.0.2:4242") := by
  have follows : (machine (fun _ => TransferState.abcDigest) (fun _ => "YWJj") 0).Follows (new 0)
      offered := ⟨trivial, trivial, trivial⟩
  rcases Run.of_follows follows with ⟨_, run⟩
  refine ⟨_, _, run, .head _, rfl, ?_⟩
  intro free
  have left : (⟨.emulation "10.0.0.2:4242", 7⟩ : TransferOwner (Peer String)) ∈
      (((afterEvents offered).handle (fun _ => TransferState.abcDigest) (fun _ => "YWJj") calm
        (.disconnected "10.0.0.2:4242")).transfers.remoteTransfers) := by
    decide +kernel
  exact free.remoteTransfers _ left rfl

end Service

end Syntra
