import Syntra.Service.Sending

/-!
# The calls that an event makes

What the service does to its transfers while it handles an event is one call after another, and what
it sends to peers is what these calls tell. So what every call keeps, every event keeps.
-/

namespace Syntra.Service

open ByteFormat Proto Files Clipboard TransferState List Event Outcome

variable {Address : Type} [DecidableEq Address]

/-- Allowed calls in a row, with the messages they send. -/
inductive Performs (sha256 : Bytes → Digest) (base64 : Bytes → String)
    (allows : Call (Peer Address) → Prop) :
    TransferState (Peer Address) → TransferState (Peer Address) →
      List (Peer Address × ProtoEvent) → Prop
  | nothing (state : TransferState (Peer Address)) : Performs sha256 base64 allows state state []
  | call {state last : TransferState (Peer Address)} {operation : Call (Peer Address)}
      {messages : List (Peer Address × ProtoEvent)} (allowed : allows operation)
      (rest : Performs sha256 base64 allows (state.perform sha256 base64 operation).state last
        messages) :
      Performs sha256 base64 allows state last
        ((state.perform sha256 base64 operation).sent ++ messages)

def Event.Allows (around : Surroundings Address) (service : Service Address)
    (event : Event Address) : Call (Peer Address) → Prop
  | .localCopyManifest _ _ wireId _ _ offer =>
    ∃ result copied, event = .manifestOffer result ∧ result.offer = .ok copied ∧
      offer = { copied with transferId := wireId }
  | .sourceChunk owner fileId requestId offset data =>
    ∃ result file digest, event = .sourceResult result ∧
      result.result = .ok (file, some (offset, data), digest) ∧ owner = result.owner ∧
      fileId = result.fileId ∧ requestId = result.requestId
  | call => call.message = none ∨ event.operation around service = some call

variable {sha256 : Bytes → Digest} {base64 : Bytes → String} {around : Surroundings Address}
  {service : Service Address} {allows : Call (Peer Address) → Prop}

namespace Performs

variable {state later last : TransferState (Peer Address)}
  {messages further : List (Peer Address × ProtoEvent)}

theorem one {operation : Call (Peer Address)} (allowed : allows operation) :
    Performs sha256 base64 allows state (state.perform sha256 base64 operation).state
      (state.perform sha256 base64 operation).sent := by
  have performs : Performs sha256 base64 allows state
      (state.perform sha256 base64 operation).state _ := .call allowed (.nothing _)
  rwa [append_nil] at performs

theorem trans (first : Performs sha256 base64 allows state later messages)
    (second : Performs sha256 base64 allows later last further) :
    Performs sha256 base64 allows state last (messages ++ further) := by
  induction first with
  | nothing state => exact second
  | call allowed rest ih =>
    rw [append_assoc]
    exact .call allowed (ih second)

variable (performs : Performs sha256 base64 allows state later messages)
include performs

theorem sound (sound : state.Sound False) : later.Sound False := by
  induction performs with
  | nothing state => exact sound
  | call allowed rest ih => exact ih (sound.perform sha256 base64 False.elim)

theorem offers (sound : state.Sound False) {owner : TransferOwner (Peer Address)}
    {transfer : LocalTransfer} (found : later.localTransfers.lookup owner = some transfer) :
    (∃ before, state.localTransfers.lookup owner = some before ∧
      before.offer = transfer.offer) ∨
      (∃ operation, allows operation ∧ operation.Offers owner transfer.offer) ∧
        (owner.peer, .clipboardManifest owner.wireId transfer.offer.entries) ∈ messages := by
  induction performs with
  | nothing state => exact .inl ⟨transfer, found, rfl⟩
  | @call state last operation messages allowed rest ih =>
    have follows := perform_follows sound sha256 base64 operation
    rcases ih (sound.perform sha256 base64 False.elim) found with
      ⟨between, there, same⟩ | ⟨made, told⟩
    · rcases follows.traced.offers owner between there with earlier | ⟨offers, told⟩
      · exact .inl (same ▸ earlier)
      · rw [same] at offers told
        exact .inr ⟨⟨operation, allowed, offers⟩, mem_append_left _ told⟩
    · exact .inr ⟨made, mem_append_right _ told⟩

theorem returns (sound : state.Sound False) {peer : Peer Address} {message : ProtoEvent}
    (told : (peer, message) ∈ messages) :
    ∃ (earlier : TransferState (Peer Address)) (operation : Call (Peer Address)),
      allows operation ∧ earlier.Returns base64 operation (.peer peer message) := by
  induction performs with
  | nothing state => cases told
  | @call state last operation messages allowed rest ih =>
    rcases mem_append.mp told with first | others
    · have follows := perform_follows sound sha256 base64 operation
      exact ⟨state, operation, allowed, follows.returns _ (mem_peerMessages.mp first)⟩
    · exact ih (sound.perform sha256 base64 False.elim) others

end Performs

section Parts

variable (sha256 base64 around service)

theorem executeTransferActions_performs
    (lost : ∀ order adapterId, allows (.adapterLost order adapterId))
    (actions : List (TransferAction (Peer Address))) :
    ∃ nested, Performs sha256 base64 allows service.transfers
        (service.executeTransferActions sha256 base64 around actions).transfers nested ∧
      ∀ message, message ∈ service.sentByActions sha256 base64 around actions ↔
        message ∈ peerMessages actions ∨ message ∈ nested := by
  induction actions generalizing service with
  | nil => exact ⟨[], .nothing _, by simp [sentByActions, peerMessages]⟩
  | cons action actions ih =>
    have first : ∃ own, Performs sha256 base64 allows service.transfers
        (service.executeAction sha256 base64 around action).transfers own ∧
        ∀ message, message ∈ service.sentByAction sha256 base64 around action ↔
          message ∈ peerMessages [action] ∨ message ∈ own := by
      cases action with
      | peer peer event => exact ⟨[], .nothing _, by simp [sentByAction, peerMessages]⟩
      | adapter adapterId message =>
        cases message with
        | remoteManifest transferId operation entries =>
          simp only [sentByAction, executeAction]
          split
          · exact ⟨[], .nothing _, by simp [peerMessages]⟩
          · exact ⟨_, .one (lost _ _), by simp [peerMessages, sent, call]⟩
        | _ => exact ⟨[], .nothing _, by simp [sentByAction, peerMessages]⟩
      | _ => exact ⟨[], .nothing _, by simp [sentByAction, peerMessages]⟩
    rcases first with ⟨own, performs, told⟩
    rcases ih (service.executeAction sha256 base64 around action) with ⟨nested, rest, further⟩
    refine ⟨own ++ nested, performs.trans rest, ?_⟩
    intro message
    rw [← singleton_append (l := actions), peerMessages_append, singleton_append]
    simp only [sentByActions, mem_append, told, further]
    tauto

theorem executed_performs (lost : ∀ order adapterId, allows (.adapterLost order adapterId))
    {operation : Call (Peer Address)} (allowed : allows operation) :
    ∃ messages, Performs sha256 base64 allows service.transfers
        (service.callAndExecute sha256 base64 around operation).transfers messages ∧
      ∀ message, message ∈ service.sentByCall sha256 base64 around operation ↔
        message ∈ messages := by
  have first : Performs sha256 base64 allows service.transfers
      (service.transfers.perform sha256 base64 operation).state _ := .one allowed
  simp only [callAndExecute, sentByCall, call]
  cases outcome : (service.transfers.perform sha256 base64 operation).result with
  | error error =>
    refine ⟨_, first, ?_⟩
    simp [sent, outcome, Except.toOption, peerMessages]
  | ok actions =>
    rcases executeTransferActions_performs sha256 base64 around
      { service with transfers := (service.transfers.perform sha256 base64 operation).state }
      lost actions with
      ⟨nested, rest, told⟩
    refine ⟨_, first.trans rest, ?_⟩
    intro message
    rw [told, mem_append, sent, outcome]
    rfl

theorem offerToClients_performs {result : ManifestOffer} {copied : FileOffer}
    (offers : ∀ order peer wireId,
      allows (.localCopyManifest order peer wireId result.adapterId result.manifest
        { copied with transferId := wireId })) (handles : List ClientHandle)
    (sofar : Service Address × List (TransferAction (Peer Address))) :
    ∃ messages, Performs sha256 base64 allows sofar.1.transfers
        (handles.foldl (offerToClient sha256 base64 around result copied) sofar).1.transfers
        messages ∧
      ∀ message, message ∈ peerMessages
          (handles.foldl (offerToClient sha256 base64 around result copied) sofar).2 ↔
        message ∈ peerMessages sofar.2 ∨ message ∈ messages := by
  induction handles generalizing sofar with
  | nil => exact ⟨[], .nothing _, by simp⟩
  | cons handle handles ih =>
    rcases ih (offerToClient sha256 base64 around result copied sofar handle) with
      ⟨others, rest, told⟩
    have first : Performs sha256 base64 allows sofar.1.transfers
        (offerToClient sha256 base64 around result copied sofar handle).1.transfers _ :=
      .one (offers around.order (.capture handle) (max (sofar.1.nextClipboardTransfer + 1) 1))
    refine ⟨_, first.trans rest, ?_⟩
    intro message
    rw [foldl_cons, told]
    simp only [offerToClient, call, peerMessages_append, mem_append, sent]
    tauto

theorem handleManifestOffer_performs (result : ManifestOffer) :
    ∃ messages, Performs sha256 base64 ((manifestOffer result).Allows around service)
        service.transfers (service.handleManifestOffer sha256 base64 around result).transfers
        messages ∧
      ∀ message, message ∈ service.sentByManifestOffer sha256 base64 around result ↔
        message ∈ messages := by
  simp only [handleManifestOffer, sentByManifestOffer]
  split
  · exact ⟨[], .nothing _, by simp⟩
  · cases selected : result.offer with
    | error error => exact ⟨[], .nothing _, by simp⟩
    | ok copied =>
      have lost : ∀ order adapterId, (manifestOffer result).Allows around service
          (.adapterLost order adapterId) := fun _ _ => .inl rfl
      have offers : ∀ order peer wireId, (manifestOffer result).Allows around service
          (.localCopyManifest order peer wireId result.adapterId result.manifest
            { copied with transferId := wireId }) :=
        fun _ _ _ => ⟨result, copied, rfl, selected, rfl⟩
      rcases offerToClients_performs sha256 base64 around offers around.clipboardClients
        (service, []) with ⟨made, first, announced⟩
      dsimp only
      generalize around.clipboardClients.foldl
        (offerToClient sha256 base64 around result copied) (service, []) = offered
        at first announced ⊢
      rcases executeTransferActions_performs sha256 base64 around offered.1 lost offered.2 with
        ⟨nested, rest, told⟩
      refine ⟨_, first.trans rest, ?_⟩
      intro message
      rw [told, announced, mem_append]
      simp [peerMessages]

omit [DecidableEq Address] in
theorem sent_of_error {outcome : Outcome (Peer Address)}
    {error : TransferStateError (Peer Address)} (failed : outcome.result = .error error) :
    outcome.sent = [] := by
  simp [sent, failed, Except.toOption, peerMessages]

theorem insertOutgoingFile_sent (state : TransferState (Peer Address))
    (owner : TransferOwner (Peer Address)) (fileId requestId offset length : UInt64)
    (file : OutgoingFile) :
    (state.insertOutgoingFile owner fileId requestId offset length file).sent = [] := by
  rw [insertOutgoingFile]
  rcases attempt_cases state _ _ with ⟨error, failed⟩ | ⟨value, _, done⟩
  · rw [failed]
    rfl
  · rw [done]
    rfl

theorem sendSource_performs {result : SourceReadResult Address} {file : OutgoingFile}
    {offset : UInt64} {data : Bytes} (digest : Option Digest)
    (lost : ∀ order adapterId, allows (.adapterLost order adapterId))
    (inserts : allows (.insertOutgoingFile result.owner result.fileId result.requestId
      result.offset result.length file))
    (sends : allows (.sourceChunk result.owner result.fileId result.requestId offset data))
    (completes : ∀ size digest, allows (.sourceComplete result.owner result.fileId result.requestId
      size digest)) :
    ∃ messages, Performs sha256 base64 allows service.transfers
        (service.sendSource sha256 base64 around result file offset data digest).transfers
        messages ∧
      ∀ message, message ∈ service.sentBySource sha256 base64 around result file offset data
          digest ↔ message ∈ messages := by
  have inserting : Performs sha256 base64 allows service.transfers
      (service.transfers.perform sha256 base64 (.insertOutgoingFile result.owner result.fileId
        result.requestId result.offset result.length file)).state _ := .one inserts
  have silent := insertOutgoingFile_sent service.transfers result.owner result.fileId
    result.requestId result.offset result.length file
  simp only [perform] at inserting
  rw [silent] at inserting
  simp only [sendSource, sentBySource, call, perform]
  generalize service.transfers.insertOutgoingFile result.owner result.fileId
    result.requestId result.offset result.length file = inserted at inserting ⊢
  cases inserted.result with
  | error error => exact ⟨[], inserting, by simp⟩
  | ok taken =>
    have sending : Performs sha256 base64 allows inserted.state
        (inserted.state.perform sha256 base64 (.sourceChunk result.owner result.fileId
          result.requestId offset data)).state _ := .one sends
    simp only [perform] at sending
    generalize inserted.state.sourceChunk result.owner result.fileId result.requestId offset
      data = sent at sending ⊢
    cases outcome : sent.result with
    | error error =>
      rw [sent_of_error outcome] at sending
      exact ⟨[], inserting.trans sending, by simp⟩
    | ok actions =>
      rcases executeTransferActions_performs sha256 base64 around
        { service with transfers := sent.state } lost actions with ⟨nested, executing, told⟩
      have chunk := (inserting.trans sending).trans executing
      have own : sent.sent = peerMessages actions := by
        simp [Outcome.sent, outcome, Except.toOption]
      rw [nil_append, own] at chunk
      cases digest with
      | none =>
        refine ⟨_, chunk, ?_⟩
        intro message
        simp [told]
      | some digest =>
        rcases executed_performs sha256 base64 around
          (Service.executeTransferActions sha256 base64 around
            { service with transfers := sent.state } actions) lost
          (completes (result.offset + result.length) digest) with
          ⟨last, completing, ended⟩
        refine ⟨_, chunk.trans completing, ?_⟩
        intro message
        rw [mem_append, told, ended, mem_append, mem_append]

theorem handleSourceResult_performs (result : SourceReadResult Address) :
    ∃ messages, Performs sha256 base64 ((sourceResult result).Allows around service)
        service.transfers (service.handleSourceResult sha256 base64 around result).transfers
        messages ∧
      ∀ message, message ∈ service.sentBySourceResult sha256 base64 around result ↔
        message ∈ messages := by
  have served : ∀ (later : Service Address) messages,
      Performs sha256 base64 ((sourceResult result).Allows around service)
        service.transfers later.transfers messages →
      Performs sha256 base64 ((sourceResult result).Allows around service)
        service.transfers (later.call sha256 base64 (.sourceRangeServed result.owner result.fileId
          result.requestId)).1.transfers messages := by
    intro later messages performs
    have last : Performs sha256 base64 ((sourceResult result).Allows around service)
        later.transfers (later.transfers.perform sha256 base64 (.sourceRangeServed result.owner
          result.fileId result.requestId)).state [] := .one (.inl rfl)
    have whole := performs.trans last
    rwa [append_nil] at whole
  have lost : ∀ order adapterId, (sourceResult result).Allows around service
      (.adapterLost order adapterId) := fun _ _ => .inl rfl
  unfold handleSourceResult sentBySourceResult
  rcases read : result.result with error | ⟨file, _ | ⟨offset, data⟩, digest⟩
  · exact ⟨[], served _ _ (.nothing _), by simp⟩
  · exact ⟨[], served _ _ (.nothing _), by simp⟩
  · dsimp only
    have sends : (sourceResult result).Allows around service (.sourceChunk result.owner
        result.fileId result.requestId offset data) :=
      ⟨result, file, digest, rfl, read, rfl, rfl, rfl⟩
    rcases sendSource_performs sha256 base64 around service digest lost (.inl rfl) sends
      fun _ _ => .inl rfl with ⟨messages, performs, told⟩
    exact ⟨messages, served _ _ performs, told⟩

end Parts

variable {operation : Call (Peer Address)} {event : Event Address}

omit [DecidableEq Address] in
theorem message_of_fileOperation {peer : Peer Address} {event : ProtoEvent}
    (leads : fileOperation around peer event = some operation) :
    operation.message = some (peer, event) := by
  cases event with
  | _ =>
    cases leads
    try rfl

theorem allows_of_message {message : Peer Address × ProtoEvent}
    (leads : event.operation around service = some operation)
    (handed : operation.message = some message) : event.Allows around service operation := by
  cases operation with
  | localCopyManifest | sourceChunk => cases handed
  | _ => exact .inr leads

theorem allows_of_word {adapterId : AdapterId} {word : AdapterWord}
    (leads : word.operation around adapterId = some operation) :
    event.Allows around service operation := by
  cases word with
  | _ =>
    cases leads
    try exact .inl rfl

theorem allows_of_operation (leads : event.operation around service = some operation) :
    event.Allows around service operation := by
  have whole := leads
  cases event with
  | clipboardProtocol addr event | clipboard handle fingerprint event =>
    simp only [Event.operation] at leads
    split at leads
    · exact allows_of_message whole (message_of_fileOperation leads)
    · cases leads
  | adapterMessage adapterId word => exact allows_of_word leads
  | peerLost handle | adapterCancelled adapterId transferId | adapterExited adapterId
  | cancelClipboardTransfer uiId =>
    cases leads
    exact .inl rfl
  | _ => cases leads

variable (sha256 base64 around service) in
theorem handle_performs (event : Event Address) :
    ∃ messages, Performs sha256 base64 (event.Allows around service) service.transfers
        (service.handle sha256 base64 around event).transfers messages ∧
      ∀ message, message ∈ service.sentBy sha256 base64 around event ↔ message ∈ messages := by
  by_cases offer : ∃ result, event = .manifestOffer result
  · rcases offer with ⟨result, rfl⟩
    exact handleManifestOffer_performs sha256 base64 around service result
  by_cases read : ∃ result, event = .sourceResult result
  · rcases read with ⟨result, rfl⟩
    exact handleSourceResult_performs sha256 base64 around service result
  rw [not_exists] at offer read
  have sends : service.sentBy sha256 base64 around event =
      (event.operation around service).elim [] (service.sentByCall sha256 base64 around) := by
    unfold Service.sentBy
    split
    · exact absurd rfl (offer _)
    · exact absurd rfl (read _)
    · cases event.operation around service with
      | none | some operation => rfl
  rw [sends]
  cases leads : event.operation around service with
  | none =>
    have performs : Performs sha256 base64 (event.Allows around service) service.transfers
        (service.handle sha256 base64 around event).transfers [] :=
      handle_of_silent (P := fun state =>
        Performs sha256 base64 (event.Allows around service) service.transfers state [])
        leads offer read (.nothing _) fun adapterId => by
          have allowed : event.Allows around service (.setFileClipboardAdapter adapterId) :=
            .inl rfl
          exact .one allowed
    exact ⟨[], performs, by simp⟩
  | some operation =>
    rw [handle_transfers_of_operation leads]
    exact executed_performs sha256 base64 around service (fun _ _ => .inl rfl)
      (allows_of_operation leads)

section Sound

variable (sound : service.transfers.Sound False)
include sound

theorem call_sound (operation : Call (Peer Address)) :
    (service.call sha256 base64 operation).1.transfers.Sound False :=
  sound.perform sha256 base64 False.elim

theorem executeTransferActions_sound (actions : List (TransferAction (Peer Address))) :
    (service.executeTransferActions sha256 base64 around actions).transfers.Sound False := by
  let every : Call (Peer Address) → Prop := fun _ => True
  have lost : ∀ order adapterId, every (.adapterLost order adapterId) := fun _ _ => trivial
  rcases executeTransferActions_performs sha256 base64 around service lost actions with
    ⟨_, performs, _⟩
  exact performs.sound sound

omit sound in
theorem offerToClients_sound {result : ManifestOffer} {offer : FileOffer}
    (handles : List ClientHandle) (sofar : Service Address × List (TransferAction (Peer Address)))
    (sound : sofar.1.transfers.Sound False) :
    (handles.foldl (offerToClient sha256 base64 around result offer) sofar).1.transfers.Sound
      False := by
  let every : Call (Peer Address) → Prop := fun _ => True
  have offers : ∀ order peer wireId, every (.localCopyManifest order peer wireId result.adapterId
      result.manifest { offer with transferId := wireId }) := fun _ _ _ => trivial
  rcases offerToClients_performs sha256 base64 around offers handles sofar with ⟨_, performs, _⟩
  exact performs.sound sound

end Sound

end Syntra.Service
