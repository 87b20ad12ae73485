import Syntra.Clipboard.Manifest
import Syntra.Service.PeerLoss

/-!
# Answers to the requests for local files

What the service sends to its peers while it handles an event, beside what the event does to the
transfers. A request for a range of a local file that ends is answered in the event that ends it,
but for a range that could not be read and for two endings by an adapter.
-/

namespace Syntra.Service

open ByteFormat Proto Files Clipboard StateMachine Tables Service

variable {Address : Type} [DecidableEq Address]

/-- The peer has cancelled the transfer or is gone. -/
def Event.EndedByPeer (key : RequestKey (Peer Address)) : Event Address → Prop
  | .clipboardProtocol addr (.clipboardTransferCancel wireId _ _) =>
    key.1 = ⟨.emulation addr, wireId⟩
  | .clipboard handle _ (.clipboardTransferCancel wireId _ _) => key.1 = ⟨.capture handle, wireId⟩
  | .peerLost handle => key.1.peer = .capture handle
  | _ => False

/-- A request that is no longer pending was answered, unless its peer is gone. -/
def AnswersRequests (sha256 : Bytes → Digest) (base64 : Bytes → String)
    (around : Surroundings Address) (service : Service Address) (event : Event Address) : Prop :=
  ∀ key, key ∈ service.transfers.sourcePending →
    key ∉ (service.handle sha256 base64 around event).transfers.sourcePending →
    (service.identity key.1.peer).isSome → ¬event.EndedByPeer key →
    ∃ message, (key.1.peer, message) ∈ service.sentBy sha256 base64 around event ∧
      Answers key message

/-- What was read is what the peer has asked for, and no file is open for the request yet. -/
structure Brings (service : Service Address) (result : SourceReadResult Address)
    (file : OutgoingFile) (offset : UInt64) (data : Bytes) : Prop where
  file : file.fileId = result.fileId
  unopened : ∀ transfer, service.transfers.localTransfers.lookup result.owner = some transfer →
    (result.fileId, result.requestId) ∉ transfer.outgoing
  reserved : service.transfers.sourcePending.lookup
    (result.owner, result.fileId, result.requestId) = some (result.offset, result.length)
  offset : offset = result.offset
  nonempty : data ≠ []
  fits : data.length ≤ result.length.toNat
  bounded : data.length ≤ maxClipboardFileChunkSize

/-- The read succeeded and brought what the peer has asked for. -/
def Serves (service : Service Address) (result : SourceReadResult Address) : Prop :=
  ∃ file offset data digest, result.result = .ok (file, some (offset, data), digest) ∧
    service.Brings result file offset data

/-- The event ends no request without an answer. -/
def Event.DropsNothing (service : Service Address) : Event Address → Prop
  | .adapterMessage adapterId (.completed completion) =>
    ∀ key ∈ service.transfers.sourcePending, (service.identity key.1.peer).isSome →
      ¬service.transfers.IsRegistered key.1 (adapterId, completion.transferId)
  | .adapterMessage adapterId (.unmounted unmounted) =>
    ∀ key ∈ service.transfers.sourcePending, (service.identity key.1.peer).isSome →
      ¬service.transfers.IsRegistered key.1 (adapterId, unmounted.transferId)
  | .sourceResult result =>
    (result.owner, result.fileId, result.requestId) ∈ service.transfers.sourcePending →
      (service.identity result.owner.peer).isSome → service.Serves result
  | _ => True

variable {sha256 : Bytes → Digest} {base64 : Bytes → String} {around : Surroundings Address}
  {service : Service Address} {key : RequestKey (Peer Address)}

variable {actions : List (TransferAction (Peer Address))} {peer : Peer Address}
  {operation : Call (Peer Address)} {event : Event Address} {result : SourceReadResult Address}

theorem mem_sentByActions {message : ProtoEvent} (told : (peer, message) ∈ peerMessages actions) :
    (peer, message) ∈ service.sentByActions sha256 base64 around actions := by
  rw [mem_peerMessages] at told
  induction actions generalizing service with
  | nil => cases told
  | cons _ _ ih =>
    rw [sentByActions, List.mem_append]
    rcases List.mem_cons.mp told with rfl | later
    · exact .inl (.head _)
    · exact .inr (ih later)

variable (sound : service.transfers.Sound False)
include sound

theorem call_accounted (unexcused : ¬operation.Excuses key)
    (undropped : ¬operation.Drops service.transfers key) :
    Accounted key service.transfers (service.call sha256 base64 operation).1.transfers
      (peerMessages ((service.call sha256 base64 operation).2.toOption.getD [])) :=
  TransferState.perform_accounted sound sha256 base64 unexcused undropped

theorem executeAction_accounted (action : TransferAction (Peer Address)) :
    Accounted key service.transfers (service.executeAction sha256 base64 around action).transfers
      (service.sentByAction sha256 base64 around action) := by
  cases action with
  | adapter _ message =>
    cases message with
    | remoteManifest =>
      simp only [executeAction, sentByAction]
      split
      · exact .of_same rfl
      · refine call_accounted sound ?_ ?_
        · exact id
        · exact id
    | _ => exact .of_same rfl
  | _ => exact .of_same rfl

theorem executeTransferActions_accounted (actions : List (TransferAction (Peer Address))) :
    Accounted key service.transfers
      (service.executeTransferActions sha256 base64 around actions).transfers
      (service.sentByActions sha256 base64 around actions) := by
  induction actions generalizing service with
  | nil => exact .of_same rfl
  | cons action _ ih =>
    exact (executeAction_accounted sound action).trans
      (ih (executeTransferActions_sound sound [action]))

omit sound in
theorem accounted_of_executed {later : Service Address}
    {messages : List (Peer Address × ProtoEvent)} (sound : later.transfers.Sound False)
    (accounted : Accounted key service.transfers later.transfers messages)
    (told : ∀ message ∈ messages, message ∈ peerMessages actions) :
    Accounted key service.transfers
      (later.executeTransferActions sha256 base64 around actions).transfers
      (later.sentByActions sha256 base64 around actions) := by
  apply (accounted.trans (executeTransferActions_accounted sound actions)).mono
  intro message member
  rcases List.mem_append.mp member with before | now
  · exact mem_sentByActions (told message before)
  · exact now

theorem callAndExecute_accounted (unexcused : ¬operation.Excuses key)
    (undropped : ¬operation.Drops service.transfers key) :
    Accounted key service.transfers
      (service.callAndExecute sha256 base64 around operation).transfers
      (service.sentByCall sha256 base64 around operation) := by
  have called : (service.call sha256 base64 operation).1.transfers.Sound False :=
    call_sound sound operation
  have accounted : Accounted key service.transfers
      (service.call sha256 base64 operation).1.transfers _ :=
    call_accounted sound unexcused undropped
  unfold callAndExecute sentByCall
  rcases outcome : service.call sha256 base64 operation with ⟨_, _ | _⟩
  · rw [outcome] at accounted
    exact accounted
  · rw [outcome] at called accounted
    exact accounted_of_executed called accounted fun _ told => told

omit sound

section

omit [DecidableEq Address]

theorem excuses_of_fileOperation {event : ProtoEvent}
    (leads : fileOperation around peer event = some operation) (excused : operation.Excuses key) :
    ∃ wireId fileId reason, event = .clipboardTransferCancel wireId fileId reason ∧
      key.1 = ⟨peer, wireId⟩ := by
  cases event with
  | clipboardTransferCancel wireId fileId reason =>
    cases leads
    exact ⟨wireId, fileId, reason, rfl, excused⟩
  | _ =>
    cases leads
    try exact excused.elim

theorem not_drops_of_fileOperation {event : ProtoEvent}
    (leads : fileOperation around peer event = some operation)
    (state : TransferState (Peer Address)) : ¬operation.Drops state key := by
  cases event with
  | _ =>
    cases leads
    try exact id

theorem excuses_of_word {adapterId : AdapterId} {word : AdapterWord}
    (leads : word.operation around adapterId = some operation) : ¬operation.Excuses key := by
  cases word with
  | _ =>
    cases leads
    try exact id

end

theorem excuses_of_operation (leads : event.operation around service = some operation)
    (excused : operation.Excuses key) : event.EndedByPeer key := by
  cases event with
  | clipboardProtocol | clipboard =>
    simp only [Event.operation] at leads
    split at leads
    · rcases excuses_of_fileOperation leads excused with ⟨_, _, _, rfl, own⟩
      exact own
    · cases leads
  | peerLost =>
    cases leads
    exact excused
  | adapterMessage => exact absurd excused (excuses_of_word leads)
  | adapterCancelled | adapterExited | cancelClipboardTransfer =>
    cases leads
    exact excused
  | _ => cases leads

theorem drops_of_operation (leads : event.operation around service = some operation)
    (dropped : operation.Drops service.transfers key)
    (requested : key ∈ service.transfers.sourcePending)
    (present : (service.identity key.1.peer).isSome) : ¬event.DropsNothing service := by
  cases event with
  | clipboardProtocol | clipboard =>
    simp only [Event.operation] at leads
    split at leads
    · exact absurd dropped (not_drops_of_fileOperation leads _)
    · cases leads
  | adapterMessage _ word =>
    cases word with
    | completed | unmounted =>
      cases leads
      exact fun nothing => nothing key requested present dropped
    | _ =>
      cases leads
      try exact dropped.elim
  | peerLost | adapterCancelled | adapterExited | cancelClipboardTransfer =>
    cases leads
    exact dropped.elim
  | _ => cases leads

theorem offerToClients_accounted {result : ManifestOffer} {offer : FileOffer}
    (handles : List ClientHandle) (sofar : Service Address × List (TransferAction (Peer Address)))
    (sound : sofar.1.transfers.Sound False) {earlier : TransferState (Peer Address)}
    (accounted : Accounted key earlier sofar.1.transfers (peerMessages sofar.2)) :
    Accounted key earlier
      (handles.foldl (offerToClient sha256 base64 around result offer) sofar).1.transfers
      (peerMessages (handles.foldl (offerToClient sha256 base64 around result offer) sofar).2) := by
  induction handles generalizing sofar with
  | nil => exact accounted
  | cons _ _ ih =>
    refine ih _ (sound.perform sha256 base64 False.elim) ?_
    simp only [offerToClient, peerMessages_append]
    refine accounted.trans (call_accounted ?_ ?_ ?_)
    · exact sound
    · exact id
    · exact id

theorem handleManifestOffer_accounted (sound : service.transfers.Sound False)
    (result : ManifestOffer) :
    Accounted key service.transfers
      (service.handleManifestOffer sha256 base64 around result).transfers
      (service.sentByManifestOffer sha256 base64 around result) := by
  unfold handleManifestOffer sentByManifestOffer
  split
  · exact .of_same rfl
  · cases result.offer with
    | error => exact .of_same rfl
    | ok =>
      apply accounted_of_executed _ (offerToClients_accounted around.clipboardClients
        (service, []) sound (.of_same rfl)) fun _ told => told
      exact offerToClients_sound around.clipboardClients (service, []) sound

theorem sendSource_accounted (sound : service.transfers.Sound False)
    (result : SourceReadResult Address) (file : OutgoingFile) (offset : UInt64) (data : Bytes)
    (digest : Option Digest) :
    Accounted key service.transfers
      (service.sendSource sha256 base64 around result file offset data digest).transfers
      (service.sentBySource sha256 base64 around result file offset data digest) := by
  have same : (service.call sha256 base64 (.insertOutgoingFile result.owner result.fileId
      result.requestId result.offset result.length file)).1.transfers.sourcePending =
        service.transfers.sourcePending := TransferState.insertOutgoingFile_sourcePending
  have kept : (service.call sha256 base64 (.insertOutgoingFile result.owner result.fileId
      result.requestId result.offset result.length file)).1.transfers.Sound False :=
    call_sound sound _
  unfold sendSource sentBySource
  rcases insertion : service.call sha256 base64 (.insertOutgoingFile result.owner result.fileId
    result.requestId result.offset result.length file) with ⟨inserted, error | taken⟩
  · rw [insertion] at same
    exact .of_same same
  · rw [insertion] at same kept
    have told : Accounted key inserted.transfers (inserted.call sha256 base64 (.sourceChunk
        result.owner result.fileId result.requestId offset data)).1.transfers _ :=
      call_accounted kept id id
    have stays : (inserted.call sha256 base64 (.sourceChunk result.owner result.fileId
        result.requestId offset data)).1.transfers.Sound False := call_sound kept _
    dsimp only
    rcases sending : inserted.call sha256 base64 (.sourceChunk result.owner result.fileId
      result.requestId offset data) with ⟨sent, error | actions⟩
    · rw [sending] at told
      exact told.of_earlier same
    · rw [sending] at told stays
      have executed : Accounted key service.transfers
          (sent.executeTransferActions sha256 base64 around actions).transfers _ :=
        (accounted_of_executed stays told fun _ member => member).of_earlier same
      refine executed.trans ?_
      cases digest with
      | none => exact .of_same rfl
      | some =>
        exact callAndExecute_accounted (executeTransferActions_sound stays actions) id id

theorem brings_iff {transfer : LocalTransfer}
    (found : service.transfers.localTransfers.lookup result.owner = some transfer)
    {file : OutgoingFile} {offset : UInt64} {data : Bytes} {inserted : Outcome (Peer Address)}
    (insertion : service.transfers.insertOutgoingFile result.owner result.fileId
      result.requestId result.offset result.length file = inserted) :
    service.Brings result file offset data ↔
      (∃ actions, inserted.result = .ok actions) ∧ ∃ actions,
        (inserted.state.sourceChunk result.owner result.fileId result.requestId offset
          data).result = .ok actions := by
  rw [TransferState.serving_succeeds insertion found]
  constructor
  · intro brings
    exact ⟨brings.file, brings.unopened transfer found, brings.reserved, brings.offset,
      brings.nonempty, brings.fits, brings.bounded⟩
  · rintro ⟨same, unopened, reserved, begins, nonempty, fits, bounded⟩
    refine ⟨same, ?_, reserved, begins, nonempty, fits, bounded⟩
    intro _ there
    rw [found] at there
    cases there
    exact unopened

theorem sentBySource_cases {transfer : LocalTransfer}
    (found : service.transfers.localTransfers.lookup result.owner = some transfer)
    (file : OutgoingFile) (offset : UInt64) (data : Bytes) (digest : Option Digest) :
    (service.Brings result file offset data ∧
      (result.owner.peer, .clipboardFileChunk result.owner.wireId result.fileId result.requestId
        offset data) ∈ service.sentBySource sha256 base64 around result file offset data digest) ∨
      ¬service.Brings result file offset data ∧
        service.sentBySource sha256 base64 around result file offset data digest = [] := by
  generalize insertion : service.transfers.insertOutgoingFile result.owner result.fileId
    result.requestId result.offset result.length file = inserted
  rw [brings_iff found insertion]
  have entered : service.call sha256 base64 (.insertOutgoingFile result.owner result.fileId
      result.requestId result.offset result.length file) =
        ({ service with transfers := inserted.state }, inserted.result) := by
    simp only [call, TransferState.perform, insertion]
  unfold sentBySource
  rw [entered]
  dsimp only
  cases taken : inserted.result with
  | error => exact .inr ⟨by simp, rfl⟩
  | ok actions =>
    generalize sending : inserted.state.sourceChunk result.owner result.fileId result.requestId
      offset data = sent
    have told : call sha256 base64 { service with transfers := inserted.state }
        (.sourceChunk result.owner result.fileId result.requestId offset data) =
        ({ service with transfers := sent.state }, sent.result) := by
      simp only [call, TransferState.perform, sending]
    rw [told]
    cases outcome : sent.result with
    | error => exact .inr ⟨by simp, rfl⟩
    | ok chunk =>
      rw [← sending] at outcome
      refine .inl ⟨⟨⟨actions, rfl⟩, chunk, rfl⟩, ?_⟩
      rw [(TransferState.sourceChunk_eq_ok outcome).1]
      exact List.mem_append_left _ (.head _)

theorem sentBySourceResult_cases (sound : service.transfers.Sound False)
    (requested : (result.owner, result.fileId, result.requestId) ∈ service.transfers.sourcePending)
    :
    (service.Serves result ∧ ∃ offset data, (result.owner.peer, .clipboardFileChunk
        result.owner.wireId result.fileId result.requestId offset data) ∈
          service.sentBySourceResult sha256 base64 around result) ∨
      ¬service.Serves result ∧ service.sentBySourceResult sha256 base64 around result = [] := by
  rcases (mem_iff_lookup _ _).mp requested with ⟨reservation, reserved⟩
  rcases sound.reserved _ reservation reserved with ⟨_, found⟩
  unfold sentBySourceResult Serves
  rcases result.result with _ | ⟨file, _ | ⟨offset, data⟩, digest⟩
  · exact .inr ⟨by simp, rfl⟩
  · exact .inr ⟨by simp, rfl⟩
  · rcases sentBySource_cases found file offset data digest with ⟨brings, told⟩ | ⟨fails, silent⟩
    · exact .inl ⟨⟨file, offset, data, digest, rfl, brings⟩, offset, data, told⟩
    · refine .inr ⟨?_, silent⟩
      rintro ⟨_, _, _, _, same, brings⟩
      cases same
      exact fails brings

variable (around) in
theorem handleSourceResult_gone (result : SourceReadResult Address) :
    (result.owner, result.fileId, result.requestId) ∉
      (service.handleSourceResult sha256 base64 around result).transfers.sourcePending :=
  fun kept => (AList.mem_erase.mp kept).1 rfl

variable (sound : service.transfers.Sound False)
include sound

theorem handleSourceResult_accounted
    (other : key ≠ (result.owner, result.fileId, result.requestId)) :
    Accounted key service.transfers
      (service.handleSourceResult sha256 base64 around result).transfers
      (service.sentBySourceResult sha256 base64 around result) := by
  have served : ∀ (later : Service Address) messages,
      Accounted key service.transfers later.transfers messages →
      Accounted key service.transfers (later.call sha256 base64 (.sourceRangeServed result.owner
        result.fileId result.requestId)).1.transfers messages := by
    intro _ _ accounted requested gone
    apply accounted requested
    intro kept
    exact gone (AList.mem_erase.mpr ⟨other, kept⟩)
  unfold handleSourceResult sentBySourceResult
  apply served
  rcases result.result with _ | ⟨file, _ | ⟨offset, data⟩, digest⟩
  · exact .of_same rfl
  · exact .of_same rfl
  · exact sendSource_accounted sound result file offset data digest

theorem handleSourceResult_answers (result : SourceReadResult Address) :
    service.AnswersRequests sha256 base64 around (.sourceResult result) ↔
      (Event.sourceResult result).DropsNothing service := by
  constructor
  · intro answers requested present
    by_contra unserved
    rcases answers _ requested (handleSourceResult_gone around result) present id with ⟨_, told, _⟩
    change _ ∈ service.sentBySourceResult sha256 base64 around result at told
    rcases sentBySourceResult_cases sound requested with ⟨served, _⟩ | ⟨_, silent⟩
    · exact unserved served
    · rw [silent] at told
      cases told
  · intro serves key requested gone present _
    by_cases own : key = (result.owner, result.fileId, result.requestId)
    · subst own
      rcases sentBySourceResult_cases sound requested with ⟨_, _, _, told⟩ | ⟨unserved, _⟩
      · exact ⟨_, told, rfl, rfl, rfl⟩
      · exact absurd (serves requested present) unserved
    · exact handleSourceResult_accounted sound own requested gone

omit sound in
theorem silent_of_shows (shows : ∀ action ∈ actions, ∃ event, action = .frontend event) :
    service.sentByActions sha256 base64 around actions = [] ∧
      service.executeTransferActions sha256 base64 around actions = service := by
  refine ⟨?_, ?_⟩
  · induction actions generalizing service with
    | nil => rfl
    | cons action _ ih =>
      rcases shows action (.head _) with ⟨event, rfl⟩
      exact ih fun other member => shows other (.tail _ member)
  · apply executeTransferActions_eq
    intro action member
    rcases shows action member with ⟨_, rfl⟩
    trivial

theorem drops_of_ending (leads : event.operation around service = some operation)
    (sends : service.sentBy sha256 base64 around event =
      service.sentByCall sha256 base64 around operation) {adapterId transferId : String}
    {tell : TransferOwner (Peer Address) → UiTransferId → UInt64 × UInt64 →
      List (TransferAction (Peer Address))}
    (ends : service.transfers.perform sha256 base64 operation =
      service.transfers.endTransfer around.order adapterId transferId tell)
    (shows : ∀ owner uiId totals, ∀ action ∈ tell owner uiId totals,
      ∃ event, action = .frontend event) (unexcused : ¬event.EndedByPeer key)
    (answers : service.AnswersRequests sha256 base64 around event)
    (requested : key ∈ service.transfers.sourcePending)
    (present : (service.identity key.1.peer).isSome) :
    ¬service.transfers.IsRegistered key.1 (adapterId, transferId) := by
  intro registered
  have quiet : service.sentByCall sha256 base64 around operation = [] ∧
      (service.callAndExecute sha256 base64 around operation).transfers =
        (service.transfers.endTransfer around.order adapterId transferId tell).state := by
    simp only [sentByCall, callAndExecute, call, ends]
    cases outcome :
        (service.transfers.endTransfer around.order adapterId transferId tell).result with
    | error => exact ⟨rfl, rfl⟩
    | ok actions =>
      have shown : ∀ action ∈ actions, ∃ event, action = .frontend event := by
        simp only [TransferState.endTransfer] at outcome
        split at outcome
        · cases outcome
        · exact TransferState.endOwners_shows shows outcome
      refine ⟨(silent_of_shows shown).1, ?_⟩
      dsimp only
      rw [(silent_of_shows shown).2]
  have gone : key ∉ (service.handle sha256 base64 around event).transfers.sourcePending := by
    rw [handle_transfers_of_operation leads, quiet.2,
      TransferState.mem_sourcePending_endTransfer sound around.order tell requested]
    exact fun unregistered => unregistered registered
  rcases answers key requested gone present unexcused with ⟨_, told, _⟩
  rw [sends, quiet.1] at told
  cases told

theorem answers_of_dropsNothing (sends : service.sentBy sha256 base64 around event =
      match event.operation around service with
      | some operation => service.sentByCall sha256 base64 around operation
      | none => []) (notOffer : ∀ result, event ≠ .manifestOffer result)
    (notRead : ∀ result, event ≠ .sourceResult result) (nothing : event.DropsNothing service) :
    service.AnswersRequests sha256 base64 around event := by
  intro _ requested gone present unexcused
  cases leads : event.operation around service with
  | none =>
    rw [handle_of_silent (P := (·.sourcePending = service.transfers.sourcePending)) leads notOffer
      notRead rfl fun _ => rfl] at gone
    exact absurd requested gone
  | some =>
    rw [leads] at sends
    rw [handle_transfers_of_operation leads] at gone
    rw [sends]
    refine callAndExecute_accounted sound ?_ ?_ requested gone
    · exact fun excused => unexcused (excuses_of_operation leads excused)
    · exact fun dropped => drops_of_operation leads dropped requested present nothing

theorem handle_answers (event : Event Address) :
    service.AnswersRequests sha256 base64 around event ↔ event.DropsNothing service := by
  cases event with
  | sourceResult result => exact handleSourceResult_answers sound result
  | manifestOffer result =>
    refine ⟨fun _ => trivial, ?_⟩
    intro _ key requested gone _ _
    exact handleManifestOffer_accounted sound result requested gone
  | adapterMessage _ word =>
    refine ⟨?_, answers_of_dropsNothing sound rfl (by simp) (by simp)⟩
    intro answers
    cases word with
    | completed | unmounted =>
      intro _ requested present
      refine drops_of_ending sound rfl rfl rfl ?_ id answers requested present
      intro _ _ _ _ member
      split at member
      · exact ⟨_, List.mem_singleton.mp member⟩
      · exact ⟨_, List.mem_singleton.mp member⟩
    | _ => trivial
  | _ =>
    exact ⟨fun _ => trivial, answers_of_dropsNothing sound rfl (by simp) (by simp)⟩

omit sound

/-- In every run of the event loop, the requests that end in an event are all answered exactly when
the event drops none. -/
theorem answers_iff_of_run {startedAt : UInt64} {history : List (Service Address)}
    (run : Run (machine sha256 base64 startedAt) history) (member : service ∈ history)
    (event : Event Address) :
    service.AnswersRequests sha256 base64 around event ↔ event.DropsNothing service := by
  have sound := transfers_sound_of_run run service member
  exact handle_answers sound event

def requested : List (Surroundings String × Event String) :=
  [(calm, .adapterMessage "7" (.copyManifest ⟨"7", .copy⟩)),
    (calm, .manifestOffer ⟨1, "7", ⟨"7", .copy⟩,
      FileOffer.fromUriList TransferState.everywhereAbc 1 "file:///tmp/abc.txt"⟩),
    (calm, .clipboard 1 "aa" (.clipboardFileRequest 1 1 1 0 3))]

def unreadable : SourceReadResult String :=
  ⟨⟨.capture 1, 1⟩, 1, 1, 0, 3, .error (.sourceChanged 1)⟩

theorem requested_run :
    ∃ history, Run (machine (fun _ => TransferState.abcDigest) (fun _ => "YWJj") 0)
      (afterEvents requested :: history) := by
  have follows : (machine (fun _ => TransferState.abcDigest) (fun _ => "YWJj") 0).Follows (new 0)
      requested := ⟨trivial, trivial, trivial, trivial⟩
  exact Run.of_follows follows

theorem mem_requested :
    (⟨.capture 1, 1⟩, 1, 1) ∈ (afterEvents requested).transfers.sourcePending ∧
      ((afterEvents requested).identity (.capture 1)).isSome := by
  decide +kernel

/-- The adapter gives the selection up, and the client is told. -/
theorem answers_iff_of_run_adapterCancelled :
    (afterEvents requested).AnswersRequests (fun _ => TransferState.abcDigest) (fun _ => "YWJj")
      calm (.adapterCancelled "7" "7") := by
  rcases requested_run with ⟨_, run⟩
  exact (answers_iff_of_run run (.head _) (.adapterCancelled "7" "7")).mpr trivial

/-- The client asks for a file that is not opened any more, and is not told. -/
theorem unreadable_not_answered :
    ∃ (history : List (Service String)) (service : Service String),
      Run (machine (fun _ => TransferState.abcDigest) (fun _ => "YWJj") 0) history ∧
      service ∈ history ∧
      ¬service.AnswersRequests (fun _ => TransferState.abcDigest) (fun _ => "YWJj") calm
        (.sourceResult unreadable) := by
  rcases requested_run with ⟨_, run⟩
  refine ⟨_, _, run, .head _, ?_⟩
  intro answers
  rcases answers _ mem_requested.1 (handleSourceResult_gone calm unreadable) mem_requested.2
    id with ⟨message, told, _⟩
  cases told

end Syntra.Service
