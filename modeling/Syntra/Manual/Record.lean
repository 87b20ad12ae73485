import Syntra.Files.Transfer

/-!
# One manual transfer

A record of `ManualTransfers` and what the handlers of `manual_transfer.rs` do to it. A handler gets
the record, the time and the answers of the operating system, and returns the new record with the
actions to perform. It also returns what it did to files, which the source leaves to the disk.
-/

namespace Syntra.Manual

open ByteFormat Proto Files

def fileId : UInt64 := 1

def maxRecords : ℕ := 32

def maxTerminal : ℕ := 100

def maxRetries : ℕ := 3

/-- Times and durations are in milliseconds. -/
def approvalTimeout : ℕ := 600000

def retryTimeout : ℕ := 5000

def progressInterval : ℕ := 100

def remotePreparationError : String := "destination unavailable"

def remoteTransferError : String := "file transfer failed"

def remoteNotAcceptedError : String := "transfer not accepted"

abbrev RecordKey := String × UInt64

/-- Which way the file goes. -/
inductive TransferDirection where
  | sending
  | receiving
  deriving DecidableEq, Repr

/-- How far a transfer is. -/
inductive ManualTransferState where
  | offering
  | awaitingAcceptance
  | transferring
  | completed
  | declined
  | cancelled
  | failed
  deriving DecidableEq, Repr

def isTerminal : ManualTransferState → Bool
  | .completed | .declined | .cancelled | .failed => true
  | .offering | .awaitingAcceptance | .transferring => false

/-- How the files of peers are received. -/
structure FileReceiveSettings where
  autoAccept : Bool
  downloadDirectory : PathBuf

/-- What users are shown of a transfer. -/
structure ManualTransferStatus where
  peerFingerprint : String
  transferId : UInt64
  fileName : String
  size : UInt64
  transferred : UInt64
  direction : TransferDirection
  state : ManualTransferState
  destination : Option PathBuf
  error : Option String
  deriving DecidableEq, Repr

/-- What users are asked about an offer. -/
structure IncomingFileOffer where
  peerFingerprint : String
  transferId : UInt64
  fileName : String
  size : UInt64
  suggestedDirectory : PathBuf
  deriving DecidableEq, Repr

/-- What users are told of transfers. -/
inductive FrontendEvent where
  | manualTransferError (message : String)
  | manualTransferStatus (status : ManualTransferStatus)
  | incomingFileOffer (offer : IncomingFileOffer)
  deriving DecidableEq, Repr

/-- What the service is to do after an operation. -/
inductive ManualAction (P : Type) where
  | send (peer : P) (event : ProtoEvent)
  | notify (event : FrontendEvent)

/-- A transfer of one file, sent or received. -/
structure Record (P : Type) where
  peer : P
  fingerprint : String
  id : UInt64
  name : String
  size : UInt64
  transferred : UInt64
  direction : TransferDirection
  state : ManualTransferState
  destination : Option PathBuf
  error : Option String
  offer : Option FileOffer
  outgoing : Option OutgoingFile
  incoming : Option IncomingTransfer
  replacement : Option (PathBuf × PathBuf)
  lastActivity : ℕ
  lastNotification : ℕ
  approvalDeadline : ℕ
  retries : ℕ
  cachedRequest : Option (UInt64 × UInt32)
  cachedResponse : Option ProtoEvent
  retryEvent : Option ProtoEvent
  finalDigest : Option Digest
  earlyDigest : Option Digest
  finalResult : Option (Bool × Option String)

/-- What a handler did to files. -/
inductive FileEvent where
  | yielded (data : Bytes)
  | published (path : PathBuf) (content : Bytes)
  deriving DecidableEq

/-- What a handler returns. -/
structure Reply (P : Type) where
  record : Record P
  actions : List (ManualAction P)
  files : List FileEvent

variable {P : Type}

def request (transferId offset : UInt64) : ProtoEvent :=
  .manualFileRequest transferId offset (UInt32.ofNat maxManualFileChunkSize)

def peerFailure (peer : P) (transferId : UInt64) (error : String) : ManualAction P :=
  .send peer (.manualFileResult transferId false (some error))

def localSourceError (io : Io) : TransferError → String
  | .unsupportedEntry _ => "only regular files can be sent"
  | .unsafePath _ => "the file name is not portable"
  | error => error.message io

def localReceiveError (io : Io) : TransferError → String
  | .io error =>
    if error.kind = .alreadyExists then "a file with this name already exists" else error.message
  | error => error.message io

def sanitizeRemoteError (error : Option String) : String :=
  (error.filter (fun error => ¬(utf8 error).isEmpty)).getD "remote peer rejected the file"

namespace Record

variable (record : Record P)

def status : ManualTransferStatus where
  peerFingerprint := record.fingerprint
  transferId := record.id
  fileName := record.name
  size := record.size
  transferred := record.transferred
  direction := record.direction
  state := record.state
  destination := record.destination
  error := record.error

def notify : ManualAction P :=
  .notify (.manualTransferStatus record.status)

def send (event : ProtoEvent) : ManualAction P :=
  .send record.peer event

/-- The peer may answer through another route than before. -/
def reroute (peer : P) : Record P :=
  { record with peer }

def offerSnapshot : IncomingFileOffer where
  peerFingerprint := record.fingerprint
  transferId := record.id
  fileName := record.name
  size := record.size
  suggestedDirectory := record.destination.getD .empty

def offerResponse : ProtoEvent :=
  match record.state with
  | .awaitingAcceptance => .manualFileDecision record.id .pending
  | .transferring => .manualFileDecision record.id .accepted
  | .declined => .manualFileDecision record.id .declined
  | .cancelled => .manualFileCancel record.id
  | .offering | .completed | .failed =>
    let (success, error) := record.finalResult.getD (false, some remoteTransferError)
    .manualFileResult record.id success error

/-- Moves a record to a terminal state at `now`. -/
def terminal (state : ManualTransferState) (error : Option String) (now : ℕ) : Record P :=
  { record with
    state
    error
    retries := 0
    lastActivity := now
    cachedResponse := none
    outgoing := none
    offer := none
    incoming := none
    replacement := none
    retryEvent := match state with
      | .declined => some (.manualFileDecision record.id .declined)
      | .cancelled => some (.manualFileCancel record.id)
      | _ => none }

/-- Ends a record with a result that the peer is told again when it asks. -/
def settle (state : ManualTransferState) (error : Option String)
    (finalResult : Option (Bool × Option String)) (now : ℕ) : Record P :=
  let record := { record.terminal state error now with finalResult }
  { record with retryEvent := some record.offerResponse }

/-- `fail`, whose callers all report to the peer. -/
def fail (error : String) (now : ℕ) (files : List FileEvent) : Reply P :=
  let record := record.settle .failed (some error) record.finalResult now
  { record
    actions := [record.notify, peerFailure record.peer record.id remoteTransferError]
    files }

def progress (now : ℕ) (actions : List (ManualAction P)) (files : List FileEvent) : Reply P :=
  if record.transferred = record.size ∨ progressInterval ≤ now - record.lastNotification then
    let record := { record with lastNotification := now }
    { record, actions := actions ++ [record.notify], files }
  else
    { record, actions, files }

def isDecision : Option ProtoEvent → Bool
  | some (.manualFileDecision _ _) => true
  | _ => false

def decision (record : Record P) (decision : ManualDecision) (now : ℕ) : Reply P :=
  if isTerminal record.state then
    ⟨record, [], []⟩
  else
    match record.direction, decision with
    | .sending, .pending =>
      if record.state ≠ .offering then
        ⟨record, [], []⟩
      else
        let record :=
          { record with state := .awaitingAcceptance, retryEvent := none, retries := 0 }
        ⟨record, [record.notify], []⟩
    | .sending, .accepted =>
      if record.approvalDeadline ≤ now ∧ record.state ≠ .transferring then
        record.fail "file offer expired" now []
      else
        let accepted := ProtoEvent.manualFileDecision record.id .accepted
        if record.state ≠ .transferring then
          let record := { record with
            state := .transferring, retryEvent := none, lastActivity := now, retries := 0
            error := none }
          ⟨record, [record.send accepted, record.notify], []⟩
        else
          ⟨record, [record.send accepted], []⟩
    | .receiving, .accepted =>
      if record.state = .transferring then
        let firstAck := isDecision record.retryEvent
        let pull := Manual.request record.id record.transferred
        let record := { record with
          retryEvent := some pull
          lastActivity := if firstAck then now else record.lastActivity
          retries := if firstAck then 0 else record.retries }
        ⟨record, [record.send pull], []⟩
      else
        ⟨record, [], []⟩
    | .sending, .declined =>
      let record := record.terminal .declined none now
      ⟨record, [record.notify], []⟩
    | .receiving, .pending => ⟨record, [], []⟩
    | .receiving, .declined => ⟨record, [], []⟩

variable (sha256 : Bytes → Digest) (io : Io)

/-- What the source gives for a request at the current position: the digest at the end, else the
next chunk. -/
def readSource (record : Record P) (source : OutgoingFile) (offset : UInt64) (length : UInt32) :
    Except TransferError (ProtoEvent × Record P) × List FileEvent :=
  if offset = record.size then
    match source.finalizeDigest sha256 io with
    | .ok digest =>
      (.ok (.manualFileComplete record.id digest, { record with finalDigest := some digest }), [])
    | .error error => (.error error, [])
  else
    match source.nextChunkBounded io length.toNat with
    | .ok (some (chunkOffset, data), source) =>
      if chunkOffset = offset ∧ data ≠ [] then
        (.ok (.manualFileChunk record.id offset data,
          { record with
            outgoing := some source, transferred := offset + UInt64.ofNat data.length }),
          [.yielded data])
      else
        (.error (.sourceChanged fileId), [.yielded data])
    | .ok (none, _) => (.error (.sourceChanged fileId), [])
    | .error error => (.error error, [])

/-- The source handle, opened at the first request. -/
def openSource (record : Record P) : Except String OutgoingFile :=
  match record.outgoing with
  | some source => .ok source
  | none =>
    match record.offer with
    | none => .error "file source unavailable"
    | some offer =>
      match offer.openFile io fileId 0 with
      | .ok source => .ok source
      | .error error => .error (localSourceError io error)

def isComplete : ProtoEvent → Bool
  | .manualFileComplete _ _ => true
  | _ => false

/-- Keeps an answer for a repeated request. -/
def cacheResponse (offset : UInt64) (length : UInt32) (response : ProtoEvent) (now : ℕ) :
    Record P :=
  { record with
    cachedRequest := some (offset, length)
    cachedResponse := some response
    retryEvent := if isComplete response then some response else none
    lastActivity := now
    retries := 0 }

/-- The end of `send_chunk`, with the source at hand. -/
def answerRequest (record : Record P) (source : OutgoingFile) (offset : UInt64) (length : UInt32)
    (now : ℕ) : Reply P :=
  match record.readSource sha256 io source offset length with
  | (.error error, files) => record.fail (localSourceError io error) now files
  | (.ok (response, record), files) =>
    let record := record.cacheResponse offset length response now
    record.progress now [record.send response] files

/-- The part of `send_chunk` for a request at the current position. -/
def serve (record : Record P) (offset : UInt64) (length : UInt32) (now : ℕ) : Reply P :=
  match record.openSource io with
  | .error message => record.fail message now []
  | .ok source =>
    { record with outgoing := some source }.answerRequest sha256 io source offset length now

def sendChunk (record : Record P) (offset : UInt64) (length : UInt32) (now : ℕ) : Reply P :=
  if isTerminal record.state then
    ⟨record, [], []⟩
  else if record.direction ≠ .sending ∨ record.state ≠ .transferring then
    ⟨record, [peerFailure record.peer record.id remoteNotAcceptedError], []⟩
  else if length = 0 ∨ length.toNat > maxManualFileChunkSize ∨ offset > record.size then
    record.fail "invalid file request" now []
  else
    let cached :=
      if record.cachedRequest = some (offset, length) then record.cachedResponse else none
    match cached with
    | some response =>
      let record := { record with lastActivity := now, retries := 0 }
      ⟨record, [record.send response], []⟩
    | none =>
      if offset < record.transferred then
        ⟨record, [], []⟩
      else if offset ≠ record.transferred then
        record.fail "unexpected file offset" now []
      else
        record.serve sha256 io offset length now

/-- The async block of `prepare_receiver`. -/
def prepareIncoming (record : Record P) (directory : PathBuf) :
    Except TransferError IncomingTransfer := do
  if ¬directory.isAbsolute then
    throw (.io ⟨.invalidInput, "destination must be an absolute directory"⟩)
  orIo (io.createDirAll directory)
  let entry : ClipboardManifestEntry :=
    { fileId, path := record.name, kind := .file, size := record.size }
  let incoming ← IncomingTransfer.new io record.id [entry] directory none
  let (_, incoming) ← incoming.prepare io
  pure incoming

def isAlreadyExists : TransferError → Bool
  | .io error => error.kind = .alreadyExists
  | _ => false

/-- The offer that `receive_offer` and an automatic collision leave to the user. -/
def askUser : Reply P :=
  { record
    actions := [record.send (.manualFileDecision record.id .pending), record.notify,
      .notify (.incomingFileOffer record.offerSnapshot)]
    files := [] }

def prepareReceiver (record : Record P) (directory : PathBuf) (now : ℕ) (automatic : Bool) :
    Reply P :=
  if record.direction ≠ .receiving ∨ record.state ≠ .awaitingAcceptance then
    ⟨record, [], []⟩
  else if record.approvalDeadline ≤ now then
    record.fail "file offer expired" now []
  else
    match record.prepareIncoming io directory with
    | .ok incoming =>
      let accepted := ProtoEvent.manualFileDecision record.id .accepted
      let record := { record with
        destination := some (incoming.destination.join (.ofText record.name))
        incoming := some incoming
        state := .transferring
        error := none
        lastActivity := now
        lastNotification := now
        retries := 0
        retryEvent := some accepted }
      ⟨record, [record.send accepted, record.notify], []⟩
    | .error error =>
      let message := localReceiveError io error
      let target := directory.join (.ofText record.name)
      if automatic ∧ isAlreadyExists error ∧ (io.symlinkMetadata target).isOk then
        { record with error := some message, destination := some directory }.askUser
      else if automatic then
        let record :=
          record.settle .failed (some message) (some (false, some remotePreparationError)) now
        ⟨record, [peerFailure record.peer record.id remotePreparationError, record.notify], []⟩
      else
        let record := { record with error := some message }
        ⟨record, [record.notify], []⟩

/-- `status.destination = Some(directory)` in the notifications of `overwrite`. -/
def redirect (directory : PathBuf) : ManualAction P → ManualAction P
  | .notify (.manualTransferStatus status) =>
    .notify (.manualTransferStatus { status with destination := some directory })
  | action => action

def overwrite (record : Record P) (directory : PathBuf) (now : ℕ) : Reply P :=
  if record.direction ≠ .receiving ∨ record.state ≠ .awaitingAcceptance then
    ⟨record, [], []⟩
  else
    let staging : Except IoError PathBuf :=
      if directory.isAbsolute then
        io.tempdirIn directory
      else
        .error ⟨.invalidInput, "destination must be an absolute directory"⟩
    match staging with
    | .ok staging =>
      let reply := record.prepareReceiver io staging now false
      if reply.record.state = .transferring then
        { record := { reply.record with
            destination := some directory
            replacement := some (staging, directory.join (.ofText record.name)) }
          actions := reply.actions.map (redirect directory)
          files := reply.files }
      else
        reply
    | .error error =>
      let record := { record with error := some error.message }
      ⟨record, [record.notify], []⟩

/-- `finish_receiver`; `incoming` is the destination its callers have checked to be there. -/
def finishReceiver (record : Record P) (incoming : IncomingTransfer) (digest : Digest) (now : ℕ) :
    Reply P :=
  let content := ((incoming.files.lookup fileId).map (·.file)).getD []
  match (incoming.finalizeFile sha256 io fileId record.size digest).bind (·.finish) with
  | .error error => record.fail (localReceiveError io error) now []
  | .ok _ =>
    let name := PathBuf.ofText record.name
    let moved : Except IoError PathBuf :=
      match record.replacement with
      | some (staging, target) => (io.rename (staging.join name) target).map (fun _ => target)
      | none => .ok (incoming.destination.join name)
    match moved with
    | .error error => record.fail error.message now []
    | .ok path =>
      let record := record.settle .completed none (some (true, none)) now
      { record
        actions := [record.send (.manualFileResult record.id true none), record.notify]
        files := [.published path content] }

/-- The end of `write_chunk`, after the chunk is on disk: the file is finished if its digest is
already known, else the next chunk is asked for. -/
def chunkWritten (record : Record P) (incoming : IncomingTransfer) (now : ℕ) : Reply P :=
  match (if record.transferred = record.size then record.earlyDigest else none) with
  | some digest => { record with earlyDigest := none }.finishReceiver sha256 io incoming digest now
  | none =>
    let pull := Manual.request record.id record.transferred
    let record := { record with retryEvent := some pull }
    record.progress now [record.send pull] []

def writeChunk (record : Record P) (offset : UInt64) (data : Bytes) (now : ℕ) : Reply P :=
  if record.direction ≠ .receiving then
    ⟨record, [], []⟩
  else if isTerminal record.state then
    ⟨record, if record.finalResult.isSome then [record.send record.offerResponse] else [], []⟩
  else
    match record.state, record.incoming with
    | .transferring, some incoming =>
      match checkedAdd offset (UInt64.ofNat data.length) with
      | none => record.fail "invalid file chunk" now []
      | some finish =>
        if data.isEmpty ∨ data.length > maxManualFileChunkSize ∨ finish > record.size then
          record.fail "invalid file chunk" now []
        else if offset ≠ record.transferred then
          if offset < record.transferred ∧ finish > record.transferred then
            record.fail "overlapping file chunk" now []
          else
            ⟨record, [record.send (Manual.request record.id record.transferred)], []⟩
        else
          match incoming.writeChunk io fileId offset data with
          | .error error => record.fail (localReceiveError io error) now []
          | .ok incoming =>
            let record := { record with
              incoming := some incoming, transferred := finish, lastActivity := now
              retries := 0 }
            record.chunkWritten sha256 io incoming now
    | _, _ => ⟨record, [peerFailure record.peer record.id remoteNotAcceptedError], []⟩

def completeReceiver (record : Record P) (digest : Digest) (now : ℕ) : Reply P :=
  if record.direction ≠ .receiving then
    ⟨record, [], []⟩
  else if isTerminal record.state then
    ⟨record, [record.send record.offerResponse], []⟩
  else
    match record.state, record.incoming with
    | .transferring, some incoming =>
      if record.transferred ≠ record.size then
        if record.earlyDigest.any (fun previous => previous ≠ digest) then
          record.fail "conflicting file digest" now []
        else
          let record := { record with earlyDigest := some digest }
          ⟨record, [record.send (Manual.request record.id record.transferred)], []⟩
      else
        record.finishReceiver sha256 io incoming digest now
    | _, _ => ⟨record, [peerFailure record.peer record.id remoteNotAcceptedError], []⟩

def receiveResult (success : Bool) (error : Option String) (now : ℕ) : Reply P :=
  if isTerminal record.state then
    ⟨record, [], []⟩
  else if ¬success then
    let record := record.settle .failed (some (sanitizeRemoteError error)) record.finalResult now
    ⟨record, [record.notify], []⟩
  else if record.direction = .sending ∧ record.state = .transferring ∧
      record.transferred = record.size ∧ record.finalDigest.isSome then
    let record := record.settle .completed none (some (true, none)) now
    ⟨record, [record.notify], []⟩
  else
    ⟨record, [], []⟩

/-- The peer's `ManualFileCancel`. -/
def receiveCancel (now : ℕ) : Reply P :=
  if isTerminal record.state then
    ⟨record, [], []⟩
  else
    let record := record.terminal .cancelled none now
    ⟨record, [record.notify], []⟩

def decline (now : ℕ) : Reply P :=
  if record.direction = .receiving ∧ record.state = .awaitingAcceptance then
    let record := record.terminal .declined none now
    ⟨record, [record.send (.manualFileDecision record.id .declined), record.notify], []⟩
  else
    ⟨record, [], []⟩

def cancel (now : ℕ) : Reply P :=
  if ¬isTerminal record.state then
    let record := record.terminal .cancelled none now
    ⟨record, [record.send (.manualFileCancel record.id), record.notify], []⟩
  else
    ⟨record, [], []⟩

def retry (now : ℕ) : Reply P :=
  let record := { record with retries := record.retries + 1, lastActivity := now }
  ⟨record, (record.retryEvent.map record.send).toList, []⟩

/-- The timer gives a record up. -/
def expire (error : String) (now : ℕ) : Reply P :=
  let cancelled := record.send (.manualFileCancel record.id)
  let record := record.terminal .failed (some error) now
  ⟨record, [cancelled, record.notify], []⟩

/-- The body of the loop of `tick`. -/
def tick (now : ℕ) : Reply P :=
  if isTerminal record.state then
    if record.retries < maxRetries ∧ retryTimeout ≤ now - record.lastActivity then
      record.retry now
    else
      ⟨record, [], []⟩
  else if (record.state = .offering ∨ record.state = .awaitingAcceptance) ∧
      record.approvalDeadline ≤ now then
    record.expire "file offer expired" now
  else if record.state ≠ .awaitingAcceptance ∧ retryTimeout ≤ now - record.lastActivity then
    if maxRetries ≤ record.retries then
      record.expire "file transfer timed out" now
    else
      record.retry now
  else
    ⟨record, [], []⟩

/-- The body of the loop of `refresh_routes`; `route` is the current handle of the peer. -/
def refresh (route : Option P) (now : ℕ) : Reply P :=
  match route with
  | some peer => ⟨record.reroute peer, [], []⟩
  | none =>
    if ¬isTerminal record.state then
      let record := record.terminal .failed (some "peer disconnected") now
      ⟨record, [record.notify], []⟩
    else
      ⟨record, [], []⟩

end Record

end Syntra.Manual
