import Syntra.Manual.Record

/-!
# The manual transfers of a device

`ManualTransfers`: the records by peer fingerprint and transfer id, and the queue of those that
have ended, from which the oldest are forgotten.
-/

namespace Syntra.Manual

open ByteFormat Proto Files

variable {P : Type}

/-- The transfers of a device, and those that have ended, the latest first. -/
structure ManualTransfers (P : Type) where
  records : AList (fun _ : RecordKey => Record P)
  terminal : List RecordKey

/-- What an operation returns, with what it did to files. -/
structure Output (P : Type) where
  state : ManualTransfers P
  actions : List (ManualAction P)
  files : List (RecordKey × FileEvent)

/-- The order in which a hash map happens to yield its keys. -/
structure IterOrder where
  arrange : List RecordKey → List RecordKey
  perm : ∀ keys, (arrange keys).Perm keys

/-- A file a peer has offered to send, before the user decides. -/
structure OfferedFile (P : Type) where
  peer : P
  fingerprint : String
  id : UInt64
  name : String
  size : UInt64

def transferId? : ProtoEvent → Option UInt64
  | .manualFileOffer transferId _ _ => some transferId
  | .manualFileDecision transferId _ => some transferId
  | .manualFileRequest transferId _ _ => some transferId
  | .manualFileChunk transferId _ _ => some transferId
  | .manualFileComplete transferId _ => some transferId
  | .manualFileResult transferId _ _ => some transferId
  | .manualFileCancel transferId => some transferId
  | _ => none

def Record.key (record : Record P) : RecordKey := (record.fingerprint, record.id)

def unknownTransfer (peer : P) (id : UInt64) : ProtoEvent → List (ManualAction P)
  | .manualFileRequest _ _ _ | .manualFileChunk _ _ _ | .manualFileComplete _ _ =>
    [peerFailure peer id remoteNotAcceptedError]
  | .manualFileDecision _ .accepted => [.send peer (.manualFileCancel id)]
  | _ => []

/-- The second match of `handle_protocol`. -/
def Record.handle (sha256 : Bytes → Digest) (io : Io) (record : Record P) (event : ProtoEvent)
    (now : ℕ) : Reply P :=
  match event with
  | .manualFileDecision _ decision => record.decision decision now
  | .manualFileRequest _ offset length => record.sendChunk sha256 io offset length now
  | .manualFileChunk _ offset data => record.writeChunk sha256 io offset data now
  | .manualFileComplete _ digest => record.completeReceiver sha256 io digest now
  | .manualFileResult _ success error => record.receiveResult success error now
  | .manualFileCancel _ => record.receiveCancel now
  | _ => ⟨record, [], []⟩

def Record.newOffering (peer : P) (fingerprint : String) (id : UInt64) (offer : FileOffer)
    (entry : ClipboardManifestEntry) (now : ℕ) : Record P where
  peer
  fingerprint
  id
  name := entry.path
  size := entry.size
  transferred := 0
  direction := .sending
  state := .offering
  destination := none
  error := none
  offer := some offer
  outgoing := none
  incoming := none
  replacement := none
  lastActivity := now
  lastNotification := now
  approvalDeadline := now + approvalTimeout
  retries := 0
  cachedRequest := none
  cachedResponse := none
  retryEvent := some (.manualFileOffer id entry.path entry.size)
  finalDigest := none
  earlyDigest := none
  finalResult := none

def OfferedFile.record (offer : OfferedFile P) (settings : FileReceiveSettings) (now : ℕ) :
    Record P where
  peer := offer.peer
  fingerprint := offer.fingerprint
  id := offer.id
  name := offer.name
  size := offer.size
  transferred := 0
  direction := .receiving
  state := .awaitingAcceptance
  destination := some settings.downloadDirectory
  error := none
  offer := none
  outgoing := none
  incoming := none
  replacement := none
  lastActivity := now
  lastNotification := now
  approvalDeadline := now + approvalTimeout
  retries := 0
  cachedRequest := none
  cachedResponse := none
  retryEvent := none
  finalDigest := none
  earlyDigest := none
  finalResult := none

namespace ManualTransfers

def new : ManualTransfers P where
  records := ∅
  terminal := []

variable (transfers : ManualTransfers P)

def activeCount : ℕ :=
  (transfers.records.entries.filter (fun entry => !isTerminal entry.2.state)).length

/-- The loop of `store` that forgets the oldest ended transfers. -/
def evict (records : AList (fun _ : RecordKey => Record P)) : List RecordKey → ManualTransfers P
  | [] => { records, terminal := [] }
  | oldest :: terminal =>
    if (oldest :: terminal).length > maxTerminal then
      evict (records.erase oldest) terminal
    else
      { records, terminal := oldest :: terminal }

def store (record : Record P) : ManualTransfers P :=
  let terminal :=
    if isTerminal record.state ∧ record.key ∉ transfers.terminal then
      transfers.terminal ++ [record.key]
    else
      transfers.terminal
  evict (transfers.records.insert record.key record) terminal

/-- The frame that the operations on one record share: the record is taken out of the map,
handled, and stored again. -/
def update (key : RecordKey) (handle : Record P → Reply P) (missing : List (ManualAction P)) :
    Output P :=
  match transfers.records.lookup key with
  | none => ⟨transfers, missing, []⟩
  | some record =>
    let reply := handle record
    { state := { transfers with records := transfers.records.erase key }.store reply.record
      actions := reply.actions
      files := reply.files.map (key, ·) }

theorem update_absent {transfers : ManualTransfers P} {key : RecordKey}
    {handle : Record P → Reply P} {missing : List (ManualAction P)}
    (absent : transfers.records.lookup key = none) :
    transfers.update key handle missing = ⟨transfers, missing, []⟩ := by
  unfold update
  rw [absent]

/-- The loop of `next_transfer_id`; `draws` are the random numbers, or failures to get one. -/
def drawTransferId (transfers : ManualTransfers P) (draws : ℕ → Option UInt64) :
    (attempts attempt : ℕ) → Option UInt64
  | 0, _ => none
  | attempts + 1, attempt =>
    match draws attempt with
    | none => none
    | some id =>
      if id ≠ 0 ∧ ¬transfers.records.keys.any (fun key => key.2 = id) then
        some id
      else
        transfers.drawTransferId draws attempts (attempt + 1)

def nextTransferId (draws : ℕ → Option UInt64) : Option UInt64 :=
  transfers.drawTransferId draws 16 0

/-- What the loop of `send_files` is given for one path. -/
structure Source where
  path : PathBuf
  io : Io
  draws : ℕ → Option UInt64

/-- The body of the loop of `send_files`, and whether the loop goes on. -/
def sendFile (peer : P) (fingerprint : String) (source : Source) (now : ℕ) : Output P × Bool :=
  let refuse (message : String) : Output P :=
    ⟨transfers, [.notify (.manualTransferError message)], []⟩
  if maxRecords ≤ transfers.activeCount then
    (refuse "too many active file transfers", false)
  else
    match transfers.nextTransferId source.draws with
    | none => (refuse "could not create a file transfer identifier", false)
    | some id =>
      match source.io.spawnBlocking with
      | .error error => (refuse ("file source preparation failed: " ++ error), true)
      | .ok () =>
        match FileOffer.fromRegularFile source.io id source.path with
        | .error error => (refuse (localSourceError source.io error), true)
        | .ok offer =>
          match offer.entries with
          | [] => (⟨transfers, [], []⟩, true)
          | entry :: _ =>
            let record := Record.newOffering peer fingerprint id offer entry now
            let wire := ProtoEvent.manualFileOffer id entry.path entry.size
            (⟨transfers.store record, [.send peer wire, record.notify], []⟩, true)

def sendFiles (transfers : ManualTransfers P) (peer : P) (fingerprint : String) (now : ℕ) :
    List Source → Output P
  | [] => ⟨transfers, [], []⟩
  | source :: sources =>
    let (output, goesOn) := transfers.sendFile peer fingerprint source now
    if goesOn then
      let rest := output.state.sendFiles peer fingerprint now sources
      ⟨rest.state, output.actions ++ rest.actions, output.files ++ rest.files⟩
    else
      output

def receiveOffer (io : Io) (transfers : ManualTransfers P) (offer : OfferedFile P)
    (settings : FileReceiveSettings) (now : ℕ) : Output P :=
  let refuse (message : String) : Output P :=
    ⟨transfers, [peerFailure offer.peer offer.id message], []⟩
  if offer.id = 0 ∨ validateManualFileName offer.name ≠ .ok () then
    refuse "invalid file offer"
  else
    let key := (offer.fingerprint, offer.id)
    match transfers.records.lookup key with
    | some record =>
      if record.direction ≠ .receiving ∨ record.name ≠ offer.name ∨ record.size ≠ offer.size then
        refuse "conflicting file offer"
      else
        let record := record.reroute offer.peer
        { state := { transfers with records := transfers.records.insert key record }
          actions := [record.send record.offerResponse]
          files := [] }
    | none =>
      if maxRecords ≤ transfers.activeCount then
        refuse "too many active file transfers"
      else
        let record := offer.record settings now
        let reply :=
          if settings.autoAccept then
            record.prepareReceiver io settings.downloadDirectory now true
          else
            record.askUser
        let actions :=
          if reply.actions.isEmpty then [reply.record.notify] else reply.actions
        { state := transfers.store reply.record
          actions
          files := reply.files.map (key, ·) }

def handleProtocol (sha256 : Bytes → Digest) (io : Io) (transfers : ManualTransfers P) (peer : P)
    (fingerprint : String) (event : ProtoEvent) (settings : FileReceiveSettings) (now : ℕ) :
    Output P :=
  match event with
  | .manualFileOffer id name size =>
    transfers.receiveOffer io { peer, fingerprint, id, name, size } settings now
  | event =>
    match transferId? event with
    | none => ⟨transfers, [], []⟩
    | some id =>
      transfers.update (fingerprint, id)
        (fun record => (record.reroute peer).handle sha256 io event now)
        (unknownTransfer peer id event)

def accept (io : Io) (transfers : ManualTransfers P) (fingerprint : String) (transferId : UInt64)
    (directory : PathBuf) (now : ℕ) : Output P :=
  transfers.update (fingerprint, transferId) (·.prepareReceiver io directory now false) []

def overwrite (io : Io) (transfers : ManualTransfers P) (fingerprint : String)
    (transferId : UInt64) (directory : PathBuf) (now : ℕ) : Output P :=
  transfers.update (fingerprint, transferId) (·.overwrite io directory now) []

def decline (transfers : ManualTransfers P) (fingerprint : String) (id : UInt64) (now : ℕ) :
    Output P :=
  transfers.update (fingerprint, id) (·.decline now) []

def cancel (transfers : ManualTransfers P) (fingerprint : String) (id : UInt64) (now : ℕ) :
    Output P :=
  transfers.update (fingerprint, id) (·.cancel now) []

/-- The loop that `tick` and `refresh_routes` share. -/
def sweep (handle : Record P → Reply P) (transfers : ManualTransfers P) : List RecordKey → Output P
  | [] => ⟨transfers, [], []⟩
  | key :: keys =>
    let output := transfers.update key handle []
    let rest := output.state.sweep handle keys
    ⟨rest.state, output.actions ++ rest.actions, output.files ++ rest.files⟩

def tick (transfers : ManualTransfers P) (now : ℕ) (order : IterOrder) : Output P :=
  transfers.sweep (·.tick now) (order.arrange transfers.records.keys)

def refreshRoutes (routes : AList (fun _ : String => P)) (now : ℕ) (order : IterOrder) : Output P :=
  transfers.sweep (fun record => record.refresh (routes.lookup record.fingerprint) now)
    (order.arrange transfers.records.keys)

end ManualTransfers

end Syntra.Manual
