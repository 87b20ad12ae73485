import Syntra.History.Clearing
import Syntra.Service.Events
import Syntra.Store.Operations

/-!
# The reconciliation of histories

What the service does so that connected devices have the same history: it asks a new peer for its
records page by page, sends each new record to everyone, and coordinates a clear of all histories
(`service/history_reconcile.rs`, the history messages of `service/peers.rs`, the deadline and the
tick of `service/mod.rs`). The commands of the history worker are carried out at once.
-/

namespace Syntra.History

open ByteFormat Proto Store
open Service (Peer ClientHandle)
open Tables

def pageSize : ℕ := 8

def deduplicateRoutes {I R : Type} [DecidableEq I] (routes : List (I × R)) : Table I R :=
  routes.foldl (fun table route => table.insert route.1 route.2) ∅

/-- The messages that carry the records of a page; one that cannot be serialized is left out. -/
def pageEvents (codec : HistoryCodec) (requestId : UInt64) (records : List ImportedHistoryEvent) :
    List ProtoEvent :=
  records.zipIdx.flatMap fun (record, recordId) =>
    match recordEvents codec requestId (UInt64.ofNat recordId) record with
    | .ok events => events
    | .error _ => []

/-- What stays the same on a device: the behaviour of the database and of the serializer, the texts
of errors, the identity of the device, and the digest that names an operation by the fingerprint,
the clock and a number. -/
structure Host where
  env : Environment
  codec : HistoryCodec
  describe : HistoryError → String
  publicKeyFingerprint : String
  localDeviceId : String
  localLabel : Option String
  operationDigest : String → ℕ → UInt64 → OperationId

/-- What the service finds around it when it handles an event: the time since it started and that of
the clock, both in nanoseconds, and the orders of its tables. -/
structure Surroundings (Address : Type) where
  now : ℕ
  clock : ℕ
  handles : IterOrder ClientHandle
  addresses : IterOrder Address
  ties : IterOrder EventKey

/-- What users are told of the history. -/
inductive FrontendEvent where
  | historyError (text : String)
  | historyClearResult (operationId : String) (affected : UInt64) (peersAcknowledged : UInt32)
      (error : Option String)
  deriving DecidableEq, Repr

/-- What a handler does apart from changing the service: it sends a message, tells the frontends,
hands a record to the store, has the store carry out a clear or, for an operation, take a snapshot
of its boundary. -/
inductive Effect (Address : Type) where
  | sent (peer : Peer Address) (event : ProtoEvent)
  | notified (event : FrontendEvent)
  | imported (record : ImportedHistoryEvent)
  | cleared (operationId : String) (boundary : ClearBoundary)
  | snapshot (operationId : OperationId) (boundary : ClearBoundary)

/-- The events that these handlers take. A request of a device profile takes a number of its own;
what concerns clients that have been removed does not get here. -/
inductive Event (Address : Type) where
  | connected (addr : Address) (fingerprint : String)
  | disconnected (addr : Address)
  | clipboardProtocol (addr : Address) (event : ProtoEvent)
  | clipboard (handle : ClientHandle) (fingerprint : String) (event : ProtoEvent)
  | peerAuthenticated (handle : ClientHandle) (fingerprint : String)
  | peerLost (handle : ClientHandle)
  | peerStateChanged (handle : ClientHandle) (alive : Bool)
  | removeClient (handle : ClientHandle)
  | requestProfile
  | profileTick
  | recordLocalHistory (now : Except HistoryError ℤ) (content : HistoryContent)
  | setHistoryPinned (eventId : HistoryEventId) (pinned : Bool)
  | clearGlobalHistory
  | clearDeadline

/-- The part of the service that shares the history. -/
structure Reconciler (Address : Type) where
  history : HistoryStore
  historyReassembler : Reassembler (Peer Address)
  historySyncProgress : Table (Peer Address) (UInt64 × UInt64 × UInt8)
  historyConnectedPeers : Finset (Peer Address)
  nextHistoryRequest : UInt64
  historyClear : Option (ClearCoordinator String)
  authenticatedCaptureFingerprints : Table ClientHandle String
  authenticatedPeerFingerprints : Table Address String

namespace Reconciler

variable {Address : Type} [DecidableEq Address]

/-- The service as it starts; requests are numbered from the clock on. -/
def new (startedAt : UInt64) : Reconciler Address where
  history := .new
  historyReassembler := .new
  historySyncProgress := ∅
  historyConnectedPeers := ∅
  nextHistoryRequest := startedAt
  historyClear := none
  authenticatedCaptureFingerprints := ∅
  authenticatedPeerFingerprints := ∅

variable (host : Host) (around : Surroundings Address) (self : Reconciler Address)

def identityOf : Peer Address → Option String
  | .capture handle => self.authenticatedCaptureFingerprints.lookup handle
  | .emulation addr => self.authenticatedPeerFingerprints.lookup addr

def connectedAuthenticatedPeers : Table String (Peer Address) :=
  let peers := (around.handles.arrange self.authenticatedCaptureFingerprints.keys).map .capture ++
    (around.addresses.arrange self.authenticatedPeerFingerprints.keys).map .emulation
  deduplicateRoutes (peers.filterMap fun peer => (self.identityOf peer).map (·, peer))

/-- `HistoryWorker::apply_clear`. -/
def applyClear (operationId : String) (boundary : ClearBoundary) :
    Reconciler Address × Except String ℕ :=
  match self.history.clearUnpinnedThrough host.env operationId boundary with
  | .ok (history, affected) => ({ self with history }, .ok affected)
  | .error error => (self, .error (host.describe error))

/-- `HistoryWorker::import`, whose errors are only logged. -/
def importRecord (record : ImportedHistoryEvent) : Reconciler Address :=
  { self with history := self.history.perform host.env (.mergeImported around.ties record) }

/-- `HistoryWorker::record_event`: the event is read back once it is stored. -/
def recordEvent (now : Except HistoryError ℤ) (content : HistoryContent) :
    Reconciler Address × Except HistoryError ImportedHistoryEvent :=
  match self.history.nextSequence host.localDeviceId with
  | .error error => (self, .error error)
  | .ok sequence =>
    let origin : HistoryOrigin := ⟨host.localDeviceId, sequence, host.localLabel⟩
    match self.history.record host.env around.ties now content.kind content origin with
    | .error error => (self, .error error)
    | .ok (history, _) =>
      ({ self with history },
        match history.get host.env origin.eventId with
        | .ok (some record) => .ok (immutableEvent record)
        | .ok none => .error (.invalidPayload "newly recorded history event disappeared")
        | .error error => .error error)

/-- `HistoryWorker::set_pinned`. -/
def setPinned (eventId : HistoryEventId) (pinned : Bool) : Reconciler Address :=
  match self.history.get host.env eventId with
  | .ok (some record) =>
    if record.pinned = pinned then self
    else { self with history := self.history.perform host.env (.setPinned eventId pinned) }
  | _ => self

variable (peer : Peer Address)

def requestPage (offset : UInt64) (retries : UInt8) : Reconciler Address × List (Effect Address) :=
  let requestId := self.nextHistoryRequest + 1
  ({ self with
      nextHistoryRequest := requestId
      historySyncProgress := self.historySyncProgress.insert peer (requestId, offset, retries) },
    [.sent peer (.historySyncRequest requestId offset)])

def requestHistorySync (offset : UInt64) : Reconciler Address × List (Effect Address) :=
  self.requestPage peer offset 0

def sendHistoryPage (requestId offset : UInt64) : List (Effect Address) :=
  match self.history.exportPage host.env offset pageSize with
  | .ok (records, nextOffset) =>
    (pageEvents host.codec requestId records).map (.sent peer) ++
      [.sent peer (.historySyncPageEnd requestId nextOffset)]
  | .error _ => []

def broadcastHistoryRecord (record : ImportedHistoryEvent) :
    Reconciler Address × List (Effect Address) :=
  let requestId := self.nextHistoryRequest + 1
  let self := { self with nextHistoryRequest := requestId }
  match recordEvents host.codec requestId 0 record with
  | .error _ => (self, [])
  | .ok events =>
    (self, (self.connectedAuthenticatedPeers around).entries.flatMap fun entry =>
      events.map (.sent entry.2) ++ [.sent entry.2 (.historySyncPageEnd requestId none)])

/-- `HistorySyncPageEnd`: the next page is asked for under the same number, a page of which
something is missing under a new one. -/
def receivePageEnd (requestId : UInt64) (nextOffset : Option UInt64) :
    Reconciler Address × List (Effect Address) :=
  let (historyReassembler, discarded) := self.historyReassembler.finishRequest peer requestId
  let self := { self with historyReassembler }
  match self.historySyncProgress.lookup peer with
  | none => (self, [])
  | some (activeRequest, pageOffset, retries) =>
    if activeRequest ≠ requestId then
      (self, [])
    else if discarded ≠ 0 then
      if retries ≥ 3 then
        ({ self with historySyncProgress := self.historySyncProgress.erase peer },
          [.notified (.historyError ("History synchronization with a device stopped after " ++
            s!"repeated incomplete transfers ({discarded} incomplete record(s))."))])
      else
        self.requestPage peer pageOffset (retries + 1)
    else
      match nextOffset with
      | some offset =>
        ({ self with
            historySyncProgress :=
              self.historySyncProgress.insert peer (requestId, offset, 0) },
          [.sent peer (.historySyncRequest requestId offset)])
      | none => ({ self with historySyncProgress := self.historySyncProgress.erase peer }, [])

def receiveStart (requestId recordId : UInt64) (totalLen chunks : UInt32) : Reconciler Address :=
  match self.historyReassembler.start around.now peer requestId recordId totalLen chunks with
  | .ok historyReassembler => { self with historyReassembler }
  | .error _ => self

def receiveChunk (requestId recordId : UInt64) (index : UInt32) (data : Bytes) :
    Reconciler Address × List (Effect Address) :=
  let (historyReassembler, result) :=
    self.historyReassembler.chunk host.codec peer requestId recordId index data
  let self := { self with historyReassembler }
  match result with
  | .ok (some record) => (self.importRecord host around record, [.imported record])
  | _ => (self, [])

def finishLocalOnlyClear (clear : ClearCoordinator String) :
    Reconciler Address × List (Effect Address) :=
  let operation := hexOperation clear.operationId
  match self.applyClear host operation clear.boundary with
  | (self, .ok affected) =>
    (self, [.cleared operation clear.boundary,
      .notified (.historyClearResult operation (UInt64.ofNat affected) 0 none)])
  | (self, .error error) => (self, [.notified (.historyClearResult operation 0 0 (some error))])

def newClear : Except String (ClearCoordinator String) :=
  if self.historyClear.isSome then
    .error "A global history clear is already in progress."
  else
    match self.history.snapshotBoundary with
    | .error error => .error (host.describe error)
    | .ok boundary =>
      let operationId := host.operationDigest host.publicKeyFingerprint around.clock
        (self.nextHistoryRequest + 1)
      .ok (.new around.now operationId (self.connectedAuthenticatedPeers around).keys.toFinset
        boundary)

def startGlobalHistoryClear : Reconciler Address × List (Effect Address) :=
  match self.newClear host around with
  | .error text => (self, [.notified (.historyError text)])
  | .ok clear =>
    let self := { self with nextHistoryRequest := self.nextHistoryRequest + 1 }
    let taken := .snapshot clear.operationId clear.boundary
    if clear.participants = ∅ then
      let (self, effects) := self.finishLocalOnlyClear host clear
      (self, taken :: effects)
    else
      ({ self with historyClear := some clear },
        taken :: (self.connectedAuthenticatedPeers around).entries.map fun entry =>
          .sent entry.2 (.historyClearBoundaryRequest clear.operationId))

def answerBoundaryRequest (operationId : OperationId) : List (Effect Address) :=
  match self.history.snapshotBoundary with
  | .ok boundary =>
    [.snapshot operationId boundary,
      .sent peer (.historyClearBoundary operationId (boundaryToWire boundary))]
  | .error error => [.sent peer (.historyClearAck operationId 0 (some (host.describe error)))]

def applyEverywhere (clear : ClearCoordinator String) :
    Reconciler Address × List (Effect Address) :=
  let operation := hexOperation clear.operationId
  match self.applyClear host operation clear.boundary with
  | (self, .ok affected) =>
    let clear := clear.beginApply around.now clear.participants affected
    let apply := .historyClearApply clear.operationId (boundaryToWire clear.boundary)
    ({ self with historyClear := some clear },
      .cleared operation clear.boundary ::
        (self.connectedAuthenticatedPeers around).entries.filterMap fun entry =>
          if entry.1 ∈ clear.participants then some (.sent entry.2 apply) else none)
  | (self, .error error) =>
    ({ self with historyClear := none },
      [.notified (.historyClearResult operation 0 0 (some error))])

def receiveBoundary (identity : String) (operationId : OperationId)
    (entries : List (String × UInt64)) : Reconciler Address × List (Effect Address) :=
  match self.historyClear with
  | none => (self, [])
  | some clear =>
    if clear.operationId = operationId then
      let (clear, ready) := clear.addBoundary identity (boundaryFromWire entries)
      if ready then self.applyEverywhere host around clear
      else ({ self with historyClear := some clear }, [])
    else
      (self, [])

def receiveApply (operationId : OperationId) (entries : List (String × UInt64)) :
    Reconciler Address × List (Effect Address) :=
  let operation := hexOperation operationId
  let boundary := boundaryFromWire entries
  match self.applyClear host operation boundary with
  | (self, .ok affected) =>
    (self, [.cleared operation boundary,
      .sent peer (.historyClearAck operationId (UInt64.ofNat affected) none)])
  | (self, .error error) => (self, [.sent peer (.historyClearAck operationId 0 (some error))])

def receiveAck (identity : String) (operationId : OperationId) (affected : UInt64)
    (error : Option String) : Reconciler Address × List (Effect Address) :=
  match self.historyClear with
  | none => (self, [])
  | some clear =>
    if clear.operationId = operationId ∧ clear.applying = true then
      let (clear, done) := clear.addAck identity affected error
      if done then
        ({ self with historyClear := none },
          [.notified (.historyClearResult (hexOperation operationId)
            (UInt64.ofNat clear.affected) (UInt32.ofNat clear.peerCount)
            (if clear.errors = [] then none else some ("; ".intercalate clear.errors)))])
      else
        ({ self with historyClear := some clear }, [])
    else
      (self, [])

/-- The branch of the event loop that the deadline of a clear wakes. -/
def expireClear : Reconciler Address × List (Effect Address) :=
  match self.historyClear with
  | none => (self, [])
  | some clear =>
    if clear.deadline ≤ around.now then
      let missing := max (if clear.applying then clear.awaitingAcks.card
        else clear.awaitingBoundaries.card) clear.errors.length
      ({ self with historyClear := none },
        [.notified (.historyClearResult (hexOperation clear.operationId)
          (if clear.applying then UInt64.ofNat clear.affected else 0)
          (UInt32.ofNat (clear.peerCount - missing))
          (some ("Global history clear timed out waiting for " ++
            s!"{missing} connected peer(s); not all devices were cleared.")))])
    else
      (self, [])

/-- The message that a participant has not answered yet. -/
def retryClear (clear : ClearCoordinator String) (identity : String) : Option ProtoEvent :=
  if identity ∈ clear.awaitingBoundaries then
    some (.historyClearBoundaryRequest clear.operationId)
  else if identity ∈ clear.awaitingAcks then
    some (.historyClearApply clear.operationId (boundaryToWire clear.boundary))
  else
    none

def forgetRoute : Peer Address → Reconciler Address
  | .capture handle =>
    { self with
      authenticatedCaptureFingerprints := self.authenticatedCaptureFingerprints.erase handle }
  | .emulation addr =>
    { self with
      authenticatedPeerFingerprints := self.authenticatedPeerFingerprints.erase addr }

/-- A participant that is connected by another route is asked again there. -/
def historyPeerLost : Reconciler Address × List (Effect Address) :=
  let identity := self.identityOf peer
  let self := ({ self with
      historyConnectedPeers := self.historyConnectedPeers.erase peer
      historyReassembler := self.historyReassembler.peerLost peer
      historySyncProgress := self.historySyncProgress.erase peer }).forgetRoute peer
  match identity, self.historyClear with
  | some identity, some clear =>
    match (self.connectedAuthenticatedPeers around).lookup identity with
    | some route => (self, ((retryClear clear identity).map (.sent route)).toList)
    | none => ({ self with historyClear := some (clear.peerLost identity) }, [])
  | _, _ => (self, [])

/-- The history messages of `handle_peer_protocol`; a route without an identity is not heard. -/
def handlePeerProtocol (event : ProtoEvent) : Reconciler Address × List (Effect Address) :=
  match self.identityOf peer with
  | none => (self, [])
  | some identity =>
    match event with
    | .historySyncRequest requestId offset =>
      (self, self.sendHistoryPage host peer requestId offset)
    | .historyRecordStart requestId recordId totalLen chunks =>
      (self.receiveStart around peer requestId recordId totalLen chunks, [])
    | .historyRecordChunk requestId recordId index data =>
      self.receiveChunk host around peer requestId recordId index data
    | .historySyncPageEnd requestId nextOffset =>
      self.receivePageEnd peer requestId nextOffset
    | .historyClearBoundaryRequest operationId =>
      (self, self.answerBoundaryRequest host peer operationId)
    | .historyClearBoundary operationId boundary =>
      self.receiveBoundary host around identity operationId boundary
    | .historyClearApply operationId boundary =>
      self.receiveApply host peer operationId boundary
    | .historyClearAck operationId affected error =>
      self.receiveAck identity operationId affected error
    | _ => (self, [])

def handle : Event Address → Reconciler Address × List (Effect Address)
  | .connected addr fingerprint =>
    ({ self with
        authenticatedPeerFingerprints :=
          self.authenticatedPeerFingerprints.insert addr fingerprint
        historyConnectedPeers :=
          insert (Peer.emulation addr) self.historyConnectedPeers }).requestHistorySync
      (.emulation addr) 0
  | .disconnected addr => self.historyPeerLost around (.emulation addr)
  | .clipboardProtocol addr event => self.handlePeerProtocol host around (.emulation addr) event
  | .clipboard handle fingerprint event =>
    ({ self with
        authenticatedCaptureFingerprints :=
          self.authenticatedCaptureFingerprints.insert handle fingerprint }).handlePeerProtocol
      host around (.capture handle) event
  | .peerAuthenticated handle fingerprint =>
    ({ self with
        authenticatedCaptureFingerprints :=
          self.authenticatedCaptureFingerprints.insert handle fingerprint }, [])
  | .peerLost handle => self.historyPeerLost around (.capture handle)
  | .peerStateChanged handle alive =>
    if alive then
      if Peer.capture handle ∈ self.historyConnectedPeers then
        (self, [])
      else
        ({ self with
            historyConnectedPeers :=
              insert (Peer.capture handle) self.historyConnectedPeers }).requestHistorySync
          (.capture handle) 0
    else
      self.historyPeerLost around (.capture handle)
  | .removeClient handle => self.historyPeerLost around (.capture handle)
  | .requestProfile => ({ self with nextHistoryRequest := self.nextHistoryRequest + 1 }, [])
  | .profileTick =>
    ({ self with historyReassembler := (self.historyReassembler.expire around.now).1 }, [])
  | .recordLocalHistory now content =>
    match self.recordEvent host around now content with
    | (self, .ok record) => self.broadcastHistoryRecord host around record
    | (self, .error _) => (self, [])
  | .setHistoryPinned eventId pinned => (self.setPinned host eventId pinned, [])
  | .clearGlobalHistory => self.startGlobalHistoryClear host around
  | .clearDeadline => self.expireClear around

end Reconciler

end Syntra.History
