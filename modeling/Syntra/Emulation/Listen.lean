import Syntra.Emulation.Requests
import Syntra.StateMachine.Handler

/-!
# The listening task

The task that answers the peers which move their pointers onto this screen (`ListenTask` in
`emulation.rs`): it admits a peer, replays its input, ends its control, and passes its pointer on to
further devices. What the other parts answer at a step is part of the step.
-/

namespace Syntra.Emulation

open Proto
open ClipboardStream (ClipboardContent ClipboardTransfers)
open Tables

/-- The task that takes the messages of the peers. -/
structure ListenTask (Ip : Type) where
  /-- The proxy's own view of the emulation. -/
  emulationActive : Bool
  captureReady : Bool
  independentPointers : Bool
  inputSharing : Bool
  activeInputs : KeySet (SocketAddr Ip)
  returnPositionPeers : KeySet (SocketAddr Ip)
  enteredFrom : Table (SocketAddr Ip) Position
  peerSides : Table Ip Position
  peerBeyond : Table Position String
  hopBypass : Bool
  multiHop : Bool
  relay : Option (SocketAddr Ip × Position)
  peerFingerprints : Table (SocketAddr Ip) String
  lastEntry : Option (Position × ℕ)
  entryAlong : Option F32
  unavailablePeers : List String
  handoffCooldown : Table Position ℕ
  lastResponse : Table (SocketAddr Ip) ℕ
  clipboardTransfers : ClipboardTransfers (SocketAddr Ip)
  rejectedConnections : Table String ℕ
  staleLeaves : Table (SocketAddr Ip) ℕ
  /-- The loop has been left. -/
  ended : Bool

/-- What the task does to the peers, to the emulation, to the touchpad capture of a phone, and what
it reports. -/
inductive ListenEffect (Ip Backend : Type)
  | reply (addr : SocketAddr Ip) (event : ProtoEvent)
  | proxy (request : ProxyRequest (SocketAddr Ip) Backend)
  | report (event : EmulationEvent (SocketAddr Ip))
  | touchpadBegin (edge : Position)
  | touchpadInput (edge : Position) (event : InputEvent)
  | requestPortChange (port : UInt16)
  | terminated

/-- What the task finds around it at a step. -/
structure ListenSurroundings (Ip : Type) where
  android : Bool
  now : ℕ
  emulationReady : Bool
  /-- The proxy's cell, which the emulation task sets as well. -/
  proxySharing : Bool
  certificateFingerprint : SocketAddr Ip → Option String
  touchpadActive : Bool
  localCommit : ByteVec 8
  portChanged : Except String UInt16
  published : Except String Unit
  sides : IterOrder Position
  peers : IterOrder (SocketAddr Ip)

/-- What happens at the task. -/
inductive ListenInput (Ip Backend : Type)
  | message (addr : SocketAddr Ip) (event : ProtoEvent)
  | accept (addr : SocketAddr Ip) (fingerprint : String)
  | rejected (fingerprint : String)
  | closed
  | emulation (event : BackendEvent (SocketAddr Ip))
  | request (request : EmulationRequest Ip Backend)
  | tick

variable {Ip Backend : Type}

/-- Whether leaving through `edge` returns towards a peer that entered from `entered`. -/
def edgeMatches (entered : Position) (edge : PointerEdge) : Bool :=
  edge.side = entered

/-- Whether the pointer may be handed on towards `target` through `side`: not while that device
cannot take input, and not for a moment after it refused. -/
def handoffAllowed (unavailable : List String) (cooldown : Table Position ℕ) (target : String)
    (side : Position) (now : ℕ) : Bool :=
  target ∉ unavailable && (cooldown.lookup side).all fun deadline => deadline ≤ now

def inputAccepted (sharing emulationReady captureReady independent : Bool) : Bool :=
  sharing && emulationReady && (captureReady || independent)

def peerSilenceTimeout : ℕ := 3 * 10 ^ 9

/-- After a device refused a hand-off, the same edge does not ask again for this long. -/
def handoffCooldownTime : ℕ := 3 * 10 ^ 9

def staleLeaveInterval : ℕ := 500 * 10 ^ 6

def rejectedInterval : ℕ := 2 * 10 ^ 9

def capReturnPosition : UInt32 := 1

/-- The events that are handed to the service as they are. -/
def isClipboardProtocol : ProtoEvent → Bool
  | .clipboardCapabilities _ | .clipboardManifest .. | .clipboardFileRequest ..
  | .clipboardFileChunk .. | .clipboardFileComplete .. | .clipboardTransferCancel ..
  | .clipboardTransferProgress .. | .manualFileOffer .. | .manualFileDecision ..
  | .manualFileRequest .. | .manualFileChunk .. | .manualFileComplete .. | .manualFileResult ..
  | .manualFileCancel _ | .historySyncRequest .. | .historyRecordStart ..
  | .historyRecordChunk .. | .historySyncPageEnd .. | .historyClearBoundaryRequest _
  | .historyClearBoundary .. | .historyClearApply .. | .historyClearAck .. | .profileStart ..
  | .profileChunk .. | .profileRequest _ | .profileChanged => true
  | _ => false

namespace ListenTask

variable [DecidableEq Ip]

/-- A handler of the task; it stops where the loop is left. -/
abbrev Handler (Ip Backend α : Type) :=
  StateMachine.Handler (ListenTask Ip × List (ListenEffect Ip Backend)) Unit α

def new : ListenTask Ip where
  emulationActive := false
  captureReady := false
  independentPointers := false
  inputSharing := true
  activeInputs := ∅
  returnPositionPeers := ∅
  enteredFrom := ∅
  peerSides := ∅
  peerBeyond := ∅
  hopBypass := false
  multiHop := true
  relay := none
  peerFingerprints := ∅
  lastEntry := none
  entryAlong := none
  unavailablePeers := []
  handoffCooldown := ∅
  lastResponse := ∅
  clipboardTransfers := ∅
  rejectedConnections := ∅
  staleLeaves := ∅
  ended := false

section Handlers

variable (around : ListenSurroundings Ip)

variable (addr : SocketAddr Ip) (task : ListenTask Ip)

def acceptsInput : Bool :=
  inputAccepted task.inputSharing around.emulationReady task.captureReady task.independentPointers

/-- The side that this device's own map gives the device with a certificate. -/
def sideBeyond (fingerprint : String) : Option Position :=
  (around.sides.arrange task.peerBeyond.keys).find? fun side =>
    task.peerBeyond.lookup side = some fingerprint

def returnPointer (along : Option F32) : Handler Ip Backend Unit := do
  let task ← .task
  match along.filter F32.isFinite with
  | some along =>
    if addr ∈ task.returnPositionPeers then
      .emit (.reply addr (.leaveAt along))
    else
      .emit (.reply addr (.leave 0))
  | none => .emit (.reply addr (.leave 0))

/-- Stops treating `addr` as controlling this screen, and tells the service when no peer controls
it any more. -/
def endControlAt (along : Option F32) : Handler Ip Backend Unit := do
  let before ← .task
  .update fun task => { task with activeInputs := task.activeInputs.erase addr }
  let after ← .task
  if addr ∈ before.activeInputs then
    .emit (.report (.left addr (after.enteredFrom.lookup addr) along))
  if addr ∈ before.activeInputs ∧ after.activeInputs = ∅ then
    .emit (.report .noLongerControlled)

def endControl : Handler Ip Backend Unit :=
  endControlAt addr none

/-- The side on which the pointer of a peer comes in: by certificate first, for a peer may connect
over another route than the one configured. -/
def entrySide (addr : SocketAddr Ip) (fingerprint : String) (pos : Position)
    (through : Option Position) : Position :=
  let layoutSide := (task.sideBeyond around fingerprint).or (task.peerSides.lookup addr.ip)
  (through.or layoutSide).getD pos

def acceptEntry (fingerprint : String) (pos : Position) (through : Option Position)
    (along : Option F32) : Handler Ip Backend Unit := do
  let task ← .task
  let side := task.entrySide around addr fingerprint pos through
  let firstEnter : Bool := addr ∉ task.activeInputs
  .update fun task => { task with activeInputs := task.activeInputs.insert addr () }
  .update fun task => { task with enteredFrom := task.enteredFrom.insert addr side }
  let places := firstEnter && (around.android || task.multiHop)
  if places then
    .update fun task => { task with lastEntry := some (side, around.now) }
  if firstEnter then
    .update fun task => { task with entryAlong := along }
  .emit (.report .releaseNotify)
  .emit (.report (.entered addr side fingerprint firstEnter through.isSome along))
  if places then
    .emit (.proxy (.placePointer side along))
  .emit (.reply addr (.ack 0))

def handleEnter (pos : Position) (through : Option Position) (along : Option F32) :
    Handler Ip Backend Unit := do
  let task ← .task
  if task.acceptsInput around then
    match around.certificateFingerprint addr with
    | none => .emit (.reply addr (.leave 0))
    | some fingerprint => acceptEntry around addr fingerprint pos through along
  else
    .emit (.proxy (.remove addr))
    .emit (.reply addr (.leave 0))

/-- Whether the peer's pointer was pushed back out the way it came in. -/
def leavesBack (addr : SocketAddr Ip) (edge : PointerEdge) : Bool :=
  (task.enteredFrom.lookup addr).any fun entered => edgeMatches entered edge

def handoffTarget (addr : SocketAddr Ip) (edge : PointerEdge) : Option String :=
  if !task.multiHop || addr ∉ task.activeInputs then
    none
  else
    match task.peerBeyond.lookup edge.side with
    | none => none
    | some target =>
      if !handoffAllowed task.unavailablePeers task.handoffCooldown target edge.side
          around.now then
        none
      else if task.peerFingerprints.lookup addr = some target && task.leavesBack addr edge then
        none
      else
        some target

/-- The machine that owns the pointer is asked to take it back and enter the next device; whether
it is. -/
def startHandoff (edge : PointerEdge) : Handler Ip Backend Bool := do
  let task ← .task
  match task.handoffTarget around addr edge with
  | none => return false
  | some target =>
    endControl addr
    .update fun task => { task with enteredFrom := task.enteredFrom.erase addr }
    .emit (.proxy (.remove addr))
    .emit (.reply addr (.handoff target edge.side))
    return true

/-- The owner of the pointer answers a hand-off with its own: it does not trust the next device. A
phone may carry the pointer on itself; otherwise it comes back here. -/
def handoffRefused (side : Position) : Handler Ip Backend Unit := do
  .update fun task => { task with
    handoffCooldown := task.handoffCooldown.insert side (around.now + handoffCooldownTime) }
  let task ← .task
  .update fun task => { task with activeInputs := task.activeInputs.insert addr () }
  if around.android && task.hopBypass && task.relay.isNone then
    .update fun task => { task with relay := some (addr, side) }
    .emit (.touchpadBegin side)
  else
    .update fun task => { task with
      enteredFrom := task.enteredFrom.insert addr ((task.peerSides.lookup addr.ip).getD side) }
    .emit (.proxy (.placePointer side none))

/-- Forwards input while carrying a pointer on; `false` means move ours. -/
def relayInput (event : InputEvent) : Handler Ip Backend Bool := do
  let task ← .task
  if around.android then
    match task.relay with
    | none => return false
    | some (source, side) =>
      if source ≠ addr then
        return false
      else if !around.touchpadActive then
        .update fun task => { task with relay := none }
        .emit (.proxy (.placePointer side none))
        return false
      else
        .emit (.touchpadInput side event)
        return true
  else
    return false

def consumeInput (event : InputEvent) : Handler Ip Backend Unit := do
  let task ← .task
  if task.emulationActive && around.proxySharing then
    .emit (.proxy (.input event addr))

/-- A sender that is still sending after its control here ended has missed the `Leave`. -/
def answerStaleInput : Handler Ip Backend Unit := do
  let task ← .task
  .update fun task => { task with staleLeaves := task.staleLeaves.insert addr around.now }
  if (task.staleLeaves.lookup addr).all fun earlier => staleLeaveInterval ≤ around.now - earlier
  then
    .emit (.reply addr (.leave 0))

def handleInput (event : InputEvent) : Handler Ip Backend Unit := do
  let task ← .task
  if task.inputSharing && addr ∈ task.activeInputs then
    let relayed ← relayInput around addr event
    if !relayed then
      consumeInput around addr event
  else if addr ∉ task.activeInputs then
    answerStaleInput around addr

def reportContent : Option ClipboardContent → Handler Ip Backend Unit
  | some content => .emit (.report (.clipboard content))
  | none => pure ()

def handleClipboard (event : ProtoEvent) : Handler Ip Backend Unit := do
  let task ← .task
  let received := ClipboardStream.receiveEvent task.clipboardTransfers around.now addr event
  .update fun task => { task with clipboardTransfers := received.1 }
  reportContent received.2
  if isClipboardProtocol event then
    .emit (.report (.clipboardProtocol addr event))

def dispatch : ProtoEvent → Handler Ip Backend Unit
  | .inputCapabilities bits =>
    if bits &&& capReturnPosition ≠ 0 then
      .update fun task => { task with
        returnPositionPeers := task.returnPositionPeers.insert addr () }
    else
      .update fun task => { task with
        returnPositionPeers := task.returnPositionPeers.erase addr }
  | .enterVia side via => do
    -- our own map says on which side the device sits that the pointer came through
    let task ← .task
    handleEnter around addr side (task.sideBeyond around via) none
  | .enter pos => handleEnter around addr pos none none
  | .enterAt side along => handleEnter around addr side none (some along)
  | .leave _ => do
    endControl addr
    .emit (.proxy (.remove addr))
    .emit (.reply addr (.ack 0))
  | .input event => handleInput around addr event
  | .handoff _ side => handoffRefused around addr side
  | .ping => do
    let task ← .task
    .emit (.reply addr (.pong (task.acceptsInput around)))
  | .hello commit => do
    .emit (.reply addr (.hello around.localCommit))
    .emit (.report (.peerHello addr commit))
  | event => handleClipboard around addr event

def handleMessage (event : ProtoEvent) : Handler Ip Backend Unit := do
  .update fun task => { task with lastResponse := task.lastResponse.insert addr around.now }
  dispatch around addr event

/-- What `EmulationProxy::event` notes of an event. -/
def noteEmulation : BackendEvent (SocketAddr Ip) → Handler Ip Backend Unit
  | .emulationEnabled _ => .update fun task => { task with emulationActive := true }
  | .emulationDisabled => .update fun task => { task with emulationActive := false }
  | _ => pure ()

def handleEmulation (event : BackendEvent (SocketAddr Ip)) : Handler Ip Backend Unit := do
  noteEmulation event
  match event with
  | .pointerEdge addr edge along => do
    let handedOn ← startHandoff around addr edge
    if !handedOn then
      let task ← .task
      if addr ∈ task.activeInputs && task.leavesBack addr edge then
        endControlAt addr along
        .emit (.proxy (.remove addr))
        returnPointer addr along
  | event => .emit (.report event.emulationEvent)

def releaseAll : Handler Ip Backend Unit := do
  let task ← .task
  .update fun task => { task with activeInputs := ∅ }
  .each (around.peers.arrange task.activeInputs.keys) fun addr => do
    .emit (.proxy (.remove addr))
    .emit (.reply addr (.leave 0))

def handleRequest : EmulationRequest Ip Backend → Handler Ip Backend Unit
  | .reenable => .emit (.proxy .reenable)
  | .setBackend backend => .emit (.proxy (.setBackend backend))
  | .release addr along => returnPointer addr along
  | .changePort port => do
    .emit (.requestPortChange port)
    .emit (.report (.portChanged around.portChanged))
  | .captureReady ready => .update fun task => { task with captureReady := ready }
  | .setIndependentPointers enabled => do
    .update fun task => { task with independentPointers := enabled }
    .emit (.proxy (.setIndependentPointers enabled))
  | .setHopBypass enabled => .update fun task => { task with hopBypass := enabled }
  | .setMultiHop enabled => .update fun task => { task with multiHop := enabled }
  | .stepInside edge => .emit (.proxy (.stepInside (.ofSide edge)))
  | .hidePointer => .emit (.proxy .hidePointer)
  | .placePointer edge => .emit (.proxy (.placePointer edge none))
  | .setPeerSides sides beyond =>
    .update fun task => { task with peerSides := sides, peerBeyond := beyond }
  | .setUnavailablePeers unavailable =>
    .update fun task => { task with unavailablePeers := unavailable }
  | .setInputSharing enabled => do
    .update fun task => { task with inputSharing := enabled }
    .emit (.proxy (.setInputSharing enabled))
    if !enabled then
      releaseAll around
  | .sendProto addr event => .emit (.reply addr event)
  | .publishFileClipboard contents fallback => do
    .emit (.proxy (.publishFileClipboard contents))
    match around.published with
    | .ok () => pure ()
    | .error _ => .emit (.report (.clipboardFallback fallback))
  | .terminate => .stop ()

def silent (addr : SocketAddr Ip) : Bool :=
  (task.lastResponse.lookup addr).any fun heard => peerSilenceTimeout < around.now - heard

def expirePeer : Handler Ip Backend Unit := do
  let before ← .task
  endControl addr
  .update fun task => { task with
    enteredFrom := task.enteredFrom.erase addr
    peerFingerprints := task.peerFingerprints.erase addr
    returnPositionPeers := task.returnPositionPeers.erase addr
    relay := task.relay.filter fun relay => relay.1 ≠ addr }
  .emit (.proxy (.remove addr))
  .emit (.report (.disconnected addr))
  -- if it is still alive it must release its capture
  if addr ∈ before.activeInputs then
    .emit (.reply addr (.leave 0))

def handleTick : Handler Ip Backend Unit := do
  let task ← .task
  let expired := (around.peers.arrange task.lastResponse.keys).filter (task.silent around)
  .update fun task => { task with
    lastResponse := task.lastResponse.retain fun _ heard =>
      around.now - heard ≤ peerSilenceTimeout }
  .each expired expirePeer
  .update fun task => { task with
    clipboardTransfers := ClipboardStream.expire task.clipboardTransfers around.now }

def handle : ListenInput Ip Backend → Handler Ip Backend Unit
  | .message addr event => handleMessage around addr event
  | .accept addr fingerprint => do
    .update fun task => { task with
      returnPositionPeers := task.returnPositionPeers.erase addr
      lastResponse := task.lastResponse.insert addr around.now
      peerFingerprints := task.peerFingerprints.insert addr fingerprint }
    .emit (.report (.connected addr fingerprint))
  | .rejected fingerprint => do
    let task ← .task
    .update fun task => { task with
      rejectedConnections := task.rejectedConnections.insert fingerprint around.now }
    if (task.rejectedConnections.lookup fingerprint).all fun earlier =>
        rejectedInterval ≤ around.now - earlier then
      .emit (.report (.connectionAttempt fingerprint))
  | .closed => .stop ()
  | .emulation event => handleEmulation around event
  | .request request => handleRequest around request
  | .tick => handleTick around

end Handlers

def step (task : ListenTask Ip) (input : ListenSurroundings Ip × ListenInput Ip Backend) :
    ListenTask Ip × List (ListenEffect Ip Backend) :=
  if task.ended then
    (task, [])
  else
    match handle input.1 input.2 (task, []) with
    | (.ok (), after) => after
    | (.error (), after) => ({ after.1 with ended := true }, after.2 ++ [.terminated])

end ListenTask

end Syntra.Emulation
