import Syntra.Capture.Pressure
import Syntra.Capture.Requests
import Syntra.StateMachine.Handler
import Syntra.Tables.Association

/-!
# The capture task

The task that sends this device's input to its peers (`CaptureTask` in `capture.rs`): its state, the
captures it looks up, how it lets go of the pointer, and how it moves control from one peer to the
next. A lookup of a capture that is gone stops the task, as the panic of the source does.
-/

namespace Syntra.Capture

open Proto Tables

/-- Whether a peer has acknowledged that the pointer entered it. -/
inductive State
  | waitingForAck
  | sending
  deriving DecidableEq, Repr

/-- Where the loop of the task stands. -/
inductive Phase
  /-- The backend is being initialized. -/
  | starting
  /-- Input is captured. -/
  | session
  | inactive
  | ended
  deriving DecidableEq, Repr

/-- The task that decides which client gets the input of this device. -/
structure CaptureTask where
  activeClient : Option CaptureHandle
  ackDeadline : Option ℕ
  controller : Option (String × Position)
  /-- Edge and time a peer's pointer last entered this screen, shared with the listening task. -/
  lastEntry : Option (Position × ℕ)
  multiHop : Bool
  separatePeerPointers : Bool
  /-- Push needed against an edge before the pointer passes on. -/
  edgePressure : F64
  /-- The push being measured: its capture, what has built up and when it was updated. -/
  pressure : Option (CaptureHandle × F64 × ℕ)
  lastPressureReport : Option ℕ
  lastPressureAmount : F32
  lastPass : Option (Position × ℕ)
  lastReturn : Option (Position × ℕ)
  /-- After a hand-off: the device that the pointer came through. -/
  enteringVia : Option String
  entryAlong : Option F32
  legacyEntry : Bool
  localDeparture : Option (Position × Option F32)
  /-- Shared with the listening task, for the one release that lets the cursor go to meet it. -/
  landingAlong : Option F32
  heldUntilAck : List InputEvent
  backend : Option CaptureBackend
  restartNow : Bool
  enabledCaptures : KeySet CaptureHandle
  captures : List (CaptureHandle × Position × CaptureType)
  releaseBind : List UInt32
  inputSharing : Bool
  state : State
  phase : Phase

/-- What the task finds around it at a step. -/
structure Surroundings where
  android : Bool
  now : ℕ
  remoteReady : CaptureHandle → Bool
  peerConnected : CaptureHandle → Bool
  clientFingerprint : CaptureHandle → Option String
  ownFingerprint : String
  /-- Keys and buttons that the backend has forwarded as down but not up. -/
  pressedKeys : List UInt32
  pressedButtons : List UInt32
  /-- The call of the backend that fails, if one does; a failure ends the session. -/
  failure : Option BackendCall
  /-- The backend has placed the pointer itself. -/
  placed : Bool
  /-- The input or entry of this step cannot be sent. -/
  sendFails : Bool
  /-- How many of the events that end the control of a peer are sent in time. -/
  cleanupLimit : Option ℕ

/-- Why a handler stops. -/
inductive Halt
  /-- A capture is looked up that is not there. -/
  | noSuchCapture
  | captureError
  /-- The session is over without an error. -/
  | sessionOver
  deriving DecidableEq

def entryGrace : ℕ := 400 * 10 ^ 6

def ackTimeout : ℕ := 750 * 10 ^ 6

def maxHeldUntilAck : ℕ := 64

/-- The events that are handed to the service as they are. -/
def isForwardedProtocol : ProtoEvent → Bool
  | .clipboardStart .. | .clipboardImageStart .. | .clipboardChunk .. | .clipboardCapabilities _
  | .clipboardManifest .. | .clipboardFileRequest .. | .clipboardFileChunk ..
  | .clipboardFileComplete .. | .clipboardTransferCancel .. | .clipboardTransferProgress ..
  | .manualFileOffer .. | .manualFileDecision .. | .manualFileRequest .. | .manualFileChunk ..
  | .manualFileComplete .. | .manualFileResult .. | .manualFileCancel _ | .historySyncRequest ..
  | .historyRecordStart .. | .historyRecordChunk .. | .historySyncPageEnd ..
  | .historyClearBoundaryRequest _ | .historyClearBoundary .. | .historyClearApply ..
  | .historyClearAck .. | .profileStart .. | .profileChunk .. | .profileRequest _
  | .profileChanged => true
  | _ => false

namespace CaptureTask

abbrev Handler (α : Type) := StateMachine.Handler (CaptureTask × List CaptureEffect) Halt α

def new (backend : Option CaptureBackend) (releaseBind : List UInt32) : CaptureTask where
  activeClient := none
  ackDeadline := none
  controller := none
  lastEntry := none
  multiHop := false
  separatePeerPointers := false
  edgePressure := .zero
  pressure := none
  lastPressureReport := none
  lastPressureAmount := .zero
  lastPass := none
  lastReturn := none
  enteringVia := none
  entryAlong := none
  legacyEntry := false
  localDeparture := none
  landingAlong := none
  heldUntilAck := []
  backend := backend
  restartNow := false
  enabledCaptures := ∅
  captures := []
  releaseBind := releaseBind
  inputSharing := true
  state := .waitingForAck
  phase := .starting

variable (task : CaptureTask) (handle : CaptureHandle)

def addCapture (pos : Position) (captureType : CaptureType) : CaptureTask :=
  { task with captures := task.captures ++ [(handle, pos, captureType)] }

def removeCapture : CaptureTask :=
  { task with captures := task.captures.filter fun capture => capture.1 ≠ handle }

def hasCapture : Bool :=
  task.captures.any fun capture => capture.1 = handle

def captureOf : Option (Position × CaptureType) :=
  (task.captures.find? fun capture => capture.1 = handle).map Prod.snd

def isDefaultCaptureAt (pos : Position) : Bool :=
  task.captures.any fun capture => capture.2.1 = pos && capture.2.2 = .default

/-- Device that captured input goes to. After a hand-off the capture still reports the barrier it
began on, but the pointer belongs to the device it was handed on to. -/
def inputTarget (begin : Bool) : Option CaptureHandle :=
  match task.activeClient with
  | some active => some active
  | none => if begin then some handle else none

/-- Enter event for the current entry: plain, or naming the device the pointer comes through. -/
def enterEvent (side : Position) : ProtoEvent :=
  match task.enteringVia, task.entryAlong with
  | some via, _ => .enterVia side via
  | none, some along => if task.legacyEntry then .enter side else .enterAt side along
  | none, none => .enter side

section Handlers

variable [FloatOps] (around : Surroundings)

variable (handle : CaptureHandle) (task : CaptureTask)

def isTouchpad : Bool :=
  around.android && task.backend = some .touchpad

/-- Whether a moment ago something happened at an edge, by the mark that was left of it. -/
def recently (mark : Option (Position × ℕ)) (pos : Position) : Bool :=
  mark.any fun mark => mark.1 = pos && around.now - mark.2 < entryGrace

/-- Whether a pointer entered this screen a moment ago, through any edge. -/
def justEntered : Bool :=
  task.lastEntry.any fun mark => around.now - mark.2 < entryGrace

def passedOnJustNow (pos : Position) : Bool :=
  recently around task.lastPass pos

def returnedJustNow (pos : Position) : Bool :=
  recently around task.lastReturn pos

def releaseBindPressed : Bool :=
  task.releaseBind.all fun key => key ∈ around.pressedKeys

def deferToHandoff (handle : CaptureHandle) : Bool :=
  !task.separatePeerPointers &&
    task.controller.any fun controller =>
      task.multiHop && task.activeClient.isNone &&
        (around.clientFingerprint handle).any fun fingerprint => fingerprint ≠ controller.1

def lookUp : Handler (Position × CaptureType) := do
  let task ← .task
  match task.captureOf handle with
  | some capture => pure capture
  | none => .stop .noSuchCapture

def getPos : Handler Position := do
  let capture ← lookUp handle
  return capture.1

def getType : Handler CaptureType := do
  let capture ← lookUp handle
  return capture.2

/-- Whether a capture belongs to the device whose pointer is on this screen, and this screen is
not controlling anything itself. -/
def returnsToController : Handler Bool := do
  let task ← .task
  match task.controller with
  | none => return false
  | some (controller, entered) =>
    if task.separatePeerPointers || task.activeClient.isSome then
      return false
    else if around.clientFingerprint handle = some controller then
      return true
    else
      let captureType ← getType handle
      if captureType = .enterOnly then
        let pos ← getPos handle
        return pos = entered
      else
        return false

def reportPressure (soFar : F64) (force : Bool) : Handler Unit := do
  let task ← .task
  let amount := pressureAmount soFar task.edgePressure
  let sinceLast := task.lastPressureReport.map fun last => around.now - last
  if force || shouldReportPressure sinceLast task.lastPressureAmount amount then
    .update fun task => { task with
      lastPressureReport := some around.now, lastPressureAmount := amount }
    let edge ← getPos handle
    .emit (.report (.edgePressure edge amount task.entryAlong))

/-- Ends a push, telling the service so the glow it drew goes out. -/
def clearPressure : Handler Unit := do
  let task ← .task
  .update fun task => { task with pressure := none }
  match task.pressure with
  | some (handle, _, _) => reportPressure around handle .zero true
  | none => pure ()

def answer (operation : BackendCall) : Handler Unit :=
  if around.failure = some operation then .stop .captureError else pure ()

def call (operation : BackendCall) (effect : CaptureEffect) : Handler Unit := do
  .emit effect
  answer around operation

def letGo : Handler Unit :=
  call around .letGo .release

/-- What ends the control of a peer: key-ups, button-ups, the modifiers and a `Leave`. -/
def cleanupEvents : List ProtoEvent :=
  (around.pressedKeys.map fun key => .input (.keyboard (.key 0 key 0))) ++
    (around.pressedButtons.map fun button => .input (.pointer (.button 0 button 0))) ++
    [.input (.keyboard (.modifiers 0 0 0 0)), .leave 0]

def cleanUp : Handler Unit := do
  let events := cleanupEvents around
  let limit := around.cleanupLimit.getD events.length
  .each (events.take limit) fun event => .emit (.send handle event)
  if limit < events.length then
    .emit (.cleanupTimedOut handle)

variable (landing : Option Position)

/-- The service hears that the pointer is back, where the backend has put it inside an edge. -/
def announceReturn (along : Option F32) : Handler Unit :=
  match landing with
  | some edge =>
    if around.failure = some .release then
      pure ()
    else
      .emit (.report (.pointerReturned edge along))
  | none => pure ()

/-- The pointer is given back locally first, then the peer is told. -/
def leaveClient (along : Option F32) : Option CaptureHandle → Handler Unit
  | none => pure ()
  | some handle => do
    announceReturn around landing along
    cleanUp around handle

def releaseWith (along : Option F32) : CaptureEffect :=
  match landing with
  | some edge => .releaseAt edge along
  | none => .release

/-- Releases capture; with `landing`, the pointer is left inside that edge. The result says whether
the backend placed the pointer. -/
def releaseCaptureAt : Handler Bool := do
  let task ← .task
  .update fun task => { task with
    landingAlong := none
    localDeparture := none
    ackDeadline := none
    heldUntilAck := []
    state := .waitingForAck
    activeClient := none }
  .emit (releaseWith landing task.landingAlong)
  leaveClient around landing task.landingAlong task.activeClient
  answer around .release
  return landing.isSome && around.placed

def releaseCapture : Handler Unit := do
  clearPressure around
  let _ ← releaseCaptureAt around none

/-- The pointer is put back at the place it comes out at, or where it had left. -/
def releaseReturned (edge : Position) (oldAlong : Option F32) : Option F32 → Handler Unit
  | some along => do
    clearPressure around
    .update fun task => { task with landingAlong := some along }
    let _ ← releaseCaptureAt around (some edge)
  | none => do
    releaseCapture around
    .emit (.report (.pointerReturned edge oldAlong))

/-- A remote edge return is a crossing, unlike an error or a disconnect. -/
def returnLocalPointer (exitAlong : Option F32) : Handler Unit := do
  let task ← .task
  match task.localDeparture.filter fun _ => task.state = .sending with
  | none => releaseCapture around
  | some (edge, oldAlong) => do
    releaseReturned around edge oldAlong exitAlong
    -- without this grace the leftover motion sends the pointer straight back
    .update fun task => { task with lastReturn := some (edge, around.now) }

def releaseActive : Handler Unit := do
  let task ← .task
  if task.activeClient = some handle then
    releaseCapture around

def syncCapture (pos : Position) : Handler Unit := do
  let task ← .task
  if task.inputSharing && handle ∉ task.enabledCaptures then
    .update fun task => { task with enabledCaptures := task.enabledCaptures.insert handle () }
    .emit (.create handle pos)
    if around.failure = some (.create handle) then
      .update fun task => { task with enabledCaptures := task.enabledCaptures.erase handle }
      .stop .captureError
  else if !task.inputSharing && handle ∈ task.enabledCaptures then
    -- release while the active barrier still exists
    releaseActive around handle
    .update fun task => { task with enabledCaptures := task.enabledCaptures.erase handle }
    call around (.destroy handle) (.destroy handle)

def syncCaptures : Handler Unit := do
  let task ← .task
  .each task.captures fun capture => syncCapture around capture.1 capture.2.1

/-- The side of a peer's screen on which the pointer comes in through a capture. -/
def entrySide : Handler Position := do
  let pos ← getPos handle
  return opposite pos

def legacyEntryRetry : Handler (Option (CaptureHandle × ProtoEvent)) := do
  let task ← .task
  match task.activeClient with
  | none => return none
  | some handle =>
    if task.state ≠ .waitingForAck || task.enteringVia.isSome || task.entryAlong.isNone ||
        task.legacyEntry then
      return none
    else
      .update fun task => { task with
        legacyEntry := true, ackDeadline := some (around.now + ackTimeout) }
      let side ← entrySide handle
      let retrying ← .task
      return some (handle, retrying.enterEvent side)

/-- The chain of hand-offs came back round to this device. -/
def handoffHome (source : CaptureHandle) : Handler Unit := do
  let edge ← getPos source
  .update fun task => { task with lastEntry := some (edge, around.now) }
  let placed ← releaseCaptureAt around (some edge)
  if !placed then
    .emit (.report (.placePointer edge))

/-- The capture of a trusted device with a certificate, other than the one handed on from. -/
def nextDevice (source : CaptureHandle) (target : String) : Option CaptureHandle :=
  (task.captures.find? fun capture =>
    capture.2.2 = .default && capture.1 ≠ source &&
      around.clientFingerprint capture.1 = some target).map Prod.fst

def handOver (source next : CaptureHandle) : Handler Unit := do
  let _ ← getPos source
  let _ ← getPos next
  .emit (.send source (.leave 0))
  .update fun task => { task with
    state := .waitingForAck
    ackDeadline := some (around.now + ackTimeout)
    heldUntilAck := []
    activeClient := some next }
  .emit (.report (.clientEntered next))
  let side ← entrySide next
  .update fun task => { task with enteringVia := around.clientFingerprint source }
  let task ← .task
  .emit (.send next (task.enterEvent side))

/-- The device this one controls pushed our pointer on to the device with a certificate. -/
def handoff (source : CaptureHandle) (target : String) (side : Position) : Handler Unit := do
  let task ← .task
  if target = around.ownFingerprint then
    handoffHome around source
  else
    match task.nextDevice around source target with
    | none => .emit (.send source (.handoff target side))
    | some next =>
      if around.remoteReady next then
        handOver around source next
      else
        .emit (.send source (.handoff target side))

end Handlers

end CaptureTask

end Syntra.Capture
