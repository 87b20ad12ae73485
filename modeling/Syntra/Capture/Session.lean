import Syntra.ByteFormat.Reader
import Syntra.Capture.Task

/-!
# The loop of the capture task

What the task does with the events of the capture backend, the messages of the peers and the
requests of the service while it captures input, what it does while it does not, and how it passes
from one to the other.
-/

namespace Syntra.Capture

open ByteFormat Proto

/-- What the task takes in turn. -/
inductive CaptureInput
  | created (backend : CaptureBackend)
  | creationFailed
  | initializationTimedOut
  | captured (handle : CaptureHandle) (event : CaptureEvent)
  | captureFailed
  | captureEnded
  | message (handle : CaptureHandle) (fingerprint : String) (event : ProtoEvent)
  | reconnect
  | ackDue
  | request (request : CaptureRequest)
  | cancelled
  /-- The listening task sets what it shares with this one. -/
  | entered (lastEntry : Option (Position × ℕ)) (landingAlong : Option F32)
  deriving DecidableEq

/-- What a capture that is there delivers of the pointer and the keys. -/
inductive Touch
  | begin
  | input (event : InputEvent)
  deriving DecidableEq

namespace CaptureTask

section Handlers

variable [FloatOps] (around : Surroundings)

/-- Whether two captures sit at the same edge, where the second is still there. -/
def sharesEdge (handle pending : CaptureHandle) : Handler Bool := do
  let task ← .task
  if task.hasCapture pending then
    let pos ← getPos handle
    let measured ← getPos pending
    return pos = measured
  else
    return false

/-- A touch of a barrier while the push against another one is measured. -/
def touchBeside (handle pending : CaptureHandle) : Handler Unit := do
  let same ← sharesEdge handle pending
  if !same then
    releaseCapture around

/-- Passing on shows the push at full before it is cleared. -/
def reachPressure : Handler Unit := do
  let task ← .task
  match task.pressure with
  | some (handle, _, _) => reportPressure around handle task.edgePressure true
  | none => pure ()

/-- A motion against the edge that is measured; whether the push is enough now. -/
def push (handle : CaptureHandle) (soFar : F64) (since : ℕ) (dx dy : F64) : Handler Bool := do
  let task ← .task
  let pos ← getPos handle
  match advancePressure soFar (around.now - since) pos dx dy task.edgePressure with
  | .building total => do
    .update fun task => { task with pressure := some (handle, total, around.now) }
    reportPressure around handle total false
    return false
  | .reached => do
    reachPressure around
    clearPressure around
    return true
  | .backed => do
    clearPressure around
    letGo around
    return false

def measure (handle : CaptureHandle) (touch : Touch) : Handler (Option (Touch × Bool)) := do
  let task ← .task
  match task.pressure with
  | none => return some (touch, false)
  | some (pending, soFar, since) =>
    if pending ≠ handle then
      touchBeside around handle pending
      return none
    else
      match touch with
      | .input (.pointer (.motion _ dx dy)) => do
        let reached ← push around handle soFar since dx dy
        return if reached then some (.begin, true) else none
      | .begin =>
        if duplicateTouch ≤ around.now - since then
          -- a new touch of the edge
          clearPressure around
          return some (.begin, false)
        else
          return none
      | .input _ => return none

def leadsNowhere (handle : CaptureHandle) (touch : Touch) : Handler Bool := do
  if touch = .begin then
    let captureType ← getType handle
    if captureType = .default && !around.remoteReady handle then
      let returning ← returnsToController around handle
      return !returning
    else
      return false
  else
    return false

/-- A touch right after an entry comes from where the cursor was left, not from the user. -/
def landAgain : Handler Unit := do
  let task ← .task
  let landing := task.lastEntry.map Prod.fst
  let placed ← releaseCaptureAt around landing
  match landing with
  | some edge =>
    if placed then
      pure ()
    else
      .emit (.report (.placePointer edge))
  | none => pure ()

/-- Whether the pointer is going back to the device that controls this screen. -/
def returning (handle : CaptureHandle) : Handler Bool := do
  let task ← .task
  if task.isTouchpad around then
    return false
  else
    returnsToController around handle

/-- Whether an edge must be pushed before the touch counts. -/
def armsPressure (handle : CaptureHandle) (touch : Touch) (met returning : Bool) :
    Handler Bool := do
  let task ← .task
  if touch = .begin && !met && !around.android && !task.isTouchpad around &&
      F64.zero.lt task.edgePressure then
    let captureType ← getType handle
    return captureType = .default || returning
  else
    return false

/-- The controller is asked to take its pointer back. -/
def passBack (handle : CaptureHandle) : Handler Unit := do
  let pos ← getPos handle
  .update fun task => { task with lastPass := some (pos, around.now) }
  letGo around
  let task ← .task
  match task.controller with
  | some (controller, _) =>
    .emit (.report (.handOn controller controller pos task.entryAlong))
  | none => pure ()

/-- The owner of the pointer is asked to enter the device beyond the edge. -/
def passOn (handle : CaptureHandle) : Handler Unit := do
  let pos ← getPos handle
  .update fun task => { task with lastPass := some (pos, around.now) }
  letGo around
  let task ← .task
  match task.controller, around.clientFingerprint handle with
  | some (controller, _), some target => do
    .emit (.report (.handOn controller target pos task.entryAlong))
    .emit (.report (.stepInside pos))
  | _, _ => pure ()

def activate (handle : CaptureHandle) : Handler Unit := do
  let pos ← getPos handle
  .update fun task => { task with
    state := .waitingForAck
    legacyEntry := false
    ackDeadline := some (around.now + ackTimeout)
    localDeparture := some (pos, task.entryAlong)
    activeClient := some handle }
  .emit (.report (.clientEntered handle))

/-- Presses and keys are kept for the replay. -/
def isHeld : InputEvent → Bool
  | .pointer (.button ..) | .keyboard (.key ..) => true
  | _ => false

def hold (event : InputEvent) : Handler Unit :=
  .update fun task =>
    if isHeld event && task.heldUntilAck.length < maxHeldUntilAck then
      { task with heldUntilAck := task.heldUntilAck ++ [event] }
    else
      task

def outgoing (side : Position) : Touch → Handler ProtoEvent
  | .begin => do
    -- a fresh entry from our own screen, not a hand-off
    .update fun task => { task with enteringVia := none }
    let task ← .task
    return task.enterEvent side
  | .input event => do
    let task ← .task
    match task.state with
    | .sending => return .input event
    | .waitingForAck => do
      hold event
      let task ← .task
      return task.enterEvent side

/-- A client that cannot be reached is let go. -/
def sendOrRelease (handle : CaptureHandle) (event : ProtoEvent) : Handler Unit := do
  .emit (.send handle event)
  if around.sendFails then
    releaseCapture around

def forward (handle : CaptureHandle) (touch : Touch) : Handler Unit := do
  let task ← .task
  match task.inputTarget handle (touch = .begin) with
  | none => pure ()
  | some target => do
    let side ← entrySide target
    let event ← outgoing side touch
    sendOrRelease around target event

def activateOrForward (handle : CaptureHandle) (touch : Touch) : Handler Unit := do
  let task ← .task
  if touch = .begin && task.activeClient ≠ some handle then
    activate around handle
    forward around handle touch
  else
    forward around handle touch

/-- A barrier that is only interested in the beginning, or one towards a device that is left to the
controller. -/
def deliver (handle : CaptureHandle) (touch : Touch) : Handler Unit := do
  let captureType ← getType handle
  let task ← .task
  if captureType = .enterOnly then
    let pos ← getPos handle
    if !task.isDefaultCaptureAt pos then
      letGo around
  else if touch = .begin && !task.isTouchpad around && task.deferToHandoff around handle then
    passOn around handle
  else
    activateOrForward around handle touch

def announce (handle : CaptureHandle) (touch : Touch) : Handler Unit := do
  let task ← .task
  if touch = .begin then
    .emit (.report (.captureBegin handle task.entryAlong))
    deliver around handle touch
  else
    deliver around handle touch

def armOrAnnounce (handle : CaptureHandle) (touch : Touch) (met : Bool) : Handler Unit := do
  let returning ← returning around handle
  let arms ← armsPressure around handle touch met returning
  if arms then
    .update fun task => { task with pressure := some (handle, .zero, around.now) }
  else if touch = .begin && returning then
    passBack around handle
  else
    announce around handle touch

/-- The same touch is not taken twice, nor as leaving right after the pointer came. -/
def skipRepeated (handle : CaptureHandle) (touch : Touch) (met : Bool) : Handler Unit := do
  let task ← .task
  let pos ← getPos handle
  if touch = .begin && (task.returnedJustNow around pos || task.passedOnJustNow around pos) then
    letGo around
  else
    armOrAnnounce around handle touch met

def skipEntry (handle : CaptureHandle) (touch : Touch) (met : Bool) : Handler Unit := do
  let task ← .task
  if touch = .begin && !task.isTouchpad around && task.justEntered around then
    landAgain around
  else
    skipRepeated around handle touch met

def handleTouch (handle : CaptureHandle) (touch : Touch) (met : Bool) : Handler Unit := do
  let nowhere ← leadsNowhere around handle touch
  if nowhere then
    letGo around
  else
    skipEntry around handle touch met

def measureAndHandle (handle : CaptureHandle) (touch : Touch) : Handler Unit := do
  let measured ← measure around handle touch
  match measured with
  | some (touch, met) => handleTouch around handle touch met
  | none => pure ()

/-- A barrier removed a moment ago can still deliver queued events, which belong to nobody. -/
def handleQueued (handle : CaptureHandle) (touch : Touch) : Handler Unit := do
  let task ← .task
  if !task.hasCapture handle then
    if touch = .begin then
      letGo around
  else if task.releaseBindPressed around then
    releaseCapture around
  else
    measureAndHandle around handle touch

def handleCaptureEvent (handle : CaptureHandle) : CaptureEvent → Handler Unit
  | .entry along => .update fun task => { task with entryAlong := some along }
  | .clipboard mimeType data =>
    match fromUtf8? data with
    | some value => .emit (.report (.fileClipboard handle mimeType value))
    | none => pure ()
  | .begin => handleQueued around handle .begin
  | .input event => handleQueued around handle (.input event)

def notifyPeerLost (handle : CaptureHandle) : Handler Unit :=
  .emit (.report (.peerLost handle))

def noteMessage (handle : CaptureHandle) : ProtoEvent → Handler Unit
  | .pong alive => do
    .emit (.report (.peerStateChanged handle))
    if !alive && !around.peerConnected handle then
      notifyPeerLost handle
  | _ => pure ()

def announceDeparture : Handler Unit := do
  let task ← .task
  match task.enteringVia, task.localDeparture with
  | none, some (edge, along) => .emit (.report (.pointerLeft edge along))
  | _, _ => pure ()

def acknowledge (handle : CaptureHandle) : Handler Unit := do
  announceDeparture
  let task ← .task
  .update fun task => { task with
    enteringVia := none
    entryAlong := none
    state := .sending
    ackDeadline := none
    heldUntilAck := [] }
  .each task.heldUntilAck fun event => .emit (.send handle (.input event))

/-- A hand-off that cannot be followed: the device in the middle has already let go. -/
def refuseHandoff (handle : CaptureHandle) : Handler Unit := do
  let edge ← getPos handle
  releaseCapture around
  .emit (.report (.stepInside edge))

def handleActive (handle : CaptureHandle) (event : ProtoEvent) : Handler Unit := do
  let task ← .task
  match event with
  | .ack _ => if task.state = .waitingForAck then acknowledge handle
  | .leave _ => returnLocalPointer around none
  | .leaveAt along => returnLocalPointer around (some along)
  | .pong false => releaseCapture around
  | .handoff target side =>
    if task.state = .sending then
      handoff around handle target side
    else
      refuseHandoff around handle
  | _ => pure ()

def answerActive (handle : CaptureHandle) (event : ProtoEvent) : Handler Unit := do
  let task ← .task
  if task.activeClient = some handle then
    handleActive around handle event

def handleMessage (handle : CaptureHandle) (fingerprint : String) (event : ProtoEvent) :
    Handler Unit := do
  .emit (.report (.peerAuthenticated handle fingerprint))
  if isForwardedProtocol event then
    .emit (.report (.clipboard handle fingerprint event))
  else
    noteMessage around handle event
    answerActive around handle event
    syncCaptures around

def sendProtoEvent (handle : CaptureHandle) (event : ProtoEvent) : Handler Unit :=
  if around.peerConnected handle then .emit (.send handle event) else pure ()

def createCapture (handle : CaptureHandle) (pos : Position) (captureType : CaptureType) :
    Handler Unit := do
  .update fun task => task.addCapture handle pos captureType
  if captureType = .default then
    .emit (.connect handle)

/-- Where a pointer that is arriving is to land. -/
def landing (task : CaptureTask) : Option Position :=
  (task.lastEntry.filter fun mark => around.now - mark.2 < entryGrace).map Prod.fst

/-- The pointer is placed at an edge when the backend has not done so. -/
def placeAtLanding (landing : Option Position) (needed : Bool) : Handler Unit :=
  match landing with
  | some edge => do
    .update fun task => { task with lastEntry := some (edge, around.now) }
    if needed then
      .emit (.report (.placePointer edge))
  | none => pure ()

def handleRelease : Handler Unit := do
  let task ← .task
  clearPressure around
  let placed ← releaseCaptureAt around (task.landing around)
  placeAtLanding around (task.landing around) (task.activeClient.isSome || !placed)

/-- Once who controls this screen changes, nobody waits any more for a push that is measured. -/
def setController (controller : Option (String × Position)) : Handler Unit := do
  let task ← .task
  .update fun task => { task with controller := controller }
  if controller.map Prod.fst ≠ task.controller.map Prod.fst && task.pressure.isSome then
    releaseCapture around

def releaseUnless (enabled : Bool) : Handler Unit :=
  if enabled then pure () else releaseCapture around

def destroyCapture (handle : CaptureHandle) : Handler Unit := do
  .update fun task => task.removeCapture handle
  let task ← .task
  if handle ∈ task.enabledCaptures then
    releaseActive around handle
    .update fun task => { task with enabledCaptures := task.enabledCaptures.erase handle }
    call around (.destroy handle) (.destroy handle)

def handleCommon : CaptureRequest → Handler Unit
  | .setMultiHop enabled => .update fun task => { task with multiHop := enabled }
  | .setSeparatePeerPointers enabled =>
    .update fun task => { task with separatePeerPointers := enabled }
  | .setEdgePressure amount => .update fun task => { task with edgePressure := amount }
  | .setReleaseBind bind => .update fun task => { task with releaseBind := bind }
  | .sendProto handle event => sendProtoEvent around handle event
  | .sendClipboard handle transferId data imageDimensions =>
    .emit (.streamClipboard handle transferId data imageDimensions)
  | _ => pure ()

def handleRequest : CaptureRequest → Handler Unit
  | .reenable => pure ()
  | .setBackend backend => do
    .update fun task => { task with backend := backend, restartNow := true }
    releaseCapture around
    .stop .sessionOver
  | .release => handleRelease around
  | .setController controller => setController around controller
  | .setInputSharing enabled => do
    .update fun task => { task with inputSharing := enabled }
    releaseUnless around enabled
    syncCaptures around
  | .create handle pos captureType => do
    createCapture handle pos captureType
    syncCaptures around
  | .destroy handle => destroyCapture around handle
  | request => handleCommon around request

def reconnectLostPeers : Handler Unit := do
  let task ← .task
  .each task.captures fun capture =>
    if capture.2.2 = .default && !around.peerConnected capture.1 then
      .emit (.connect capture.1)
    else
      pure ()

def expireEntry : Handler Unit := do
  let retry ← legacyEntryRetry around
  match retry with
  | some (handle, event) => .emit (.send handle event)
  | none => releaseCapture around

def ackExpired (task : CaptureTask) : Bool :=
  task.ackDeadline.any fun deadline => deadline ≤ around.now

def handleAckDue : Handler Unit := do
  let task ← .task
  if task.ackExpired around then
    expireEntry around

def handleSession : CaptureInput → Handler Unit
  | .captured handle event => handleCaptureEvent around handle event
  | .captureFailed => .stop .captureError
  | .captureEnded => .stop .sessionOver
  | .message handle fingerprint event => handleMessage around handle fingerprint event
  | .reconnect => reconnectLostPeers around
  | .ackDue => handleAckDue around
  | .request request => handleRequest around request
  | .cancelled => do
    releaseCapture around
    .stop .sessionOver
  | _ => pure ()

def handleInactiveRequest : CaptureRequest → Handler Bool
  | .reenable => return true
  | .setBackend backend => do
    .update fun task => { task with backend := backend, restartNow := true }
    return true
  | .create handle pos captureType => do
    createCapture handle pos captureType
    return false
  | .destroy handle => do
    .update fun task => task.removeCapture handle
    return false
  | .release => return false
  | .setController controller => do
    .update fun task => { task with controller := controller }
    clearPressure around
    return false
  | .setInputSharing enabled => do
    .update fun task => { task with inputSharing := enabled }
    return false
  | request => do
    handleCommon around request
    return false

def handleInactiveMessage (handle : CaptureHandle) (fingerprint : String) (event : ProtoEvent) :
    Handler Unit := do
  .emit (.report (.peerAuthenticated handle fingerprint))
  if isForwardedProtocol event then
    .emit (.report (.clipboard handle fingerprint event))
  else
    noteMessage around handle event

/-- Where the loop goes when capture has ended. A change of the backend starts it again at once. -/
def retire (task : CaptureTask) : CaptureTask :=
  if task.restartNow then
    { task with restartNow := false, phase := .starting }
  else
    { task with phase := .inactive }

/-- The backend is there: barriers are created, and the session begins. -/
def startSession (backend : CaptureBackend) : Handler Unit := do
  .emit (.report (.captureEnabled backend.display))
  .update fun task => { task with enabledCaptures := ∅ }
  syncCaptures around
  .update fun task => { task with phase := .session }

def handleStarting : CaptureInput → Handler Unit
  | .created backend => startSession around backend
  | .creationFailed | .initializationTimedOut | .cancelled => .update retire
  | .request request => do
    let again ← handleInactiveRequest around request
    .update fun task => if again && task.restartNow then task.retire else task
  | .message handle fingerprint event => handleInactiveMessage around handle fingerprint event
  | .reconnect => reconnectLostPeers around
  | _ => pure ()

def handleInactive : CaptureInput → Handler Unit
  | .request request => do
    let again ← handleInactiveRequest around request
    .update fun task => if again then { task with phase := .starting } else task
  | .message handle fingerprint event => handleInactiveMessage around handle fingerprint event
  | .reconnect => reconnectLostPeers around
  | .cancelled => .update fun task => { task with phase := .ended }
  | _ => pure ()

def share (lastEntry : Option (Position × ℕ)) (landingAlong : Option F32) : Handler Unit :=
  .update fun task => { task with lastEntry := lastEntry, landingAlong := landingAlong }

def handlePhase : Phase → CaptureInput → Handler Unit
  | .starting, input => handleStarting around input
  | .session, input => handleSession around input
  | .inactive, input => handleInactive around input
  | .ended, _ => pure ()

def handle (phase : Phase) : CaptureInput → Handler Unit
  | .entered lastEntry landingAlong => share lastEntry landingAlong
  | input => handlePhase around phase input

end Handlers

/-- What a handler that stopped leads to. -/
def conclude (after : CaptureTask × List CaptureEffect) : Halt → CaptureTask × List CaptureEffect
  | .noSuchCapture => ({ after.1 with phase := .ended }, after.2)
  | .captureError | .sessionOver =>
    (after.1.retire, after.2 ++ [.terminate, .report .captureDisabled])

variable [FloatOps]

def step (task : CaptureTask) (input : Surroundings × CaptureInput) :
    CaptureTask × List CaptureEffect :=
  match handle input.1 task.phase input.2 (task, []) with
  | (.ok (), after) => after
  | (.error halt, after) => conclude after halt

end CaptureTask

end Syntra.Capture
