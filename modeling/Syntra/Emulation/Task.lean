import Syntra.Emulation.Requests
import Syntra.StateMachine.Handler
import Syntra.StateMachine.Run

/-!
# The emulation task

The task that drives the backend (`EmulationTask` in `emulation.rs`). It takes its requests in four
places: while it waits to be enabled, while a backend is initialised, while the clients of an
earlier backend are created again, and while the session runs. The map of the clients outlives the
backends.
-/

namespace Syntra.Emulation

open ByteFormat Proto
open StateMachine Tables

abbrev EmulationHandle := UInt64

/-- Where the task waits, with what it needs when it goes on. -/
inductive Phase (Backend : Type)
  | initializing (backend : Option Backend)
  | creating (remaining : List EmulationHandle)
  | running (clipboardActive : Bool)
  | waiting
  | ended
  deriving DecidableEq

/-- The task that drives the backend. -/
structure EmulationTask (Address Backend : Type) where
  backend : Option Backend
  emulationReady : Bool
  inputSharing : Bool
  independentPointers : Bool
  exitRequested : Bool
  restartNow : Bool
  requests : List (ProxyRequest Address Backend)
  handles : Table Address EmulationHandle
  pressedButtons : Table Address (List UInt32)
  nextId : EmulationHandle
  phase : Phase Backend

/-- What the task does to the backend, and what it reports. -/
inductive Effect (Address : Type)
  | create (handle : EmulationHandle)
  | destroy (handle : EmulationHandle)
  | consume (event : InputEvent) (handle : EmulationHandle)
  | setIndependentPointers (enabled : Bool)
  | placePointer (edge : PointerEdge) (along : Option F32)
  | stepInside (edge : PointerEdge)
  | hidePointer
  | setFileClipboard (contents : List (String × Bytes))
  | published (result : Except String Unit)
  | terminate
  | report (event : BackendEvent Address)

/-- What the task finds around it: whether the backend takes an event, the edge that the pointer of
a client has left through since, what becomes of a publication, and the order of the hash
tables. -/
structure Surroundings (Address : Type) where
  android : Bool
  consumes : InputEvent → EmulationHandle → Bool
  pointerEdge : EmulationHandle → Option PointerExit
  setFileClipboard : List (String × Bytes) → Except String Unit
  decodeNativeImage : String → Bytes → Except String (UInt32 × UInt32 × Bytes)
  clients : IterOrder Address
  buttons : IterOrder UInt32

/-- What happens at the task: the other side puts a request in the queue, the task takes the next
one, and the backend is created or not, creates a client, offers its clipboard or is asked for its
health. -/
inductive Event (Address Backend : Type)
  | send (request : ProxyRequest Address Backend)
  | receive (around : Surroundings Address)
  | initialized (name : String) (around : Surroundings Address)
  | initializationFailed
  | timedOut
  | created
  | clipboard (offered : Option (String × Bytes)) (around : Surroundings Address)
  | healthCheck (healthy : Bool)

variable {Address Backend : Type} [DecidableEq Address]

namespace EmulationTask

/-- A handler of the task; it stops where the session ends. -/
abbrev Handler (Address Backend α : Type) :=
  StateMachine.Handler (EmulationTask Address Backend × List (Effect Address)) Unit α

def new (backend : Option Backend) : EmulationTask Address Backend where
  backend := backend
  emulationReady := false
  inputSharing := true
  independentPointers := false
  exitRequested := false
  restartNow := false
  requests := []
  handles := ∅
  pressedButtons := ∅
  nextId := 0
  phase := .initializing backend

variable (task : EmulationTask Address Backend)

def send (request : ProxyRequest Address Backend) : EmulationTask Address Backend :=
  let task := { task with requests := task.requests ++ [request] }
  match request with
  | .terminate => { task with exitRequested := true }
  | .setInputSharing enabled => { task with inputSharing := enabled }
  | .setIndependentPointers enabled => { task with independentPointers := enabled }
  | _ => task

def clearClients : EmulationTask Address Backend :=
  { task with handles := ∅, pressedButtons := ∅ }

def removeClient (addr : Address) : EmulationTask Address Backend :=
  { task with handles := task.handles.erase addr, pressedButtons := task.pressedButtons.erase addr }

/-- What `run` does when `do_emulation` returns. At its end the task is dropped with its maps. -/
def afterEmulation : EmulationTask Address Backend :=
  if task.exitRequested then
    { task.clearClients with phase := .ended }
  else if task.restartNow then
    { task with restartNow := false, phase := .initializing task.backend }
  else
    { task with phase := .waiting }

def endSession : EmulationTask Address Backend × List (Effect Address) :=
  ({ task with emulationReady := false }.afterEmulation, [.terminate, .report .emulationDisabled])

def receiveWaiting :
    ProxyRequest Address Backend → EmulationTask Address Backend × List (Effect Address)
  | .reenable => ({ task with phase := .initializing task.backend }, [])
  | .setBackend backend =>
    ({ task with backend := backend, phase := .initializing backend }, [])
  | .terminate => ({ task.clearClients with phase := .ended }, [])
  | .input .. | .remove _ => (task, [])
  | .setInputSharing enabled => (if enabled then task else task.clearClients, [])
  | .setIndependentPointers _ | .placePointer .. | .hidePointer | .stepInside _ => (task, [])
  | .publishFileClipboard _ => (task, [.published (.error "emulation inactive")])

def receiveInitializing :
    ProxyRequest Address Backend → EmulationTask Address Backend × List (Effect Address)
  | .setBackend backend =>
    ({ task with backend := backend, restartNow := true }.afterEmulation, [])
  -- the creation of the same backend is started again, and its deadline
  | .reenable => (task, [])
  | .terminate => ({ task with exitRequested := true }.afterEmulation, [])
  | .setInputSharing enabled =>
    let task := { task with inputSharing := enabled }
    (if enabled then task else task.clearClients, [])
  | .remove addr => (task.removeClient addr, [])
  | .input .. | .setIndependentPointers _ | .placePointer .. | .hidePointer | .stepInside _ =>
    (task, [])
  | .publishFileClipboard _ => (task, [.published (.error "emulation not ready")])

def createClients (remaining : List EmulationHandle) : Phase Backend :=
  if remaining = [] then .running true else .creating remaining

def initialized (name : String) (around : Surroundings Address) :
    EmulationTask Address Backend × List (Effect Address) :=
  let task := { task with emulationReady := true }
  let effects : List (Effect Address) :=
    [.setIndependentPointers task.independentPointers, .report (.emulationEnabled name)]
  if task.inputSharing then
    let remaining := (around.clients.arrange task.handles.keys).filterMap task.handles.lookup
    ({ task with phase := createClients remaining }, effects)
  else
    ({ task.clearClients with phase := .running true }, effects)

/-- `wait_for_termination` takes a request while a client is created. -/
def receiveCreating :
    ProxyRequest Address Backend → EmulationTask Address Backend × List (Effect Address)
  | .terminate => ({ task with phase := .running true }, [])
  | .publishFileClipboard _ => (task, [.published (.error "emulation task stopped")])
  | _ => (task, [])

def created : EmulationTask Address Backend × List (Effect Address) :=
  match task.phase with
  | .creating (handle :: remaining) =>
    ({ task with phase := createClients remaining }, [.create handle])
  | _ => (task, [])

variable (around : Surroundings Address)

/-- A call of the backend that ends the session when it fails. -/
def consume (event : InputEvent) (handle : EmulationHandle) : Handler Address Backend Unit := do
  .emit (.consume event handle)
  if !around.consumes event handle then
    .stop ()

/-- The buttons that a client holds are released; whether the backend has taken all of it. -/
def releaseButtons (around : Surroundings Address) (handle : EmulationHandle) :
    List UInt32 → Handler Address Backend Bool
  | [] => pure true
  | button :: buttons => do
    let event := InputEvent.pointer (.button 0 button 0)
    .emit (.consume event handle)
    let rest ← releaseButtons around handle buttons
    return around.consumes event handle && rest

def releaseClient (addr : Address) : Handler Address Backend Bool := do
  let task ← .task
  match task.handles.lookup addr with
  | none =>
    .update fun task => { task with pressedButtons := task.pressedButtons.erase addr }
    if around.android then
      .emit (.destroy 0)
    return true
  | some handle =>
    .update fun task => { task with handles := task.handles.erase addr }
    let buttons := (task.pressedButtons.lookup addr).getD []
    .update fun task => { task with pressedButtons := task.pressedButtons.erase addr }
    let released ← releaseButtons around handle (around.buttons.arrange buttons)
    .emit (.destroy handle)
    return released

def releaseClients (around : Surroundings Address) : List Address → Handler Address Backend Bool
  | [] => pure true
  | addr :: addrs => do
    let released ← releaseClient around addr
    let rest ← releaseClients around addrs
    return released && rest

def clientHandle (addr : Address) : Handler Address Backend EmulationHandle := do
  let task ← .task
  match task.handles.lookup addr with
  | some handle => return handle
  | none =>
    let handle := task.nextId
    .update fun task => { task with nextId := task.nextId + 1 }
    .emit (.create handle)
    .update fun task => { task with handles := task.handles.insert addr handle }
    return handle

def holdButtons (addr : Address) : InputEvent → EmulationTask Address Backend
  | .pointer (.button _ button state) =>
    let buttons := (task.pressedButtons.lookup addr).getD []
    let held := if state = 0 then buttons.erase button else buttons.insert button
    { task with pressedButtons := task.pressedButtons.insert addr held }
  | _ => task

def sessionInput (event : InputEvent) (addr : Address) : Handler Address Backend Unit := do
  let task ← .task
  if task.inputSharing then
    let handle ← clientHandle addr
    .update fun task => task.holdButtons addr event
    consume around event handle
    match around.pointerEdge handle with
    | some exit => .emit (.report (.pointerEdge addr exit.edge exit.along))
    | none => pure ()

def receiveRunning : ProxyRequest Address Backend → Handler Address Backend Unit
  | .input event addr => sessionInput around event addr
  | .remove addr => do
    let released ← releaseClient around addr
    if !released then
      .stop ()
  | .setIndependentPointers enabled => .emit (.setIndependentPointers enabled)
  | .stepInside edge => .emit (.stepInside edge)
  | .hidePointer => .emit .hidePointer
  | .placePointer side along => .emit (.placePointer (.ofSide side) along)
  | .setInputSharing enabled => do
    if !enabled then
      let task ← .task
      let released ← releaseClients around (around.clients.arrange task.handles.keys)
      if !released then
        .stop ()
  | .terminate => .stop ()
  | .reenable => pure ()
  | .setBackend backend => do
    .update fun task => { task with backend := backend, restartNow := true }
    .stop ()
  | .publishFileClipboard contents => do
    .emit (.setFileClipboard contents)
    .emit (.published (around.setFileClipboard contents))

def inSession (handler : Handler Address Backend Unit) (task : EmulationTask Address Backend) :
    EmulationTask Address Backend × List (Effect Address) :=
  match handler (task, []) with
  | (.ok (), task, effects) => (task, effects)
  | (.error (), task, effects) => (task.endSession.1, effects ++ task.endSession.2)

def maxImageBytes : ℕ := 64 * 1024 * 1024

def clipboardReport (mimeType : String) (data : Bytes) : Option (BackendEvent Address) :=
  if mimeType ∈ ["image/png", "image/jpeg", "image/jpg"] then
    if data.length > maxImageBytes then
      none
    else
      match around.decodeNativeImage mimeType data with
      | .ok (width, height, rgba) => some (.nativeClipboard (.image width height rgba))
      | .error _ => none
  else if mimeType ∈ ["text/plain;charset=utf-8", "text/plain", "UTF8_STRING"] then
    (fromUtf8? data).map fun text => .nativeClipboard (.text text)
  else
    (fromUtf8? data).map fun value => .fileClipboard mimeType value

def clipboard (offered : Option (String × Bytes)) (around : Surroundings Address) :
    EmulationTask Address Backend × List (Effect Address) :=
  match offered with
  | none => ({ task with phase := .running false }, [])
  | some (mimeType, data) =>
    (task, ((clipboardReport around mimeType data).map .report).toList)

def take (request : ProxyRequest Address Backend) :
    EmulationTask Address Backend × List (Effect Address) :=
  match task.phase with
  | .waiting => task.receiveWaiting request
  | .initializing _ => task.receiveInitializing request
  | .creating _ => task.receiveCreating request
  | .running _ => task.inSession (receiveRunning around request)
  | .ended => (task, [])

def receive : EmulationTask Address Backend × List (Effect Address) :=
  match task.requests with
  | [] => (task, [])
  | request :: requests => { task with requests := requests }.take around request

def step : Event Address Backend → EmulationTask Address Backend × List (Effect Address)
  | .send request => (task.send request, [])
  | .receive around => task.receive around
  | .initialized name around => task.initialized name around
  | .initializationFailed | .timedOut => (task.afterEmulation, [])
  | .created => task.created
  | .clipboard offered around => task.clipboard offered around
  | .healthCheck healthy => if healthy then (task, []) else task.endSession

def Enabled : Event Address Backend → Prop
  | .send _ => True
  | .receive _ => task.requests ≠ [] ∧ task.phase ≠ .ended
  | .initialized .. | .initializationFailed | .timedOut =>
    ∃ backend, task.phase = .initializing backend
  | .created => ∃ handle remaining, task.phase = .creating (handle :: remaining)
  | .clipboard .. => task.phase = .running true
  | .healthCheck _ => ∃ clipboardActive, task.phase = .running clipboardActive

/-- The task with the requests that reach it, for a backend setting. -/
def machine (backend : Option Backend) :
    Machine (EmulationTask Address Backend) (Event Address Backend) where
  initial := new backend
  enabled := Enabled
  next task event := (task.step event).1

end EmulationTask

end Syntra.Emulation
