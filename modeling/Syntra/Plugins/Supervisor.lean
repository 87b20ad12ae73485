import Syntra.Plugins.Manifest
import Syntra.Plugins.Routing
import Syntra.StateMachine.Handler

/-!
# The supervisor of plugin processes

The task that owns every plugin process (`plugins/supervisor.rs`): what it keeps of a process, how
it answers the commands of the service and what its processes write, and what it does when one of
them ends. What the operating system and the channels answer is part of the step; waiting for a
process to end takes no step of its own.
-/

namespace Syntra.Plugins

open ByteFormat StateMachine
open Clipboard (Operation RemoteEntry RangeResponse Unmounted)
open Files (PathBuf)
open Tables

def maxPendingRanges : ℕ := 256

def maxRestarts : ℕ := 3

def diagnosticLines : ℕ := 20

def diagnosticWidth : ℕ := 200

/-- A process of a plugin. -/
inductive AdapterId where
  /-- The long-running process of a plugin. -/
  | resident (plugin : String)
  /-- A process started for one transfer and ended with it. -/
  | transfer (plugin transferId : String)
  /-- The settings window of a plugin, which does not speak the protocol. -/
  | settings (plugin : String)
  deriving DecidableEq, Repr

namespace AdapterId

def plugin : AdapterId → String
  | .resident plugin | .transfer plugin _ | .settings plugin => plugin

def servedTransfer : AdapterId → Option String
  | .resident _ | .settings _ => none
  | .transfer _ transferId => some transferId

end AdapterId

/-- The package that a digest was computed from. -/
structure Integrity where
  manifest : PluginManifest
  manifestPath : PathBuf
  deriving DecidableEq

/-- Everything needed to launch one plugin, fixed at the time it is asked for. -/
structure LaunchSpec where
  executable : String
  args : List String
  /-- What the user approved, or the bundled descriptor declares. -/
  approved : Capabilities
  handshakeIds : List String
  role : Option PluginRole
  /-- The content digest at approval. -/
  digest : String
  /-- What the digest is computed from again; a bundled plugin has none. -/
  integrity : Option Integrity
  deriving DecidableEq

/-- A process that runs. -/
structure AdapterRuntime where
  generation : UInt64
  spec : LaunchSpec
  /-- Set once the handshake is accepted. -/
  grant : Option Grant
  deriving DecidableEq

def AdapterRuntime.ready (runtime : AdapterRuntime) : Bool := runtime.grant.isSome

/-- A range that an adapter waits for. -/
structure PendingRange where
  offset : UInt64
  length : UInt32
  deriving DecidableEq, Repr

/-- What the supervisor keeps of its processes. -/
structure State where
  processes : Table AdapterId AdapterRuntime
  pendingRanges : Table (String × UInt64) PendingRange
  pendingMessages : Table AdapterId Message
  /-- The transfers each plugin announced. -/
  ownedTransfers : Table String (KeySet String)
  nextGeneration : UInt64
  terminal : KeySet AdapterId
  /-- How each plugin was last asked to run. -/
  specs : Table String LaunchSpec
  settings : Table String (List (String × String))
  restarts : Table String ℕ
  /-- Changes for a plugin that owns its settings, made while it was not running. -/
  pendingChanges : Table String (List (String × String))
  diagnostics : Table String (List String)
  stopping : Bool

namespace State

def new : State where
  processes := ∅
  pendingRanges := ∅
  pendingMessages := ∅
  ownedTransfers := ∅
  nextGeneration := 1
  terminal := ∅
  specs := ∅
  settings := ∅
  restarts := ∅
  pendingChanges := ∅
  diagnostics := ∅
  stopping := false

def ready (state : State) (adapter : AdapterId) : Bool :=
  (state.processes.lookup adapter).any AdapterRuntime.ready

def processesOf (state : State) (plugin : String) : List AdapterId :=
  state.processes.keys.filter fun adapter => adapter.plugin = plugin

end State

/-- What the supervisor is asked to do. -/
inductive ManagerCommand where
  | startPlugin (id : String) (spec : LaunchSpec) (settings : List (String × String))
  | startTransfer (id : String) (spec : LaunchSpec) (transferId : String) (operation : Operation)
      (entries : List RemoteEntry)
  | stopPlugin (id : String)
  | restartPlugin (id : String)
  | pluginSettings (id : String) (settings : List (String × String))
  | pluginChangeSetting (id key value : String)
  | pluginOpenSettings (id : String) (theme : List (String × String))
  | openSettingsWindow (id : String) (spec : LaunchSpec) (theme : List (String × String))
  | pluginPointer (id : String) (event : PointerEvent)
  | publishFileClipboard (id transferId : String) (operation : Operation) (uris : List String)
  | clipboardData (id transferId mimeType value : String)
  | rangeResponse (id : String) (response : RangeResponse)
  | released (id transferId : String)
  | unmounted (id : String) (unmounted : Unmounted)
  | cancel (adapter : AdapterId) (transferId : String)
  | shutdown
  deriving DecidableEq

/-- What the supervisor reports. -/
inductive ManagerEvent where
  | started (adapter : AdapterId) (pid : UInt32)
  | ready (adapter : AdapterId) (grant : Grant)
  | stopped (adapter : AdapterId)
  | message (adapter : AdapterId) (message : Message)
  | cancelled (adapter : AdapterId) (transferId : String)
  | rejected (adapter : Option AdapterId) (reason : String)
  | exited (adapter : AdapterId) (status : String)
  | diagnostics (plugin : String) (lines : List String)
  deriving DecidableEq, Repr

/-- What the tasks of a process put into the queue of the supervisor. -/
inductive ProcessEvent where
  | line (adapter : AdapterId) (generation : UInt64) (line : String)
  | diagnostic (adapter : AdapterId) (generation : UInt64) (line : String)
  | failed (adapter : AdapterId) (generation : UInt64) (reason : String)
  | exited (adapter : AdapterId) (generation : UInt64) (status : String)
  deriving DecidableEq, Repr

/-- What the supervisor does: it reports to the service, starts, writes to and ends processes. -/
inductive Effect where
  | report (event : ManagerEvent)
  | spawned (adapter : AdapterId) (generation : UInt64) (spec : LaunchSpec) (args : List String)
      (theme : Option String)
  | written (adapter : AdapterId) (generation : UInt64) (message : Message)
  | ended (adapter : AdapterId) (generation : UInt64)
  deriving DecidableEq

/-- What is read from texts: the messages of the protocol and base 64 data. -/
structure Codecs where
  decodeLine : String → Except String Message
  decodeBase64 : String → Option Bytes

/-- What `try_send` to the writer of a process answers. -/
inductive SendOutcome where
  | sent
  | full
  | closed
  deriving DecidableEq, Repr

/-- What is met during one step. -/
structure Surroundings where
  /-- The digest of a package as its files are when a process is started. -/
  digest : Integrity → String → Except String String
  checkExecutable : String → Except String Unit
  /-- The process id of a new process. -/
  spawn : AdapterId → UInt64 → Except String UInt32
  /-- By the number of effects before. -/
  trySend : ℕ → SendOutcome
  processOrder : IterOrder AdapterId
  transferOrder : IterOrder String

/-- `verify_content`. -/
def verifyContent (around : Surroundings) (spec : LaunchSpec) : Except String Unit :=
  match spec.integrity with
  | none => .ok ()
  | some integrity =>
    match around.digest integrity spec.executable with
    | .error error => .error s!"the plugin cannot be checked: {error}"
    | .ok current =>
      if current = spec.digest then .ok ()
      else .error "the plugin's content changed since it was approved"

def isControl (character : Char) : Bool :=
  character.toNat < 0x20 || (0x7f ≤ character.toNat && character.toNat < 0xa0)

def isWhitespace (character : Char) : Bool :=
  [0x09, 0x0a, 0x0b, 0x0c, 0x0d, 0x20, 0x85, 0xa0, 0x1680, 0x2028, 0x2029, 0x202f, 0x205f,
    0x3000].contains character.toNat ||
    (0x2000 ≤ character.toNat && character.toNat ≤ 0x200a)

/-- Makes one line of plugin output safe to keep and show. -/
def sanitizeLine (line : String) : String :=
  let kept := (line.toList.filter fun character => !isControl character || character = '\t').map
    fun character => if character = '\t' then ' ' else character
  let trimmed := ((kept.dropWhile isWhitespace).reverse.dropWhile isWhitespace).reverse
  String.ofList <|
    if trimmed.length > diagnosticWidth then trimmed.take diagnosticWidth ++ ['…'] else trimmed

/-- Records one line; the oldest one makes room when the ring is full. -/
def pushDiagnostic (lines : List String) (line : String) : List String :=
  let line := sanitizeLine line
  if line = "" then lines
  else if lines.length = diagnosticLines then lines.drop 1 ++ [line]
  else lines ++ [line]

abbrev Supervising (α : Type) : Type := Handler (State × List Effect) String α

namespace Supervising

open Handler (task update emit)

/-- `emit`. -/
def report (event : ManagerEvent) : Supervising Unit := emit (.report event)

def reject (adapter : Option AdapterId) (reason : String) : Supervising Unit :=
  report (.rejected adapter reason)

variable (around : Surroundings) (adapter : AdapterId)

def stopAdapter : Supervising Unit := do
  let state ← task
  match state.processes.lookup adapter with
  | none => pure ()
  | some runtime => do
    update fun state => { state with processes := state.processes.erase adapter }
    emit (.ended adapter runtime.generation)

def cancelOwned : Supervising Unit := do
  let state ← task
  let transfers := match adapter with
    | .resident plugin =>
      around.transferOrder.arrange ((state.ownedTransfers.lookup plugin).elim [] AList.keys)
    | .transfer _ transferId => [transferId]
    | .settings _ => []
  update fun state => match adapter with
    | .resident plugin => { state with ownedTransfers := state.ownedTransfers.erase plugin }
    | .transfer .. | .settings _ => state
  .each transfers fun transferId => do
    update fun state => { state with
      pendingRanges := state.pendingRanges.retain fun key _ => key.1 ≠ transferId }
    report (.cancelled adapter transferId)

def failAdapter (reason : String) : Supervising Unit := do
  stopAdapter adapter
  cancelOwned around adapter
  report (.exited adapter reason)

/-- `runtime.writer.try_send`. -/
def trySend (runtime : AdapterRuntime) (message : Message) : Supervising SendOutcome := do
  let world ← Handler.read
  let outcome := around.trySend world.2.length
  if outcome = .sent then
    emit (.written adapter runtime.generation message)
  pure outcome

def sendReady (message : Message) : Supervising Unit := do
  let state ← task
  match state.processes.lookup adapter with
  | none => reject (some adapter) "the plugin is not running"
  | some runtime =>
    if !runtime.ready then
      reject (some adapter) "the plugin is not ready"
    else
      match ← trySend around adapter runtime message with
      | .sent => pure ()
      | .full => failAdapter around adapter "the plugin's input queue is full"
      | .closed => failAdapter around adapter "the plugin's writer has stopped"

/-- A message that is worthless once stale is dropped when the queue is full. -/
def sendDroppable (message : Message) : Supervising Unit := do
  let state ← task
  match state.processes.lookup adapter with
  | none => pure ()
  | some runtime =>
    match ← trySend around adapter runtime message with
    | .sent | .full => pure ()
    | .closed => failAdapter around adapter "the plugin's writer has stopped"

def sendSettings (settings : List (String × String)) : Supervising Unit :=
  sendReady around adapter (.settings settings)

/-- `wrapping_add(1).max(1)`. -/
def nextGeneration (generation : UInt64) : UInt64 := max (generation + 1) 1

/-- What a process is started with: the arguments of the manifest, and for a settings window one
more. -/
def commandArgs (spec : LaunchSpec) : List String :=
  match adapter with
  | .settings _ => spec.args ++ ["--settings"]
  | .resident _ | .transfer .. => spec.args

def answered {α : Type} (answer : Except String α) : Supervising α :=
  match answer with
  | .ok value => pure value
  | .error reason => .stop reason

/-- `launch`, and the entry for the new process. -/
def launch (spec : LaunchSpec) (generation : UInt64) (theme : Option String) :
    Supervising Unit := do
  let pid ← answered (around.spawn adapter generation)
  emit (.spawned adapter generation spec (commandArgs adapter spec) theme)
  update fun state => { state with
    processes := state.processes.insert adapter ⟨generation, spec, none⟩ }
  report (.started adapter pid)

/-- Checks the launch inputs and starts the process. -/
def spawnAdapter : Supervising Unit := do
  let state ← task
  match state.specs.lookup adapter.plugin with
  | none => .stop s!"plugin {adapter.plugin} has no registered launch"
  | some spec => do
    -- a mismatch also drops the cached launch
    (answered (verifyContent around spec)).recover fun reason => do
      update fun state => { state with specs := state.specs.erase adapter.plugin }
      .stop reason
    answered (around.checkExecutable spec.executable)
    update fun state => { state with
      nextGeneration := nextGeneration state.nextGeneration
      diagnostics := state.diagnostics.insert adapter.plugin [] }
    launch around adapter spec state.nextGeneration none

/-- Lines without a newline in a name or value. -/
def encodeTheme (theme : List (String × String)) : String :=
  let lines := theme.filter fun entry => '\n' ∉ entry.1.toList ∧ '\n' ∉ entry.2.toList
  String.join (lines.map fun entry => s!"{entry.1}={entry.2}\n")

def spawnSettingsWindow (id : String) (spec : LaunchSpec) (theme : List (String × String)) :
    Supervising Unit := do
  let adapter := AdapterId.settings id
  let state ← task
  if adapter ∈ state.processes then
    pure ()
  else do
    answered (verifyContent around spec)
    answered (around.checkExecutable spec.executable)
    update fun state => { state with nextGeneration := nextGeneration state.nextGeneration }
    launch around adapter spec state.nextGeneration (some (encodeTheme theme))

def orReject (starting : Supervising Unit) : Supervising Unit :=
  starting.recover fun reason => reject (some adapter) reason

/-- A resident plugin is started again after it ended, but only so often. -/
def relaunch (id : String) (terminal : Bool) : Supervising Unit := do
  let state ← task
  let attempts := (state.restarts.lookup id).getD 0
  update fun state => { state with restarts := state.restarts.insert id attempts }
  if !terminal ∧ !state.stopping ∧ attempts < maxRestarts ∧ id ∈ state.specs then do
    update fun state => { state with restarts := state.restarts.insert id (attempts + 1) }
    orReject (.resident id) (spawnAdapter around (.resident id))

def processExit (reason : String) : Supervising Unit := do
  let before ← task
  let terminal := decide (adapter ∈ before.terminal)
  update fun state => { state with terminal := state.terminal.erase adapter }
  stopAdapter adapter
  if !terminal then
    cancelOwned around adapter
  report (.exited adapter reason)
  match adapter with
  | .resident id => relaunch around id terminal
  | .transfer .. | .settings _ => pure ()

end Supervising

end Syntra.Plugins
