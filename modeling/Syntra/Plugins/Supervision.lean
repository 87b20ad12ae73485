import Syntra.Plugins.Supervisor
import Syntra.StateMachine.Run

/-!
# Commands, lines and exits

How the supervisor answers a command of the service and what comes from a process
(`handle_command`, `handle_process_event`). Every step takes one of them from its queue.
-/

namespace Syntra.Plugins

open ByteFormat StateMachine Tables

def isTransferIdByte (byte : UInt8) : Bool :=
  (0x30 ≤ byte && byte ≤ 0x39) || (0x41 ≤ byte && byte ≤ 0x5a) || (0x61 ≤ byte && byte ≤ 0x7a) ||
    byte = 0x2d || byte = 0x5f

def validTransferId (value : String) : Bool :=
  !value.isEmpty && decide ((utf8 value).length ≤ 128) && (utf8 value).all isTransferIdByte

def maxSettings : ℕ := 64

def maxText : ℕ := 256

def maxOptions : ℕ := 64

def tooLong (text : String) : Bool := (utf8 text).length > maxText

/-- The check of the settings one after another; the keys so far must not come again. -/
def validateControls : List String → List SettingControl → Except String Unit
  | _, [] => .ok ()
  | keys, setting :: settings =>
    if setting.key.isEmpty ||
        [setting.key, setting.label, setting.value, setting.default].any tooLong ||
        setting.key ∈ keys then
      .error "plugin declared an invalid setting"
    else
      match setting.kind with
      | .choice options =>
        if options.isEmpty || options.length > maxOptions ||
            options.any fun option => tooLong option.value || tooLong option.label then
          .error "plugin declared an invalid choice"
        else validateControls (setting.key :: keys) settings
      | .number min max =>
        if min > max then .error "plugin declared an empty number range"
        else validateControls (setting.key :: keys) settings
      | .toggle | .color => validateControls (setting.key :: keys) settings

def validateDeclaredSettings (settings : List SettingControl) : Except String Unit :=
  if settings.length > maxSettings then .error "plugin declared too many settings"
  else validateControls [] settings

/-- What a message says of transfers: a well-formed one, and for a per-transfer process its own. -/
def validateTransfer (adapter : AdapterId) (message : Message) : Except String Unit :=
  match messageTransferId message with
  | some transferId =>
    if !validTransferId transferId then
      .error "the plugin emitted an invalid transfer id"
    else if adapter.servedTransfer.any (transferId ≠ ·) then
      .error "the plugin emitted a message for another transfer"
    else .ok ()
  | none =>
    match message with
    | .error _ => .ok ()
    | _ => .error "an uncorrelated message"

namespace Supervising

open Handler (task update)

variable (around : Surroundings) (adapter : AdapterId) (message : Message)

/-- A range request of a process is noted until it is answered. -/
def noteRange : Supervising Unit :=
  match message with
  | .rangeRequest request => do
    let state ← task
    if request.length = 0 then
      .stop "zero-length range request"
    else if state.pendingRanges.keys.length ≥ maxPendingRanges then
      .stop "too many pending range requests"
    else do
      let key := (request.transferId, request.requestId)
      update fun state => { state with
        pendingRanges := state.pendingRanges.insert key ⟨request.offset, request.length⟩ }
      if key ∈ state.pendingRanges then
        .stop "duplicate range request id"
  | _ => pure ()

def validateMount : Except String Unit :=
  match message with
  | .mountReady mountUri ready =>
    if mountUri.isEmpty || ready.uris.isEmpty then .error "invalid mount-ready message"
    else .ok ()
  | _ => .ok ()

/-- Checks a frame from a ready process against its grant and the transfer it serves. -/
def validateInbound : Supervising Unit := do
  let state ← task
  match (state.processes.lookup adapter).bind AdapterRuntime.grant with
  | none => .stop "the process has no grant"
  | some grant =>
    if !grant.permits message then
      .stop "a frame the plugin was not approved to send"
    else
      match message with
      | .declareSettings settings => answered (validateDeclaredSettings settings)
      | _ => do
        answered (validateTransfer adapter message)
        noteRange message
        answered (validateMount message)

/-- A resident plugin starts from the user's saved values, and from the changes made meanwhile. -/
def handOver (id : String) : Supervising Unit := do
  let state ← task
  sendSettings around (.resident id) ((state.settings.lookup id).getD [])
  let state ← task
  update fun state => { state with pendingChanges := state.pendingChanges.erase id }
  .each ((state.pendingChanges.lookup id).getD []) fun change =>
    sendReady around (.resident id) (.changeSetting change.1 change.2)

/-- What follows a handshake that was taken: what was kept for the process is sent. -/
def welcome : Supervising Unit := do
  let state ← task
  update fun state => { state with pendingMessages := state.pendingMessages.erase adapter }
  (state.pendingMessages.lookup adapter).elim (pure ()) (sendReady around adapter)
  match adapter with
  | .resident id => handOver around id
  | .transfer .. | .settings _ => pure ()

def acceptHandshake : Supervising Unit := do
  let state ← task
  match state.processes.lookup adapter with
  | none => pure ()
  | some runtime =>
    let accepts := fun announced =>
      decide (announced = adapter.plugin) || runtime.spec.handshakeIds.any (· = announced)
    match validateHandshake accepts runtime.spec.approved message runtime.spec.role with
    | .error reason => failAdapter around adapter s!"handshake refused: {reason}"
    | .ok grant => do
      update fun state => { state with
        processes := state.processes.insert adapter { runtime with grant := some grant } }
      report (.ready adapter grant)
      welcome around adapter

/-- What a frame that was let through changes, before it is passed on. -/
def noteMessage (state : State) : State :=
  match message with
  | .completed _ | .cancelled _ | .unmounted _ =>
    if adapter.servedTransfer.isSome then
      { state with terminal := state.terminal.insert adapter () }
    else state
  | .released transferId => { state with
    ownedTransfers := modify state.ownedTransfers adapter.plugin (·.erase transferId) }
  | .copyManifest manifest =>
    let owned := (state.ownedTransfers.lookup adapter.plugin).getD ∅
    { state with
      ownedTransfers :=
        state.ownedTransfers.insert adapter.plugin (owned.insert manifest.transferId ()) }
  | _ => state

def takeLine (codecs : Codecs) (around : Surroundings) (adapter : AdapterId) (line : String) :
    Supervising Unit := do
  let state ← task
  match codecs.decodeLine line with
  | .error error => failAdapter around adapter s!"malformed message: {error}"
  | .ok message =>
    if !state.ready adapter then
      acceptHandshake around adapter message
    else
      (do
        validateInbound adapter message
        update (noteMessage adapter message)
        report (.message adapter message)).recover fun reason =>
          failAdapter around adapter reason

def current (state : State) (adapter : AdapterId) (generation : UInt64) : Bool :=
  (state.processes.lookup adapter).any (·.generation = generation)

/-- A line that a current process wrote to its error stream. -/
def takeDiagnostic (plugin line : String) : Supervising Unit := do
  let state ← task
  let lines := pushDiagnostic ((state.diagnostics.lookup plugin).getD []) line
  update fun state => { state with diagnostics := state.diagnostics.insert plugin lines }
  report (.diagnostics plugin lines)

def handleProcessEvent (codecs : Codecs) (around : Surroundings) (event : ProcessEvent) :
    Supervising Unit := do
  let state ← task
  match event with
  | .diagnostic adapter generation line =>
    if current state adapter generation then
      takeDiagnostic adapter.plugin line
  | .line adapter generation line =>
    if current state adapter generation then
      takeLine codecs around adapter line
  | .failed adapter generation reason | .exited adapter generation reason =>
    if current state adapter generation then
      processExit around adapter reason

def answerRange (codecs : Codecs) (around : Surroundings) (id : String)
    (response : Clipboard.RangeResponse) : Supervising Unit := do
  let adapter := AdapterId.transfer id response.transferId
  let key := (response.transferId, response.requestId)
  let state ← task
  match state.pendingRanges.lookup key with
  | none => reject (some adapter) "uncorrelated range response"
  | some pending => do
    update fun state => { state with pendingRanges := state.pendingRanges.erase key }
    if response.offset ≠ pending.offset then do
      reject (some adapter) "range response offset mismatch"
      failAdapter around adapter "range response offset mismatch"
    else if response.error.isSome then
      sendReady around adapter (.rangeResponse response)
    else
      match codecs.decodeBase64 response.dataBase64 with
      | some data =>
        if data.length ≤ pending.length.toNat then
          sendReady around adapter (.rangeResponse response)
        else do
          reject (some adapter) "range response exceeds requested length"
          failAdapter around adapter "oversized range response"
      | none => do
        reject (some adapter) "range response contains invalid base64"
        failAdapter around adapter "invalid range response"

def startTransfer (id : String) (spec : LaunchSpec) (transferId : String) (manifest : Message) :
    Supervising Unit := do
  if !validTransferId transferId then
    reject none "invalid transfer id"
  else do
    let adapter := AdapterId.transfer id transferId
    let state ← task
    if adapter ∈ state.processes then
      reject (some adapter) "duplicate transfer"
    else do
      update fun state => { state with specs := state.specs.insert id spec }
      orReject adapter do
        spawnAdapter around adapter
        update fun state => { state with
          pendingMessages := state.pendingMessages.insert adapter manifest }

/-- A process is marked terminal first, so that its exit is not treated as a crash. -/
def stopMarked : Supervising Unit := do
  update fun state => { state with terminal := state.terminal.insert adapter () }
  stopAdapter adapter

def stopPlugin (id : String) : Supervising Unit := do
  let state ← task
  .each (around.processOrder.arrange (state.processesOf id)) fun adapter => do
    stopMarked adapter
    report (.stopped adapter)
  -- starting it again goes through approval afresh
  update fun state => { state with
    specs := state.specs.erase id, restarts := state.restarts.erase id }

def restartPlugin (id : String) : Supervising Unit := do
  let resident := AdapterId.resident id
  let state ← task
  .each (around.processOrder.arrange (state.processesOf id)) stopMarked
  let state ← task
  -- only the resident process is relaunched
  if !state.stopping ∧ id ∈ state.specs then do
    update fun state => { state with
      terminal := state.terminal.erase resident, restarts := state.restarts.erase id }
    orReject resident (spawnAdapter around resident)

def startPlugin (id : String) (spec : LaunchSpec) (settings : List (String × String)) :
    Supervising Unit := do
  let adapter := AdapterId.resident id
  let state ← task
  if adapter ∈ state.processes then do
    update fun state => { state with settings := state.settings.insert id settings }
    sendSettings around adapter settings
  else do
    update fun state => { state with
      terminal := state.terminal.erase adapter
      specs := state.specs.insert id spec
      settings := state.settings.insert id settings
      restarts := state.restarts.erase id }
    orReject adapter (spawnAdapter around adapter)

def queueChange (queued : List (String × String)) (key value : String) : List (String × String) :=
  let kept := queued.filter fun change => change.1 ≠ key
  if kept.length < 64 then kept ++ [(key, value)] else kept

def handleCommand (codecs : Codecs) (around : Surroundings) (command : ManagerCommand) :
    Supervising Unit :=
  match command with
  | .publishFileClipboard id transferId operation uris =>
    sendReady around (.resident id) (.publishFileClipboard transferId operation uris)
  | .clipboardData id transferId mimeType value =>
    sendReady around (.resident id) (.clipboardData transferId mimeType value)
  | .startTransfer id spec transferId operation entries =>
    startTransfer around id spec transferId (.remoteManifest transferId operation entries)
  | .rangeResponse id response => answerRange codecs around id response
  | .released id transferId => do
    let state ← task
    let owned := (state.ownedTransfers.lookup id).any (transferId ∈ ·)
    update fun state => { state with
      ownedTransfers := modify state.ownedTransfers id (·.erase transferId) }
    if !owned then
      reject (some (.resident id)) "release for an unknown transfer"
    else
      sendReady around (.resident id) (.released transferId)
  | .unmounted id unmounted => do
    let adapter := AdapterId.transfer id unmounted.transferId
    let state ← task
    if adapter ∉ state.processes then
      reject (some adapter) "unmount for an unknown transfer"
    else
      sendReady around adapter (.unmounted unmounted)
  | .cancel adapter transferId => do
    let state ← task
    let owns := match adapter with
      | .resident plugin => (state.ownedTransfers.lookup plugin).any (transferId ∈ ·)
      | .transfer _ owned => decide (owned = transferId) && decide (adapter ∈ state.processes)
      | .settings _ => false
    update fun state => match adapter with
      | .resident plugin => { state with
        ownedTransfers := modify state.ownedTransfers plugin (·.erase transferId) }
      | .transfer .. | .settings _ => state
    if !owns then
      reject (some adapter) "cancel for an unowned transfer"
    else
      sendReady around adapter (.cancel transferId)
  | .stopPlugin id => stopPlugin around id
  | .restartPlugin id => restartPlugin around id
  | .startPlugin id spec settings => startPlugin around id spec settings
  | .pluginSettings id settings => do
    update fun state => { state with settings := state.settings.insert id settings }
    let state ← task
    if state.ready (.resident id) then
      sendSettings around (.resident id) settings
  | .pluginChangeSetting id key value => do
    let state ← task
    if state.ready (.resident id) then
      sendReady around (.resident id) (.changeSetting key value)
    else
      update fun state => { state with
        pendingChanges := state.pendingChanges.insert id
          (queueChange ((state.pendingChanges.lookup id).getD []) key value) }
  | .pluginOpenSettings id theme => do
    let state ← task
    if state.ready (.resident id) then
      sendReady around (.resident id) (.openSettings theme)
  | .openSettingsWindow id spec theme => do
    let state ← task
    if !state.stopping then
      orReject (.settings id) (spawnSettingsWindow around id spec theme)
  | .pluginPointer id event => do
    let state ← task
    let granted := ((state.processes.lookup (.resident id)).bind AdapterRuntime.grant).any
      (·.allows .pointer)
    if granted then
      sendDroppable around (.resident id) (.pointer event)
  | .shutdown => update fun state => { state with stopping := true }

end Supervising

/-- What the supervisor takes from its queues. -/
inductive SupervisorInput where
  | command (command : ManagerCommand)
  | process (event : ProcessEvent)
  deriving DecidableEq

def Supervising.handle (codecs : Codecs) (around : Surroundings) :
    SupervisorInput → Supervising Unit
  | .command command => handleCommand codecs around command
  | .process event => handleProcessEvent codecs around event

def supervise (codecs : Codecs) (state : State) (input : Surroundings × SupervisorInput) :
    State × List Effect :=
  if state.stopping then (state, [])
  else (Supervising.handle codecs input.1 input.2).stateAfter (state, [])

end Syntra.Plugins
