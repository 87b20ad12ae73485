import Syntra.Plugins.Registry
import Syntra.Plugins.Supervision

/-!
# Plugins and the service

What the service does about plugins (`service/frontend.rs`, `service/transfers.rs`): it answers the
requests of clients, takes what the supervisor reports into the registry, and sends commands through
a channel of bounded size. The service and the supervisor share nothing but the two channels, so a
run interleaves their steps. Whether a full channel has room again is part of the step.
-/

namespace Syntra.Plugins

open StateMachine
open Clipboard (Operation RemoteEntry)

def channelCapacity : ℕ := 64

/-- What a client may ask for about plugins. -/
inductive PluginRequest where
  | setPluginEnabled (id : String) (enabled : Bool)
  | restartPlugin (id : String)
  | setPluginSetting (id key value : String)
  | openPluginSettings (id : String) (theme : List (String × String))
  | installPlugin
  | updatePlugin (id : String)
  | approvePlugin (id digest : String)
  | revokePluginApproval (id : String)
  | uninstallPlugin (id : String)
  | setPluginRolePreference (role : PluginRole) (id : Option String)
  deriving DecidableEq, Repr

/-- The part of the service that is about plugins: what it knows and the channel to the
supervisor. -/
structure Service where
  registry : Registry
  commands : List ManagerCommand

/-- A launch that was allowed: for which plugin and how, and what it was decided on. -/
structure Permit where
  outside : Outside
  registry : Registry
  id : String
  role : Option PluginRole
  plan : LaunchPlan

abbrev Serving (α : Type) : Type := Handler (Service × List Permit) String α

namespace Serving

open Handler (task update emit)

def know (change : Registry → Registry) : Serving Unit :=
  update fun service => { service with registry := change service.registry }

variable (outside : Outside)

/-- A full channel takes no more commands. -/
def sendPluginCommand (command : ManagerCommand) : Serving Unit :=
  update fun service =>
    if service.commands.length < channelCapacity ∨ outside.makesRoom service.commands.length then
      { service with commands := service.commands ++ [command] }
    else service

variable (id : String)

def startResidentPlugin (role : Option PluginRole) (restart : Bool) : Serving Unit := do
  let service ← task
  match service.registry.launchPlan outside id role with
  | .error _ => pure ()
  | .ok plan => do
    emit ⟨outside, service.registry, id, role, plan⟩
    if restart then
      sendPluginCommand outside (.stopPlugin id)
    sendPluginCommand outside (.startPlugin id plan.spec plan.settings)

/-- Stops what should not run and starts what should, as far as the registry has seen what runs. -/
def reconcilePlugins : Serving Unit := do
  let service ← task
  let wanted := service.registry.residentPlugins outside
  let running := service.registry.runningPlugins
  .each running fun id =>
    if !wanted.any (·.1 = id) ∧ !service.registry.isOnDemand id then
      sendPluginCommand outside (.stopPlugin id)
    else pure ()
  .each wanted fun entry =>
    if entry.1 ∉ running then
      startResidentPlugin outside entry.1 (some entry.2) false
    else pure ()

/-- The start of the daemon: whatever should run is started. -/
def startResidents : Serving Unit := do
  let service ← task
  .each (service.registry.residentPlugins outside) fun entry =>
    startResidentPlugin outside entry.1 (some entry.2) false

/-- A process for one incoming transfer. -/
def startMountedReceive (transferId : String) (operation : Operation) (entries : List RemoteEntry) :
    Serving Unit := do
  let service ← task
  match service.registry.activeProvider outside .mountedFileReceive with
  | none => pure ()
  | some provider =>
    match service.registry.launchPlan outside provider (some .mountedFileReceive) with
    | .error _ => pure ()
    | .ok plan => do
      emit ⟨outside, service.registry, provider, some .mountedFileReceive, plan⟩
      sendPluginCommand outside (.startTransfer provider plan.spec transferId operation entries)

/-- What a registry answers to a request that may be refused. -/
def attempt (change : Registry → Except String Registry) : Serving Unit := do
  let service ← task
  match change service.registry with
  | .error reason => .stop reason
  | .ok registry => know fun _ => registry

def shown (action : Serving Unit) : Serving Unit := action.recover fun _ => pure ()

def setPluginEnabled (enabled : Bool) : Serving Unit := do
  let service ← task
  match service.registry.setEnabled id enabled with
  | none => pure ()
  | some registry => do
    know fun _ => registry
    if !enabled then
      sendPluginCommand outside (.stopPlugin id)
    reconcilePlugins outside

def restartPlugin : Serving Unit := do
  let service ← task
  if service.registry.isEnabled id then do
    know (·.recordRestart id)
    let service ← task
    startResidentPlugin outside id (service.registry.residentRoleOf outside id) true

def setPluginSetting (id key value : String) : Serving Unit := do
  let service ← task
  if service.registry.ownsSettings id then do
    let requested := service.registry.requestOwnedSetting id key value
    know fun registry => if requested.2 then requested.1 else (registry.setSetting id key value).1
    sendPluginCommand outside (.pluginChangeSetting id key value)
  else do
    let set := service.registry.setSetting id key value
    know fun _ => set.1
    if set.2 ∧ set.1.isRunning id then
      sendPluginCommand outside (.pluginSettings id (set.1.settingsOf id))

def openPluginSettings (theme : List (String × String)) : Serving Unit := do
  let service ← task
  if !service.registry.ownsSettings id then
    pure ()
  else if service.registry.isRunning id then
    sendPluginCommand outside (.pluginOpenSettings id theme)
  else
    match service.registry.launchPlan outside id none with
    | .error _ => pure ()
    | .ok plan => do
      emit ⟨outside, service.registry, id, none, plan⟩
      sendPluginCommand outside (.openSettingsWindow id plan.spec theme)

/-- The old process must not outlive its replaced files; the copying goes on outside. -/
def updatePlugin : Serving Unit := do
  let service ← task
  if service.registry.store.isSome ∧ service.registry.isInstalledPackage id then
    sendPluginCommand outside (.stopPlugin id)

def revokePluginApproval : Serving Unit := do
  sendPluginCommand outside (.stopPlugin id)
  shown (attempt (·.revoke outside id))
  reconcilePlugins outside

def uninstallPlugin : Serving Unit := do
  let service ← task
  if service.registry.isInstalledPackage id ∧ service.registry.store.isSome then
    shown do
      sendPluginCommand outside (.stopPlugin id)
      match outside.uninstalls id with
      | .error reason => .stop reason
      | .ok () => pure ()
      attempt (·.forget outside id)
      know (·.rediscover outside)
  reconcilePlugins outside

/-- `finish_plugin_job` of a package that was copied, or could not be. -/
def finishInstall (result : Except String Unit) : Serving Unit := do
  if result.isOk then
    know (·.rediscover outside)
  reconcilePlugins outside

def handleRequest : PluginRequest → Serving Unit
  | .setPluginEnabled id enabled => setPluginEnabled outside id enabled
  | .restartPlugin id => restartPlugin outside id
  | .setPluginSetting id key value => setPluginSetting outside id key value
  | .openPluginSettings id theme => openPluginSettings outside id theme
  | .installPlugin => pure ()
  | .updatePlugin id => updatePlugin outside id
  | .approvePlugin id digest => do
    shown (attempt (·.approve outside id digest))
    reconcilePlugins outside
  | .revokePluginApproval id => revokePluginApproval outside id
  | .uninstallPlugin id => uninstallPlugin outside id
  | .setPluginRolePreference role id => do
    shown (attempt (·.setRolePreference outside role id))
    reconcilePlugins outside

/-- What the registry learns from an event. A settings window says nothing of the plugin. -/
def observe (event : ManagerEvent) (registry : Registry) : Registry :=
  match event with
  | .started (.settings _) _ | .stopped (.settings _) | .ready (.settings _) _
  | .message (.settings _) _ | .cancelled (.settings _) _ | .exited (.settings _) _ => registry
  | .started adapter pid => registry.setStarting adapter.plugin pid
  | .stopped adapter => registry.setStopped adapter.plugin
  | .ready adapter _ => registry.setRunning adapter.plugin true
  | .message adapter (.declareSettings settings) =>
    registry.adoptOwnedSettings adapter.plugin settings
  | .exited adapter _ => registry.setExited adapter.plugin
  | .message .. | .cancelled .. | .rejected .. | .diagnostics .. => registry

end Serving

/-- A command that starts or ends no process and carries no launch. -/
def ManagerCommand.isMail : ManagerCommand → Bool
  | .startPlugin .. | .startTransfer .. | .stopPlugin .. | .restartPlugin ..
  | .openSettingsWindow ..
  | .shutdown => false
  | .pluginSettings .. | .pluginChangeSetting .. | .pluginOpenSettings .. | .pluginPointer ..
  | .publishFileClipboard .. | .clipboardData .. | .rangeResponse .. | .released .. | .unmounted ..
  | .cancel .. => true

/-- Both tasks and the channels between them. -/
structure System extends Service where
  supervisor : State
  events : List ManagerEvent

/-- What the service and the supervisor take in. -/
inductive SystemInput where
  /-- The service answers a client. -/
  | request (outside : Outside) (request : PluginRequest)
  /-- The service takes up the result of an installation. -/
  | installed (outside : Outside) (result : Except String Unit)
  /-- The service serves an incoming transfer. -/
  | mountedReceive (outside : Outside) (transferId : String) (operation : Operation)
      (entries : List RemoteEntry)
  /-- The service sends a message to a plugin: pointer events, answers about transfers. -/
  | mail (outside : Outside) (command : ManagerCommand)
  /-- The service takes the next event. -/
  | event
  /-- The supervisor takes the next command. -/
  | command (around : Surroundings)
  /-- The supervisor takes what comes from a process. -/
  | process (around : Surroundings) (event : ProcessEvent)

/-- What is done in a step: launches are allowed, and the supervisor acts. -/
inductive SystemEffect where
  | permitted (permit : Permit)
  | acted (effect : Effect)

def Registry.unobserved (registry : Registry) : Registry :=
  { registry with running := ∅, pids := ∅, owned := ∅ }

namespace System

def serve (system : System) (serving : Serving Unit) : System × List SystemEffect :=
  let after := serving.stateAfter (system.toService, [])
  ({ system with toService := after.1 }, after.2.map .permitted)

def reports : List Effect → List ManagerEvent :=
  List.filterMap fun effect => match effect with
    | .report event => some event
    | .spawned .. | .written .. | .ended .. => none

def supervised (codecs : Codecs) (system : System) (around : Surroundings)
    (input : SupervisorInput) : System × List SystemEffect :=
  let after := supervise codecs system.supervisor (around, input)
  ({ system with supervisor := after.1, events := system.events ++ reports after.2 },
    after.2.map .acted)

def step (codecs : Codecs) (system : System) : SystemInput → System × List SystemEffect
  | .request outside request => system.serve (Serving.handleRequest outside request)
  | .installed outside result => system.serve (Serving.finishInstall outside result)
  | .mountedReceive outside transferId operation entries =>
    system.serve (Serving.startMountedReceive outside transferId operation entries)
  | .mail outside command =>
    if command.isMail then system.serve (Serving.sendPluginCommand outside command)
    else (system, [])
  | .event =>
    match system.events with
    | [] => (system, [])
    | event :: events =>
      ({ system with registry := Serving.observe event system.registry, events }, [])
  | .command around =>
    match system.commands with
    | [] => (system, [])
    | command :: commands =>
      -- a supervisor that is stopping takes no more commands
      if system.supervisor.stopping then (system, [])
      else { system with commands }.supervised codecs around (.command command)
  | .process around event => system.supervised codecs around (.process event)

def idle (registry : Registry) : System where
  registry
  commands := []
  supervisor := .new
  events := []

/-- The daemon has started: what discovery found and the files keep is known, and nothing was
observed. -/
def start (outside : Outside) (registry : Registry) : System × List SystemEffect :=
  (idle registry.unobserved).serve (Serving.startResidents outside)

def run (codecs : Codecs) (outside : Outside) (registry : Registry) (inputs : List SystemInput) :
    System × List SystemEffect :=
  let first := start outside registry
  let rest := outcome (step codecs) first.1 inputs
  (rest.1, first.2 ++ rest.2)

end System

end Syntra.Plugins
