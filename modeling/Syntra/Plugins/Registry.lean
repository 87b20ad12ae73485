import Syntra.Plugins.Supervisor

/-!
# The registry

What the daemon knows about plugins and which of them may run (`plugins/registry.rs`,
`plugins/trust.rs`). What is only shown to clients is left out: failures, pending markers, reviews,
diagnostics and the times of starts. What the file system answers is part of the step.
-/

namespace Syntra.Plugins

open Files (PathBuf)
open Tables

/-- Where a plugin was found, which alone decides who vouches for it. -/
inductive PluginOrigin where
  | bundled
  | installed
  | dropIn
  deriving DecidableEq, Repr

/-- A plugin that was found on disk. -/
structure Discovered where
  manifest : PluginManifest
  origin : PluginOrigin
  /-- Empty for a bundled descriptor. -/
  manifestPath : PathBuf
  /-- The file that would be launched, whether or not it exists. -/
  executable : String
  deriving DecidableEq

/-- A manifest that was read but is not understood. -/
structure Unsupported where
  id : Option String
  reason : String
  deriving DecidableEq, Repr

/-- What a search of the plugin directories brings. -/
structure Found where
  plugins : List Discovered
  unsupported : List Unsupported

/-- What the service meets outside during one step. -/
structure Outside where
  /-- The digest of a package as its files are now. -/
  digest : Integrity → String → Except String String
  /-- The digest that is shown: it is computed again only when the files look different. -/
  shownDigest : Discovered → Except String String
  isFile : String → Bool
  discovered : Found
  /-- The values that are kept on disk for a plugin. -/
  savedValues : String → Table String String
  /-- Whether the approvals can be written. -/
  saves : Except String Unit
  /-- What becomes of the files of a package that is uninstalled. -/
  uninstalls : String → Except String Unit
  /-- Whether the supervisor has made room for one more command when so many were sent. -/
  makesRoom : ℕ → Bool

/-- How far a plugin is trusted. -/
inductive PluginTrust where
  | bundled
  | approved
  | changedSinceApproval
  | unapproved
  deriving DecidableEq, Repr

/-- What the user has approved and preferred. -/
structure TrustStore where
  /-- The approved digest of each plugin. -/
  approved : Table String String
  preferred : Table PluginRole String

namespace TrustStore

variable (outside : Outside) (store : TrustStore)

def commit (change : TrustStore → TrustStore) : Except String TrustStore :=
  outside.saves.map fun _ => change store

def trustOf (id digest : String) (bundled : Bool) : PluginTrust :=
  if bundled then .bundled
  else
    match store.approved.lookup id with
    | none => .unapproved
    | some approved =>
      if digest ≠ "" ∧ approved = digest then .approved else .changedSinceApproval

/-- An approval covers only content that the user was shown. -/
def approve (id shown current : String) : Except String TrustStore :=
  if shown = "" ∨ shown ≠ current then
    .error "the plugin changed since it was reviewed; review it again"
  else
    store.commit outside fun store => { store with approved := store.approved.insert id shown }

def revoke (id : String) : Except String TrustStore :=
  if id ∉ store.approved then .error "the plugin has no approval to withdraw"
  else store.commit outside fun store => { store with approved := store.approved.erase id }

def forget (id : String) : Except String TrustStore :=
  let prefers := store.preferred.entries.any fun entry => entry.2 = id
  if id ∉ store.approved ∧ !prefers then .ok store
  else
    store.commit outside fun store =>
      { approved := store.approved.erase id
        preferred := store.preferred.retain fun _ preferred => preferred ≠ id }

def setPreferred (role : PluginRole) (id : Option String) : Except String TrustStore :=
  store.commit outside fun store => match id with
    | some id => { store with preferred := store.preferred.insert role id }
    | none => { store with preferred := store.preferred.erase role }

end TrustStore

/-- What the service knows of the plugins. -/
structure Registry where
  plugins : List Discovered
  unsupported : List Unsupported
  trust : TrustStore
  /-- The preference of the user, once one was made. -/
  enabled : Table String Bool
  /-- Whether a process has announced itself and is running. -/
  running : Table String Bool
  pids : Table String UInt32
  /-- What the user chose for the settings of each plugin. -/
  chosen : Table String (Table String String)
  /-- The settings that a plugin declared to keep itself. -/
  owned : Table String (List SettingControl)
  /-- Where packages are installed. -/
  store : Option PathBuf

/-- Why a plugin cannot be launched. -/
inductive Refusal where
  | unknown
  | disabled
  | notApproved
  | changed
  | notInstalled
  | unreadable (reason : String)
  | unsupported (reason : String)
  deriving DecidableEq, Repr

/-- How to launch a plugin, and the settings to send it first. -/
structure LaunchPlan where
  spec : LaunchSpec
  settings : List (String × String)

namespace Discovered

def isBundled (plugin : Discovered) : Bool := plugin.origin = .bundled

/-- Where the manifest file is; a bundled descriptor stands beside its executable. -/
def manifestPathOf (plugin : Discovered) : PathBuf :=
  if plugin.manifestPath = .empty then
    ((PathBuf.ofText plugin.executable).parent.getD .empty).join (.ofText "syntra-plugin.json")
  else plugin.manifestPath

def integrity (plugin : Discovered) : Integrity := ⟨plugin.manifest, plugin.manifestPathOf⟩

/-- `digest_of`. -/
def digest (outside : Outside) (plugin : Discovered) : Except String String :=
  outside.digest plugin.integrity plugin.executable

end Discovered

namespace Registry

variable (registry : Registry) (outside : Outside) (id : String)

def find : Option Discovered :=
  registry.plugins.find? fun plugin => plugin.manifest.id = id

def isEnabled : Bool :=
  match registry.find id with
  | none => false
  | some plugin => (registry.enabled.lookup id).getD plugin.isBundled

def trustNow (registry : Registry) (plugin : Discovered) : PluginTrust :=
  if plugin.isBundled then .bundled
  else
    registry.trust.trustOf plugin.manifest.id ((outside.shownDigest plugin).toOption.getD "") false

/-- The plugins with a live process, started or ready, as far as was observed. -/
def runningPlugins : List String :=
  let ids := registry.pids.keys ++ (registry.running.entries.filter (·.2)).map (·.1)
  (ids.mergeSort (· ≤ ·)).dedup

def isRunning : Bool := (registry.running.lookup id).getD false

/-- Whether the plugin only runs while something needs it. -/
def isOnDemand : Bool :=
  (registry.find id).any (·.manifest.onDemand)

def isInstalledPackage : Bool :=
  (registry.find id).any (·.origin = .installed)

def settingsOf : List (String × String) :=
  match registry.find id with
  | none => []
  | some plugin => plugin.manifest.settings.map fun setting =>
    (setting.key, setting.effective ((registry.chosen.lookup id).bind (·.lookup setting.key)))

def ownsSettings : Bool :=
  id ∈ registry.owned ||
    registry.plugins.any fun plugin => plugin.manifest.id = id && plugin.manifest.ownsSettings

def setSetting (id key value : String) : Registry × Bool :=
  let setting := (registry.find id).bind fun plugin =>
    plugin.manifest.settings.find? (·.key = key)
  if setting.any (·.accepts value) then
    let values := (registry.chosen.lookup id).getD ∅
    ({ registry with chosen := registry.chosen.insert id (values.insert key value) }, true)
  else (registry, false)

def showValue (key value : String) : List SettingControl → List SettingControl
  | [] => []
  | control :: controls =>
    if control.key = key then { control with value } :: controls
    else control :: showValue key value controls

def requestOwnedSetting (id key value : String) : Registry × Bool :=
  match registry.owned.lookup id with
  | none => (registry, false)
  | some controls =>
    if controls.any (·.key = key) then
      ({ registry with owned := registry.owned.insert id (showValue key value controls) }, true)
    else (registry, false)

def adoptOwnedSettings (settings : List SettingControl) : Registry :=
  if (registry.find id).isSome then
    { registry with owned := registry.owned.insert id settings }
  else registry

/-- The digest that a launch is bound to: of the present content, which must be approved. A bundled
plugin needs none. -/
def launchDigest (registry : Registry) (id : String) (plugin : Discovered) :
    Except Refusal String :=
  if plugin.isBundled then .ok ""
  else
    match plugin.digest outside with
    | .error reason => .error (.unreadable reason)
    | .ok digest =>
      match registry.trust.trustOf id digest false with
      | .approved => .ok digest
      | .changedSinceApproval => .error .changed
      | .bundled | .unapproved => .error .notApproved

/-- Whether a plugin may start and how. The digest is computed again on every call. -/
def launchPlan (registry : Registry) (id : String) (role : Option PluginRole) :
    Except Refusal LaunchPlan :=
  match registry.find id with
  | none =>
    match registry.unsupported.find? (·.id = some id) with
    | some entry => .error (.unsupported entry.reason)
    | none => .error .unknown
  | some plugin =>
    if !registry.isEnabled id then .error .disabled
    else if !outside.isFile plugin.executable then .error .notInstalled
    else
      match registry.launchDigest outside id plugin with
      | .error refusal => .error refusal
      | .ok digest =>
        if role.any (!plugin.manifest.capabilities.fills ·) then
          .error (.unsupported "the plugin does not declare the capability for this role")
        else
          .ok {
            spec := {
              executable := plugin.executable
              args := plugin.manifest.argv
              approved := plugin.manifest.capabilities
              handshakeIds := plugin.manifest.handshakeIds
              role
              digest
              integrity := if plugin.isBundled then none else some plugin.integrity }
            settings := registry.settingsOf id }

def candidates (registry : Registry) (role : PluginRole) : List Candidate :=
  (registry.plugins.filter (·.manifest.capabilities.fills role)).map fun plugin =>
    { id := plugin.manifest.id
      bundled := plugin.isBundled
      enabled := registry.isEnabled plugin.manifest.id
      trusted := registry.trustNow outside plugin = .bundled ||
        registry.trustNow outside plugin = .approved
      launchable := outside.isFile plugin.executable }

def activeProvider (registry : Registry) (role : PluginRole) : Option String :=
  (selectProvider (registry.candidates outside role) (registry.trust.preferred.lookup role)).map
    (·.id)

/-- Refused when the plugin cannot fill the role or the choice cannot be saved. -/
def setRolePreference (registry : Registry) (role : PluginRole) (id : Option String) :
    Except String Registry :=
  let fills := fun wanted => (registry.find wanted).any (·.manifest.capabilities.fills role)
  if id.any (!fills ·) then .error "that plugin does not provide this role"
  else
    (registry.trust.setPreferred outside role id).map fun trust => { registry with trust }

def wantPointer (wanted : List (String × PluginRole)) (candidate : Candidate) :
    List (String × PluginRole) :=
  if candidate.eligible && !wanted.any (·.1 = candidate.id) then
    wanted ++ [(candidate.id, .pointer)]
  else wanted

def residentPlugins (registry : Registry) : List (String × PluginRole) :=
  let provider := (registry.activeProvider outside .fileClipboard).map fun id =>
    (id, PluginRole.fileClipboard)
  (registry.candidates outside .pointer).foldl wantPointer provider.toList

/-- The role that a plugin is started for, if it provides one now. -/
def residentRoleOf (registry : Registry) (id : String) : Option PluginRole :=
  ((registry.residentPlugins outside).find? (·.1 = id)).map (·.2)

def setEnabled (enabled : Bool) : Option Registry :=
  if (registry.find id).isNone then none
  else
    some { registry with
      enabled := registry.enabled.insert id enabled
      running := if enabled then registry.running else registry.running.insert id false }

def approve (registry : Registry) (id shown : String) : Except String Registry :=
  match registry.find id with
  | none => .error "the plugin is not known"
  | some plugin =>
    if plugin.isBundled then .error "a bundled plugin needs no approval"
    else
      match plugin.digest outside with
      | .error reason => .error s!"cannot be checked: {reason}"
      | .ok current =>
        (registry.trust.approve outside id shown current).map fun trust =>
          { registry with trust }

def revoke (registry : Registry) (id : String) : Except String Registry :=
  (registry.trust.revoke outside id).map fun trust => { registry with trust }

/-- Forgets a plugin whose package was removed; the values of its settings are kept. -/
def forget (registry : Registry) (id : String) : Except String Registry :=
  (registry.trust.forget outside id).map fun trust =>
    { registry with
      trust
      running := registry.running.erase id
      pids := registry.pids.erase id
      owned := registry.owned.erase id
      enabled := registry.enabled.erase id }

def restoreValues (chosen : Table String (Table String String)) (plugin : Discovered) :
    Table String (Table String String) :=
  let id := plugin.manifest.id
  if id ∈ chosen ∨ (outside.savedValues id).keys.isEmpty then chosen
  else chosen.insert id (outside.savedValues id)

/-- Reads the directories again; what was observed and chosen is kept. -/
def rediscover (registry : Registry) : Registry :=
  { registry with
    plugins := outside.discovered.plugins
    unsupported := outside.discovered.unsupported
    chosen := outside.discovered.plugins.foldl (restoreValues outside) registry.chosen }

def setRunning (running : Bool) : Registry :=
  { registry with running := registry.running.insert id running }

def setStarting (pid : UInt32) : Registry :=
  { registry with
    running := registry.running.insert id false
    pids := registry.pids.insert id pid }

def setStopped : Registry :=
  { registry with
    running := registry.running.insert id false
    pids := registry.pids.erase id }

def setFailed : Registry :=
  { registry with
    running := registry.running.insert id false
    pids := registry.pids.erase id }

def setExited : Registry :=
  if registry.isOnDemand id then registry.setStopped id else registry.setFailed id

/-- The old process is on its way out. -/
def recordRestart : Registry :=
  { registry with
    running := registry.running.insert id false
    pids := registry.pids.erase id }

end Registry

/-- A plugin that is known, enabled and, unless it is bundled, approved in its present content. -/
structure Registry.Cleared (registry : Registry) (outside : Outside) (id : String)
    (plugin : Discovered) (spec : LaunchSpec) : Prop where
  found : registry.find id = some plugin
  enabled : registry.isEnabled id = true
  approved : plugin.origin ≠ .bundled →
    registry.trust.approved.lookup id = some spec.digest ∧
      plugin.digest outside = .ok spec.digest ∧ spec.integrity = some plugin.integrity
  bundled : plugin.origin = .bundled → spec.integrity = none
  executable : spec.executable = plugin.executable
  args : spec.args = plugin.manifest.argv
  capabilities : spec.approved = plugin.manifest.capabilities

theorem TrustStore.trustOf_approved {store : TrustStore} {id digest : String}
    (trusted : store.trustOf id digest false = .approved) :
    store.approved.lookup id = some digest := by
  simp only [TrustStore.trustOf, Bool.false_eq_true, if_false] at trusted
  split at trusted
  · cases trusted
  · rename_i approved found
    split at trusted
    · rename_i same
      rw [found, same.2]
    · cases trusted

theorem Registry.launchDigest_ok {outside : Outside} {registry : Registry} {id digest : String}
    {plugin : Discovered} (bound : registry.launchDigest outside id plugin = .ok digest)
    (foreign : plugin.isBundled = false) :
    registry.trust.approved.lookup id = some digest ∧ plugin.digest outside = .ok digest := by
  rw [launchDigest, if_neg (by simp [foreign])] at bound
  split at bound
  · cases bound
  · rename_i current computed
    split at bound
    · rename_i trusted
      cases bound
      exact ⟨TrustStore.trustOf_approved trusted, computed⟩
    · cases bound
    · cases bound
    · cases bound

theorem Registry.cleared_of_launchPlan {outside : Outside} {registry : Registry} {id : String}
    {role : Option PluginRole} {plan : LaunchPlan}
    (planned : registry.launchPlan outside id role = .ok plan) :
    ∃ plugin, registry.Cleared outside id plugin plan.spec := by
  unfold Registry.launchPlan at planned
  split at planned
  · split at planned <;> cases planned
  · rename_i plugin found
    split at planned
    · cases planned
    · rename_i enabled
      split at planned
      · cases planned
      · split at planned
        · cases planned
        · rename_i digest bound
          split at planned
          · cases planned
          · cases planned
            refine ⟨plugin, found, by simpa using enabled, fun foreign => ?_, fun own => ?_, rfl,
              rfl, rfl⟩
            · have foreign : plugin.isBundled = false := by
                simpa [Discovered.isBundled] using foreign
              have trusted := Registry.launchDigest_ok bound foreign
              exact ⟨trusted.1, trusted.2, by simp [foreign]⟩
            · simp [Discovered.isBundled, own]

end Syntra.Plugins
