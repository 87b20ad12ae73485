import Syntra.Plugins.Reconciliation

/-!
# What is kept of the registry

The approvals are written as a whole whenever they change, the choices for one plugin whenever one
of them is made (`plugins/registry.rs`, `plugins/trust.rs`). A registry that starts over the same
directories reads them again. It reports what the running one reports as long as no plugin is met
whose saved preference the running one does not hold.
-/

namespace Syntra.Plugins

open StateMachine Tables Registry List

/-- What is saved of a plugin. -/
structure SavedState where
  /-- The user switched this plugin off. -/
  disabled : Bool
  /-- The user switched this plugin on. -/
  enabled : Bool
  values : Table String String

def SavedState.preference (saved : SavedState) : Option Bool :=
  if saved.disabled then some false else if saved.enabled then some true else none

/-- The state directory. A file that is missing or malformed is one without content. -/
structure StateDir where
  approvals : TrustStore
  /-- The settings file of each plugin. -/
  settings : Table String SavedState

namespace StateDir

def preference (dir : StateDir) (id : String) : Option Bool :=
  (dir.settings.lookup id).bind SavedState.preference

def values (dir : StateDir) (id : String) : Table String String :=
  ((dir.settings.lookup id).map SavedState.values).getD ∅

end StateDir

namespace Registry

def valuesOf (registry : Registry) (id : String) : Table String String :=
  (registry.chosen.lookup id).getD ∅

def savedState (registry : Registry) (id : String) : SavedState where
  disabled := registry.enabled.lookup id = some false
  enabled := registry.enabled.lookup id = some true
  values := registry.valuesOf id

def discover (found : Found) (store : Option Files.PathBuf) : Registry where
  plugins := found.plugins
  unsupported := found.unsupported
  trust := ⟨∅, ∅⟩
  enabled := ∅
  running := ∅
  pids := ∅
  chosen := ∅
  owned := ∅
  store := store

def loadState (dir : StateDir) (registry : Registry) (plugin : Discovered) : Registry :=
  let id := plugin.manifest.id
  match dir.settings.lookup id with
  | none => registry
  | some saved =>
    { registry with
      enabled :=
        if saved.disabled then registry.enabled.insert id false
        else if saved.enabled then registry.enabled.insert id true
        else registry.enabled
      chosen :=
        if saved.values.keys.isEmpty then registry.chosen
        else registry.chosen.insert id saved.values }

def withStateDir (registry : Registry) (dir : StateDir) : Registry :=
  registry.plugins.foldl (loadState dir) { registry with trust := dir.approvals }

/-- Two registries tell users the same. -/
structure SameReports (registry other : Registry) : Prop where
  enabled : ∀ id, registry.isEnabled id = other.isEnabled id
  settings : ∀ id, registry.settingsOf id = other.settingsOf id
  approved : ∀ id, registry.trust.approved.lookup id = other.trust.approved.lookup id
  preferred : ∀ role, registry.trust.preferred.lookup role = other.trust.preferred.lookup role

end Registry

/-- The registry with its state directory. -/
structure Installation where
  registry : Registry
  dir : StateDir

/-- What the registry is asked to do. Packages come and go between two readings of the
directories. -/
inductive RegistryOperation where
  | setEnabled (id : String) (enabled : Bool)
  | setSetting (id key value : String)
  | approve (id shown : String)
  | revoke (id : String)
  | setRolePreference (role : PluginRole) (id : Option String)
  | forget (id : String)
  /-- The files of an installed package are removed, the plugin is forgotten and the directories
  are read again. -/
  | uninstall (id : String)
  | rediscover

def Outside.saving (outside : Outside) (dir : StateDir) : Outside :=
  { outside with
    saves := .ok ()
    savedValues := dir.values }

namespace Installation

def start (found : Found) (store : Option Files.PathBuf) (dir : StateDir) : Installation where
  registry := (Registry.discover found store).withStateDir dir
  dir := dir

variable (installation : Installation)

/-- A registry freshly discovered over the directories as they were last read. -/
def restarted : Registry :=
  let registry := installation.registry
  (Registry.discover ⟨registry.plugins, registry.unsupported⟩ registry.store).withStateDir
    installation.dir

def saveState (id : String) : Installation :=
  { installation with
    dir := { installation.dir with
      settings := installation.dir.settings.insert id (installation.registry.savedState id) } }

/-- The approvals are written with the change; nothing changes when it is refused. -/
def committed : Except String Registry → Installation
  | .error _ => installation
  | .ok registry => ⟨registry, { installation.dir with approvals := registry.trust }⟩

/-- The approvals are only written if the plugin has one or is preferred for a role. -/
def forget (outside : Outside) (id : String) : Installation :=
  let registry := installation.registry
  match registry.forget outside id with
  | .error _ => installation
  | .ok later =>
    let prefers := registry.trust.preferred.entries.any fun entry => entry.2 = id
    if id ∉ registry.trust.approved ∧ !prefers then ⟨later, installation.dir⟩
    else ⟨later, { installation.dir with approvals := later.trust }⟩

def rediscover (outside : Outside) : Installation :=
  { installation with registry := installation.registry.rediscover outside }

/-- One operation while every file can be written. -/
def step (input : Outside × RegistryOperation) : Installation :=
  let outside := input.1.saving installation.dir
  let registry := installation.registry
  match input.2 with
  | .setEnabled id enabled =>
    match registry.setEnabled id enabled with
    | none => installation
    | some later => saveState ⟨later, installation.dir⟩ id
  | .setSetting id key value =>
    let later := registry.setSetting id key value
    if later.2 then saveState ⟨later.1, installation.dir⟩ id else installation
  | .approve id shown => installation.committed (registry.approve outside id shown)
  | .revoke id => installation.committed (registry.revoke outside id)
  | .setRolePreference role id =>
    installation.committed (registry.setRolePreference outside role id)
  | .forget id => installation.forget outside id
  | .uninstall id =>
    match outside.uninstalls id with
    | .error _ => installation
    | .ok () => (installation.forget outside id).rediscover outside
  | .rediscover => installation.rediscover outside

end Installation

def loadedValues (values : Table String String) : Option (Table String String) :=
  if values.keys.isEmpty then none else some values

def among (plugins : List Discovered) (id : String) : Bool :=
  plugins.any fun plugin => plugin.manifest.id = id

section Loading

variable {outside : Outside} {dir : StateDir} {registry : Registry} {id : String}
  {plugins : List Discovered} {chosen : Table String (Table String String)}

theorem among_of_find {plugin : Discovered}
    (found : (plugins.find? fun plugin => plugin.manifest.id = id) = some plugin) :
    among plugins id = true := by
  have named := find?_some found
  exact any_eq_true.mpr ⟨plugin, mem_of_find?_eq_some found, named⟩

theorem loadedValues_getD (values : Table String String) :
    (loadedValues values).getD ∅ = values := by
  unfold loadedValues
  split
  · rename_i empty
    apply AList.ext
    rw [List.isEmpty_iff, AList.keys, List.keys, List.map_eq_nil_iff] at empty
    exact empty.symm
  · rfl

variable (plugin : Discovered)

theorem lookup_restoreValues :
    (restoreValues outside chosen plugin).lookup id = (chosen.lookup id).or
        (if plugin.manifest.id = id then loadedValues (outside.savedValues id) else none) := by
  unfold restoreValues loadedValues
  by_cases same : plugin.manifest.id = id
  · subst same
    by_cases known : plugin.manifest.id ∈ chosen
    · rcases (mem_iff_lookup chosen _).mp known with ⟨_, held⟩
      simp [known, held]
    · have absent := AList.lookup_eq_none.mpr known
      by_cases empty : (outside.savedValues plugin.manifest.id).keys.isEmpty = true
      · simp [empty, absent]
      · simp [empty, absent, known]
  · rw [if_neg same, Option.or_none]
    dsimp only
    split
    · rfl
    · exact AList.lookup_insert_ne (Ne.symm same)

theorem among_cons :
    among (plugin :: plugins) id = (decide (plugin.manifest.id = id) || among plugins id) :=
  any_cons

theorem lookup_restoreAll :
    (plugins.foldl (restoreValues outside) chosen).lookup id = (chosen.lookup id).or
        (if among plugins id then loadedValues (outside.savedValues id) else none) := by
  induction plugins generalizing chosen with
  | nil => simp [among]
  | cons plugin plugins ih =>
    rw [foldl_cons, ih, lookup_restoreValues, Option.or_assoc, among_cons]
    by_cases same : plugin.manifest.id = id
    · cases among plugins id <;> simp [same]
    · simp [same]

theorem lookup_loadState :
    (registry.loadState dir plugin).enabled.lookup id =
        (if plugin.manifest.id = id then dir.preference id else none).or
          (registry.enabled.lookup id) ∧
      (registry.loadState dir plugin).chosen.lookup id =
        (if plugin.manifest.id = id then loadedValues (dir.values id) else none).or
          (registry.chosen.lookup id) := by
  simp only [loadState, StateDir.preference, StateDir.values]
  cases held : dir.settings.lookup plugin.manifest.id with
  | none =>
    by_cases same : plugin.manifest.id = id
    · subst same
      simp [held, loadedValues]
    · simp [same]
  | some saved =>
    by_cases same : plugin.manifest.id = id
    · subst same
      rw [held]
      cases off : saved.disabled <;> cases on : saved.enabled <;>
        cases empty : saved.values.keys.isEmpty <;>
          simp [SavedState.preference, loadedValues, off, on, empty]
    · have other : id ≠ plugin.manifest.id := Ne.symm same
      cases off : saved.disabled <;> cases on : saved.enabled <;>
        cases empty : saved.values.keys.isEmpty <;> simp [same, other, off, on, empty]

theorem lookup_loadAll :
    (plugins.foldl (loadState dir) registry).enabled.lookup id =
        (if among plugins id then dir.preference id else none).or (registry.enabled.lookup id) ∧
      (plugins.foldl (loadState dir) registry).chosen.lookup id =
        (if among plugins id then loadedValues (dir.values id) else none).or
          (registry.chosen.lookup id) := by
  induction plugins generalizing registry with
  | nil => simp [among]
  | cons plugin plugins ih =>
    rw [foldl_cons, ih.1, ih.2, (lookup_loadState plugin).1, (lookup_loadState plugin).2,
      ← Option.or_assoc, ← Option.or_assoc, among_cons]
    by_cases same : plugin.manifest.id = id
    · cases among plugins id <;> simp [same]
    · simp [same]

theorem loadAll_keeps :
    (plugins.foldl (loadState dir) registry).plugins = registry.plugins ∧
      (plugins.foldl (loadState dir) registry).trust = registry.trust := by
  induction plugins generalizing registry with
  | nil => exact ⟨rfl, rfl⟩
  | cons plugin _ ih =>
    have kept : (registry.loadState dir plugin).plugins = registry.plugins ∧
        (registry.loadState dir plugin).trust = registry.trust := by
      simp only [loadState]
      split <;> exact ⟨rfl, rfl⟩
    rw [foldl_cons, ih.1, ih.2]
    exact kept

end Loading

def Found.find (found : Found) (id : String) : Option Discovered :=
  found.plugins.find? fun plugin => plugin.manifest.id = id

/-- What is saved about a plugin does not switch it the other way. -/
def StateDir.Unswitched (dir : StateDir) (plugin : Discovered) : Prop :=
  (dir.preference plugin.manifest.id).getD plugin.isBundled = plugin.isBundled

/-- No operation may leave a plugin to its default whose saved preference is the other one: it is
forgotten only while it is as it is by default, and what is found without a preference in the
registry has none on disk that differs from the default. -/
def RegistryOperation.Remembers (installation : Installation) (outside : Outside) :
    RegistryOperation → Prop
  | .forget id => ∀ plugin, installation.registry.find id = some plugin →
    installation.registry.isEnabled id = plugin.isBundled
  | .uninstall id => outside.uninstalls id = .ok () →
    ∀ other plugin, outside.discovered.find other = some plugin →
      other ∉ installation.registry.enabled ∨ other = id → installation.dir.Unswitched plugin
  | .rediscover => ∀ id plugin, outside.discovered.find id = some plugin →
    id ∉ installation.registry.enabled → installation.dir.Unswitched plugin
  | .setEnabled .. | .setSetting .. | .approve .. | .revoke _ | .setRolePreference .. => True

def registryMachine (found : Found) (store : Option Files.PathBuf) (dir : StateDir) :
    Machine Installation (Outside × RegistryOperation) where
  initial := .start found store dir
  enabled := fun installation input => input.2.Remembers installation input.1
  next := Installation.step

end Syntra.Plugins
