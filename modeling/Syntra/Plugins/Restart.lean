import Syntra.Plugins.SavedState

/-!
# A restart of the registry

What the running registry holds is always saved, so a restart can only differ on a plugin that the
running registry leaves to its default although a preference for it is saved. An operation that
leads there is one that does not keep to what is saved.
-/

namespace Syntra.Plugins

open StateMachine Tables Registry StateDir Option

namespace Registry

variable {registry : Registry} {id : String} {plugin : Discovered}

variable (found : registry.find id = some plugin)
include found

theorem id_of_find : plugin.manifest.id = id := by
  simpa using List.find?_some found

theorem isEnabled_of_find :
    registry.isEnabled id = (registry.enabled.lookup id).getD plugin.isBundled := by
  rw [isEnabled, found]

theorem settingsOf_of_find :
    registry.settingsOf id = plugin.manifest.settings.map fun setting =>
      (setting.key, setting.effective ((registry.valuesOf id).lookup setting.key)) := by
  rw [settingsOf, found, valuesOf]
  cases registry.chosen.lookup id <;> rfl

omit found

theorem preference_savedState :
    (registry.savedState id).preference = registry.enabled.lookup id := by
  unfold SavedState.preference savedState
  rcases registry.enabled.lookup id with _ | flag
  · rfl
  · cases flag <;> rfl

end Registry

namespace Installation

/-- Everything the running registry holds is saved, and it holds the values of every plugin that it
knows. -/
structure Sound (installation : Installation) : Prop where
  approvals : installation.registry.trust = installation.dir.approvals
  enabled : ∀ id flag, installation.registry.enabled.lookup id = some flag →
    installation.dir.preference id = some flag
  chosen : ∀ id values, installation.registry.chosen.lookup id = some values →
    installation.dir.values id = values
  values : ∀ id plugin, installation.registry.find id = some plugin →
    installation.registry.valuesOf id = installation.dir.values id

/-- No plugin is left to its default against a saved preference. -/
def InStep (installation : Installation) : Prop :=
  ∀ id plugin, installation.registry.find id = some plugin →
    id ∉ installation.registry.enabled → installation.dir.Unswitched plugin

variable {installation : Installation} {id : String} {plugin : Discovered}

theorem restarted_find : installation.restarted.find id = installation.registry.find id := by
  unfold restarted withStateDir find
  rw [loadAll_keeps.1]
  rfl

theorem restarted_trust : installation.restarted.trust = installation.dir.approvals := by
  unfold restarted withStateDir
  rw [loadAll_keeps.2]

theorem restarted_enabled (found : installation.registry.find id = some plugin) :
    installation.restarted.enabled.lookup id = installation.dir.preference id := by
  unfold restarted withStateDir
  rw [lookup_loadAll.1]
  simp [discover, among_of_find found]

theorem restarted_values (found : installation.registry.find id = some plugin) :
    installation.restarted.valuesOf id = installation.dir.values id := by
  unfold restarted withStateDir valuesOf
  rw [lookup_loadAll.2]
  simp [discover, among_of_find found, loadedValues_getD]

theorem Sound.sameReports_iff (sound : installation.Sound) :
    installation.registry.SameReports installation.restarted ↔ installation.InStep := by
  constructor
  · intro same id plugin found unset
    have enabled := same.enabled id
    rw [isEnabled_of_find found, isEnabled_of_find (restarted_find.trans found),
      restarted_enabled found, AList.lookup_eq_none.mpr unset] at enabled
    rw [Unswitched, id_of_find found]
    exact enabled.symm
  · intro inStep
    refine ⟨fun id => ?_, fun id => ?_, fun id => ?_, fun _ => ?_⟩
    · cases found : installation.registry.find id with
      | none => simp only [isEnabled, restarted_find, found]
      | some plugin =>
        rw [isEnabled_of_find found,
          isEnabled_of_find (restarted_find.trans found), restarted_enabled found]
        cases held : installation.registry.enabled.lookup id with
        | some flag => rw [sound.enabled id flag held]
        | none =>
          have unswitched := inStep id plugin found (AList.lookup_eq_none.mp held)
          rw [Unswitched, id_of_find found] at unswitched
          exact unswitched.symm
    · cases found : installation.registry.find id with
      | none => simp only [settingsOf, restarted_find, found]
      | some plugin =>
        rw [settingsOf_of_find found, settingsOf_of_find (restarted_find.trans found),
          restarted_values found, sound.values id plugin found]
    · rw [restarted_trust, sound.approvals]
    · rw [restarted_trust, sound.approvals]

variable {other : String}

theorem preference_saveState :
    (installation.saveState id).dir.preference other =
      if other = id then installation.registry.enabled.lookup id
      else installation.dir.preference other := by
  simp only [saveState, preference, lookup_insert]
  split
  · exact preference_savedState
  · rfl

theorem values_saveState :
    (installation.saveState id).dir.values other =
      if other = id then installation.registry.valuesOf id else installation.dir.values other := by
  simp only [saveState, values, lookup_insert]
  split <;> rfl

variable {outside : Outside}

variable {result : Except String Registry} {registry later : Registry}

theorem Sound.committed (sound : installation.Sound)
    (only : ∀ later, result = .ok later → ∃ trust, later = { installation.registry with trust }) :
    (installation.committed result).Sound := by
  cases result with
  | error => exact sound
  | ok later =>
    rcases only later rfl with ⟨_, rfl⟩
    exact ⟨rfl, sound.enabled, sound.chosen, sound.values⟩

theorem inStep_committed (inStep : installation.InStep)
    (only : ∀ later, result = .ok later → ∃ trust, later = { installation.registry with trust }) :
    (installation.committed result).InStep := by
  cases result with
  | error => exact inStep
  | ok later =>
    rcases only later rfl with ⟨_, rfl⟩
    exact inStep

theorem only_trust_of_map {result : Except String TrustStore}
    (changed : (result.map fun trust => { registry with trust }) = .ok later) :
    ∃ trust, later = { registry with trust } := by
  cases result with
  | error => cases changed
  | ok trust => exact ⟨trust, (Except.ok.inj changed).symm⟩

theorem only_trust_of_approve {shown : String}
    (approved : registry.approve outside id shown = .ok later) :
    ∃ trust, later = { registry with trust } := by
  unfold approve at approved
  split at approved
  · cases approved
  · split at approved
    · cases approved
    · split at approved
      · cases approved
      · exact only_trust_of_map approved

theorem only_trust_of_setRolePreference {role : PluginRole} {wanted : Option String}
    (preferred : registry.setRolePreference outside role wanted = .ok later) :
    ∃ trust, later = { registry with trust } := by
  simp only [setRolePreference] at preferred
  split at preferred
  · cases preferred
  · exact only_trust_of_map preferred

theorem Sound.forget_eq (sound : installation.Sound) (outside : Outside) (id : String) :
    ∃ trust, installation.forget (outside.saving installation.dir) id =
      ⟨{ installation.registry with
          trust
          running := installation.registry.running.erase id
          pids := installation.registry.pids.erase id
          owned := installation.registry.owned.erase id
          enabled := installation.registry.enabled.erase id },
        { installation.dir with approvals := trust }⟩ := by
  let trust := installation.registry.trust
  by_cases unnamed : id ∉ trust.approved ∧
      (!trust.preferred.entries.any fun entry => decide (entry.2 = id)) = true
  · refine ⟨trust, ?_⟩
    simp only [forget, Registry.forget, TrustStore.forget, trust] at unnamed ⊢
    simp only [if_pos unnamed, Except.map]
    rw [sound.approvals]
  · simp only [forget, Registry.forget, TrustStore.forget, trust] at unnamed ⊢
    simp only [if_neg unnamed, TrustStore.commit, Outside.saving, Except.map]
    exact ⟨_, rfl⟩

theorem Sound.forget (sound : installation.Sound) (id : String) :
    (installation.forget (outside.saving installation.dir) id).Sound := by
  rcases sound.forget_eq outside id with ⟨_, forgotten⟩
  rw [forgotten]
  refine ⟨rfl, fun other flag held => ?_, sound.chosen, sound.values⟩
  rw [lookup_erase] at held
  split at held
  · cases held
  · exact sound.enabled other flag held

theorem Sound.rediscover (sound : installation.Sound)
    (saved : outside.savedValues = installation.dir.values) :
    (installation.rediscover outside).Sound := by
  refine ⟨sound.approvals, sound.enabled, fun id _ held => ?_, fun id _ found => ?_⟩
  · change (List.foldl _ _ _ : Table String (Table String String)).lookup id = _ at held
    rw [lookup_restoreAll, saved] at held
    cases known : installation.registry.chosen.lookup id with
    | some kept =>
      rw [known, some_or] at held
      rw [← some.inj held]
      exact sound.chosen id kept known
    | none =>
      rw [known, none_or] at held
      split at held
      · have loaded := congrArg (getD · ∅) held
        rw [loadedValues_getD] at loaded
        exact loaded
      · cases held
  · change ((List.foldl _ _ _ : Table String (Table String String)).lookup id).getD ∅ = _
    have present : among outside.discovered.plugins id = true := among_of_find found
    rw [lookup_restoreAll, saved, present, if_pos rfl]
    cases known : installation.registry.chosen.lookup id with
    | some kept => exact (sound.chosen id kept known).symm
    | none => exact loadedValues_getD _

theorem Sound.saveState (sound : installation.Sound)
    (trust : later.trust = installation.registry.trust)
    (plugins : later.plugins = installation.registry.plugins) (enabled : ∀ other, other ≠ id →
      later.enabled.lookup other = installation.registry.enabled.lookup other)
    (chosen : ∀ other, other ≠ id →
      later.chosen.lookup other = installation.registry.chosen.lookup other) :
    (saveState ⟨later, installation.dir⟩ id).Sound := by
  have find : ∀ other, later.find other = installation.registry.find other := by
    intro other
    rw [find, find, plugins]
  refine ⟨trust.trans sound.approvals, fun other flag held => ?_, fun other values held => ?_,
    fun other plugin found => ?_⟩
  · rw [preference_saveState]
    split
    · rename_i same
      exact same ▸ held
    · rename_i different
      exact sound.enabled other flag ((enabled other different).symm.trans held)
  · rw [values_saveState]
    split
    · rename_i same
      subst same
      exact congrArg (getD · ∅) held
    · rename_i different
      exact sound.chosen other values ((chosen other different).symm.trans held)
  · rw [values_saveState]
    split
    · rename_i same
      exact congrArg later.valuesOf same
    · rename_i different
      have kept := sound.values other plugin ((find other).symm.trans found)
      rw [valuesOf] at kept
      change (later.chosen.lookup other).getD ∅ = _
      rw [chosen other different, kept]

theorem inStep_saveState (inStep : installation.InStep)
    (plugins : later.plugins = installation.registry.plugins) (enabled : ∀ other, other ≠ id →
      later.enabled.lookup other = installation.registry.enabled.lookup other) :
    (saveState ⟨later, installation.dir⟩ id).InStep := by
  intro other plugin found unset
  have named := id_of_find found
  have unheld : later.enabled.lookup other = none := AList.lookup_eq_none.mpr unset
  rw [Unswitched, named, preference_saveState]
  split
  · rename_i same
    subst same
    rw [unheld, getD_none]
  · rename_i different
    rw [enabled other different] at unheld
    have known : installation.registry.find other = some plugin := by
      rw [find, ← plugins]
      exact found
    have unswitched := inStep other plugin known (AList.lookup_eq_none.mp unheld)
    rwa [Unswitched, named] at unswitched

theorem setEnabled_some {enabled : Bool} (switched : registry.setEnabled id enabled = some later) :
    later.trust = registry.trust ∧ later.plugins = registry.plugins ∧
      later.chosen = registry.chosen ∧ later.enabled = registry.enabled.insert id enabled := by
  unfold setEnabled at switched
  split at switched
  · cases switched
  · cases switched
    exact ⟨rfl, rfl, rfl, rfl⟩

theorem setSetting_true {key value : String}
    (accepted : (registry.setSetting id key value).2 = true) :
    ∃ values, (registry.setSetting id key value).1 =
      { registry with chosen := registry.chosen.insert id values } := by
  simp only [setSetting] at accepted ⊢
  split at accepted
  · rename_i takes
    rw [if_pos takes]
    exact ⟨_, rfl⟩
  · cases accepted

theorem Sound.step (sound : installation.Sound) (input : Outside × RegistryOperation) :
    (installation.step input).Sound := by
  rcases input with ⟨outside, operation⟩
  cases operation with
  | setEnabled id enabled =>
    simp only [Installation.step]
    cases switched : installation.registry.setEnabled id enabled with
    | none => exact sound
    | some =>
      rcases setEnabled_some switched with ⟨trust, plugins, chosen, switches⟩
      refine sound.saveState trust plugins (fun other different => ?_) fun _ _ => ?_
      · rw [switches, AList.lookup_insert_ne different]
      · rw [chosen]
  | setSetting =>
    simp only [Installation.step]
    split
    · rename_i accepted
      rcases setSetting_true accepted with ⟨_, changed⟩
      rw [changed]
      exact sound.saveState rfl rfl (fun _ _ => rfl) fun _ different =>
        AList.lookup_insert_ne different
    · exact sound
  | approve => exact sound.committed fun later => only_trust_of_approve
  | revoke => exact sound.committed fun later => only_trust_of_map
  | setRolePreference =>
    exact sound.committed fun _ => only_trust_of_setRolePreference
  | forget id => exact sound.forget id
  | uninstall id =>
    simp only [Installation.step]
    split
    · exact sound
    · refine (sound.forget id).rediscover ?_
      rcases sound.forget_eq outside id with ⟨_, forgotten⟩
      rw [forgotten]
      rfl
  | rediscover => exact sound.rediscover rfl

theorem Sound.unswitched_iff (sound : installation.Sound) (inStep : installation.InStep)
    (found : installation.registry.find id = some plugin) :
    installation.dir.Unswitched plugin ↔ installation.registry.isEnabled id = plugin.isBundled := by
  rw [Unswitched, id_of_find found, isEnabled_of_find found]
  cases held : installation.registry.enabled.lookup id with
  | some flag => rw [sound.enabled id flag held]
  | none =>
    have unswitched := inStep id plugin found (AList.lookup_eq_none.mp held)
    rw [Unswitched, id_of_find found] at unswitched
    rw [unswitched, getD_none]

theorem Sound.inStep_step_iff (sound : installation.Sound) (inStep : installation.InStep)
    (outside : Outside) (operation : RegistryOperation) :
    (installation.step (outside, operation)).InStep ↔ operation.Remembers installation outside := by
  cases operation with
  | setEnabled id enabled =>
    refine iff_of_true ?_ trivial
    simp only [Installation.step]
    cases switched : installation.registry.setEnabled id enabled with
    | none => exact inStep
    | some =>
      rcases setEnabled_some switched with ⟨_, plugins, _, switches⟩
      refine inStep_saveState inStep plugins fun other different => ?_
      rw [switches, AList.lookup_insert_ne different]
  | setSetting =>
    refine iff_of_true ?_ trivial
    simp only [Installation.step]
    split
    · rename_i accepted
      rcases setSetting_true accepted with ⟨_, changed⟩
      rw [changed]
      exact inStep_saveState inStep rfl fun _ _ => rfl
    · exact inStep
  | approve =>
    exact iff_of_true (inStep_committed inStep fun later => only_trust_of_approve) trivial
  | revoke =>
    exact iff_of_true (inStep_committed inStep fun later => only_trust_of_map) trivial
  | setRolePreference =>
    exact iff_of_true (inStep_committed inStep fun later => only_trust_of_setRolePreference) trivial
  | forget id =>
    rcases sound.forget_eq outside id with ⟨trust, forgotten⟩
    change (installation.forget (outside.saving installation.dir) id).InStep ↔ _
    rw [forgotten]
    constructor
    · intro later plugin found
      refine (sound.unswitched_iff inStep found).mp (later id plugin found ?_)
      exact fun kept => (AList.mem_erase.mp kept).1 rfl
    · intro remembers other plugin found unset
      by_cases same : other = id
      · subst same
        exact (sound.unswitched_iff inStep found).mpr (remembers plugin found)
      · refine inStep other plugin found fun held => unset ?_
        exact AList.mem_erase.mpr ⟨same, held⟩
  | uninstall id =>
    rcases sound.forget_eq outside id with ⟨_, forgotten⟩
    simp only [Installation.step, RegistryOperation.Remembers, Outside.saving]
    cases removed : outside.uninstalls id with
    | error => exact iff_of_true inStep fun succeeds => by cases succeeds
    | ok =>
      change ((installation.forget (outside.saving installation.dir) id).rediscover
        (outside.saving installation.dir)).InStep ↔ _
      rw [forgotten]
      constructor
      · intro later _ other plugin found unset
        refine later other plugin found fun kept => ?_
        rcases AList.mem_erase.mp kept with ⟨different, held⟩
        exact unset.elim (· held) different
      · intro remembers other plugin found unset
        refine remembers rfl other plugin found ?_
        by_cases same : other = id
        · exact .inr same
        · exact .inl fun held => unset (AList.mem_erase.mpr ⟨same, held⟩)
  | rediscover => exact Iff.rfl

end Installation

namespace Installation

variable (found : Found) (store : Option Files.PathBuf) (dir : StateDir)

theorem start_lookups (id : String) :
    (start found store dir).registry.enabled.lookup id =
        (if among found.plugins id then dir.preference id else none) ∧
      (start found store dir).registry.chosen.lookup id =
        if among found.plugins id then loadedValues (dir.values id) else none := by
  unfold start withStateDir
  constructor
  · rw [lookup_loadAll.1]
    exact or_none
  · rw [lookup_loadAll.2]
    exact or_none

theorem start_find (id : String) : (start found store dir).registry.find id = found.find id := by
  unfold start withStateDir find
  rw [loadAll_keeps.1]
  rfl

theorem sound_start : (start found store dir).Sound := by
  refine ⟨?_, fun id _ held => ?_, fun id _ held => ?_, fun id _ known => ?_⟩
  · unfold start withStateDir
    rw [loadAll_keeps.2]
  · rw [(start_lookups found store dir id).1] at held
    split at held
    · exact held
    · cases held
  · rw [(start_lookups found store dir id).2] at held
    split at held
    · have loaded := congrArg (getD · ∅) held
      rw [loadedValues_getD] at loaded
      exact loaded
    · cases held
  · rw [start_find] at known
    rw [valuesOf, (start_lookups found store dir id).2, among_of_find known, if_pos rfl]
    exact loadedValues_getD _

theorem inStep_start : (start found store dir).InStep := by
  intro id _ known unset
  have unsaved : dir.preference id = none := by
    have absent := AList.lookup_eq_none.mpr unset
    rw [start_find] at known
    rwa [(start_lookups found store dir id).1, among_of_find known, if_pos rfl] at absent
  rw [Unswitched, id_of_find known]
  change (dir.preference id).getD _ = _
  rw [unsaved, getD_none]

/-- While every file can be written, all that the registry holds is saved. -/
theorem saved_after (operations : List (Outside × RegistryOperation)) :
    ((registryMachine found store dir).after (start found store dir) operations).Sound := by
  have keeps : ∀ installation input, Sound installation →
      ((registryMachine found store dir).next installation input).Sound :=
    fun _ input sound => sound.step input
  exact Machine.after_keeps keeps (sound_start found store dir) operations

/-- A registry freshly discovered and loaded reports what the running one reports, all along a
sequence of operations, just if every operation keeps to what is saved. -/
theorem sameReports_restarted_iff (operations : List (Outside × RegistryOperation)) :
    let machine := registryMachine found store dir
    (∀ earlier, earlier <+: operations →
        let installation := machine.after machine.initial earlier
        installation.registry.SameReports installation.restarted) ↔
      machine.Follows machine.initial operations := by
  intro machine
  have sound : ∀ earlier, (machine.after machine.initial earlier).Sound :=
    Machine.after_keeps (fun _ input sound => Sound.step sound input) (sound_start found store dir)
  have exactly : machine.Follows machine.initial operations ↔
      ∀ earlier, earlier <+: operations → (machine.after machine.initial earlier).InStep :=
    Machine.follows_iff (fun _ input sound => Sound.step sound input)
      (fun _ input sound inStep => Sound.inStep_step_iff sound inStep input.1 input.2)
      (sound_start found store dir) (inStep_start found store dir)
  rw [exactly]
  constructor
  · intro same earlier shorter
    exact (sound earlier).sameReports_iff.mp (same earlier shorter)
  · intro inStep earlier shorter
    exact (sound earlier).sameReports_iff.mpr (inStep earlier shorter)

end Installation

namespace Returning

def plugin : Discovered where
  manifest := {
    protocolVersion := 1
    id := "acme"
    version := "1.0.0"
    args := []
    onDemand := false
    ownsSettings := false
    capabilities := Mounted.capabilities
    settings := []
    handshakeIds := ["acme"]
    resources := [] }
  origin := .installed
  manifestPath := .empty
  executable := "acme"

def holding (plugins : List Discovered) : Outside where
  digest _ _ := .ok "d"
  shownDigest _ := .ok "d"
  isFile _ := true
  discovered := ⟨plugins, []⟩
  savedValues _ := ∅
  saves := .ok ()
  uninstalls _ := .ok ()
  makesRoom _ := true

def operations : List (Outside × RegistryOperation) :=
  [(holding [plugin], .setEnabled "acme" true), (holding [], .uninstall "acme"),
    (holding [plugin], .rediscover)]

end Returning

/-- The plugin is off until the service starts again. -/
theorem Installation.not_sameReports_returning :
    ¬∀ (found : Found) (store : Option Files.PathBuf) (dir : StateDir)
      (operations : List (Outside × RegistryOperation)),
      let machine := registryMachine found store dir
      let installation := machine.after machine.initial operations
      installation.registry.SameReports installation.restarted := by
  intro same
  have enabled := (same ⟨[Returning.plugin], []⟩ none ⟨⟨∅, ∅⟩, ∅⟩ Returning.operations).enabled
    "acme"
  revert enabled
  decide +kernel

end Syntra.Plugins
