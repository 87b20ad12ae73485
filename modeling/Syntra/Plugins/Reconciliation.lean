import Syntra.Plugins.Launches
import Syntra.Plugins.Residents

/-!
# Reconciling

After every change the service compares what should run with what it has seen running, and sends
stops and starts for the difference. What it has seen lags behind the commands that still wait, so
the outcome is right exactly when the two agree where it matters (`Seen`).
-/

namespace Syntra.Plugins

open StateMachine Serving Registry List
open Handler (ensures_bind ensures_update ensures_task ensures_recover ensures_ite)

def Registry.wanted (outside : Outside) (registry : Registry) : List String :=
  (registry.residentPlugins outside).map (·.1)

section Sending

variable {outside : Outside}

def Sends (handler : Serving Unit) (registry : Registry) (sent : List ManagerCommand) : Prop :=
  ∀ service permits, service.registry = registry →
    handler.Ensures (service, permits)
      (fun _ after => after.1 = { service with commands := service.commands ++ sent })
      fun _ _ => False

variable {registry : Registry}

theorem Sends.pure : Sends (pure ()) registry [] := by
  intro service _ _
  exact (congrArg (fun commands => { service with commands }) (append_nil _)).symm

theorem Sends.bind {handler next : Serving Unit} {sent further : List ManagerCommand}
    (first : Sends handler registry sent) (rest : Sends next registry further) :
    Sends (do handler; next) registry (sent ++ further) := by
  intro service permits same
  rw [ensures_bind]
  refine Handler.Ensures.mono (first service permits same) ?_ fun _ _ => False.elim
  rintro _ ⟨_, held⟩ reached
  subst reached
  refine Handler.Ensures.mono (rest _ held same) ?_ fun _ _ => False.elim
  intro _ _ reached
  rw [reached]
  simp

theorem Sends.each {element : Type} {list : List element} {body : element → Serving Unit}
    {sent : element → List ManagerCommand} (turn : ∀ item, Sends (body item) registry (sent item)) :
    Sends (.each list body) registry (list.flatMap sent) := by
  induction list with
  | nil => exact .pure
  | cons item _ ih =>
    exact (turn item).bind ih

variable (room : ∀ waiting, outside.makesRoom waiting = true)
include room

theorem Sends.send (command : ManagerCommand) :
    Sends (sendPluginCommand outside command) registry [command] := by
  intro _ _ _
  rw [sendPluginCommand, ensures_update, if_pos (.inr (room _))]

def startOf (outside : Outside) (registry : Registry) (id : String) (role : Option PluginRole) :
    List ManagerCommand :=
  match registry.launchPlan outside id role with
  | .error _ => []
  | .ok plan => [.startPlugin id plan.spec plan.settings]

theorem Sends.startResidentPlugin (id : String) (role : Option PluginRole) (restart : Bool) :
    Sends (startResidentPlugin outside id role restart) registry
      (if restart && !(startOf outside registry id role).isEmpty then
        .stopPlugin id :: startOf outside registry id role
      else startOf outside registry id role) := by
  intro service _ same
  subst same
  rw [startResidentPlugin, ensures_bind, ensures_task]
  unfold startOf
  cases service.registry.launchPlan outside id role with
  | error => simp
  | ok =>
    cases restart with
    | false => exact Sends.send room _ _ _ rfl
    | true => exact ((Sends.send room _).bind (Sends.send room _)) _ _ rfl

/-- What is sent so that what was seen running becomes what is wanted. -/
def reconcileCommands (outside : Outside) (registry : Registry) : List ManagerCommand :=
  registry.runningPlugins.flatMap (fun id =>
      if !(registry.residentPlugins outside).any (·.1 = id) ∧ !registry.isOnDemand id then
        [.stopPlugin id]
      else []) ++
    (registry.residentPlugins outside).flatMap fun entry =>
      if entry.1 ∉ registry.runningPlugins then startOf outside registry entry.1 (some entry.2)
      else []

theorem Sends.reconcilePlugins :
    Sends (reconcilePlugins outside) registry (reconcileCommands outside registry) := by
  intro service permits same
  subst same
  refine ((Sends.each fun _ => ?_).bind (Sends.each fun _ => ?_)) service permits rfl
  · split
    · exact .send room _
    · exact .pure
  · split
    · exact .startResidentPlugin room _ _ false
    · exact .pure

theorem Sends.startResidents :
    Sends (startResidents outside) registry ((registry.residentPlugins outside).flatMap fun entry =>
        startOf outside registry entry.1 (some entry.2)) := by
  intro service permits same
  subst same
  exact Sends.each (fun _ => .startResidentPlugin room _ _ false) service permits rfl

end Sending

section Destined

variable {id : String} {live : Bool}

theorem destined_stops (ids : List String) (unwanted : String → Prop) [DecidablePred unwanted] :
    destined (ids.flatMap fun other =>
        if unwanted other then [ManagerCommand.stopPlugin other] else []) id live = true ↔
      live = true ∧ ¬(id ∈ ids ∧ unwanted id) := by
  induction ids generalizing live with
  | nil => simp [destined]
  | cons other _ ih =>
    rw [flatMap_cons, destined_append, ih]
    by_cases stops : unwanted other
    · rw [if_pos stops]
      simp only [destined, foldl_cons, foldl_nil, ManagerCommand.destines,
        Bool.and_eq_true, Bool.not_eq_true', decide_eq_false_iff_not, mem_cons]
      grind
    · rw [if_neg stops]
      simp only [destined, foldl_nil, mem_cons]
      grind

theorem destined_startOf (outside : Outside) (registry : Registry) (other : String)
    (role : Option PluginRole) :
    destined (startOf outside registry other role) id live = true ↔
      live = true ∨ other = id ∧ (registry.launchPlan outside other role).isOk = true := by
  unfold startOf
  cases registry.launchPlan outside other role with
  | error =>
    simp [destined, Except.toBool]
  | ok =>
    simp [destined, ManagerCommand.destines, Except.toBool]

/-- Every start that is due is allowed. -/
def AllAllowed (outside : Outside) (registry : Registry) (running : List String) : Prop :=
  ∀ entry ∈ registry.residentPlugins outside, entry.1 ∉ running →
    (registry.launchPlan outside entry.1 (some entry.2)).isOk = true

variable {outside : Outside} {registry : Registry}

theorem destined_starts {running : List String} (allowed : AllAllowed outside registry running) :
    destined ((registry.residentPlugins outside).flatMap fun entry =>
        if entry.1 ∉ running then startOf outside registry entry.1 (some entry.2) else [])
        id live = true ↔
      live = true ∨ id ∈ registry.wanted outside ∧ id ∉ running := by
  unfold AllAllowed wanted at *
  generalize registry.residentPlugins outside = entries at *
  induction entries generalizing live with
  | nil => simp [destined]
  | cons entry _ ih =>
    obtain ⟨_, rest⟩ := forall_mem_cons.mp allowed
    rw [flatMap_cons, destined_append, ih rest, map_cons, mem_cons]
    by_cases due : entry.1 ∉ running
    · rw [if_pos due, destined_startOf]
      grind
    · rw [if_neg due]
      simp only [destined, foldl_nil]
      grind

theorem destined_reconcileCommands (allowed : AllAllowed outside registry registry.runningPlugins) :
    destined (reconcileCommands outside registry) id live = true ↔
      (live = true ∧ ¬(id ∈ registry.runningPlugins ∧ id ∉ registry.wanted outside ∧
        registry.isOnDemand id = false)) ∨
      id ∈ registry.wanted outside ∧ id ∉ registry.runningPlugins := by
  have unwanted : (!(registry.residentPlugins outside).any (·.1 = id)) = true ↔
      id ∉ registry.wanted outside := by
    simp only [wanted, mem_map, Bool.not_eq_true', any_eq_false,
      decide_eq_true_iff, not_exists, not_and]
  rw [reconcileCommands, destined_append, destined_starts allowed, destined_stops]
  simp only [unwanted, Bool.not_eq_true']

end Destined

/-- A change after which the service reconciles. -/
structure Change where
  outside : Outside
  /-- The registry after the change. -/
  registry : Registry
  /-- The plugin that is stopped in any case. -/
  stopped : Option String

def Change.result (change : Change) (commands : List ManagerCommand) : Service where
  registry := change.registry
  commands := commands ++ change.stopped.toList.map .stopPlugin ++
    reconcileCommands change.outside change.registry

/-- The registry after a package was removed, as far as that works. -/
def Registry.uninstalled (outside : Outside) (registry : Registry) (id : String) : Registry :=
  match outside.uninstalls id with
  | .error _ => registry
  | .ok () =>
    match registry.forget outside id with
    | .error _ => registry
    | .ok later => later.rediscover outside

def PluginRequest.change (outside : Outside) (registry : Registry) : PluginRequest → Option Change
  | .setPluginEnabled id enabled => (registry.setEnabled id enabled).map fun registry =>
    ⟨outside, registry, if enabled then none else some id⟩
  | .approvePlugin id digest =>
    some ⟨outside, (registry.approve outside id digest).toOption.getD registry, none⟩
  | .revokePluginApproval id =>
    some ⟨outside, (registry.revoke outside id).toOption.getD registry, some id⟩
  | .uninstallPlugin id =>
    if registry.isInstalledPackage id ∧ registry.store.isSome then
      some ⟨outside, registry.uninstalled outside id, some id⟩
    else some ⟨outside, registry, none⟩
  | .setPluginRolePreference role id =>
    some ⟨outside, (registry.setRolePreference outside role id).toOption.getD registry, none⟩
  | .restartPlugin _ | .setPluginSetting .. | .openPluginSettings .. | .installPlugin
  | .updatePlugin _ => none

def SystemInput.change (registry : Registry) : SystemInput → Option Change
  | .request outside asked => asked.change outside registry
  | .installed outside result =>
    some ⟨outside, if result.isOk then registry.rediscover outside else registry, none⟩
  | .mountedReceive .. | .mail .. | .event | .command _ | .process .. => none

def Outside.roomy (outside : Outside) : Outside := { outside with makesRoom := fun _ => true }

def SystemInput.roomy : SystemInput → SystemInput
  | .request outside asked => .request outside.roomy asked
  | .installed outside result => .installed outside.roomy result
  | .mountedReceive outside transferId operation entries =>
    .mountedReceive outside.roomy transferId operation entries
  | .mail outside sent => .mail outside.roomy sent
  | .event => .event
  | .command around => .command around
  | .process around met => .process around met

section Changes

variable {outside : Outside} {registry : Registry}

def Makes (handler : Serving Unit) (registry : Registry) (change : Change) : Prop :=
  ∀ service permits, service.registry = registry →
    handler.Ensures (service, permits) (fun _ after => after.1 = change.result service.commands)
      fun _ _ => False

variable (room : ∀ waiting, outside.makesRoom waiting = true)
include room

theorem reconcile_ensures (change : Change) (same : change.outside = outside)
    (commands : List ManagerCommand) {service : Service} {permits : List Permit}
    (changed : service.registry = change.registry)
    (sent : service.commands = commands ++ change.stopped.toList.map .stopPlugin) :
    (reconcilePlugins outside).Ensures (service, permits)
      (fun _ after => after.1 = change.result commands) fun _ _ => False := by
  refine Handler.Ensures.mono (Sends.reconcilePlugins room service permits changed) ?_
    fun _ _ => False.elim
  intro _ _ reached
  rw [reached, sent, changed, Change.result, same]

theorem makes_shown {change : Registry → Except String Registry} :
    Makes (do
      shown (attempt change)
      reconcilePlugins outside) registry
      ⟨outside, (change registry).toOption.getD registry, none⟩ := by
  intro service _ same
  subst same
  rw [ensures_bind, shown, ensures_recover, attempt, ensures_bind, ensures_task]
  cases change service.registry with
  | error =>
    exact reconcile_ensures room ⟨outside, service.registry, none⟩ rfl service.commands rfl
      (append_nil _).symm
  | ok changed =>
    exact reconcile_ensures room ⟨outside, changed, none⟩ rfl service.commands rfl
      (append_nil _).symm

omit room in
theorem makes_stop (room : ∀ waiting, outside.makesRoom waiting = true) {service : Service}
    {permits : List Permit} {id : String} {rest : Unit → Serving Unit}
    {holds : Service × List Permit → Prop} (onward : (rest ()).Ensures
      ({ service with commands := service.commands ++ [.stopPlugin id] }, permits)
      (fun _ after => holds after) fun _ _ => False) :
    (sendPluginCommand outside (.stopPlugin id) >>= rest).Ensures (service, permits)
      (fun _ after => holds after) fun _ _ => False := by
  rw [ensures_bind, sendPluginCommand, ensures_update, if_pos (.inr (room _))]
  exact onward

theorem makes_handleRequest {request : PluginRequest} {change : Change}
    (changes : request.change outside registry = some change) :
    Makes (handleRequest outside request) registry change := by
  cases request with
  | setPluginEnabled id enabled =>
    obtain ⟨later, switched, rfl⟩ := Option.map_eq_some_iff.mp changes
    intro service permits same
    subst same
    rw [handleRequest, setPluginEnabled, ensures_bind, ensures_task]
    rw [switched]
    simp only [know, ensures_bind, ensures_update]
    cases enabled with
    | true =>
      exact reconcile_ensures room ⟨outside, later, none⟩ rfl service.commands rfl
        (append_nil _).symm
    | false =>
      exact makes_stop room
        (reconcile_ensures room ⟨outside, later, some id⟩ rfl service.commands rfl rfl)
  | approvePlugin =>
    cases changes
    exact makes_shown room
  | revokePluginApproval id =>
    cases changes
    intro service permits same
    subst same
    refine makes_stop room ?_
    rw [ensures_bind, shown, ensures_recover, attempt, ensures_bind, ensures_task]
    cases service.registry.revoke outside id with
    | error =>
      exact reconcile_ensures room ⟨outside, service.registry, some id⟩ rfl service.commands rfl rfl
    | ok changed =>
      exact reconcile_ensures room ⟨outside, changed, some id⟩ rfl service.commands rfl rfl
  | uninstallPlugin id =>
    intro service _ same
    subst same
    rw [handleRequest, uninstallPlugin, ensures_bind, ensures_task]
    rw [PluginRequest.change] at changes
    split at changes
    · rename_i installed
      cases changes
      rw [if_pos installed, ensures_bind, shown, ensures_recover, ensures_bind, sendPluginCommand,
        ensures_update, if_pos (.inr (room _)), uninstalled]
      cases outside.uninstalls id with
      | error =>
        exact reconcile_ensures room ⟨outside, service.registry, some id⟩ rfl service.commands
          rfl rfl
      | ok =>
        simp only [attempt, ensures_bind, ensures_task]
        cases service.registry.forget outside id with
        | error =>
          exact reconcile_ensures room ⟨outside, service.registry, some id⟩ rfl
            service.commands rfl rfl
        | ok later =>
          exact reconcile_ensures room ⟨outside, later.rediscover outside, some id⟩ rfl
            service.commands rfl rfl
    · rename_i unknown
      cases changes
      rw [if_neg unknown]
      exact reconcile_ensures room ⟨outside, service.registry, none⟩ rfl service.commands rfl
        (append_nil _).symm
  | setPluginRolePreference =>
    cases changes
    exact makes_shown room
  | _ => cases changes

theorem makes_finishInstall (result : Except String Unit) :
    Makes (finishInstall outside result) registry
      ⟨outside, if result.isOk then registry.rediscover outside else registry, none⟩ := by
  intro service _ same
  subst same
  refine ensures_ite.mpr ⟨fun done => ?_, fun failed => ?_⟩
  · rw [if_pos done]
    exact reconcile_ensures room ⟨outside, service.registry.rediscover outside, none⟩ rfl
      service.commands rfl (append_nil _).symm
  · rw [if_neg failed]
    exact reconcile_ensures room ⟨outside, service.registry, none⟩ rfl service.commands rfl
      (append_nil _).symm

omit room

end Changes

/-- Two registries agree on what decides which plugins should run. -/
structure Registry.SameRoles (registry later : Registry) : Prop where
  plugins : later.plugins = registry.plugins
  enabled : later.enabled = registry.enabled
  trust : later.trust = registry.trust

theorem Registry.SameRoles.wanted {registry later : Registry} (same : registry.SameRoles later)
    (outside : Outside) : later.wanted outside = registry.wanted outside := by
  have enabled (id : String) : later.isEnabled id = registry.isEnabled id := by
    unfold isEnabled find
    rw [same.plugins, same.enabled]
  have trusted (plugin : Discovered) :
      later.trustNow outside plugin = registry.trustNow outside plugin := by
    unfold trustNow
    rw [same.trust]
  have candidates (role : PluginRole) :
      later.candidates outside role = registry.candidates outside role := by
    unfold candidates
    rw [same.plugins]
    simp only [enabled, trusted]
  unfold Registry.wanted Registry.residentPlugins Registry.activeProvider
  rw [candidates, candidates, same.trust]

/-- What concerns neither which plugins should run nor which will. -/
structure Aside (before after : Service × List Permit) : Prop where
  roles : before.1.registry.SameRoles after.1.registry
  destined : ∀ id live, destined after.1.commands id live = destined before.1.commands id live

instance : Std.Refl Aside where
  refl _ := ⟨⟨rfl, rfl, rfl⟩, fun _ _ => rfl⟩

instance : IsTrans (Service × List Permit) Aside where
  trans _ _ _ first second :=
    ⟨⟨second.roles.plugins.trans first.roles.plugins,
      second.roles.enabled.trans first.roles.enabled,
      second.roles.trust.trans first.roles.trust⟩,
      fun id live => (second.destined id live).trans (first.destined id live)⟩

section Asides

open Handler (emit)

variable {outside : Outside}

theorem aside_send {command : ManagerCommand} (aside : command.steers = false) :
    (sendPluginCommand outside command).Along Aside := by
  rintro ⟨_, _⟩
  refine sendPluginCommand_ensures ⟨⟨rfl, rfl, rfl⟩, fun id _ => ?_⟩ (refl_of Aside _)
  rw [destined_append]
  exact destines_of_aside aside id _

theorem aside_emit (permit : Permit) : (emit permit : Serving Unit).Along Aside :=
  .emit fun _ _ => ⟨⟨rfl, rfl, rfl⟩, fun _ _ => rfl⟩

theorem aside_startMountedReceive (transferId : String) (operation : Clipboard.Operation)
    (entries : List Clipboard.RemoteEntry) :
    (startMountedReceive outside transferId operation entries).Along Aside := by
  refine .bind .task fun _ => ?_
  split
  · exact .pure _
  · split
    · exact .pure _
    · exact .bind (aside_emit _) fun _ => aside_send rfl

theorem sameRoles_setSetting (registry : Registry) (id key value : String) :
    registry.SameRoles (registry.setSetting id key value).1 := by
  unfold setSetting
  dsimp only
  split
  · exact ⟨rfl, rfl, rfl⟩
  · exact ⟨rfl, rfl, rfl⟩

theorem sameRoles_requestOwnedSetting (registry : Registry) (id key value : String) :
    registry.SameRoles (registry.requestOwnedSetting id key value).1 := by
  unfold requestOwnedSetting
  split
  · exact ⟨rfl, rfl, rfl⟩
  · split
    · exact ⟨rfl, rfl, rfl⟩
    · exact ⟨rfl, rfl, rfl⟩

/-- A restart of the plugin starts it. -/
def Restarts (outside : Outside) (registry : Registry) (id : String) : Prop :=
  registry.isEnabled id = true ∧
    (startOf outside (registry.recordRestart id) id
      ((registry.recordRestart id).residentRoleOf outside id)).isEmpty = false

/-- The package is one that can be updated. -/
def Updates (registry : Registry) (id : String) : Prop :=
  registry.store.isSome = true ∧ registry.isInstalledPackage id = true

/-- An input that neither changes which plugins should run nor which will. -/
def SystemInput.Neutral (registry : Registry) : SystemInput → Prop
  | .request outside (.restartPlugin id) => ¬Restarts outside registry id
  | .request _ (.updatePlugin id) => ¬Updates registry id
  | input => input.change registry = none

/-- The input changes nothing, unless it restarts what is wanted or updates what is not. -/
def SystemInput.Agrees (outside : Outside) (registry : Registry) : SystemInput → Prop
  | .request now (.restartPlugin id) => Restarts now registry id → id ∈ registry.wanted outside
  | .request _ (.updatePlugin id) => Updates registry id → id ∉ registry.wanted outside
  | input => input.change registry = none

theorem aside_request {request : PluginRequest} {service : Service} {permits : List Permit}
    (neutral : (SystemInput.request outside request).Neutral service.registry) :
    (handleRequest outside request).Ensures (service, permits)
      (fun _ => Aside (service, permits)) fun _ => Aside (service, permits) := by
  cases request with
  | setPluginEnabled id enabled =>
    have unknown : service.registry.setEnabled id enabled = none :=
      Option.map_eq_none_iff.mp neutral
    rw [handleRequest, setPluginEnabled, ensures_bind, ensures_task]
    rw [unknown]
    exact refl_of Aside _
  | restartPlugin id =>
    refine ensures_ite.mpr ⟨fun enabled => ?_, fun _ => refl_of Aside _⟩
    rw [ensures_bind, know, ensures_update, ensures_bind, ensures_task, startResidentPlugin,
      ensures_bind, ensures_task]
    have refused : (startOf outside (service.registry.recordRestart id) id
        ((service.registry.recordRestart id).residentRoleOf outside id)).isEmpty = true := by
      by_contra starts
      exact neutral ⟨enabled, by simpa using starts⟩
    unfold startOf at refused
    cases planned : (service.registry.recordRestart id).launchPlan outside id
        ((service.registry.recordRestart id).residentRoleOf outside id) with
    | error => exact ⟨⟨rfl, rfl, rfl⟩, fun _ _ => rfl⟩
    | ok =>
      rw [planned] at refused
      cases refused
  | setPluginSetting id key value =>
    have known {registry : Registry} (same : service.registry.SameRoles registry) :
        Aside (service, permits) ({ service with registry }, permits) :=
      ⟨same, fun _ _ => rfl⟩
    have set := sameRoles_setSetting service.registry id key value
    refine ensures_ite.mpr ⟨fun _ => ?_, fun _ => ?_⟩
    · rw [ensures_bind, know, ensures_update]
      refine (aside_send rfl).onward (known ?_)
      split
      · exact sameRoles_requestOwnedSetting service.registry id key value
      · exact set
    · rw [ensures_bind, know, ensures_update]
      exact ensures_ite.mpr ⟨fun _ => (aside_send rfl).onward (known set), fun _ => known set⟩
  | openPluginSettings id theme =>
    have along : (openPluginSettings outside id theme).Along Aside := by
      refine .bind .task fun _ => .ite (.pure _) (.ite (aside_send rfl) ?_)
      split
      · exact .pure _
      · exact .bind (aside_emit _) fun _ => aside_send rfl
    exact along _
  | installPlugin => exact refl_of Aside _
  | updatePlugin =>
    exact ensures_ite.mpr ⟨fun updates => absurd updates neutral, fun _ => refl_of Aside _⟩
  | approvePlugin | revokePluginApproval | setPluginRolePreference => cases neutral
  | uninstallPlugin =>
    simp only [SystemInput.Neutral, SystemInput.change, PluginRequest.change] at neutral
    split at neutral <;> cases neutral

end Asides

end Syntra.Plugins