import Syntra.Plugins.Launches

/-!
# Withdrawing a plugin

When the approval of a plugin is withdrawn, or it is switched off or uninstalled, the service sends
a stop. Once the supervisor has taken it, nothing of the plugin is live, and nothing is started
until the registry allows a launch again (`Withdrawn`). The stop is lost when the channel is full.
-/

namespace Syntra.Plugins

open StateMachine Tables Serving Registry List AList False
open Handler (ensures_update ensures_bind ensures_task ensures_recover)
open Serving (attempt handleRequest reconcilePlugins sendPluginCommand serves_attempt shown)

/-- None of the commands starts a process of the plugin. -/
def Unasked (id : String) (commands : List ManagerCommand) : Prop :=
  ∀ command ∈ commands, ∀ spec, ¬command.Requests id spec

/-- A stop of the plugin waits, and nothing behind it starts the plugin. -/
def AwaitsStop (id : String) (commands : List ManagerCommand) : Prop :=
  ∃ earlier later, commands = earlier ++ .stopPlugin id :: later ∧ Unasked id later

/-- No process of the plugin is live and its launch is not kept. -/
def Quelled (id : String) (state : State) : Prop := NoProcess id state ∧ id ∉ state.specs

/-- Nothing of a plugin is live, kept or asked for. -/
structure Idle (id : String) (system : System) : Prop where
  quelled : Quelled id system.supervisor
  unasked : Unasked id system.commands

/-- The plugin does not run, or will not once what waits is taken. -/
def Withdrawn (id : String) (system : System) : Prop :=
  Idle id system ∨ AwaitsStop id system.commands

theorem Withdrawn.congr {id : String} {system later : System} (withdrawn : Withdrawn id system)
    (commands : later.commands = system.commands)
    (supervisor : later.supervisor = system.supervisor) : Withdrawn id later := by
  rcases withdrawn with idle | awaits
  · exact .inl ⟨supervisor ▸ idle.quelled, commands ▸ idle.unasked⟩
  · exact .inr (commands ▸ awaits)

theorem Withdrawn.idle {id : String} {system : System} (withdrawn : Withdrawn id system)
    (drained : system.commands = []) : Idle id system := by
  rcases withdrawn with idle | ⟨_, _, waits, -⟩
  · exact idle
  · rw [drained] at waits
    simp at waits

section Serving

variable {id : String} {outside : Outside} {commands : List ManagerCommand}
  {command : ManagerCommand} {before after : Service × List Permit}

theorem Unasked.concat (unasked : Unasked id commands) (other : ∀ spec, ¬command.Requests id spec) :
    Unasked id (commands ++ [command]) :=
  forall_mem_append.mpr ⟨unasked, forall_mem_singleton.mpr other⟩

theorem AwaitsStop.concat (awaits : AwaitsStop id commands)
    (other : ∀ spec, ¬command.Requests id spec) : AwaitsStop id (commands ++ [command]) := by
  obtain ⟨earlier, later, rfl, none⟩ := awaits
  exact ⟨earlier, later ++ [command], by simp, none.concat other⟩

variable (serves : Serves outside before after)
include serves

theorem Serves.keeps {holds : List ManagerCommand → Prop}
    (none : ∀ permit ∈ after.2, permit.id ≠ id)
    (concat : ∀ commands command, holds commands → (∀ spec, ¬command.Requests id spec) →
      holds (commands ++ [command])) (held : holds before.1.commands) : holds after.1.commands := by
  induction serves with
  | refl => exact held
  | tail _ move ih =>
    cases move with
    | know => exact ih none
    | send mail => exact concat _ _ (ih none) (not_requests_of_isMail mail id)
    | stop stopped => exact concat _ _ (ih none) (not_requests_stopPlugin stopped id)
    | allow => exact ih fun permit held => none permit (mem_append_left _ held)
    | start allowed requests =>
      exact concat _ _ (ih none) fun _ asks => none _ allowed (requests.unique asks).1.symm

theorem Serves.unasked (none : ∀ permit ∈ after.2, permit.id ≠ id)
    (unasked : Unasked id before.1.commands) : Unasked id after.1.commands :=
  serves.keeps none (fun _ _ => Unasked.concat) unasked

theorem Serves.awaitsStop (none : ∀ permit ∈ after.2, permit.id ≠ id)
    (awaits : AwaitsStop id before.1.commands) : AwaitsStop id after.1.commands :=
  serves.keeps none (fun _ _ => AwaitsStop.concat) awaits

end Serving

section Supervising

variable {id : String} {codecs : Codecs} {around : Surroundings} {input : SupervisorInput}

/-- A process of the plugin was started. -/
def Effect.spawns (id : String) : Effect → Prop
  | .spawned adapter .. => adapter.plugin = id
  | .report _ | .written .. | .ended .. => False

theorem Move.quelled {world later : World} (move : Move codecs around input world later)
    (other : ∀ spec, ¬input.Requests id spec) (quelled : Quelled id world.1) :
    Quelled id later.1 := by
  obtain ⟨none, unkept⟩ := quelled
  cases move with
  | note agrees =>
    refine ⟨fun adapter live => none adapter ?_, ?_⟩
    · rw [← agrees.processes]
      exact live
    · rw [agrees.specs]
      exact unkept
  | tell => exact ⟨none, unkept⟩
  | finish => exact ⟨fun adapter live => none adapter (mem_erase.mp live).2, unkept⟩
  | accept found =>
    refine ⟨fun adapter live => ?_, unkept⟩
    rcases (mem_insert _).mp live with rfl | there
    · exact none adapter ((mem_iff_lookup _ _).mpr ⟨_, found⟩)
    · exact none adapter there
  | register asked =>
    refine ⟨none, fun kept => ?_⟩
    rcases (mem_insert _).mp kept with rfl | there
    · exact other _ asked
    · exact unkept there
  | forget => exact ⟨none, fun kept => unkept (mem_erase.mp kept).2⟩
  | count => exact ⟨none, unkept⟩
  | start _ _ sourced =>
    refine ⟨fun adapter live => ?_, unkept⟩
    rcases (mem_insert _).mp live with rfl | there
    · rintro rfl
      rcases sourced with kept | ⟨_, rfl, asked⟩
      · exact unkept ((mem_iff_lookup _ _).mpr ⟨_, kept⟩)
      · exact other _ asked
    · exact none adapter there
  | pass => exact ⟨none, unkept⟩

theorem Move.not_spawns {world later : World} (move : Move codecs around input world later)
    (other : ∀ spec, ¬input.Requests id spec) (quelled : Quelled id world.1)
    (done : ∀ effect ∈ world.2, ¬effect.spawns id) : ∀ effect ∈ later.2, ¬effect.spawns id := by
  have concat {log : List Effect} {effect : Effect} (done : ∀ other ∈ log, ¬other.spawns id)
      (new : ¬effect.spawns id) : ∀ other ∈ log ++ [effect], ¬other.spawns id :=
    forall_mem_append.mpr ⟨done, forall_mem_singleton.mpr new⟩
  cases move with
  | note => exact done
  | tell quiet =>
    rename_i state log effect
    refine concat done fun spawns => ?_
    cases effect with
    | spawned => exact quiet.elim
    | report | written | ended => exact spawns.elim
  | finish | accept => exact concat done fun spawns => spawns.elim
  | register | forget | count => exact done
  | start _ _ sourced =>
    refine concat (concat done ?_) (fun spawns => spawns.elim)
    rintro rfl
    rcases sourced with kept | ⟨_, rfl, asked⟩
    · exact quelled.2 ((mem_iff_lookup _ _).mpr ⟨_, kept⟩)
    · exact other _ asked
  | pass => exact concat done fun spawns => spawns.elim

theorem Runs.quelled {world later : World} (runs : Runs codecs around input world later)
    (other : ∀ spec, ¬input.Requests id spec) (quelled : Quelled id world.1)
    (done : ∀ effect ∈ world.2, ¬effect.spawns id) :
    Quelled id later.1 ∧ ∀ effect ∈ later.2, ¬effect.spawns id := by
  induction runs with
  | refl => exact ⟨quelled, done⟩
  | tail _ move ih => exact ⟨move.quelled other ih.1, move.not_spawns other ih.1 ih.2⟩

end Supervising

def SystemEffect.spawns (id : String) : SystemEffect → Prop
  | .acted effect => effect.spawns id
  | .permitted _ => False

section Steps

variable {id : String} {codecs : Codecs} {system : System}

theorem Quelled.supervised (quelled : Quelled id system.supervisor) (codecs : Codecs)
    (around : Surroundings) (input : SupervisorInput) (other : ∀ spec, ¬input.Requests id spec) :
    Quelled id (system.supervised codecs around input).1.supervisor ∧
      ∀ effect ∈ (system.supervised codecs around input).2, ¬effect.spawns id := by
  have after := (supervise_runs codecs system.supervisor around input).quelled other quelled
    fun _ none => absurd none not_mem_nil
  refine ⟨after.1, fun _ acted => ?_⟩
  obtain ⟨done, did, rfl⟩ := mem_map.mp acted
  exact after.2 done did

theorem not_requests_process (event : ProcessEvent) (spec : LaunchSpec) :
    ¬(SupervisorInput.process event).Requests id spec := by
  rintro (⟨_, ⟨⟩⟩ | ⟨_, _, _, ⟨⟩⟩ | ⟨_, ⟨⟩⟩)

theorem Idle.step (idle : Idle id system) (codecs : Codecs) (input : SystemInput)
    (none : ∀ permit, .permitted permit ∈ (system.step codecs input).2 → permit.id ≠ id) :
    Idle id (system.step codecs input).1 ∧
      ∀ effect ∈ (system.step codecs input).2, ¬effect.spawns id := by
  have steps := System.stepped codecs system input
  generalize system.step codecs input = after at steps none ⊢
  cases steps with
  | stay => exact ⟨idle, fun _ none => absurd none not_mem_nil⟩
  | serve serves =>
    have unasked := serves.unasked (fun permit held => none permit (mem_map_of_mem held))
      idle.unasked
    refine ⟨⟨idle.quelled, unasked⟩, fun _ done => ?_⟩
    obtain ⟨_, -, rfl⟩ := mem_map.mp done
    exact fun spawns => spawns.elim
  | observe =>
    exact ⟨⟨idle.quelled, idle.unasked⟩, fun _ none => absurd none not_mem_nil⟩
  | command named first running =>
    rename_i around command commands
    have unasked := idle.unasked
    rw [first] at unasked
    have rest : Quelled id ({ system with commands } : System).supervisor := idle.quelled
    have after := rest.supervised codecs around (.command command) (unasked command (.head _))
    exact ⟨⟨after.1, fun other member => unasked other (.tail _ member)⟩, after.2⟩
  | process named =>
    rename_i around event
    have after := idle.quelled.supervised codecs around (.process event)
      (not_requests_process event)
    exact ⟨⟨after.1, idle.unasked⟩, after.2⟩

theorem AwaitsStop.take {command : ManagerCommand} {commands : List ManagerCommand}
    (awaits : AwaitsStop id (command :: commands)) :
    command = .stopPlugin id ∧ Unasked id commands ∨ AwaitsStop id commands := by
  obtain ⟨earlier, later, waits, none⟩ := awaits
  cases earlier with
  | nil =>
    rw [nil_append, cons.injEq] at waits
    exact .inl ⟨waits.1, waits.2 ▸ none⟩
  | cons _ earlier =>
    rw [cons_append, cons.injEq] at waits
    exact .inr ⟨earlier, later, waits.2, none⟩

theorem quelled_stopPlugin (around : Surroundings) {state : State}
    (running : state.stopping = false) :
    Quelled id (supervise codecs state (around, .command (.stopPlugin id))).1 := by
  unfold supervise
  rw [if_neg (by simp [running])]
  exact (Supervising.Leaves.mono (Supervising.leaves_stopPlugin id state []) fun _ after =>
    ⟨Supervising.noProcess_of_lookup after.2, after.1⟩).stateAfter

theorem Withdrawn.step (withdrawn : Withdrawn id system) (codecs : Codecs) (input : SystemInput)
    (none : ∀ permit, .permitted permit ∈ (system.step codecs input).2 → permit.id ≠ id) :
    Withdrawn id (system.step codecs input).1 := by
  rcases withdrawn with idle | awaits
  · exact .inl (idle.step codecs input none).1
  · have steps := System.stepped codecs system input
    generalize system.step codecs input = after at steps none ⊢
    cases steps with
    | stay => exact .inr awaits
    | serve serves =>
      exact .inr (serves.awaitsStop (fun permit held => none permit (mem_map_of_mem held)) awaits)
    | observe => exact .inr awaits
    | command _ first running =>
      rw [first] at awaits
      rcases awaits.take with ⟨rfl, unasked⟩ | later
      · exact .inl ⟨quelled_stopPlugin _ running, unasked⟩
      · exact .inr later
    | process => exact .inr awaits

/-- No launch of the plugin was allowed. -/
def Unpermitted (id : String) (effects : List SystemEffect) : Prop :=
  ∀ permit, .permitted permit ∈ effects → permit.id ≠ id

theorem Withdrawn.outcome (withdrawn : Withdrawn id system) (inputs : List SystemInput)
    (none : Unpermitted id (outcome (System.step codecs) system inputs).2) :
    Withdrawn id (StateMachine.outcome (System.step codecs) system inputs).1 := by
  induction inputs generalizing system with
  | nil => exact withdrawn
  | cons input _ ih =>
    have next := withdrawn.step codecs input fun permit allowed =>
      none permit (mem_append_left _ allowed)
    exact ih next fun permit allowed => none permit (mem_append_right _ allowed)

theorem Idle.outcome (idle : Idle id system) (inputs : List SystemInput)
    (none : Unpermitted id (outcome (System.step codecs) system inputs).2) :
    Idle id (StateMachine.outcome (System.step codecs) system inputs).1 ∧
      ∀ effect ∈ (StateMachine.outcome (System.step codecs) system inputs).2,
        ¬effect.spawns id := by
  induction inputs generalizing system with
  | nil => exact ⟨idle, fun _ none => absurd none not_mem_nil⟩
  | cons input _ ih =>
    have next := idle.step codecs input fun permit allowed =>
      none permit (mem_append_left _ allowed)
    have rest := ih next.1 fun permit allowed => none permit (mem_append_right _ allowed)
    exact ⟨rest.1, forall_mem_append.mpr ⟨next.2, rest.2⟩⟩

end Steps

/-- A successful request after which the plugin should not run. -/
def Withdraws (outside : Outside) (registry : Registry) (id : String) : PluginRequest → Prop
  | .setPluginEnabled other enabled =>
    other = id ∧ enabled = false ∧ (registry.setEnabled id false).isSome
  | .revokePluginApproval other => other = id ∧ (registry.revoke outside id).isOk
  | .uninstallPlugin other => other = id ∧
    (registry.isInstalledPackage id ∧ registry.store.isSome) ∧
    (outside.uninstalls id).isOk ∧ (registry.forget outside id).isOk
  | .restartPlugin _ | .setPluginSetting .. | .openPluginSettings .. | .installPlugin
  | .updatePlugin _ | .approvePlugin .. | .setPluginRolePreference .. => False

/-- The channel takes one more command, or will in time. -/
def HasRoom (outside : Outside) (service : Service) : Prop :=
  service.commands.length < channelCapacity ∨ outside.makesRoom service.commands.length = true

section Requests

variable {id : String} {outside : Outside} {system : System} {service : Service}

open Handler (task update emit)

theorem Withdrawn.serves {before after : Service × List Permit}
    (withdrawn : Withdrawn id { system with toService := before.1 })
    (serves : Serves outside before after) (none : ∀ permit ∈ after.2, permit.id ≠ id) :
    Withdrawn id { system with toService := after.1 } :=
  withdrawn.imp (fun idle => ⟨idle.quelled, serves.unasked none idle.unasked⟩)
    fun awaits => serves.awaitsStop none awaits

def WithdrawnUnlessAllowed (id : String) (system : System) (after : Service × List Permit) : Prop :=
  (∀ permit ∈ after.2, permit.id ≠ id) → Withdrawn id { system with toService := after.1 }

theorem send_withdraws (same : service.commands = system.commands)
    (timely : HasRoom outside service ∨ Withdrawn id system) :
    (sendPluginCommand outside (.stopPlugin id)).Ensures (service, [])
      (fun _ after => Withdrawn id { system with toService := after.1 }) fun _ _ => False := by
  rw [sendPluginCommand, ensures_update]
  split
  · exact .inr ⟨service.commands, [], rfl, fun _ none => absurd none not_mem_nil⟩
  · rename_i full
    exact (timely.resolve_left full).congr same rfl

variable {before : Service × List Permit} {registry : Registry}

theorem along_withdraws {rest : Serving Unit} (along : rest.Along (Serves outside))
    (withdrawn : Withdrawn id { system with toService := before.1 }) :
    rest.Ensures before (fun _ => WithdrawnUnlessAllowed id system)
      fun _ => WithdrawnUnlessAllowed id system :=
  (along before).mono (fun _ _ serves none => withdrawn.serves serves none)
    fun _ _ serves none => withdrawn.serves serves none

theorem request_withdraws {request : PluginRequest}
    (withdraws : Withdraws outside system.registry id request)
    (timely : HasRoom outside system.toService ∨ Withdrawn id system) :
    (handleRequest outside request).Ensures (system.toService, [])
      (fun _ => WithdrawnUnlessAllowed id system) fun _ => WithdrawnUnlessAllowed id system := by
  cases request with
  | setPluginEnabled _ enabled =>
    obtain ⟨rfl, rfl, known⟩ := withdraws
    obtain ⟨_, enabled⟩ := Option.isSome_iff_exists.mp known
    rw [handleRequest, setPluginEnabled, ensures_bind, ensures_task]
    rw [enabled]
    simp only [know, Bool.not_false, if_true, ensures_bind, ensures_update]
    refine Handler.Ensures.mono (send_withdraws rfl timely) ?_ fun _ _ => elim
    exact fun _ _ withdrawn => along_withdraws serves_reconcilePlugins withdrawn
  | revokePluginApproval =>
    obtain ⟨rfl, -⟩ := withdraws
    rw [handleRequest, revokePluginApproval, ensures_bind]
    refine Handler.Ensures.mono (send_withdraws rfl timely) ?_ fun _ _ => elim
    exact fun _ _ withdrawn => along_withdraws
      (.bind (serves_shown (serves_attempt _)) fun _ =>
        serves_reconcilePlugins) withdrawn
  | uninstallPlugin other =>
    obtain ⟨rfl, installed, removed, -⟩ := withdraws
    rw [handleRequest, uninstallPlugin, ensures_bind, ensures_task]
    rw [if_pos installed, ensures_bind, shown, ensures_recover, ensures_bind]
    refine Handler.Ensures.mono (send_withdraws rfl timely) ?_ fun _ _ => elim
    intro _ after withdrawn
    have onward : ∀ between, Serves outside after between →
        (reconcilePlugins outside).Ensures between (fun _ => WithdrawnUnlessAllowed other system)
          fun _ => WithdrawnUnlessAllowed other system := by
      intro between serves
      exact (serves_reconcilePlugins between).mono
        (fun _ _ further => withdrawn.serves (serves.trans further))
        fun _ _ further => withdrawn.serves (serves.trans further)
    cases gone : outside.uninstalls other with
    | error =>
      rw [gone] at removed
      cases removed
    | ok =>
      have rest : (do
          attempt (·.forget outside other)
          know (·.rediscover outside) : Serving Unit).Along (Serves outside) :=
        .bind (serves_attempt _) fun _ => serves_know _
      exact (rest after).mono (fun _ => onward) fun _ => onward
  | _ => exact withdraws.elim

theorem Withdrawn.request {codecs : Codecs} {request : PluginRequest}
    (withdraws : Withdraws outside system.registry id request)
    (timely : HasRoom outside system.toService ∨ Withdrawn id system)
    (none : Unpermitted id (system.step codecs (.request outside request)).2) :
    Withdrawn id (system.step codecs (.request outside request)).1 :=
  (request_withdraws withdraws timely).stateAfter fun permit held =>
    none permit (mem_map_of_mem held)

/-- A part of the service launches only what the registry plans. -/
structure Decides (outside : Outside) (before after : Service × List Permit) : Prop where
  registry : after.1.registry = before.1.registry
  permits : ∀ permit ∈ after.2, permit ∈ before.2 ∨
    permit.Planned ∧ permit.registry = before.1.registry

instance : Std.Refl (Decides outside) where
  refl _ := ⟨rfl, fun _ => .inl⟩

instance : IsTrans (Service × List Permit) (Decides outside) where
  trans _ _ _ first second := by
    refine ⟨second.registry.trans first.registry, fun permit held => ?_⟩
    rcases second.permits permit held with old | ⟨planned, same⟩
    · exact first.permits permit old
    · exact .inr ⟨planned, same.trans first.registry⟩

theorem decides_send (command : ManagerCommand) :
    (sendPluginCommand outside command).Along (Decides outside) := by
  rintro ⟨_, _⟩
  exact sendPluginCommand_ensures ⟨rfl, fun _ => .inl⟩ ⟨rfl, fun _ => .inl⟩

theorem decides_startResidentPlugin (id : String) (role : Option PluginRole) (restart : Bool) :
    (startResidentPlugin outside id role restart).Along (Decides outside) := by
  rintro ⟨service, permits⟩
  rw [startResidentPlugin, ensures_bind, ensures_task]
  cases planned : service.registry.launchPlan outside id role with
  | error => exact refl_of (Decides outside) _
  | ok plan =>
    have allowed : Decides outside (service, permits)
        (service, permits ++ [⟨outside, service.registry, id, role, plan⟩]) := by
      refine ⟨rfl, forall_mem_append.mpr ⟨fun _ => .inl, forall_mem_singleton.mpr ?_⟩⟩
      exact .inr ⟨planned, rfl⟩
    have rest : (do
        if restart then
          sendPluginCommand outside (.stopPlugin id)
        sendPluginCommand outside (.startPlugin id plan.spec plan.settings) :
          Serving Unit).Along (Decides outside) :=
      .ite (.bind (decides_send _) fun _ => decides_send _) (decides_send _)
    exact rest.onward allowed

theorem decides_reconcilePlugins : (reconcilePlugins outside).Along (Decides outside) := by
  refine .bind .task fun _ => .bind (.each fun _ => ?_) fun _ => .each fun _ => ?_
  · exact .ite (decides_send _) (.pure _)
  · exact .ite (decides_startResidentPlugin _ _ _) (.pure _)

/-- What is found under this name came with the daemon. -/
def NowBundled (registry : Registry) (id : String) : Prop :=
  ∃ plugin, registry.find id = some plugin ∧ plugin.origin = .bundled

theorem nowBundled_of_planned {permit : Permit} (planned : permit.Planned)
    (withdrawn : permit.registry.trust.approved.lookup permit.id = none) :
    NowBundled permit.registry permit.id := by
  obtain ⟨plugin, cleared⟩ := cleared_of_launchPlan planned
  refine ⟨plugin, cleared.found, ?_⟩
  by_contra foreign
  have approved := (cleared.approved foreign).1
  rw [withdrawn] at approved
  cases approved

theorem Registry.isEnabled_of_setEnabled {later : Registry}
    (switched : registry.setEnabled id false = some later) : later.isEnabled id = false := by
  unfold setEnabled at switched
  split at switched
  · cases switched
  · cases switched
    unfold isEnabled
    split
    · rfl
    · simp

theorem Registry.approved_of_revoke {later : Registry}
    (revoked : registry.revoke outside id = .ok later) :
    later.trust.approved.lookup id = none ∧ later.plugins = registry.plugins := by
  unfold revoke TrustStore.revoke TrustStore.commit at revoked
  split at revoked
  · cases revoked
  · cases saved : outside.saves with
    | error =>
      rw [saved] at revoked
      cases revoked
    | ok =>
      rw [saved] at revoked
      cases revoked
      exact ⟨lookup_erase _ _, rfl⟩

theorem Registry.approved_of_forget {later : Registry}
    (forgotten : registry.forget outside id = .ok later) :
    later.trust.approved.lookup id = none := by
  unfold forget TrustStore.forget TrustStore.commit at forgotten
  dsimp only at forgotten
  split at forgotten
  · rename_i absent
    cases forgotten
    exact lookup_eq_none.mpr absent.1
  · cases saved : outside.saves with
    | error =>
      rw [saved] at forgotten
      cases forgotten
    | ok =>
      rw [saved] at forgotten
      cases forgotten
      exact lookup_erase _ _

theorem reconcile_allows {holds : Permit → Prop}
    (same : before.1.registry = registry ∧ before.2 = [])
    (planned : ∀ permit : Permit, permit.Planned → permit.registry = registry → permit.id = id →
      holds permit) :
    (reconcilePlugins outside).Attains before
      fun after => ∀ permit ∈ after.2, permit.id = id → holds permit := by
  have decided {after : Service × List Permit} (decides : Decides outside before after) :
      ∀ permit ∈ after.2, permit.id = id → holds permit := by
    intro permit held
    rcases decides.permits permit held with old | ⟨allowed, decidedOn⟩
    · rw [same.2] at old
      exact absurd old not_mem_nil
    · exact planned permit allowed (decidedOn.trans same.1)
  exact (decides_reconcilePlugins before).mono (fun _ _ => decided) fun _ _ => decided

theorem send_keeps {permits : List Permit} (same : service.registry = registry)
    (command : ManagerCommand) :
    (sendPluginCommand outside command).Ensures (service, permits)
      (fun _ after => after.1.registry = registry ∧ after.2 = permits) fun _ _ => False := by
  rw [sendPluginCommand, ensures_update]
  split
  · exact ⟨same, rfl⟩
  · exact ⟨same, rfl⟩

/-- What is left for a request to allow: only a bundled plugin, as it was found before or, when a
package was removed, as it is found then. -/
def Leftover (service : Service) (request : PluginRequest) (id : String) (permit : Permit) : Prop :=
  NowBundled permit.registry id ∧
    (request ≠ .uninstallPlugin id → permit.registry.plugins = service.registry.plugins)

theorem request_allows {request : PluginRequest}
    (withdraws : Withdraws outside service.registry id request) :
    (handleRequest outside request).Attains (service, [])
      fun after => ∀ permit ∈ after.2, permit.id = id → Leftover service request id permit := by
  unfold Handler.Attains
  cases request with
  | setPluginEnabled _ enabled =>
    obtain ⟨rfl, rfl, known⟩ := withdraws
    obtain ⟨registry, switched⟩ := Option.isSome_iff_exists.mp known
    rw [handleRequest, setPluginEnabled, ensures_bind, ensures_task]
    rw [switched]
    simp only [know, Bool.not_false, if_true, ensures_bind, ensures_update]
    refine Handler.Ensures.mono (send_keeps rfl _) ?_ fun _ _ => elim
    rintro _ after same
    refine reconcile_allows same fun permit planned decidedOn named => ?_
    obtain ⟨_, cleared⟩ := cleared_of_launchPlan planned
    have enabled := cleared.enabled
    rw [decidedOn, named, isEnabled_of_setEnabled switched] at enabled
    cases enabled
  | revokePluginApproval other =>
    obtain ⟨rfl, done⟩ := withdraws
    cases revoked : service.registry.revoke outside other with
    | error =>
      rw [revoked] at done
      cases done
    | ok =>
      rw [handleRequest, revokePluginApproval, ensures_bind]
      refine Handler.Ensures.mono (send_keeps rfl _) ?_ fun _ _ => elim
      rintro _ ⟨after, permits⟩ ⟨same, none⟩
      dsimp only at same none
      simp only [shown, attempt, ensures_bind, ensures_recover,
        ensures_task, same, revoked, know, ensures_update]
      obtain ⟨unapproved, found⟩ := approved_of_revoke revoked
      refine reconcile_allows ⟨rfl, none⟩ fun permit planned decidedOn named => ⟨?_, fun _ => ?_⟩
      · rw [← named] at unapproved ⊢
        exact nowBundled_of_planned planned (decidedOn ▸ unapproved)
      · rw [decidedOn, found]
  | uninstallPlugin other =>
    obtain ⟨rfl, installed, removed, done⟩ := withdraws
    cases gone : outside.uninstalls other with
    | error =>
      rw [gone] at removed
      cases removed
    | ok =>
      cases forgotten : service.registry.forget outside other with
      | error =>
        rw [forgotten] at done
        cases done
      | ok =>
        rw [handleRequest, uninstallPlugin, ensures_bind, ensures_task]
        rw [if_pos installed, ensures_bind, shown, ensures_recover, ensures_bind]
        refine Handler.Ensures.mono (send_keeps rfl _) ?_ fun _ _ => elim
        rintro _ ⟨_, _⟩ ⟨same, none⟩
        dsimp only at same none
        simp only [gone, attempt, ensures_bind, ensures_task, same, forgotten, know, ensures_update]
        have unapproved := approved_of_forget forgotten
        refine reconcile_allows ⟨rfl, none⟩ fun _ planned decidedOn named =>
          ⟨?_, fun other => absurd rfl other⟩
        rw [← named] at unapproved ⊢
        exact nowBundled_of_planned planned (decidedOn ▸ unapproved)
  | _ => exact withdraws.elim

end Requests

/-- Whenever a third-party plugin is withdrawn while the channel takes the stop or none is needed,
the request itself allows no launch of it, but perhaps of a bundled plugin that its package had
replaced, and once the supervisor has taken all commands no process of it is live and none is
started until a launch is allowed. -/
theorem withdrawn_of_room (codecs : Codecs) (first : Outside) (registry : Registry)
    (earlier later last : List SystemInput) (outside : Outside) (request : PluginRequest)
    (id : String) (plugin : Discovered) :
    let before := (System.run codecs first registry earlier).1
    let after := before.step codecs (.request outside request)
    let drained := outcome (System.step codecs) after.1 later
    let reached := outcome (System.step codecs) drained.1 last
    Withdraws outside before.registry id request →
    before.registry.find id = some plugin → plugin.origin ≠ .bundled →
    HasRoom outside before.toService ∨ Withdrawn id before →
    (∀ permit, .permitted permit ∈ after.2 → permit.id = id →
      request = .uninstallPlugin id ∧ NowBundled permit.registry id) ∧
    (Unpermitted id (after.2 ++ drained.2 ++ reached.2) → drained.1.commands = [] →
      NoProcess id reached.1.supervisor ∧ ∀ effect ∈ reached.2, ¬effect.spawns id) := by
  intro before after drained _ withdraws found foreign timely
  constructor
  · intro permit allowed named
    obtain ⟨same, held, equal⟩ := List.mem_map.mp allowed
    cases equal
    obtain ⟨⟨current, finds, bundled⟩, kept⟩ :=
      (request_allows withdraws).stateAfter permit held named
    refine ⟨?_, current, finds, bundled⟩
    by_contra other
    have same : permit.registry.find id = before.registry.find id := by
      rw [Registry.find, kept other]
      rfl
    rw [same, found] at finds
    cases finds
    exact foreign bundled
  · intro none empty
    have withdrawn : Withdrawn id after.1 :=
      .request withdraws timely fun permit allowed =>
        none permit (List.mem_append_left _ (List.mem_append_left _ allowed))
    have idle : Idle id drained.1 := (withdrawn.outcome later fun permit allowed =>
      none permit (List.mem_append_left _ (List.mem_append_right _ allowed))).idle empty
    have further := idle.outcome last fun permit allowed =>
      none permit (List.mem_append_right _ allowed)
    exact ⟨further.1.quelled.1, further.2⟩

namespace Window

def opened : List SystemInput := asked ++ [.command around]

def crowded : List SystemInput :=
  opened ++ List.replicate channelCapacity
    (.request outside (.setPluginSetting "window" "color" "#fff"))

def drain : List SystemInput := List.replicate channelCapacity (.command around)

def revoke : PluginRequest := .revokePluginApproval "window"

end Window

def SystemEffect.isActed : SystemEffect → Bool
  | .acted _ => true
  | .permitted _ => false

theorem unpermitted_of_acted {id : String} {effects : List SystemEffect}
    (acted : effects.all SystemEffect.isActed = true) : Unpermitted id effects := by
  intro _ allowed
  have other := all_eq_true.mp acted _ allowed
  cases other

theorem withdrawn_of_room_window :
    let after := (System.run Window.codecs Window.outside Window.registry Window.opened).1.step
      Window.codecs (.request Window.outside Window.revoke)
    NoProcess "window"
      (outcome (System.step Window.codecs) after.1 [.command Window.around]).1.supervisor := by
  have settled := withdrawn_of_room Window.codecs Window.outside Window.registry Window.opened
    [.command Window.around] [] Window.outside Window.revoke "window" Window.plugin
    ⟨rfl, by decide +kernel⟩ (by decide +kernel) (by decide) (.inl (.inl (by decide +kernel)))
  exact (settled.2 (unpermitted_of_acted (by decide +kernel)) (by decide +kernel)).1

/-- When the channel is full, the stop is lost and the plugin goes on although its approval was
withdrawn. -/
theorem not_withdrawn_of_full : ¬∀ codecs first registry earlier later outside request id plugin,
    let before := (System.run codecs first registry earlier).1
    let after := before.step codecs (.request outside request)
    let drained := outcome (System.step codecs) after.1 later
    Withdraws outside before.registry id request →
    before.registry.find id = some plugin → plugin.origin ≠ .bundled →
    Unpermitted id (after.2 ++ drained.2) → drained.1.commands = [] →
      NoProcess id drained.1.supervisor := by
  intro stops
  have gone := stops Window.codecs Window.outside Window.registry Window.crowded Window.drain
    Window.outside Window.revoke "window" Window.plugin ⟨rfl, by decide +kernel⟩
    (by decide +kernel) (by decide) (unpermitted_of_acted (by decide +kernel)) (by decide +kernel)
  refine gone (.settings "window") ?_ rfl
  decide +kernel

end Syntra.Plugins
