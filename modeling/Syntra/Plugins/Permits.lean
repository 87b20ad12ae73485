import Syntra.Plugins.Moves
import Syntra.Plugins.Service

/-!
# The moves of the service

Whatever the service does about plugins is made of few moves: it learns something, sends a message
or a stop, allows a launch, or sends a command that starts a process as it was allowed before. A
command that finds the channel full is lost.
-/

namespace Syntra.Plugins

open StateMachine Handler Serving List

def Permit.Planned (permit : Permit) : Prop :=
  permit.registry.launchPlan permit.outside permit.id permit.role = .ok permit.plan

/-- The command starts a process of the plugin, in this way. -/
def ManagerCommand.Requests (command : ManagerCommand) (id : String) (spec : LaunchSpec) : Prop :=
  (SupervisorInput.command command).Requests id spec

variable {command : ManagerCommand}

theorem ManagerCommand.Requests.unique {id other : String} {spec further : LaunchSpec}
    (requests : command.Requests id spec) (also : command.Requests other further) :
    other = id ∧ further = spec := by
  rcases requests with ⟨_, same⟩ | ⟨_, _, _, same⟩ | ⟨_, same⟩
  all_goals
    rw [SupervisorInput.command.injEq] at same
    subst same
    rcases also with ⟨_, ⟨⟩⟩ | ⟨_, _, _, ⟨⟩⟩ | ⟨_, ⟨⟩⟩
    exact ⟨rfl, rfl⟩

theorem not_requests_of_isMail (mail : command.isMail = true) (id : String) (spec : LaunchSpec) :
    ¬command.Requests id spec := by
  rintro (⟨_, same⟩ | ⟨_, _, _, same⟩ | ⟨_, same⟩)
  all_goals
    cases same
    cases mail

theorem not_requests_stopPlugin (stopped id : String) (spec : LaunchSpec) :
    ¬(ManagerCommand.stopPlugin stopped).Requests id spec := by
  rintro (⟨_, ⟨⟩⟩ | ⟨_, _, _, ⟨⟩⟩ | ⟨_, ⟨⟩⟩)

/-- One move of the service about plugins. -/
inductive ServiceMove (outside : Outside) :
    Service × List Permit → Service × List Permit → Prop
  | know {service : Service} {permits : List Permit} (registry : Registry) :
      ServiceMove outside (service, permits) ({ service with registry }, permits)
  | send {service : Service} {permits : List Permit} {command : ManagerCommand}
      (mail : command.isMail = true) :
      ServiceMove outside (service, permits)
        ({ service with commands := service.commands ++ [command] }, permits)
  | stop {service : Service} {permits : List Permit} (id : String) :
      ServiceMove outside (service, permits)
        ({ service with commands := service.commands ++ [.stopPlugin id] }, permits)
  | allow {service : Service} {permits : List Permit} {id : String} {role : Option PluginRole}
      {plan : LaunchPlan} (planned : service.registry.launchPlan outside id role = .ok plan) :
      ServiceMove outside (service, permits)
        (service, permits ++ [⟨outside, service.registry, id, role, plan⟩])
  | start {service : Service} {permits : List Permit} {permit : Permit} {command : ManagerCommand}
      (allowed : permit ∈ permits) (requests : command.Requests permit.id permit.plan.spec) :
      ServiceMove outside (service, permits)
        ({ service with commands := service.commands ++ [command] }, permits)

/-- A sequence of moves of the service. -/
def Serves (outside : Outside) : Service × List Permit → Service × List Permit → Prop :=
  Relation.ReflTransGen (ServiceMove outside)

variable {outside : Outside}

instance : Std.Refl (Serves outside) where
  refl _ := .refl

instance : IsTrans (Service × List Permit) (Serves outside) where
  trans _ _ _ first second := Relation.ReflTransGen.trans first second

theorem Serves.permits_subset {before after : Service × List Permit}
    (serves : Serves outside before after) : before.2 ⊆ after.2 := by
  induction serves with
  | refl => exact Subset.refl _
  | tail _ move ih =>
    cases move with
    | allow => exact fun _ held => mem_append_left _ (ih held)
    | know | send | stop | start => exact ih

namespace Serving

variable {start : Service × List Permit} {service : Service} {permits : List Permit}

theorem serves_know (change : Registry → Registry) : (know change).Along (Serves outside) :=
  .update fun service _ => .single (.know (change service.registry))

theorem sendPluginCommand_ensures {holds : Service × List Permit → Prop}
    (sent : holds ({ service with commands := service.commands ++ [command] }, permits))
    (lost : holds (service, permits)) :
    (sendPluginCommand outside command).Attains (service, permits) holds := by
  rw [Attains, sendPluginCommand, ensures_update]
  split
  · exact sent
  · exact lost

variable {command : ManagerCommand}

theorem serves_send (mail : command.isMail = true) :
    (sendPluginCommand outside command).Along (Serves outside) := by
  rintro ⟨_, _⟩
  exact sendPluginCommand_ensures (.single (.send mail)) .refl

theorem serves_launch {id : String} {role : Option PluginRole} {plan : LaunchPlan}
    (planned : service.registry.launchPlan outside id role = .ok plan)
    (requests : command.Requests id plan.spec) :
    (do
      emit ⟨outside, service.registry, id, role, plan⟩
      sendPluginCommand outside command : Serving Unit).Attains (service, permits)
        (Serves outside (service, permits)) := by
  have allowed : Serves outside (service, permits)
      (service, permits ++ [⟨outside, service.registry, id, role, plan⟩]) :=
    .single (.allow planned)
  exact sendPluginCommand_ensures
    (allowed.tail (.start (mem_append_right _ (mem_singleton_self _)) requests)) allowed

variable (id : String)

theorem serves_stopPlugin :
    (sendPluginCommand outside (.stopPlugin id)).Along (Serves outside) := by
  rintro ⟨_, _⟩
  exact sendPluginCommand_ensures (.single (.stop id)) .refl

theorem serves_startResidentPlugin (role : Option PluginRole) (restart : Bool) :
    (startResidentPlugin outside id role restart).Along (Serves outside) := by
  rintro ⟨service, permits⟩
  rw [startResidentPlugin, ensures_bind, ensures_task]
  cases planned : service.registry.launchPlan outside id role with
  | error => exact .refl
  | ok plan =>
    have requests : (ManagerCommand.startPlugin id plan.spec plan.settings).Requests id plan.spec :=
      .inl ⟨plan.settings, rfl⟩
    cases restart with
    | false => exact serves_launch planned requests
    | true =>
      simp only [if_true, ensures_bind, ensures_emit]
      have allowed : Serves outside (service, permits)
          (service, permits ++ [⟨outside, service.registry, id, role, plan⟩]) :=
        .single (.allow planned)
      refine (serves_stopPlugin id _).mono ?_ fun _ _ stopped => allowed.trans stopped
      rintro _ ⟨_, _⟩ stopped
      have reached := allowed.trans stopped
      have kept := stopped.permits_subset (mem_append_right _ (mem_singleton_self _))
      exact sendPluginCommand_ensures (reached.tail (.start kept requests)) reached

theorem serves_reconcilePlugins : (reconcilePlugins outside).Along (Serves outside) := by
  refine .bind .task fun _ => .bind (.each fun id => ?_) fun _ => .each fun _ => ?_
  · exact .ite (serves_stopPlugin id) (.pure _)
  · exact .ite (serves_startResidentPlugin _ _ _) (.pure _)

theorem serves_startResidents : (startResidents outside).Along (Serves outside) :=
  .bind .task fun _ => .each fun _ => serves_startResidentPlugin _ _ _

theorem serves_startMountedReceive (transferId : String) (operation : Clipboard.Operation)
    (entries : List Clipboard.RemoteEntry) :
    (startMountedReceive outside transferId operation entries).Along (Serves outside) := by
  rintro ⟨_, _⟩
  rw [startMountedReceive, ensures_bind, ensures_task]
  split
  · exact .refl
  · rename_i provider active
    split
    · exact .refl
    · rename_i plan planned
      exact serves_launch planned (.inr (.inl ⟨transferId, operation, entries, rfl⟩))

theorem serves_attempt (change : Registry → Except String Registry) :
    (attempt change).Along (Serves outside) := by
  refine .bind .task fun _ => ?_
  split
  · exact .stop _
  · exact serves_know _

theorem serves_shown {action : Serving Unit} (along : action.Along (Serves outside)) :
    (shown action).Along (Serves outside) :=
  .recover along fun _ => .pure _

theorem serves_setPluginSetting (id key value : String) :
    (setPluginSetting outside id key value).Along (Serves outside) := by
  exact .bind .task fun _ => .ite (.bind (serves_know _) fun _ => serves_send rfl)
    (.bind (serves_know _) fun _ => .ite (serves_send rfl) (.pure _))

theorem serves_openPluginSettings (theme : List (String × String)) :
    (openPluginSettings outside id theme).Along (Serves outside) := by
  rintro ⟨_, _⟩
  refine ensures_ite.mpr ⟨fun _ => .refl, fun _ => ensures_ite.mpr
    ⟨fun _ => serves_send rfl _, fun _ => ?_⟩⟩
  split
  · exact .refl
  · rename_i plan planned
    exact serves_launch planned (.inr (.inr ⟨theme, rfl⟩))

theorem serves_uninstallPlugin : (uninstallPlugin outside id).Along (Serves outside) := by
  refine .bind .task fun _ => .ite (.bind (serves_shown ?_) fun _ => serves_reconcilePlugins)
    serves_reconcilePlugins
  refine .bind (serves_stopPlugin id) fun _ => ?_
  have rest : (do
      attempt (·.forget outside id)
      know (·.rediscover outside) : Serving Unit).Along (Serves outside) :=
    .bind (serves_attempt _) fun _ => serves_know _
  split
  · exact .bind (.stop _) fun _ => rest
  · exact rest

theorem serves_handleRequest (request : PluginRequest) :
    (handleRequest outside request).Along (Serves outside) := by
  cases request with
  | setPluginEnabled id =>
    refine .bind .task fun service => ?_
    split
    · exact .pure _
    · exact .bind (serves_know _) fun _ =>
        .ite (.bind (serves_stopPlugin id) fun _ => serves_reconcilePlugins) serves_reconcilePlugins
  | restartPlugin =>
    exact .bind .task fun service => .ite (.bind (serves_know _) fun _ =>
      .bind .task fun service => serves_startResidentPlugin _ _ _) (.pure _)
  | setPluginSetting id key value => exact serves_setPluginSetting id key value
  | openPluginSettings id theme => exact serves_openPluginSettings id theme
  | installPlugin => exact .pure _
  | updatePlugin id => exact .bind .task fun _ => .ite (serves_stopPlugin id) (.pure _)
  | approvePlugin =>
    exact .bind (serves_shown (serves_attempt _)) fun _ => serves_reconcilePlugins
  | revokePluginApproval id =>
    exact .bind (serves_stopPlugin id) fun _ =>
      .bind (serves_shown (serves_attempt _)) fun _ => serves_reconcilePlugins
  | uninstallPlugin id => exact serves_uninstallPlugin id
  | setPluginRolePreference =>
    exact .bind (serves_shown (serves_attempt _)) fun _ => serves_reconcilePlugins

theorem serves_finishInstall (result : Except String Unit) :
    (finishInstall outside result).Along (Serves outside) :=
  .ite (.bind (serves_know _) fun _ => serves_reconcilePlugins) serves_reconcilePlugins

end Serving

namespace System

theorem start_of_none {registry : Registry}
    (none : registry.unobserved.residentPlugins outside = []) :
    start outside registry = (idle registry.unobserved, []) := by
  have quiet : (startResidents outside).Attains ((idle registry.unobserved).toService, [])
      fun after => after = ((idle registry.unobserved).toService, []) := by
    rw [Attains, startResidents, ensures_bind, ensures_task]
    simp only [idle, none, each, ensures_pure]
  simp only [start, serve, Ensures.stateAfter quiet]
  rfl

/-- What comes out of a step: the service makes moves or takes up an event, or the supervisor takes
a command or what comes from a process. There may be nothing to take. -/
inductive Stepped (codecs : Codecs) (system : System) (input : SystemInput) :
    System × List SystemEffect → Prop
  | stay : Stepped codecs system input (system, [])
  | serve {outside : Outside} {after : Service × List Permit}
      (serves : Serves outside (system.toService, []) after) :
      Stepped codecs system input ({ system with toService := after.1 }, after.2.map .permitted)
  | observe {event : ManagerEvent} {events : List ManagerEvent}
      (first : system.events = event :: events) :
      Stepped codecs system input
        ({ system with registry := Serving.observe event system.registry, events }, [])
  | command {around : Surroundings} {command : ManagerCommand} {commands : List ManagerCommand}
      (named : input = .command around) (first : system.commands = command :: commands)
      (running : system.supervisor.stopping = false) :
      Stepped codecs system input
        ({ system with commands }.supervised codecs around (.command command))
  | process {around : Surroundings} {event : ProcessEvent} (named : input = .process around event) :
      Stepped codecs system input (system.supervised codecs around (.process event))

theorem stepped_serve {codecs : Codecs} {system : System} {input : SystemInput}
    {serving : Serving Unit} (along : serving.Along (Serves outside)) :
    Stepped codecs system input (system.serve serving) :=
  .serve (Ensures.stateAfter (along (system.toService, [])))

theorem stepped (codecs : Codecs) (system : System) (input : SystemInput) :
    Stepped codecs system input (system.step codecs input) := by
  cases input with
  | request _ request => exact stepped_serve (serves_handleRequest request)
  | installed _ result => exact stepped_serve (serves_finishInstall result)
  | mountedReceive _ transferId operation entries =>
    exact stepped_serve (serves_startMountedReceive transferId operation entries)
  | mail =>
    rw [step]
    split
    · rename_i mail
      exact stepped_serve (serves_send mail)
    · exact .stay
  | event =>
    unfold step
    cases first : system.events with
    | nil => exact .stay
    | cons => exact .observe first
  | command =>
    unfold step
    cases first : system.commands with
    | nil => exact .stay
    | cons =>
      dsimp only
      split
      · exact .stay
      · rename_i running
        exact .command rfl first (by simpa using running)
  | process => exact .process rfl

end System

end Syntra.Plugins
