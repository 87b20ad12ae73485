import Syntra.Plugins.Reconciliation

/-!
# Convergence

Once the supervisor has taken all commands, the resident processes that run are those that should,
provided that the last change was made while the service had seen what matters of the processes, and
that nothing was restarted or updated since that should not.
-/

namespace Syntra.Plugins

open StateMachine Tables Serving Handler List
open Handler.Ensures (mono stateAfter)
open Plugins.System (idle run)

/-- Whether the resident process of a plugin is live once all waiting commands are taken. -/
def System.destined (system : System) (id : String) : Bool :=
  Plugins.destined system.commands id (system.supervisor.isLive id)

def System.takes (system : System) : SystemInput → Option ManagerCommand
  | .command _ => system.commands.head?
  | .request .. | .installed .. | .mountedReceive .. | .mail .. | .event | .process .. => none

def ManagerCommand.isStop : ManagerCommand → Bool
  | .stopPlugin _ => true
  | _ => false

/-- The plugin whose resident process is to be started. -/
def ManagerCommand.started : ManagerCommand → Option String
  | .startPlugin id .. => some id
  | _ => none

def SystemEffect.endsResident : SystemEffect → Bool
  | .acted (.ended (.resident _) _) => true
  | _ => false

/-- Nothing goes wrong in a step: no command is lost, every start that is due is allowed and brings
a process, and no resident process ends but by a stop. -/
structure Undisturbed (codecs : Codecs) (system : System) (input : SystemInput) : Prop where
  undropped : (system.step codecs input).1 = (system.step codecs input.roomy).1
  allowed : ∀ change, input.change system.registry = some change →
    AllAllowed change.outside change.registry change.registry.runningPlugins
  launched : ((system.takes input).bind ManagerCommand.started).all
    ((system.step codecs input).1.supervisor.isLive ·) = true
  kept : ∀ effect ∈ (system.step codecs input).2, effect.endsResident = true →
    (system.takes input).any ManagerCommand.isStop = true

variable {input : SystemInput}

theorem Undisturbed.of_unchanged {codecs : Codecs} {system : System}
    (undropped : (system.step codecs input).1 = (system.step codecs input.roomy).1)
    (unchanged : input.change system.registry = none)
    (launched : ((system.takes input).bind ManagerCommand.started).all
        ((system.step codecs input).1.supervisor.isLive ·) = true)
    (kept : ∀ effect ∈ (system.step codecs input).2, effect.endsResident = true →
        (system.takes input).any ManagerCommand.isStop = true) :
    Undisturbed codecs system input := by
  refine ⟨undropped, fun _ changes => ?_, launched, kept⟩
  rw [unchanged] at changes
  cases changes

/-- What the service has seen of the processes agrees with what will run, as far as the change makes
a difference. -/
structure Seen (system : System) (change : Change) : Prop where
  unwanted : ∀ id, system.destined id = true → change.stopped ≠ some id →
    id ∉ change.registry.wanted change.outside →
      id ∈ change.registry.runningPlugins ∧ change.registry.isOnDemand id = false
  missing : ∀ id ∈ change.registry.wanted change.outside,
    (system.destined id = true → change.stopped = some id) → id ∉ change.registry.runningPlugins

/-- What will run is what should. -/
def Converged (outside : Outside) (system : System) : Prop :=
  ∀ id, system.destined id = true ↔ id ∈ system.registry.wanted outside

/-- No restart waits that the service did not send. -/
def Unrestarted (system : System) : Prop := ∀ id, .restartPlugin id ∉ system.commands

theorem Serves.unrestarted {outside : Outside} {before after : Service × List Permit}
    (serves : Serves outside before after) (id : String)
    (none : .restartPlugin id ∉ before.1.commands) : .restartPlugin id ∉ after.1.commands := by
  induction serves with
  | refl => exact none
  | tail _ move ih =>
    have concat {commands : List ManagerCommand} {command : ManagerCommand}
        (old : .restartPlugin id ∉ commands) (new : command ≠ .restartPlugin id) :
        .restartPlugin id ∉ commands ++ [command] := by
      rw [mem_append, mem_singleton, not_or]
      exact ⟨old, Ne.symm new⟩
    cases move with
    | know => exact ih
    | send mail => exact concat ih (by rintro rfl; cases mail)
    | stop => exact concat ih (by rintro ⟨⟩)
    | allow => exact ih
    | start _ requests =>
      refine concat ih ?_
      rintro rfl
      rcases requests with ⟨_, ⟨⟩⟩ | ⟨_, _, _, ⟨⟩⟩ | ⟨_, ⟨⟩⟩

variable {codecs : Codecs} {system : System}

theorem Unrestarted.step (unrestarted : Unrestarted system) (input : SystemInput) :
    Unrestarted (system.step codecs input).1 := by
  have steps := System.stepped codecs system input
  generalize system.step codecs input = after at steps ⊢
  cases steps with
  | stay => exact unrestarted
  | serve serves => exact fun id => serves.unrestarted id (unrestarted id)
  | observe => exact unrestarted
  | command named first running =>
    rename_i command commands
    intro id waits
    exact unrestarted id (first ▸ mem_cons_of_mem command waits)
  | process => exact unrestarted

theorem Unrestarted.outcome (unrestarted : Unrestarted system) (inputs : List SystemInput) :
    Unrestarted (outcome (System.step codecs) system inputs).1 := by
  induction inputs generalizing system with
  | nil => exact unrestarted
  | cons input _ ih => exact ih (unrestarted.step input)

theorem unrestarted_start (outside : Outside) (registry : Registry) :
    Unrestarted (System.start outside registry).1 := by
  have along : (startResidents outside).Along (Serves outside) :=
    serves_startResidents
  have serves := stateAfter (along ((idle registry.unobserved).toService, []))
  exact fun id => serves.unrestarted id not_mem_nil

theorem change_roomy (input : SystemInput) (registry : Registry) :
    input.roomy.change registry = (input.change registry).map fun change =>
        { change with outside := change.outside.roomy } := by
  cases input with
  | request _ request =>
    cases request with
    | setPluginEnabled =>
      simp only [SystemInput.roomy, SystemInput.change, PluginRequest.change, Option.map_map]
      rfl
    | uninstallPlugin =>
      simp only [SystemInput.roomy, SystemInput.change, PluginRequest.change]
      split <;> rfl
    | _ => rfl
  | _ => rfl

variable {serving : Serving Unit} {command : ManagerCommand} {around : Surroundings} {id : String}

theorem serve_makes {change : Change} (makes : Makes serving system.registry change) :
    (system.serve serving).1 = { system with toService := change.result system.commands } := by
  have ensures : serving.Attains (system.toService, [])
      fun after => after.1 = change.result system.commands :=
    mono (makes system.toService [] rfl) (fun _ _ => id) fun _ _ => False.elim
  rw [System.serve, stateAfter ensures]

theorem serve_sends {sent : List ManagerCommand} (sends : Sends serving system.registry sent) :
    (system.serve serving).1 = { system with commands := system.commands ++ sent } := by
  have ensures : serving.Attains (system.toService, [])
      fun after => after.1 = ⟨system.registry, system.commands ++ sent⟩ :=
    mono (sends system.toService [] rfl) (fun _ _ => id) fun _ _ => False.elim
  rw [System.serve, stateAfter ensures]

variable {change : Change} (changes : input.change system.registry = some change)
include changes

theorem step_change
    (undropped : (system.step codecs input).1 = (system.step codecs input.roomy).1) :
    (system.step codecs input).1 = { system with toService := change.result system.commands } := by
  rw [undropped]
  have roomy := change_roomy input system.registry
  rw [changes] at roomy
  cases input with
  | request outside request =>
    have makes : Makes (handleRequest outside.roomy request) system.registry
        { change with outside := change.outside.roomy } :=
      makes_handleRequest (fun _ => rfl) roomy
    exact serve_makes makes
  | installed outside result =>
    cases changes
    have makes : Makes (finishInstall outside.roomy result) system.registry
        ⟨outside.roomy, _, none⟩ :=
      makes_finishInstall (fun _ => rfl) result
    exact serve_makes makes
  | mountedReceive | mail | event | command | process => cases changes

theorem destined_change (undisturbed : Undisturbed codecs system input) (id : String) :
    (system.step codecs input).1.destined id = true ↔
      ((system.destined id = true ∧ change.stopped ≠ some id) ∧
        ¬(id ∈ change.registry.runningPlugins ∧ id ∉ change.registry.wanted change.outside ∧
          change.registry.isOnDemand id = false)) ∨
      id ∈ change.registry.wanted change.outside ∧ id ∉ change.registry.runningPlugins := by
  have stopped : destined (change.stopped.toList.map ManagerCommand.stopPlugin) id
      (system.destined id) = true ↔ system.destined id = true ∧ change.stopped ≠ some id := by
    cases change.stopped with
    | none => simp [destined]
    | some => simp [destined, ManagerCommand.destines]
  rw [step_change changes undisturbed.undropped, System.destined, Change.result, destined_append,
    destined_append, destined_reconcileCommands (undisturbed.allowed change changes)]
  exact or_congr (and_congr stopped Iff.rfl) Iff.rfl

theorem converged_change_iff (undisturbed : Undisturbed codecs system input) :
    Converged change.outside (system.step codecs input).1 ↔ Seen system change := by
  have registry : (system.step codecs input).1.registry = change.registry := by
    rw [step_change changes undisturbed.undropped]
    rfl
  unfold Converged
  rw [registry]
  simp only [destined_change changes undisturbed]
  constructor
  · intro agrees
    refine ⟨fun id will _ unwanted => ?_, fun id wanted _ => ?_⟩
    · have not := mt (agrees id).mp unwanted
      grind
    · have runs := (agrees id).mpr wanted
      grind
  · intro seen id
    have unwanted := seen.unwanted id
    have missing := seen.missing id
    grind

omit changes

theorem sameRoles_observe (event : ManagerEvent) (registry : Registry) :
    registry.SameRoles (observe event registry) := by
  unfold observe
  split
  all_goals try exact ⟨rfl, rfl, rfl⟩
  · unfold Registry.adoptOwnedSettings
    split <;> exact ⟨rfl, rfl, rfl⟩
  · unfold Registry.setExited
    split <;> exact ⟨rfl, rfl, rfl⟩

theorem aside_of_isMail (mail : command.isMail = true) : command.steers = false := by
  cases command <;> first | rfl | cases mail

theorem serve_aside
    (aside : serving.Ensures (system.toService, []) (fun _ => Aside (system.toService, []))
      fun _ => Aside (system.toService, [])) :
    system.registry.SameRoles (system.serve serving).1.registry ∧
      ∀ id, (system.serve serving).1.destined id = system.destined id := by
  have after := stateAfter aside
  exact ⟨after.roles, fun id => after.destined id _⟩

theorem destined_command {commands : List ManagerCommand} (unrestarted : Unrestarted system)
    (first : system.commands = command :: commands) (running : system.supervisor.stopping = false)
    (undisturbed : Undisturbed codecs system (.command around)) (id : String) :
    (({ system with commands } : System).supervised codecs around
        (.command command)).1.destined id =
      system.destined id := by
  have taken : system.step codecs (.command around) =
      ({ system with commands } : System).supervised codecs around (.command command) := by
    unfold System.step
    rw [first]
    dsimp only
    rw [if_neg (by simp [running])]
  have known (other : String) : command ≠ .restartPlugin other := by
    rintro rfl
    exact unrestarted other (first ▸ (.head _))
  have kept (other : String) (generation : UInt64)
      (ended : .ended (.resident other) generation ∈
        (supervise codecs system.supervisor (around, .command command)).2) :
      ∃ stopped, command = .stopPlugin stopped := by
    have stops := undisturbed.kept (.acted (.ended (.resident other) generation))
      (taken ▸ mem_map_of_mem ended) rfl
    rw [System.takes, first] at stops
    cases command with
    | stopPlugin stopped => exact ⟨stopped, rfl⟩
    | _ => cases stops
  have launched (other : String) (spec : LaunchSpec) (settings : List (String × String))
      (same : command = .startPlugin other spec settings) :
      (supervise codecs system.supervisor (around, .command command)).1.isLive other = true := by
    have live := undisturbed.launched
    rw [System.takes, first, same, taken] at live
    exact live
  have follows := isLive_command codecs around running known kept launched id
  rw [System.destined, System.destined, first]
  exact congrArg (destined commands id) follows

theorem destined_process {event : ProcessEvent}
    (undisturbed : Undisturbed codecs system (.process around event)) (id : String) :
    (system.supervised codecs around (.process event)).1.destined id = system.destined id := by
  have kept (other : String) (generation : UInt64) : .ended (.resident other) generation ∉
      (supervise codecs system.supervisor (around, .process event)).2 := by
    intro ended
    have stops := undisturbed.kept (.acted (.ended (.resident other) generation))
      (mem_map_of_mem ended) rfl
    cases stops
  exact congrArg (destined system.commands id) (isLive_process codecs around kept id)

/-- A neutral input changes neither which plugins should run nor which will. -/
theorem step_neutral (unrestarted : Unrestarted system)
    (undisturbed : Undisturbed codecs system input) (neutral : input.Neutral system.registry) :
    system.registry.SameRoles (system.step codecs input).1.registry ∧
      ∀ id, (system.step codecs input).1.destined id = system.destined id := by
  have same : system.registry.SameRoles system.registry := ⟨rfl, rfl, rfl⟩
  cases input with
  | request => exact serve_aside (aside_request neutral)
  | installed => cases neutral
  | mountedReceive _ transferId operation entries =>
    exact serve_aside (aside_startMountedReceive transferId operation entries _)
  | mail =>
    rw [System.step]
    split
    · rename_i mail
      exact serve_aside (aside_send (aside_of_isMail mail) _)
    · exact ⟨same, fun _ => rfl⟩
  | event =>
    unfold System.step
    cases system.events with
    | nil => exact ⟨same, fun _ => rfl⟩
    | cons event => exact ⟨sameRoles_observe event system.registry, fun _ => rfl⟩
  | command around =>
    have taken {command : ManagerCommand} {commands : List ManagerCommand}
        (first : system.commands = command :: commands)
        (running : system.supervisor.stopping = false) (id : String) :
        (({ system with commands } : System).supervised codecs around
          (.command command)).1.destined id = system.destined id :=
      destined_command unrestarted first running undisturbed id
    unfold System.step
    cases first : system.commands with
    | nil => exact ⟨same, fun _ => rfl⟩
    | cons =>
      dsimp only
      split
      · exact ⟨same, fun _ => rfl⟩
      · rename_i running
        exact ⟨same, taken first (by simpa using running)⟩
  | process => exact ⟨same, destined_process undisturbed⟩

theorem Converged.neutral {outside : Outside}
    (converged : Converged outside system) (unrestarted : Unrestarted system)
    (undisturbed : Undisturbed codecs system input) (neutral : input.Neutral system.registry) :
    Converged outside (system.step codecs input).1 := by
  obtain ⟨roles, same⟩ := step_neutral unrestarted undisturbed neutral
  intro id
  rw [same, roles.wanted outside]
  exact converged id

theorem destined_restart {outside : Outside} {registry : Registry} {other : String}
    {role : Option PluginRole} {live : Bool}
    (starts : (startOf outside registry id role).isEmpty = false) :
    destined (.stopPlugin id :: startOf outside registry id role) other live = true ↔
      live = true ∨ other = id := by
  unfold startOf at starts ⊢
  split at starts
  · cases starts
  · simp only [destined, foldl_cons, foldl_nil, ManagerCommand.destines]
    grind

theorem step_restart {now : Outside} (restarts : Restarts now system.registry id)
    (undropped : (system.step codecs (.request now (.restartPlugin id))).1 =
      (system.step codecs (.request now.roomy (.restartPlugin id))).1) :
    (system.step codecs (.request now (.restartPlugin id))).1 = { system with
      registry := system.registry.recordRestart id
      commands := system.commands ++ .stopPlugin id ::
        startOf now (system.registry.recordRestart id) id
          ((system.registry.recordRestart id).residentRoleOf now id) } := by
  obtain ⟨enabled, starts⟩ := restarts
  have after : (handleRequest now.roomy (.restartPlugin id)).Attains (system.toService, [])
      fun after => after.1 =
        { registry := system.registry.recordRestart id
          commands := system.commands ++ .stopPlugin id ::
            startOf now (system.registry.recordRestart id) id
              ((system.registry.recordRestart id).residentRoleOf now id) } := by
    rw [Attains, handleRequest, restartPlugin, ensures_bind, ensures_task, if_pos enabled,
      ensures_bind, know, ensures_update, ensures_bind, ensures_task]
    refine mono (Sends.startResidentPlugin (fun _ => rfl) id _ true _ _ rfl) ?_
      fun _ _ => False.elim
    intro _ after reached
    have sent : startOf now.roomy (system.registry.recordRestart id) id
        ((system.registry.recordRestart id).residentRoleOf now.roomy id) =
      startOf now (system.registry.recordRestart id) id
        ((system.registry.recordRestart id).residentRoleOf now id) := rfl
    rw [reached]
    rw [sent, if_pos (by simp [starts])]
  rw [undropped, System.step, System.serve, stateAfter after]

theorem step_update (codecs : Codecs) (now : Outside) (updates : Updates system.registry id) :
    (system.step codecs (.request now (.updatePlugin id))).1.registry = system.registry ∧
      ∀ other, other ≠ id ∨ system.destined other = false →
        (system.step codecs (.request now (.updatePlugin id))).1.destined other =
          system.destined other := by
  have after : (handleRequest now (.updatePlugin id)).Attains (system.toService, [])
      fun after => after.1.registry = system.registry ∧ (after.1.commands = system.commands ∨
        after.1.commands = system.commands ++ [.stopPlugin id]) := by
    refine ensures_ite.mpr ⟨fun _ => ?_, fun other => absurd updates other⟩
    exact sendPluginCommand_ensures ⟨rfl, .inr rfl⟩ ⟨rfl, .inl rfl⟩
  obtain ⟨registry, commands⟩ := stateAfter after
  refine ⟨registry, fun other aside => ?_⟩
  change destined ((handleRequest now (.updatePlugin id)).stateAfter
    (system.toService, [])).1.commands other (system.supervisor.isLive other) = _
  rcases commands with same | stopped
  · rw [same]
    rfl
  · rw [stopped, destined_append]
    change (system.destined other && !decide (id = other)) = system.destined other
    rcases aside with differ | absent
    · simp [Ne.symm differ]
    · simp [absent]

theorem SystemInput.Agrees.cases {outside : Outside} {registry : Registry}
    (agrees : input.Agrees outside registry) :
    input.Neutral registry ∨
      (∃ now id, input = .request now (.restartPlugin id) ∧ Restarts now registry id ∧
        id ∈ registry.wanted outside) ∨
      ∃ now id, input = .request now (.updatePlugin id) ∧ Updates registry id ∧
        id ∉ registry.wanted outside := by
  by_cases neutral : input.Neutral registry
  · exact .inl neutral
  · cases input with
    | request now request =>
      cases request with
      | restartPlugin id =>
        have restarts : Restarts now registry id := not_not.mp neutral
        exact .inr (.inl ⟨now, id, rfl, restarts, agrees restarts⟩)
      | updatePlugin id =>
        have updates : Updates registry id := not_not.mp neutral
        exact .inr (.inr ⟨now, id, rfl, updates, agrees updates⟩)
      | _ => exact absurd agrees neutral
    | _ => exact absurd agrees neutral

theorem Converged.step {outside : Outside}
    (converged : Converged outside system) (unrestarted : Unrestarted system)
    (undisturbed : Undisturbed codecs system input)
    (agrees : input.Agrees outside system.registry) :
    Converged outside (system.step codecs input).1 := by
  rcases agrees.cases with neutral | ⟨now, id, rfl, restarts, wanted⟩ |
    ⟨now, id, rfl, updates, unwanted⟩
  · exact converged.neutral unrestarted undisturbed neutral
  · have roles : system.registry.SameRoles (system.registry.recordRestart id) := ⟨rfl, rfl, rfl⟩
    intro other
    rw [step_restart restarts undisturbed.undropped, System.destined, destined_append,
      destined_restart restarts.2, roles.wanted outside]
    refine Iff.trans ?_ (converged other)
    constructor
    · rintro (will | rfl)
      · exact will
      · exact (converged other).mpr wanted
    · exact .inl
  · obtain ⟨registry, same⟩ := step_update codecs now updates
    intro other
    rw [registry]
    by_cases aside : other ≠ id ∨ system.destined other = false
    · rw [same other aside]
      exact converged other
    · simp only [ne_eq, not_or, not_not, Bool.not_eq_false] at aside
      obtain ⟨rfl, will⟩ := aside
      exact absurd ((converged other).mp will) unwanted

/-- The resident processes are those that are wanted. -/
def Settled (outside : Outside) (system : System) : Prop :=
  ∀ id, .resident id ∈ system.supervisor.processes ↔ id ∈ system.registry.wanted outside

theorem converged_iff_settled {outside : Outside} (drained : system.commands = []) :
    Converged outside system ↔ Settled outside system := by
  unfold Converged Settled System.destined
  simp only [drained, destined, foldl_nil, State.isLive_iff]

theorem Converged.outcome {outside : Outside} (inputs : List SystemInput)
    (converged : Converged outside system) (unrestarted : Unrestarted system)
    (steps : ∀ state input, Meets (System.step codecs) system inputs state input →
      Undisturbed codecs state input ∧ input.Agrees outside state.registry) :
    Converged outside (outcome (System.step codecs) system inputs).1 := by
  induction inputs generalizing system with
  | nil => exact converged
  | cons input _ ih =>
    obtain ⟨undisturbed, agrees⟩ := steps system input .here
    exact ih (converged.step unrestarted undisturbed agrees) (unrestarted.step input)
      fun state other meets => steps state other meets.later

theorem converged_neutral_iff {outside : Outside} (inputs : List SystemInput)
    (unrestarted : Unrestarted system)
    (steps : ∀ state input, Meets (System.step codecs) system inputs state input →
      Undisturbed codecs state input ∧ input.Neutral state.registry) :
    Converged outside (outcome (System.step codecs) system inputs).1 ↔
      Converged outside system := by
  induction inputs generalizing system with
  | nil => exact Iff.rfl
  | cons input _ ih =>
    obtain ⟨undisturbed, neutral⟩ := steps system input .here
    obtain ⟨roles, same⟩ := step_neutral unrestarted undisturbed neutral
    refine (ih (unrestarted.step input) fun state other meets =>
      steps state other meets.later).trans
      ?_
    unfold Converged
    simp only [same, roles.wanted outside]

theorem converged_start {first : Outside} {registry : Registry}
    (undropped : (System.start first registry).1 = (System.start first.roomy registry).1)
    (allowed : AllAllowed first registry.unobserved []) :
    Converged first (System.start first registry).1 := by
  have sends : Sends (startResidents first.roomy) (idle registry.unobserved).registry
      ((registry.unobserved.residentPlugins first).flatMap fun entry =>
        if entry.1 ∉ ([] : List String) then
          startOf first registry.unobserved entry.1 (some entry.2)
        else []) := by
    exact Sends.startResidents fun _ => rfl
  rw [undropped, System.start, serve_sends sends]
  intro _
  refine (destined_starts allowed).trans ?_
  simp [idle, State.new, State.isLive, Registry.wanted]

/-- In every run: from the start of the daemon what is live once all commands are taken is what
should run, as long as nothing but restarts and updates that agree with it is asked for. After a
change it is exactly when enough had been seen, if only neutral inputs follow, and still is after
restarts and updates that agree with it. -/
theorem settled_iff_seen (codecs : Codecs) (first : Outside) (registry : Registry) :
    (∀ later, (System.start first registry).1 = (System.start first.roomy registry).1 →
      AllAllowed first registry.unobserved [] →
      (∀ system input, Meets (System.step codecs) (System.start first registry).1
        later system input →
        Undisturbed codecs system input ∧ input.Agrees first system.registry) →
      (run codecs first registry later).1.commands = [] →
      Settled first (run codecs first registry later).1) ∧
    ∀ earlier input change later,
      let before := (run codecs first registry earlier).1
      let after := (before.step codecs input).1
      let reached := (outcome (System.step codecs) after later).1
      input.change before.registry = some change → Undisturbed codecs before input →
      (∀ system other, Meets (System.step codecs) after later system other →
        Undisturbed codecs system other) →
      reached.commands = [] →
      (Seen before change → (∀ system other, Meets (System.step codecs) after later system other →
        other.Agrees change.outside system.registry) → Settled change.outside reached) ∧
      ((∀ system other, Meets (System.step codecs) after later system other →
        other.Neutral system.registry) →
          (Settled change.outside reached ↔ Seen before change)) := by
  refine ⟨fun later undropped allowed steps drained => ?_, ?_⟩
  · rw [← converged_iff_settled drained]
    exact (converged_start undropped allowed).outcome later (unrestarted_start first registry) steps
  · intro earlier input _ later before _ _ changes undisturbed steps drained
    have unrestarted : Unrestarted before := (unrestarted_start first registry).outcome earlier
    rw [← converged_iff_settled drained]
    have seen := converged_change_iff changes undisturbed
    refine ⟨fun enough agrees => ?_, fun neutral => ?_⟩
    · exact (seen.mpr enough).outcome later (unrestarted.step input) fun state other meets =>
        ⟨steps state other meets, agrees state other meets⟩
    · rw [← seen]
      exact converged_neutral_iff later (unrestarted.step input) fun state other meets =>
        ⟨steps state other meets, neutral state other meets⟩

namespace Toggle

def provider (id : String) : Discovered where
  manifest := {
    protocolVersion := protocolVersion
    id
    version := "1.0"
    args := []
    onDemand := false
    ownsSettings := false
    capabilities := {
      clipboardRead := true, paste := true, cancel := true, requiresLiveMount := false
      pointerEvents := false, mimeTypes := [uriListMime, gnomeCopiedFilesMime] }
    settings := []
    handshakeIds := []
    resources := [] }
  origin := .bundled
  manifestPath := .empty
  executable := id

def registry : Registry where
  plugins := [provider "a", provider "b"]
  unsupported := []
  trust := ⟨∅, (∅ : Table PluginRole String).insert .fileClipboard "a"⟩
  enabled := ∅
  running := ∅
  pids := ∅
  chosen := ∅
  owned := ∅
  store := none

def outside : Outside where
  digest _ _ := .error "no package"
  shownDigest _ := .error "no package"
  isFile _ := true
  discovered := ⟨[provider "a", provider "b"], []⟩
  savedValues _ := ∅
  saves := .ok ()
  uninstalls _ := .ok ()
  makesRoom _ := true

def prefer (id : String) : SystemInput :=
  .request outside (.setPluginRolePreference .fileClipboard (some id))

/-- The preference goes to the other provider and back before the supervisor has done anything. -/
def inputs : List SystemInput :=
  [.command Window.around, .event, prefer "b", prefer "a", .command Window.around,
    .command Window.around, .event, .event]

def reached : System := (run Window.codecs outside registry inputs).1

end Toggle

/-- The input comes while the outside is like this. -/
def SystemInput.Within (outside : Outside) : SystemInput → Prop
  | .request now _ | .installed now _ | .mountedReceive now .. | .mail now _ => now = outside
  | .event | .command _ | .process .. => True

/-- A preference that goes to another provider and back leaves the other one running, because the
service has not seen it start. -/
theorem unsettled_toggle : ¬∀ codecs first registry inputs,
    (System.start first registry).1 = (System.start first.roomy registry).1 →
    AllAllowed first registry.unobserved [] →
    (∀ system input, Meets (System.step codecs) (System.start first registry).1
      inputs system input →
      Undisturbed codecs system input ∧ input.Within first) →
    (run codecs first registry inputs).1.commands = [] →
    (run codecs first registry inputs).1.events = [] →
    Settled first (run codecs first registry inputs).1 := by
  intro settles
  have settled := settles Window.codecs Toggle.outside Toggle.registry Toggle.inputs rfl
    (by unfold AllAllowed; decide +kernel) ?_ (by decide +kernel) (by decide +kernel)
  · have runs : .resident "b" ∈ Toggle.reached.supervisor.processes := by decide +kernel
    have unwanted : "b" ∉ Toggle.reached.registry.wanted Toggle.outside := by decide +kernel
    exact unwanted ((settled "b").mp runs)
  · intro _ _ meets
    simp only [Toggle.inputs, Toggle.prefer, meets_cons] at meets
    rcases meets with ⟨rfl, rfl⟩ | ⟨rfl, rfl⟩ | ⟨rfl, rfl⟩ | ⟨rfl, rfl⟩ | ⟨rfl, rfl⟩ | ⟨rfl, rfl⟩ |
      ⟨rfl, rfl⟩ | ⟨rfl, rfl⟩ | none
    · exact ⟨.of_unchanged rfl rfl (by decide +kernel) (by decide +kernel), trivial⟩
    · exact ⟨.of_unchanged rfl rfl (by decide +kernel) (by decide +kernel), trivial⟩
    · refine ⟨⟨rfl, ?_, by decide +kernel, by decide +kernel⟩, rfl⟩
      rintro change ⟨⟩
      unfold AllAllowed
      decide +kernel
    · refine ⟨⟨rfl, ?_, by decide +kernel, by decide +kernel⟩, rfl⟩
      rintro _ ⟨⟩
      unfold AllAllowed
      decide +kernel
    · exact ⟨.of_unchanged rfl rfl (by decide +kernel) (by decide +kernel), trivial⟩
    · exact ⟨.of_unchanged rfl rfl (by decide +kernel) (by decide +kernel), trivial⟩
    · exact ⟨.of_unchanged rfl rfl (by decide +kernel) (by decide +kernel), trivial⟩
    · exact ⟨.of_unchanged rfl rfl (by decide +kernel) (by decide +kernel), trivial⟩
    · exact absurd none not_meets_nil

end Syntra.Plugins
