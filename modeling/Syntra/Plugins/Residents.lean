import Syntra.Plugins.Permits
import Syntra.Plugins.Relaunches

/-!
# Which resident processes run

Commands that wait decide which resident processes will run once the supervisor has taken them, as
long as nothing fails: a start makes one run, a stop ends it, and no other command matters
(`destined`). What the supervisor does follows that, command by command.
-/

namespace Syntra.Plugins

open StateMachine Tables Handler Supervising State List ManagerCommand Ensures

def ManagerCommand.destines (command : ManagerCommand) (id : String) (live : Bool) : Bool :=
  match command with
  | .startPlugin other .. => live || decide (other = id)
  | .stopPlugin other => live && !decide (other = id)
  | _ => live

/-- Whether the resident process of a plugin is live once the commands are taken. -/
def destined (commands : List ManagerCommand) (id : String) (live : Bool) : Bool :=
  commands.foldl (fun live command => command.destines id live) live

theorem destined_append (first second : List ManagerCommand) (id : String) (live : Bool) :
    destined (first ++ second) id live = destined second id (destined first id live) :=
  foldl_append

variable {command : ManagerCommand} {state : State}

theorem destines_of_aside (aside : command.steers = false) (id : String) (live : Bool) :
    command.destines id live = live := by
  cases command with
  | startPlugin | stopPlugin => cases aside
  | _ => rfl

def State.isLive (state : State) (id : String) : Bool := decide (.resident id ∈ state.processes)

theorem State.isLive_iff {id : String} : state.isLive id = true ↔ .resident id ∈ state.processes :=
  decide_eq_true_iff

variable {codecs : Codecs} {around : Surroundings} {input : SupervisorInput} {world later : World}

theorem Move.log_subset (move : Move codecs around input world later) : world.2 ⊆ later.2 := by
  cases move with
  | note | register | forget | count => exact Subset.refl _
  | tell | finish | accept | pass => exact subset_append_left _ _
  | start =>
    exact Subset.trans (subset_append_left _ _) (subset_append_left _ _)

theorem Runs.log_subset (runs : Runs codecs around input world later) : world.2 ⊆ later.2 := by
  induction runs with
  | refl => exact Subset.refl _
  | tail _ move ih => exact Subset.trans ih move.log_subset

theorem Runs.live (runs : Runs codecs around input world later) {adapter : AdapterId}
    (kept : ∀ generation, .ended adapter generation ∉ later.2)
    (live : adapter ∈ world.1.processes) :
    adapter ∈ later.1.processes := by
  induction runs with
  | refl => exact live
  | tail _ move ih =>
    have before := ih fun generation ended => kept generation (move.log_subset ended)
    cases move with
    | note agrees =>
      rw [agrees.processes]
      exact before
    | tell | register | forget | count | pass => exact before
    | finish =>
      refine AList.mem_erase.mpr ⟨?_, before⟩
      rintro rfl
      exact kept _ (mem_append_right _ (mem_singleton_self _))
    | accept | start => exact (AList.mem_insert _).mpr (.inr before)

namespace Supervising

theorem startPlugin_others (id : String) (spec : LaunchSpec) (settings : List (String × String))
    (state : State) (log : List Effect) :
    (startPlugin around id spec settings).Attains (state, log)
      fun after => ∀ other, other ≠ id → .resident other ∈ after.1.processes →
        .resident other ∈ state.processes := by
  refine ensures_ite.mpr ⟨fun _ => ?_, fun _ => ?_⟩
  · exact (subdued_sendNewSettings id (state, log)).mono (fun _ _ gone other _ => gone.live other)
      fun _ _ gone other _ => gone.live other
  · rw [ensures_bind, ensures_update]
    exact mono (launching_orReject id _)
      (fun _ _ launching other differ => (launching.others other differ).2)
      fun _ _ launching other differ => (launching.others other differ).2

def NoneNew (state : State) (after : World) : Prop :=
  (∃ id generation, .ended (.resident id) generation ∈ after.2) ∨
    ∀ id, .resident id ∈ after.1.processes → .resident id ∈ state.processes

theorem noneNew_of_subdued {handler : Supervising Unit} (subdued : handler.Along Subdued)
    (state : State) (log : List Effect) :
    handler.Ensures (state, log) (fun _ => NoneNew state) fun _ => NoneNew state :=
  (subdued (state, log)).mono (fun _ _ gone => .inr gone.live) fun _ _ gone => .inr gone.live

variable {adapter : AdapterId} {state : State}

theorem subdued_processExit (other : ∀ id, adapter ≠ .resident id) (reason : String) :
    (processExit around adapter reason).Along Subdued := by
  refine .bind .task fun state => .bind (subdued_note (fun _ => rfl) fun _ => rfl) fun _ =>
    .bind (subdued_stopAdapter _) fun _ => ?_
  have rest : (afterExit around adapter reason (decide (adapter ∈ state.terminal))).Along
      Subdued := by
    refine .bind (subdued_report _) fun _ => ?_
    cases adapter with
    | resident id => exact absurd rfl (other id)
    | transfer | settings => exact .pure _
  exact .ite (.bind (lenient_subdued.cancelOwned _) fun _ => rest) rest

theorem processExit_ends (codecs : Codecs) {id : String} (live : .resident id ∈ state.processes)
    (reason : String) (log : List Effect) :
    (processExit around (.resident id) reason).Ensures (state, log)
      (fun _ => NoneNew state) fun _ => NoneNew state := by
  obtain ⟨runtime, found⟩ := (mem_iff_lookup _ _).mp live
  simp only [processExit, stopAdapter, ensures_bind, ensures_task,
    ensures_update, found, ensures_emit]
  have input : SupervisorInput := .process (.exited (.resident id) runtime.generation reason)
  have rest (terminal : Bool) : (do
      if !terminal then
        cancelOwned around (.resident id)
      report (.exited (.resident id) reason)
      relaunch around id terminal : Supervising Unit).Along (Runs codecs around input) := by
    have last : (do
        report (.exited (.resident id) reason)
        relaunch around id terminal : Supervising Unit).Along (Runs codecs around input) :=
      .bind (moves_report trivial) fun _ => moves_relaunch id _
    exact .ite (.bind (lenient_runs.cancelOwned _) fun _ => last) last
  have ended {before after : World} (runs : Runs codecs around input before after)
      (there : .ended (.resident id) runtime.generation ∈ before.2) : NoneNew state after :=
    .inl ⟨id, runtime.generation, runs.log_subset there⟩
  refine mono (rest _ _) (fun _ _ runs => ended runs ?_) fun _ _ runs => ended runs ?_
  all_goals exact mem_append_right _ (mem_singleton_self _)

theorem noneNew_processExit (codecs : Codecs) (live : adapter ∈ state.processes) (reason : String)
    (log : List Effect) :
    (processExit around adapter reason).Ensures (state, log)
      (fun _ => NoneNew state) fun _ => NoneNew state := by
  cases adapter with
  | resident => exact processExit_ends codecs live reason log
  | transfer | settings =>
    exact noneNew_of_subdued (subdued_processExit (by rintro _ ⟨⟩) _) _ _

theorem noneNew_handleProcessEvent (event : ProcessEvent) (state : State) (log : List Effect) :
    (handleProcessEvent codecs around event).Ensures (state, log)
      (fun _ => NoneNew state) fun _ => NoneNew state := by
  have still : (pure () : Supervising Unit).Ensures (state, log) (fun _ => NoneNew state)
      fun _ => NoneNew state :=
    .inr fun _ live => live
  cases event with
  | line =>
    exact ensures_ite.mpr ⟨fun _ => noneNew_of_subdued (subdued_takeLine _ _) _ _, fun _ => still⟩
  | diagnostic =>
    exact ensures_ite.mpr
      ⟨fun _ => noneNew_of_subdued (lenient_subdued.takeDiagnostic _ _) _ _, fun _ => still⟩
  | failed | exited =>
    exact ensures_ite.mpr
      ⟨fun counts => noneNew_processExit codecs (mem_of_current counts) _ _, fun _ => still⟩

end Supervising

theorem isLive_process (codecs : Codecs) (around : Surroundings) {event : ProcessEvent}
    (kept : ∀ id generation, .ended (.resident id) generation ∉
      (supervise codecs state (around, .process event)).2) (id : String) :
    (supervise codecs state (around, .process event)).1.isLive id = state.isLive id := by
  have runs := supervise_runs codecs state around (.process event)
  rw [Bool.eq_iff_iff, isLive_iff, isLive_iff]
  refine ⟨fun live => ?_, fun live => runs.live (kept id) live⟩
  have noneNew : NoneNew state (supervise codecs state (around, .process event)) := by
    unfold supervise
    split
    · exact .inr fun _ live => live
    · exact stateAfter (noneNew_handleProcessEvent event state [])
  rcases noneNew with ⟨other, generation, ended⟩ | old
  · exact absurd ended (kept other generation)
  · exact old id live

theorem isLive_command (codecs : Codecs) (around : Surroundings)
    (running : state.stopping = false) (known : ∀ id, command ≠ .restartPlugin id)
    (kept : ∀ id generation, .ended (.resident id) generation ∈
      (supervise codecs state (around, .command command)).2 → ∃ other, command = .stopPlugin other)
    (launched : ∀ id spec settings, command = .startPlugin id spec settings →
      (supervise codecs state (around, .command command)).1.isLive id = true) (id : String) :
    (supervise codecs state (around, .command command)).1.isLive id =
      command.destines id (state.isLive id) := by
  have runs := supervise_runs codecs state around (.command command)
  have taken : supervise codecs state (around, .command command) =
      (handleCommand codecs around command).stateAfter (state, []) := by
    unfold supervise
    rw [if_neg (by simp [running])]
    rfl
  by_cases stops : ∃ other, command = .stopPlugin other
  · obtain ⟨other, rfl⟩ := stops
    have stopped : (supervise codecs state
      (around, .command (.stopPlugin other))).1.processes.lookup
        (.resident id) = if other = id then none else state.processes.lookup (.resident id) := by
      rw [taken]
      have leaves : Leaves (stopPlugin around other) state [] fun later =>
          later.processes.lookup (.resident id) =
            if other = id then none else state.processes.lookup (.resident id) :=
        Leaves.mono (leaves_stopPlugin other state []) fun _ after =>
          (after.2 (.resident id)).trans (if_congr eq_comm rfl rfl)
      exact leaves.stateAfter
    rw [Bool.eq_iff_iff, isLive_iff, mem_iff_lookup, stopped]
    by_cases same : other = id
    · simp [destines, same]
    · simp [destines, same, isLive_iff, mem_iff_lookup]
  · have still : .resident id ∈ state.processes → .resident id ∈
        (supervise codecs state (around, .command command)).1.processes :=
      runs.live fun generation ended => stops (kept id generation ended)
    cases steers : command.steers with
    | false =>
      rw [destines_of_aside steers, Bool.eq_iff_iff, isLive_iff, isLive_iff]
      refine ⟨fun live => ?_, still⟩
      have gone : Subdued (state, []) (supervise codecs state (around, .command command)) := by
        rw [taken]
        exact stateAfter (subdued_handleCommand steers (state, []))
      exact gone.live id live
    | true =>
      cases command with
      | startPlugin other spec settings =>
        rw [destines, Bool.eq_iff_iff, Bool.or_eq_true, decide_eq_true_iff]
        refine ⟨fun live => ?_, ?_⟩
        · by_cases same : other = id
          · exact .inr same
          · refine .inl (isLive_iff.mpr ?_)
            rw [isLive_iff, taken] at live
            exact stateAfter
              (startPlugin_others other spec settings state []) id (Ne.symm same) live
        · rintro (live | rfl)
          · exact isLive_iff.mpr (still (isLive_iff.mp live))
          · exact launched other spec settings rfl
      | stopPlugin other => exact absurd ⟨other, rfl⟩ stops
      | restartPlugin other => exact absurd rfl (known other)
      | _ => cases steers

end Syntra.Plugins
