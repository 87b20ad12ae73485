import Mathlib.Data.List.Induction
import Syntra.Plugins.Launches

/-!
# What a relaunch repeats

A plugin is relaunched as its entry in the table of launches says. A start of the plugin writes the
entry, but so does a start of a process for one of its transfers.
-/

namespace Syntra.Plugins

open StateMachine Tables Supervising SupervisorInput List
open Handler (ensures_bind ensures_task ensures_ite)

def SupervisorInput.starts (id : String) : SupervisorInput → Option LaunchSpec
  | .command (.startPlugin other spec _) => if other = id then some spec else none
  | _ => none

def lastStart (id : String) (inputs : List (Surroundings × SupervisorInput)) : Option LaunchSpec :=
  (inputs.filterMap fun input => input.2.starts id).getLast?

/-- What ends a process or restarts a plugin, so that its resident process is started again. -/
def SupervisorInput.Relaunches : SupervisorInput → Prop
  | .process _ => True
  | .command (.restartPlugin _) => True
  | .command _ => False

/-- A start of what runs already repeats the last one. -/
def Repeating (id : String) (last : Option LaunchSpec) (state : State) : SupervisorInput → Prop
  | .command (.startTransfer other spec transferId _ _) => other = id →
    validTransferId transferId = true → .transfer id transferId ∉ state.processes → last = some spec
  | .command (.startPlugin other spec _) => other = id → .resident id ∈ state.processes →
    last = some spec
  | _ => True

theorem lastStart_concat (id : String) (inputs : List (Surroundings × SupervisorInput))
    (input : Surroundings × SupervisorInput) :
    lastStart id (inputs ++ [input]) = (input.2.starts id).or (lastStart id inputs) := by
  unfold lastStart
  cases started : input.2.starts id with
  | none | some => simp [started]

/-- Launches are kept, dropped or asked for, and a resident process is started with one of them. -/
structure Recalls (input : SupervisorInput) (before after : World) : Prop where
  specs : ∀ id spec, after.1.specs.lookup id = some spec →
    before.1.specs.lookup id = some spec ∨ input.Requests id spec
  launches : ∀ id generation spec args theme,
    .spawned (.resident id) generation spec args theme ∈ after.2 →
      .spawned (.resident id) generation spec args theme ∈ before.2 ∨
        args = spec.args ∧ (before.1.specs.lookup id = some spec ∨ input.Requests id spec)

variable {codecs : Codecs} {around : Surroundings} {input : SupervisorInput} {id : String}
  {state : State}

theorem Recalls.trans {first second third : World} (early : Recalls input first second)
    (late : Recalls input second third) : Recalls input first third := by
  refine ⟨fun id spec found => ?_, fun id generation spec args theme there => ?_⟩
  · rcases late.specs id spec found with known | asked
    · exact early.specs id spec known
    · exact .inr asked
  · rcases late.launches id generation spec args theme there with before | ⟨own, known | asked⟩
    · exact early.launches id generation spec args theme before
    · exact .inr ⟨own, early.specs id spec known⟩
    · exact .inr ⟨own, .inr asked⟩

theorem Recalls.of_log {later : State} {log : List Effect} {effects : List Effect}
    (specs : ∀ id spec, later.specs.lookup id = some spec →
      state.specs.lookup id = some spec ∨ input.Requests id spec)
    (quiet : ∀ effect ∈ effects, ∀ id, effect.startsResident id = false) :
    Recalls input (state, log) (later, log ++ effects) := by
  refine ⟨specs, fun id _ _ _ _ there => ?_⟩
  rcases mem_append.mp there with before | fresh
  · exact .inl before
  · have none := quiet _ fresh id
    simp [Effect.startsResident] at none

theorem Effect.Quiet.startsResident {effect : Effect} (quiet : effect.Quiet) (id : String) :
    effect.startsResident id = false := by
  cases effect with
  | spawned => exact quiet.elim
  | _ => rfl

theorem Move.recalls {world later : World} (move : Move codecs around input world later) :
    Recalls input world later := by
  cases move with
  | note agrees => exact ⟨fun _ _ found => .inl (agrees.specs ▸ found), fun _ _ _ _ _ => .inl⟩
  | tell quiet =>
    refine .of_log (fun _ _ => .inl) fun effect member => ?_
    rw [mem_singleton.mp member]
    exact quiet.startsResident
  | finish | accept | pass =>
    refine .of_log (fun _ _ => .inl) fun _ member => ?_
    rw [mem_singleton.mp member]
    exact fun _ => rfl
  | register asked =>
    refine ⟨fun id spec found => ?_, fun _ _ _ _ _ => .inl⟩
    rw [lookup_insert] at found
    split at found
    · rename_i same
      cases found
      exact .inr (same ▸ asked)
    · exact .inl found
  | forget =>
    refine ⟨fun id spec found => ?_, fun _ _ _ _ _ => .inl⟩
    rw [lookup_erase] at found
    split at found
    · cases found
    · exact .inl found
  | count => exact ⟨fun _ _ => .inl, fun _ _ _ _ _ => .inl⟩
  | start _ theme sourced =>
    refine ⟨fun _ _ => .inl, fun _ _ _ _ _ there => ?_⟩
    simp only [append_assoc, mem_append, mem_cons, Effect.spawned.injEq,
      not_mem_nil, or_false, reduceCtorEq] at there
    rcases there with before | ⟨rfl, rfl, rfl, rfl, rfl⟩
    · exact .inl before
    · rcases sourced with known | ⟨_, settings, _⟩
      · exact .inr ⟨rfl, .inl known⟩
      · cases settings

theorem Runs.recalls {world later : World} (runs : Runs codecs around input world later) :
    Recalls input world later := by
  induction runs with
  | refl => exact ⟨fun _ _ => .inl, fun _ _ _ _ _ => .inl⟩
  | tail _ move ih => exact ih.trans move.recalls

theorem Recalls.kept {before after : World} (recalls : Recalls input before after)
    (other : ∀ spec, ¬input.Requests id spec) {spec : LaunchSpec}
    (found : after.1.specs.lookup id = some spec) : before.1.specs.lookup id = some spec :=
  (recalls.specs id spec found).resolve_right (other spec)

theorem SupervisorInput.Relaunches.not_requests (relaunches : input.Relaunches)
    (spec : LaunchSpec) : ¬input.Requests id spec := by
  rintro (⟨settings, rfl⟩ | ⟨transferId, operation, entries, rfl⟩ | ⟨theme, rfl⟩) <;>
    exact relaunches

def Untouched (before after : World) : Prop := after.1.specs = before.1.specs

instance : Std.Refl Untouched := ⟨fun _ => rfl⟩

instance : IsTrans World Untouched := ⟨fun _ _ _ first second => second.trans first⟩

theorem lenient_untouched : Lenient Untouched where
  note beside := beside.specs
  tell _ := rfl

namespace Supervising

theorem untouched_openSettingsWindow (codecs : Codecs) (id : String) (spec : LaunchSpec)
    (theme : List (String × String)) :
    (handleCommand codecs around (.openSettingsWindow id spec theme)).Along Untouched := by
  refine .bind .task fun state => .ite (lenient_untouched.orReject _ ?_) (.pure _)
  refine .bind .task fun _ => .ite (.pure _) (.bind (Lenient.answered _) fun _ => ?_)
  refine .bind (Lenient.answered _) fun _ => .bind (.update fun _ _ => rfl) fun _ => ?_
  refine .bind (Lenient.answered _) fun _ => .bind (.emit fun _ _ => rfl) fun _ => ?_
  exact .bind (.update fun _ _ => rfl) fun _ => .emit fun _ _ => rfl

theorem untouched_startTransfer {transferId : String}
    (refused : validTransferId transferId = false ∨ .transfer id transferId ∈ state.processes)
    (spec : LaunchSpec) (manifest : Message) (log : List Effect) :
    Untouched (state, log)
      ((startTransfer around id spec transferId manifest).stateAfter (state, log)) := by
  refine Handler.Ensures.stateAfter ?_
  rw [startTransfer, ensures_ite]
  refine ⟨fun _ => lenient_untouched.reject _ _ _, fun valid => ?_⟩
  have there : .transfer id transferId ∈ state.processes :=
    refused.resolve_left fun invalid => valid (by rw [invalid]; rfl)
  rw [ensures_bind, ensures_task, ensures_ite]
  exact ⟨fun _ => lenient_untouched.reject _ _ _, fun fresh => absurd there fresh⟩

theorem registered_startPlugin (codecs : Codecs)
    (stopped : .resident id ∉ state.processes) (new : LaunchSpec)
    (settings : List (String × String)) (log : List Effect) {spec : LaunchSpec}
    (found : ((startPlugin around id new settings).stateAfter (state, log)).1.specs.lookup id =
      some spec) : spec = new := by
  have started : (startPlugin around id new settings).Attains (state, log)
      fun after => ∀ spec, after.1.specs.lookup id = some spec → spec = new := by
    rw [Handler.Attains, startPlugin, ensures_bind, ensures_task, ensures_ite]
    refine ⟨fun there => absurd there stopped, fun _ => ?_⟩
    have runs : (orReject (.resident id) (spawnAdapter around (.resident id))).Along
        (Runs codecs around (.command (.startPlugin id new settings))) :=
      lenient_runs.orReject _ (moves_spawnAdapter _)
    have settled {state : State} (own : state.specs.lookup id = some new) {after : World}
        (runs : Runs codecs around (.command (.startPlugin id new settings)) (state, log) after)
        (spec : LaunchSpec) (found : after.1.specs.lookup id = some spec) : spec = new := by
      rcases runs.recalls.specs id spec found with known | asked
      · exact Option.some.inj (known.symm.trans own)
      · rcases asked with ⟨_, same⟩ | ⟨_, _, _, same⟩ | ⟨_, same⟩ <;> cases same
        rfl
    exact (runs _).mono (fun _ _ runs => settled (AList.lookup_insert _) runs)
      fun _ _ runs => settled (AList.lookup_insert _) runs
  exact Handler.Ensures.stateAfter started spec found

end Supervising

theorem specs_supervise (codecs : Codecs) {last : Option LaunchSpec}
    {input : Surroundings × SupervisorInput}
    (before : state.stopping = false → ∀ spec, state.specs.lookup id = some spec → last = some spec)
    (repeating : Repeating id last state input.2)
    (running : (supervise codecs state input).1.stopping = false) {spec : LaunchSpec}
    (found : (supervise codecs state input).1.specs.lookup id = some spec) :
    (input.2.starts id).or last = some spec := by
  obtain ⟨around, input⟩ := input
  have recalls := (supervise_runs codecs state around input).recalls
  cases stopping : state.stopping with
  | true =>
    rw [supervise, if_pos stopping, stopping] at running
    cases running
  | false =>
    have before := before stopping
    have handled : supervise codecs state (around, input) =
        (handle codecs around input).stateAfter (state, []) := by
      rw [supervise, stopping]
      rfl
    cases input with
    | process event =>
      have relaunches : (process event).Relaunches := trivial
      exact before spec (recalls.kept relaunches.not_requests found)
    | command command =>
      cases command with
      | startPlugin other new settings =>
        by_cases own : other = id
        · subst own
          rw [starts, if_pos rfl, Option.some_or]
          by_cases there : .resident other ∈ state.processes
          · have same : last = some new := repeating rfl there
            rcases recalls.specs other spec found with known | asked
            · exact same.symm.trans (before spec known)
            · rcases asked with ⟨_, same⟩ | ⟨_, _, _, same⟩ | ⟨_, same⟩ <;> cases same
              rfl
          · rw [handled] at found
            rw [registered_startPlugin codecs there new settings [] found]
        · rw [starts, if_neg own, Option.none_or]
          refine before spec (recalls.kept ?_ found)
          rintro _ (⟨_, same⟩ | ⟨_, _, _, same⟩ | ⟨_, same⟩) <;> cases same
          exact own rfl
      | startTransfer other new transferId =>
        by_cases own : other = id
        · subst own
          by_cases started : validTransferId transferId = true ∧
              .transfer other transferId ∉ state.processes
          · have same : last = some new := repeating rfl started.1 started.2
            rcases recalls.specs other spec found with known | asked
            · exact before spec known
            · rcases asked with ⟨_, same⟩ | ⟨_, _, _, asked⟩ | ⟨_, same⟩
              · cases same
              · cases asked
                exact same
              · cases same
          · have refused : validTransferId transferId = false ∨
                .transfer other transferId ∈ state.processes := by
              by_contra both
              rw [not_or, Bool.not_eq_false] at both
              exact started both
            have same : Untouched (state, []) (supervise codecs state _) :=
              handled ▸ untouched_startTransfer refused new _ []
            exact before spec (same ▸ found)
        · refine before spec (recalls.kept ?_ found)
          rintro _ (⟨_, same⟩ | ⟨_, _, _, same⟩ | ⟨_, same⟩) <;> cases same
          exact own rfl
      | openSettingsWindow other new theme =>
        have same : Untouched (state, []) (supervise codecs state _) :=
          handled ▸ Handler.Ensures.stateAfter
            (untouched_openSettingsWindow codecs other new theme (state, []))
        exact before spec (same ▸ found)
      | _ =>
        refine before spec (recalls.kept ?_ found)
        rintro _ (⟨_, same⟩ | ⟨_, _, _, same⟩ | ⟨_, same⟩) <;> cases same

/-- The state after these inputs. -/
def reached (codecs : Codecs) (inputs : List (Surroundings × SupervisorInput)) : State :=
  (outcome (supervise codecs) .new inputs).1

/-- What is relaunched has the arguments and approvals of its last start. -/
def Repeats (codecs : Codecs) (id : String) (inputs : List (Surroundings × SupervisorInput)) :
    Prop :=
  ∀ earlier around input, earlier ++ [(around, input)] <+: inputs → input.Relaunches →
    ∀ generation spec args theme, .spawned (.resident id) generation spec args theme ∈
      (supervise codecs (reached codecs earlier) (around, input)).2 →
        lastStart id earlier = some spec ∧ args = spec.args

/-- A process that is launched again is launched as it was started last, if starts of what runs
already repeat that. -/
theorem repeats_of_repeating {codecs : Codecs} {id : String}
    {inputs : List (Surroundings × SupervisorInput)}
    (repeating : ∀ earlier input, earlier ++ [input] <+: inputs →
      Repeating id (lastStart id earlier) (reached codecs earlier) input.2) :
    Repeats codecs id inputs := by
  have remembered (earlier : List (Surroundings × SupervisorInput)) (early : earlier <+: inputs) :
      (reached codecs earlier).stopping = false → ∀ spec,
        (reached codecs earlier).specs.lookup id = some spec →
          lastStart id earlier = some spec := by
    induction earlier using List.reverseRecOn with
    | nil => exact fun _ spec found => absurd found.symm (Option.some_ne_none spec)
    | append_singleton earlier input ih =>
      intro running spec found
      rw [reached, outcome_concat] at running found
      rw [lastStart_concat]
      have before := ih ((List.prefix_append earlier [input]).trans early)
      exact specs_supervise codecs before (repeating earlier input early) running found
  intro earlier around input early relaunches generation spec args theme spawned
  have runs := supervise_runs codecs (reached codecs earlier) around input
  rcases runs.recalls.launches id generation spec args theme spawned with none | ⟨own, known⟩
  · exact absurd none List.not_mem_nil
  · have known := known.resolve_right (relaunches.not_requests spec)
    refine ⟨remembered earlier ((List.prefix_append _ _).trans early) ?_ spec known, own⟩
    by_contra stopping
    rw [Bool.not_eq_false] at stopping
    rw [supervise, if_pos stopping] at spawned
    exact List.not_mem_nil spawned

namespace Window

def exits (transfer : LaunchSpec) : List (Surroundings × SupervisorInput) :=
  [(Window.around, .command (.startPlugin "window" spec [])),
    (Window.around, .command (.startTransfer "window" transfer "t" .copy [])),
    (Window.around, .process (.exited (.resident "window") 1 "exit status: 1"))]

def mounting : LaunchSpec := { spec with args := ["--mount"], role := some .fileClipboard }

end Window

theorem window_repeats : Repeats Window.codecs "window" (Window.exits Window.spec) := by
  refine repeats_of_repeating fun earlier _ early => ?_
  rcases earlier with _ | ⟨_, _ | ⟨_, _ | ⟨_, _⟩⟩⟩ <;>
    simp only [Window.exits, List.nil_append, List.cons_append, List.cons_prefix_cons,
      List.prefix_nil, List.append_eq_nil_iff, List.cons_ne_nil, and_false] at early
  · rw [early.1]
    exact fun _ there => absurd there (by decide)
  · rw [early.1, early.2.1]
    exact fun _ _ _ => rfl
  · rw [early.2.2.1]
    trivial

/-- The plugin comes back as the process of a transfer. -/
theorem window_mounts : ¬Repeats Window.codecs "window" (Window.exits Window.mounting) := by
  intro repeats
  have relaunched := repeats ((Window.exits Window.mounting).take 2) Window.around
    (.process (.exited (.resident "window") 1 "exit status: 1")) List.prefix_rfl trivial 3
    Window.mounting ["--mount"] none (by decide +kernel)
  exact absurd relaunched.1 (by decide)

end Syntra.Plugins
