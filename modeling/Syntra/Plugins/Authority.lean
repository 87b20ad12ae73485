import Syntra.Plugins.Moves

/-!
# Who may act

A frame is passed on only for the process that is registered, after its handshake and within its
grant, and what comes from another generation is dropped. That the registered process is the one
that was started last, and that it announced itself since, is read off the effects of the whole run
(`Accounted`).
-/

namespace Syntra.Plugins

open StateMachine Tables Supervising List

/-- An effect that starts or ends a process of this identity. -/
def Effect.Concerns (adapter : AdapterId) : Effect → Prop
  | .spawned other .. | .ended other _ => other = adapter
  | .report _ | .written .. => False

/-- Among the effects, the process was started, was neither ended nor started again since, and
reported its handshake if it has a grant. -/
def Announced (log : List Effect) (adapter : AdapterId) (runtime : AdapterRuntime) : Prop :=
  ∃ earlier later args theme,
    log = earlier ++ .spawned adapter runtime.generation runtime.spec args theme :: later ∧
      (∀ effect ∈ later, ¬effect.Concerns adapter) ∧
      ∀ grant, runtime.grant = some grant → .report (.ready adapter grant) ∈ later

namespace Announced

variable {log : List Effect} {adapter : AdapterId} {runtime : AdapterRuntime}

theorem concat (announced : Announced log adapter runtime) (effect : Effect)
    (apart : ¬effect.Concerns adapter) : Announced (log ++ [effect]) adapter runtime := by
  obtain ⟨earlier, later, args, theme, rfl, quiet, ready⟩ := announced
  refine ⟨earlier, later ++ [effect], args, theme, by simp, ?_, ?_⟩
  · intro other member
    rcases mem_append.mp member with old | new
    · exact quiet other old
    · exact mem_singleton.mp new ▸ apart
  · exact fun grant granted => mem_append_left _ (ready grant granted)

theorem ready (announced : Announced log adapter runtime) (grant : Grant) :
    Announced (log ++ [.report (.ready adapter grant)]) adapter
      { runtime with grant := some grant } := by
  obtain ⟨earlier, later, args, theme, rfl, quiet, -⟩ := announced
  refine ⟨earlier, later ++ [.report (.ready adapter grant)], args, theme, by simp, ?_, ?_⟩
  · intro other member
    rcases mem_append.mp member with old | new
    · exact quiet other old
    · rw [mem_singleton.mp new]
      exact id
  · rintro _ ⟨⟩
    exact mem_append_right _ (mem_singleton_self _)

end Announced

/-- Every registered process is announced in what was done before the step and in it. -/
def Accounted (before : List Effect) (world : World) : Prop :=
  ∀ adapter runtime, world.1.processes.lookup adapter = some runtime →
    Announced (before ++ world.2) adapter runtime

variable {codecs : Codecs} {around : Surroundings} {input : SupervisorInput} {before : List Effect}

theorem Accounted.concat {state later : State} {log : List Effect} {effect : Effect}
    (accounted : Accounted before (state, log)) (same : later.processes = state.processes)
    (apart : ∀ adapter, ¬effect.Concerns adapter) : Accounted before (later, log ++ [effect]) := by
  intro adapter runtime found
  rw [same] at found
  have announced := (accounted adapter runtime found).concat effect (apart adapter)
  simpa using announced

variable {world later : World}

theorem Move.accounted (move : Move codecs around input world later)
    (accounted : Accounted before world) : Accounted before later := by
  cases move with
  | note agrees =>
    intro adapter runtime found
    rw [agrees.processes] at found
    exact accounted adapter runtime found
  | tell quiet =>
    refine accounted.concat rfl fun adapter concerns => ?_
    revert concerns quiet
    rename_i effect
    cases effect <;> simp [Effect.Concerns, Effect.Quiet]
  | finish found =>
    rename_i state log ended endedRuntime
    intro adapter runtime registered
    rw [lookup_erase] at registered
    split at registered
    · cases registered
    · rename_i other
      have announced := (accounted adapter runtime registered).concat
        (.ended ended endedRuntime.generation) fun same => other same.symm
      simpa using announced
  | accept found announced =>
    rename_i state log admitted admittedRuntime
    intro adapter runtime registered
    simp only [State.admitted, lookup_insert] at registered
    split at registered
    · rename_i same
      simp only [Option.some.injEq] at registered
      subst same registered
      simpa using (accounted adapter admittedRuntime found).ready _
    · have kept := (accounted adapter runtime registered).concat
        (.report (.ready admitted (.fromHandshake admittedRuntime.spec.approved announced))) id
      simpa using kept
  | register => exact accounted
  | forget => exact accounted
  | count => exact accounted
  | start pid theme sourced verified counted =>
    rename_i state log started spec generation
    intro adapter runtime registered
    simp only [State.launched, lookup_insert] at registered
    split at registered
    · rename_i same
      simp only [Option.some.injEq] at registered
      subst same registered
      refine ⟨before ++ log, [.report (.started adapter pid)], _, theme, by simp; rfl, ?_, ?_⟩
      · rintro _ member
        rw [mem_singleton.mp member]
        exact id
      · rintro _ ⟨⟩
    · rename_i other
      have kept := ((accounted adapter runtime registered).concat
        (.spawned started generation spec (commandArgs started spec) theme)
          fun same => other same.symm).concat (.report (.started started pid)) id
      simpa using kept
  | pass => exact accounted.concat rfl fun _ => id

theorem Runs.accounted (runs : Runs codecs around input world later)
    (accounted : Accounted before world) : Accounted before later := by
  induction runs with
  | refl => exact accounted
  | tail _ move ih => exact move.accounted ih

theorem accounted_outcome (codecs : Codecs) (inputs : List (Surroundings × SupervisorInput)) :
    Accounted (outcome (supervise codecs) State.new inputs).2
      ((outcome (supervise codecs) State.new inputs).1, []) := by
  refine outcome_accounts (fun state log => Accounted log (state, [])) ?_ ?_ inputs
  · intro state _ input accounted
    have after := (supervise_runs codecs state input.1 input.2).accounted accounted
    intro adapter runtime found
    simpa using after adapter runtime found
  · rintro _ _ ⟨⟩

theorem Runs.passed (runs : Runs codecs around input world later) {adapter : AdapterId}
    {message : Message} (member : .report (.message adapter message) ∈ later.2) :
    .report (.message adapter message) ∈ world.2 ∨
      ∃ (state : State) (log rest : List Effect) (runtime : AdapterRuntime) (grant : Grant)
        (line : String), Runs codecs around input world (state, log) ∧
          later.2 = log ++ .report (.message adapter message) :: rest ∧
          state.processes.lookup adapter = some runtime ∧
          input = .process (.line adapter runtime.generation line) ∧
          codecs.decodeLine line = .ok message ∧
          runtime.grant = some grant ∧ Lawful adapter grant message := by
  induction runs with
  | refl => exact .inl member
  | @tail between later runs move ih =>
    -- what is among the effects before the last move was passed on earlier
    have earlier (more : List Effect) (split : later.2 = between.2 ++ more)
        (old : .report (.message adapter message) ∈ between.2) :
        .report (.message adapter message) ∈ world.2 ∨
          ∃ (state : State) (log rest : List Effect) (runtime : AdapterRuntime) (grant : Grant)
            (line : String), Runs codecs around input world (state, log) ∧
              later.2 = log ++ .report (.message adapter message) :: rest ∧
              state.processes.lookup adapter = some runtime ∧
              input = .process (.line adapter runtime.generation line) ∧
              codecs.decodeLine line = .ok message ∧
              runtime.grant = some grant ∧ Lawful adapter grant message := by
      refine (ih old).imp_right ?_
      rintro ⟨state, log, rest, runtime, grant, line, reached, same, facts⟩
      exact ⟨state, log, rest ++ more, runtime, grant, line, reached, by simp [split, same], facts⟩
    cases move with
    | note => exact earlier [] (by simp) member
    | tell quiet =>
      rename_i effect
      refine earlier [effect] rfl ?_
      rcases mem_append.mp member with old | new
      · exact old
      · rw [mem_singleton] at new
        subst new
        exact quiet.elim
    | finish | accept => exact earlier _ rfl (by simpa using member)
    | register => exact earlier [] (by simp) member
    | forget => exact earlier [] (by simp) member
    | count => exact earlier [] (by simp) member
    | start =>
      exact earlier _ (append_assoc _ _ _) (by simpa using member)
    | @pass state log other runtime grant sent line found named decoded granted lawful =>
      rcases mem_append.mp member with old | new
      · exact earlier _ rfl old
      · simp only [mem_singleton, Effect.report.injEq, ManagerEvent.message.injEq] at new
        obtain ⟨rfl, rfl⟩ := new
        exact .inr ⟨state, log, [], runtime, grant, line, runs, rfl, found, named, decoded,
          granted, lawful⟩

def ProcessEvent.adapter : ProcessEvent → AdapterId
  | .line adapter .. | .diagnostic adapter .. | .failed adapter .. | .exited adapter .. => adapter

def ProcessEvent.generation : ProcessEvent → UInt64
  | .line _ generation _ | .diagnostic _ generation _ | .failed _ generation _
  | .exited _ generation _ => generation

theorem supervise_stale {state : State} {event : ProcessEvent}
    (stale : current state event.adapter event.generation = false) :
    supervise codecs state (around, .process event) = (state, []) := by
  have ignored : (handleProcessEvent codecs around event).Attains (state, [])
      fun after => after = (state, []) := by
    have uncounted : ¬current state event.adapter event.generation = true := by
      simp [stale]
    cases event with
    | line | diagnostic | failed | exited =>
      exact Handler.ensures_ite.mpr ⟨fun counts => absurd counts uncounted, fun _ => rfl⟩
  rw [supervise]
  split
  · rfl
  · exact Handler.Ensures.stateAfter ignored

/-- In every run a frame is passed on only for the process that is registered under the identity and
the generation of its line, and that was started last, announced itself since and has not ended; the
frame is within its grant and about its own transfer. What comes from any other generation changes
nothing. -/
theorem message_of_registered (codecs : Codecs) (earlier : List (Surroundings × SupervisorInput))
    (around : Surroundings) (input : SupervisorInput) :
    let run := outcome (supervise codecs) State.new earlier
    let step := supervise codecs run.1 (around, input)
    (∀ adapter message, .report (.message adapter message) ∈ step.2 →
      ∃ generation line, input = .process (.line adapter generation line) ∧
        codecs.decodeLine line = .ok message ∧
        Supervising.current run.1 adapter generation = true ∧
        ∃ log rest runtime grant, step.2 = log ++ .report (.message adapter message) :: rest ∧
          runtime.generation = generation ∧ runtime.grant = some grant ∧
          Announced (run.2 ++ log) adapter runtime ∧ Lawful adapter grant message) ∧
    ∀ event, input = .process event →
      Supervising.current run.1 event.adapter event.generation = false → step = (run.1, []) := by
  intro run step
  refine ⟨?_, ?_⟩
  · intro adapter _ member
    have runs : Runs codecs around input (run.1, []) step :=
      supervise_runs codecs run.1 around input
    rcases runs.passed member with none | ⟨_, log, rest, runtime, grant, line, reached, same,
      found, named, decoded, granted, lawful⟩
    · cases none
    · have announced := reached.accounted (accounted_outcome codecs earlier) adapter runtime found
      refine ⟨runtime.generation, line, named, decoded, ?_, log, rest, runtime, grant, same, rfl,
        granted, announced, lawful⟩
      by_contra stale
      subst named
      have nothing : step = (run.1, []) := supervise_stale (Bool.eq_false_of_not_eq_true stale)
      rw [nothing] at member
      cases member
  · rintro _ rfl stale
    exact supervise_stale stale

end Syntra.Plugins
