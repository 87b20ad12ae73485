import Syntra.Plugins.Supervision

/-!
# The moves of the supervisor

Whatever the supervisor answers is made of few moves. What is said of the processes over a run is
proved for each move once.
-/

namespace Syntra.Plugins

open StateMachine Tables Supervising
open Handler (ensures_bind ensures_task ensures_update ensures_emit ensures_recover ensures_ite)

/-- The supervisor and its effects so far. -/
abbrev World := State × List Effect

/-- An effect that tells of no process that starts, ends, becomes ready or acts. -/
def Effect.Quiet : Effect → Prop
  | .report (.message ..) | .report (.ready ..) | .spawned .. | .ended .. => False
  | .report _ | .written .. => True

namespace State

/-- Two states agree on the processes and on how to launch them. -/
structure Agrees (state later : State) : Prop where
  processes : later.processes = state.processes
  specs : later.specs = state.specs
  nextGeneration : later.nextGeneration = state.nextGeneration

theorem Agrees.refl (state : State) : state.Agrees state := ⟨rfl, rfl, rfl⟩

def admitted (state : State) (adapter : AdapterId) (runtime : AdapterRuntime) (grant : Grant) :
    State :=
  { state with processes := state.processes.insert adapter { runtime with grant := some grant } }

def launched (state : State) (adapter : AdapterId) (generation : UInt64) (spec : LaunchSpec) :
    State :=
  { state with processes := state.processes.insert adapter ⟨generation, spec, none⟩ }

end State

/-- A frame that a process with this grant may send: it is permitted, and every transfer it names is
well-formed and, for a per-transfer process, its own. -/
structure Lawful (adapter : AdapterId) (grant : Grant) (message : Message) : Prop where
  permitted : grant.permits message = true
  transfers : ∀ transferId, messageTransferId message = some transferId →
    validTransferId transferId = true ∧ ∀ own, adapter.servedTransfer = some own → transferId = own

/-- A command that asks for a process of a plugin, and how. -/
def SupervisorInput.Requests (input : SupervisorInput) (id : String) (spec : LaunchSpec) : Prop :=
  (∃ settings, input = .command (.startPlugin id spec settings)) ∨
    (∃ transferId operation entries,
      input = .command (.startTransfer id spec transferId operation entries)) ∨
    ∃ theme, input = .command (.openSettingsWindow id spec theme)

/-- Where the launch of a process comes from: the table, or for a settings window the command. -/
def Sourced (state : State) (input : SupervisorInput) (adapter : AdapterId) (spec : LaunchSpec) :
    Prop :=
  state.specs.lookup adapter.plugin = some spec ∨
    ∃ id, adapter = .settings id ∧ input.Requests id spec

/-- One move of the supervisor. -/
inductive Move (codecs : Codecs) (around : Surroundings) (input : SupervisorInput) :
    World → World → Prop
  | note {state later : State} {log : List Effect} (agrees : state.Agrees later) :
      Move codecs around input (state, log) (later, log)
  | tell {state : State} {log : List Effect} {effect : Effect} (quiet : effect.Quiet) :
      Move codecs around input (state, log) (state, log ++ [effect])
  | finish {state : State} {log : List Effect} {adapter : AdapterId} {runtime : AdapterRuntime}
      (found : state.processes.lookup adapter = some runtime) :
      Move codecs around input (state, log)
        ({ state with processes := state.processes.erase adapter },
          log ++ [.ended adapter runtime.generation])
  | accept {state : State} {log : List Effect} {adapter : AdapterId} {runtime : AdapterRuntime}
      (found : state.processes.lookup adapter = some runtime) (announced : Capabilities) :
      Move codecs around input (state, log)
        (state.admitted adapter runtime (.fromHandshake runtime.spec.approved announced),
          log ++ [.report (.ready adapter (.fromHandshake runtime.spec.approved announced))])
  | register {state : State} {log : List Effect} {id : String} {spec : LaunchSpec}
      (requests : input.Requests id spec) :
      Move codecs around input (state, log)
        ({ state with specs := state.specs.insert id spec }, log)
  | forget {state : State} {log : List Effect} (id : String) :
      Move codecs around input (state, log) ({ state with specs := state.specs.erase id }, log)
  | count {state : State} {log : List Effect} :
      Move codecs around input (state, log)
        ({ state with nextGeneration := Supervising.nextGeneration state.nextGeneration }, log)
  | start {state : State} {log : List Effect} {adapter : AdapterId} {spec : LaunchSpec}
      {generation : UInt64} (pid : UInt32) (theme : Option String)
      (sourced : Sourced state input adapter spec)
      (verified : verifyContent around spec = .ok ())
      (counted : state.nextGeneration = Supervising.nextGeneration generation) :
      Move codecs around input (state, log)
        (state.launched adapter generation spec,
          log ++ [.spawned adapter generation spec (Supervising.commandArgs adapter spec) theme] ++
            [.report (.started adapter pid)])
  | pass {state : State} {log : List Effect} {adapter : AdapterId} {runtime : AdapterRuntime}
      {grant : Grant} {message : Message} {line : String}
      (found : state.processes.lookup adapter = some runtime)
      (named : input = .process (.line adapter runtime.generation line))
      (decoded : codecs.decodeLine line = .ok message)
      (granted : runtime.grant = some grant) (lawful : Lawful adapter grant message) :
      Move codecs around input (state, log) (state, log ++ [.report (.message adapter message)])

/-- A sequence of moves. -/
def Runs (codecs : Codecs) (around : Surroundings) (input : SupervisorInput) :
    World → World → Prop :=
  Relation.ReflTransGen (Move codecs around input)

variable {codecs : Codecs} {around : Surroundings} {input : SupervisorInput}

instance : Std.Refl (Runs codecs around input) where
  refl _ := .refl

instance : IsTrans World (Runs codecs around input) where
  trans _ _ _ first second := Relation.ReflTransGen.trans first second

/-! ## Handlers beside the table

Most handlers only note something beside the table of processes and tell of it, unless a process
fails meanwhile. They are followed once, for every relation that allows this. -/

/-- Two states differ in nothing that is said of processes. -/
structure State.Beside (state later : State) : Prop extends state.Agrees later where
  restarts : later.restarts = state.restarts
  stopping : later.stopping = state.stopping

/-- An effect that says nothing of processes. -/
def Effect.Plain : Effect → Prop
  | .report (.cancelled ..) | .report (.rejected ..) | .report (.diagnostics ..) | .written .. =>
    True
  | .report _ | .spawned .. | .ended .. => False

/-- A command that is handed to one process, which it neither starts nor stops. -/
def ManagerCommand.target : ManagerCommand → Option AdapterId
  | .pluginSettings id _ | .pluginChangeSetting id .. | .pluginOpenSettings id _
  | .pluginPointer id _ | .publishFileClipboard id .. | .clipboardData id .. | .released id _ =>
    some (.resident id)
  | .rangeResponse id response => some (.transfer id response.transferId)
  | .unmounted id message => some (.transfer id message.transferId)
  | .cancel adapter _ => some adapter
  | .startPlugin .. | .startTransfer .. | .stopPlugin _ | .restartPlugin _
  | .openSettingsWindow .. | .shutdown => none

/-- A relation that allows notes and words that say nothing of processes. -/
structure Lenient (relation : World → World → Prop) : Prop where
  note {state later : State} {log : List Effect} :
    state.Beside later → relation (state, log) (later, log)
  tell {state : State} {log : List Effect} {effect : Effect} :
    effect.Plain → relation (state, log) (state, log ++ [effect])

def Fails (around : Surroundings) (relation : World → World → Prop) (adapter : AdapterId) : Prop :=
  ∀ reason, (Supervising.failAdapter around adapter reason).Along relation

namespace Supervising

theorem validateHandshake_ok {acceptsId : String → Bool} {approved : Capabilities}
    {message : Message} {expectedRole : Option PluginRole} {grant : Grant}
    (taken : validateHandshake acceptsId approved message expectedRole = .ok grant) :
    ∃ announced, grant = .fromHandshake approved announced := by
  cases message with
  | hello _ _ _ capabilities =>
    refine ⟨capabilities, ?_⟩
    simp only [validateHandshake] at taken
    repeat' split at taken
    all_goals cases taken
    rfl
  | _ => cases taken

end Supervising

namespace Lenient

open Supervising
open Handler (task update emit)

variable {codecs : Codecs} {around : Surroundings} {adapter : AdapterId}
  {relation : World → World → Prop}

theorem noted (lenient : Lenient relation) {change : State → State}
    (beside : ∀ state : State, state.Beside (change state)) :
    (update change : Supervising Unit).Along relation :=
  .update fun state _ => lenient.note (beside state)

theorem told (lenient : Lenient relation) {event : ManagerEvent}
    (plain : (Effect.report event).Plain) : (report event).Along relation :=
  .emit fun _ _ => lenient.tell plain

theorem reject (lenient : Lenient relation) (adapter : Option AdapterId) (reason : String) :
    (reject adapter reason).Along relation :=
  lenient.told trivial

variable [Std.Refl relation]

theorem answered {α : Type} (answer : Except String α) : (answered answer).Along relation := by
  cases answer with
  | ok value => exact .pure value
  | error reason => exact .stop reason

variable [IsTrans World relation]

variable (lenient : Lenient relation)
include lenient

omit [Std.Refl relation] in
theorem orReject {starting : Supervising Unit} (adapter : AdapterId)
    (along : starting.Along relation) : (orReject adapter starting).Along relation :=
  .recover along fun _ => lenient.reject _ _

theorem cancelOwned (adapter : AdapterId) : (cancelOwned around adapter).Along relation := by
  refine .bind .task fun state => .bind (lenient.noted fun _ => ?_) fun _ => .each fun _ => ?_
  · cases adapter <;> exact ⟨⟨rfl, rfl, rfl⟩, rfl, rfl⟩
  · exact .bind (lenient.noted fun _ => ⟨⟨rfl, rfl, rfl⟩, rfl, rfl⟩) fun _ => lenient.told trivial

theorem trySend (adapter : AdapterId) (runtime : AdapterRuntime) (message : Message) :
    (trySend around adapter runtime message).Along relation := by
  refine .bind .read fun _ => .ite (.bind ?_ fun _ => .pure _) (.pure _)
  exact .emit fun _ _ => lenient.tell trivial

theorem sendReady (fails : Fails around relation adapter) (message : Message) :
    (sendReady around adapter message).Along relation := by
  refine .bind .task fun _ => ?_
  split
  · exact lenient.reject _ _
  · refine .ite (lenient.reject _ _) (.bind (lenient.trySend _ _ _) fun outcome => ?_)
    cases outcome with
    | sent => exact .pure _
    | full | closed => exact fails _

theorem sendDroppable (fails : Fails around relation adapter) (message : Message) :
    (sendDroppable around adapter message).Along relation := by
  refine .bind .task fun _ => ?_
  split
  · exact .pure _
  · refine .bind (lenient.trySend _ _ _) fun outcome => ?_
    cases outcome with
    | sent | full => exact .pure _
    | closed => exact fails _

theorem noteRange (message : Message) : (noteRange message).Along relation := by
  unfold Supervising.noteRange
  split
  · exact .bind .task fun _ => .ite (.stop _) (.ite (.stop _)
      (.bind (lenient.noted fun _ => ⟨⟨rfl, rfl, rfl⟩, rfl, rfl⟩) fun _ =>
        .ite (.stop _) (.pure _)))
  · exact .pure _

theorem validateInbound (adapter : AdapterId) (message : Message) :
    (validateInbound adapter message).Along relation := by
  refine .bind .task fun _ => ?_
  split
  · exact .stop _
  · refine .ite (.stop _) ?_
    split
    · exact answered _
    · exact .bind (answered _) fun _ => .bind (lenient.noteRange _) fun _ => answered _

theorem handOver {id : String} (fails : Fails around relation (.resident id)) :
    (handOver around id).Along relation := by
  refine .bind .task fun state => .bind (lenient.sendReady fails _) fun _ => .bind .task fun _ => ?_
  exact .bind (lenient.noted fun _ => ⟨⟨rfl, rfl, rfl⟩, rfl, rfl⟩) fun _ =>
    .each fun _ => lenient.sendReady fails _

theorem welcome (fails : Fails around relation adapter) :
    (welcome around adapter).Along relation := by
  refine .bind .task fun state =>
    .bind (lenient.noted fun _ => ⟨⟨rfl, rfl, rfl⟩, rfl, rfl⟩) fun _ => ?_
  refine .bind ?_ fun _ => ?_
  · cases state.pendingMessages.lookup adapter with
    | none => exact .pure _
    | some pending => exact lenient.sendReady fails pending
  · cases adapter with
    | resident => exact lenient.handOver fails
    | transfer | settings => exact .pure _

theorem acceptHandshake (fails : Fails around relation adapter)
    (accepts : ∀ {state : State} {log : List Effect} {runtime : AdapterRuntime},
      state.processes.lookup adapter = some runtime → ∀ announced,
      relation (state, log)
        (state.admitted adapter runtime (.fromHandshake runtime.spec.approved announced),
          log ++ [.report (.ready adapter (.fromHandshake runtime.spec.approved announced))]))
    (message : Message) : (acceptHandshake around adapter message).Along relation := by
  rintro ⟨state, _⟩
  rw [Supervising.acceptHandshake, ensures_bind, ensures_task]
  cases found : state.processes.lookup adapter with
  | none => exact refl_of relation _
  | some =>
    dsimp only
    split
    · exact fails _ _
    · rename_i grant taken
      obtain ⟨announced, rfl⟩ := validateHandshake_ok taken
      exact (lenient.welcome fails).onward (accepts found announced)

theorem takeDiagnostic (plugin line : String) : (takeDiagnostic plugin line).Along relation :=
  .bind .task fun _ => .bind (lenient.noted fun _ => ⟨⟨rfl, rfl, rfl⟩, rfl, rfl⟩) fun _ =>
    lenient.told trivial

theorem answerRange {id : String} {response : Clipboard.RangeResponse}
    (fails : Fails around relation (.transfer id response.transferId)) :
    (answerRange codecs around id response).Along relation := by
  refine .bind .task fun _ => ?_
  split
  · exact lenient.reject _ _
  · refine .bind (lenient.noted fun _ => ⟨⟨rfl, rfl, rfl⟩, rfl, rfl⟩) fun _ => ?_
    refine .ite (.bind (lenient.reject _ _) fun _ => fails _) (.ite (lenient.sendReady fails _) ?_)
    split
    · exact .ite (lenient.sendReady fails _) (.bind (lenient.reject _ _) fun _ => fails _)
    · exact .bind (lenient.reject _ _) fun _ => fails _

theorem handleCommand {command : ManagerCommand} (target : command.target = some adapter)
    (fails : Fails around relation adapter) :
    (handleCommand codecs around command).Along relation := by
  cases command <;> cases target
  case rangeResponse => exact lenient.answerRange fails
  case publishFileClipboard | clipboardData => exact lenient.sendReady fails _
  case pluginPointer =>
    exact .bind .task fun _ => .ite (lenient.sendDroppable fails _) (.pure _)
  case pluginOpenSettings => exact .bind .task fun _ => .ite (lenient.sendReady fails _) (.pure _)
  case pluginSettings =>
    exact .bind (lenient.noted fun _ => ⟨⟨rfl, rfl, rfl⟩, rfl, rfl⟩) fun _ =>
      .bind .task fun _ => .ite (lenient.sendReady fails _) (.pure _)
  case pluginChangeSetting =>
    exact .bind .task fun _ => .ite (lenient.sendReady fails _)
      (lenient.noted fun _ => ⟨⟨rfl, rfl, rfl⟩, rfl, rfl⟩)
  case unmounted =>
    exact .bind .task fun _ => .ite (lenient.reject _ _) (lenient.sendReady fails _)
  all_goals
    refine .bind .task fun _ => .bind (lenient.noted fun _ => ?_) fun _ =>
      .ite (lenient.reject _ _) (lenient.sendReady fails _)
    try cases adapter
    all_goals exact ⟨⟨rfl, rfl, rfl⟩, rfl, rfl⟩

end Lenient

namespace Supervising

open Handler (task update emit)

theorem moves_update {change : State → State}
    (agrees : ∀ state : State, state.Agrees (change state)) :
    (update change : Supervising Unit).Along (Runs codecs around input) :=
  .update fun state _ => .single (.note (agrees state))

theorem moves_report {event : ManagerEvent} (quiet : (Effect.report event).Quiet) :
    (report event).Along (Runs codecs around input) :=
  .emit fun _ _ => .single (.tell quiet)

theorem lenient_runs : Lenient (Runs codecs around input) where
  note beside := .single (.note beside.toAgrees)
  tell {_ _ effect} plain := by
    refine .single (.tell ?_)
    cases effect with
    | report event => cases event <;> trivial
    | spawned | ended => exact plain
    | written => trivial

theorem moves_stopAdapter (adapter : AdapterId) :
    (stopAdapter adapter).Along (Runs codecs around input) := by
  rintro ⟨state, _⟩
  rw [stopAdapter, ensures_bind, ensures_task]
  cases found : state.processes.lookup adapter with
  | none => exact .refl
  | some => exact .single (.finish found)

theorem moves_failAdapter (adapter : AdapterId) (reason : String) :
    (failAdapter around adapter reason).Along (Runs codecs around input) :=
  .bind (moves_stopAdapter adapter) fun _ => .bind (lenient_runs.cancelOwned adapter) fun _ =>
    moves_report trivial

@[simp]
theorem ensures_answered {α : Type} {answer : Except String α} {before : World}
    {post : α → World → Prop} {stopped : String → World → Prop} :
    (answered answer).Ensures before post stopped ↔
      (∀ value, answer = .ok value → post value before) ∧
        ∀ reason, answer = .error reason → stopped reason before := by
  cases answer with
  | ok value =>
    have ends : (answered (.ok value)).Ensures before post stopped ↔ post value before := Iff.rfl
    simp [ends]
  | error reason =>
    have stops : (answered (.error reason : Except String α)).Ensures before post stopped ↔
        stopped reason before := Iff.rfl
    simp [stops]

variable {state : State} {log : List Effect} {adapter : AdapterId} {spec : LaunchSpec} {id : String}

theorem runs_launch {start : World} {generation : UInt64} {theme : Option String}
    (reached : Runs codecs around input start (state, log))
    (sourced : Sourced state input adapter spec) (verified : verifyContent around spec = .ok ())
    (counted : state.nextGeneration = nextGeneration generation) :
    (launch around adapter spec generation theme).Attains (state, log)
      (Runs codecs around input start) := by
  simp only [launch, report, ensures_bind, ensures_answered, ensures_emit, ensures_update]
  exact ⟨fun pid _ => reached.tail (.start pid theme sourced verified counted),
    fun _ _ => reached⟩

theorem moves_spawnAdapter (adapter : AdapterId) :
    (spawnAdapter around adapter).Along (Runs codecs around input) := by
  rintro ⟨state, log⟩
  rw [spawnAdapter, ensures_bind, ensures_task]
  cases found : state.specs.lookup adapter.plugin with
  | none => exact .refl
  | some =>
    simp only [ensures_bind, ensures_recover, ensures_answered,
      ensures_update, Handler.ensures_stop]
    refine ⟨fun _ verified => ⟨fun _ _ => ?_, fun _ _ => .refl⟩,
      fun _ _ => .single (.forget adapter.plugin)⟩
    have counted : Runs codecs around input (state, log)
        ({ state with
          nextGeneration := nextGeneration state.nextGeneration
          diagnostics := state.diagnostics.insert adapter.plugin [] }, log) :=
      .tail (.single .count) (.note ⟨rfl, rfl, rfl⟩)
    exact runs_launch counted (.inl found) verified rfl

theorem moves_spawnSettingsWindow {theme : List (String × String)}
    (requests : input.Requests id spec) :
    (spawnSettingsWindow around id spec theme).Along (Runs codecs around input) := by
  rintro ⟨state, log⟩
  rw [spawnSettingsWindow, ensures_bind, ensures_task]
  split
  · exact .refl
  · simp only [ensures_bind, ensures_answered, ensures_update]
    refine ⟨fun _ verified => ⟨fun _ _ => ?_, fun _ _ => .refl⟩, fun _ _ => .refl⟩
    have counted : Runs codecs around input (state, log)
        ({ state with nextGeneration := nextGeneration state.nextGeneration }, log) :=
      .single .count
    exact runs_launch counted (.inr ⟨id, rfl, requests⟩) verified rfl

theorem moves_relaunch (id : String) (terminal : Bool) :
    (relaunch around id terminal).Along (Runs codecs around input) := by
  refine .bind .task fun _ => .bind (moves_update fun _ => ⟨rfl, rfl, rfl⟩) fun _ => ?_
  refine .ite (.bind (moves_update fun _ => ⟨rfl, rfl, rfl⟩) fun _ => ?_) (.pure _)
  exact lenient_runs.orReject _ (moves_spawnAdapter _)

/-- What is done once the process of an adapter is gone. -/
def afterExit (around : Surroundings) (adapter : AdapterId) (reason : String) (terminal : Bool) :
    Supervising Unit := do
  report (.exited adapter reason)
  match adapter with
  | .resident id => relaunch around id terminal
  | .transfer .. | .settings _ => pure ()

theorem moves_processExit (adapter : AdapterId) (reason : String) :
    (processExit around adapter reason).Along (Runs codecs around input) := by
  refine .bind .task fun before => .bind (moves_update fun _ => ⟨rfl, rfl, rfl⟩) fun _ => ?_
  refine .bind (moves_stopAdapter adapter) fun _ => ?_
  have rest : (afterExit around adapter reason (decide (adapter ∈ before.terminal))).Along
      (Runs codecs around input) := by
    refine .bind (moves_report trivial) fun _ => ?_
    cases adapter with
    | resident id => exact moves_relaunch id _
    | transfer | settings => exact .pure _
  exact .ite (.bind (lenient_runs.cancelOwned adapter) fun _ => rest) rest

theorem noteRange_ensures (message : Message) (state : State) (log : List Effect) :
    (noteRange message).Attains (state, log) fun after => after.2 = log ∧ state.Agrees after.1 := by
  have kept : ((state, log) : World).2 = log ∧ state.Agrees (state, log).1 := ⟨rfl, .refl state⟩
  unfold noteRange Handler.Attains
  split
  · rw [ensures_bind, ensures_task]
    split
    · exact kept
    · split
      · exact kept
      · simp only [ensures_bind, ensures_update]
        split
        · exact ⟨rfl, rfl, rfl, rfl⟩
        · exact ⟨rfl, rfl, rfl, rfl⟩
  · exact kept

theorem validateTransfer_ok {message : Message}
    (checked : validateTransfer adapter message = .ok ()) :
    ∀ transferId, messageTransferId message = some transferId →
      validTransferId transferId = true ∧
        ∀ own, adapter.servedTransfer = some own → transferId = own := by
  intro _ named
  unfold validateTransfer at checked
  rw [named] at checked
  dsimp only at checked
  split at checked
  · cases checked
  · rename_i valid
    split at checked
    · cases checked
    · rename_i own
      refine ⟨by simpa using valid, ?_⟩
      intro _ serves
      simpa [serves] using own

theorem validateInbound_ensures (adapter : AdapterId) (message : Message) (state : State)
    (log : List Effect) :
    (validateInbound adapter message).Ensures (state, log)
      (fun _ after => after.2 = log ∧ state.Agrees after.1 ∧
        ∃ runtime grant, state.processes.lookup adapter = some runtime ∧
          runtime.grant = some grant ∧ Lawful adapter grant message)
      fun _ after => after.2 = log ∧ state.Agrees after.1 := by
  have kept : ((state, log) : World).2 = log ∧ state.Agrees (state, log).1 := ⟨rfl, .refl state⟩
  unfold validateInbound
  rw [ensures_bind, ensures_task]
  cases granted : (state.processes.lookup adapter).bind AdapterRuntime.grant with
  | none => exact kept
  | some grant =>
    obtain ⟨runtime, found, holds⟩ := Option.bind_eq_some_iff.mp granted
    dsimp only
    split
    · exact kept
    · rename_i permits
      have permitted : grant.permits message = true := by simpa using permits
      split
      · rw [ensures_answered]
        refine ⟨fun _ _ => ⟨rfl, .refl state, runtime, grant, found, holds, permitted, ?_⟩,
          fun _ _ => kept⟩
        rintro _ ⟨⟩
      · rw [ensures_bind, ensures_answered]
        refine ⟨fun _ checked => ensures_bind.mpr ?_, fun _ _ => kept⟩
        refine (noteRange_ensures _ state log).mono ?_ fun _ _ same => same
        rintro _ _ ⟨same, agrees⟩
        rw [ensures_answered]
        exact ⟨fun _ _ => ⟨same, agrees, runtime, grant, found, holds, permitted,
          validateTransfer_ok checked⟩, fun _ _ => ⟨same, agrees⟩⟩

theorem agrees_noteMessage (adapter : AdapterId) (message : Message) (state : State) :
    state.Agrees (noteMessage adapter message state) := by
  unfold noteMessage
  split
  all_goals try split
  all_goals exact ⟨rfl, rfl, rfl⟩

theorem runs_takeLine {line : String}
    (named : ∀ runtime, state.processes.lookup adapter = some runtime →
      input = .process (.line adapter runtime.generation line)) :
    (takeLine codecs around adapter line).Attains (state, log)
      (Runs codecs around input (state, log)) := by
  rw [Handler.Attains, takeLine, ensures_bind, ensures_task]
  split
  · exact moves_failAdapter adapter _ _
  · rename_i message decoded
    split
    · exact lenient_runs.acceptHandshake (moves_failAdapter adapter) (fun found announced =>
        .single (.accept found announced)) message _
    · simp only [ensures_recover, ensures_bind]
      refine (validateInbound_ensures adapter message state log).mono ?_ ?_
      · rintro _ ⟨later, written⟩ ⟨same, agrees, runtime, _, found, granted, lawful⟩
        subst same
        have noted : Runs codecs around input (state, written)
            (noteMessage adapter message later, written) :=
          .tail (.single (.note agrees)) (.note (agrees_noteMessage adapter message later))
        have still : (noteMessage adapter message later).processes.lookup adapter =
            some runtime := by
          rw [(agrees_noteMessage adapter message later).processes, agrees.processes]
          exact found
        exact noted.tail (.pass still (named runtime found) decoded granted lawful)
      · rintro reason ⟨_, _⟩ ⟨same, agrees⟩
        subst same
        exact (moves_failAdapter adapter reason).onward (.single (.note agrees))

theorem moves_handleProcessEvent (event : ProcessEvent) :
    (handleProcessEvent codecs around event).Along (Runs codecs around (.process event)) := by
  rintro ⟨_, _⟩
  cases event with
  | line _ generation =>
    refine ensures_ite.mpr ⟨fun counts => runs_takeLine ?_, fun _ => .refl⟩
    intro runtime found
    have same : runtime.generation = generation := by simpa [current, found] using counts
    rw [same]
  | diagnostic =>
    exact ensures_ite.mpr ⟨fun _ => lenient_runs.takeDiagnostic _ _ _, fun _ => .refl⟩
  | failed | exited =>
    exact ensures_ite.mpr ⟨fun _ => moves_processExit _ _ _, fun _ => .refl⟩

theorem moves_stopMarked (adapter : AdapterId) :
    (stopMarked adapter).Along (Runs codecs around input) :=
  .bind (moves_update fun _ => ⟨rfl, rfl, rfl⟩) fun _ => moves_stopAdapter adapter

theorem moves_forget (id : String) :
    (update fun state => { state with
      specs := state.specs.erase id, restarts := state.restarts.erase id } :
        Supervising Unit).Along (Runs codecs around input) :=
  .update fun _ _ => .tail (.single (.forget id)) (.note ⟨rfl, rfl, rfl⟩)

theorem moves_stopPlugin (id : String) :
    (stopPlugin around id).Along (Runs codecs around input) := by
  refine .bind .task fun _ => .bind (.each fun adapter => ?_) fun _ => moves_forget id
  exact .bind (moves_stopMarked adapter) fun _ => moves_report trivial

theorem moves_restartPlugin (id : String) :
    (restartPlugin around id).Along (Runs codecs around input) := by
  refine .bind .task fun state => .bind (.each fun adapter => moves_stopMarked adapter) fun _ => ?_
  refine .bind .task fun _ => .ite ?_ (.pure _)
  refine .bind (moves_update fun _ => ⟨rfl, rfl, rfl⟩) fun _ => ?_
  exact lenient_runs.orReject _ (moves_spawnAdapter _)

theorem moves_startPlugin {settings : List (String × String)} (requests : input.Requests id spec) :
    (startPlugin around id spec settings).Along (Runs codecs around input) := by
  refine .bind .task fun _ => .ite ?_ ?_
  · exact .bind (moves_update fun _ => ⟨rfl, rfl, rfl⟩) fun _ =>
      lenient_runs.sendReady (moves_failAdapter _) _
  · refine .bind (.update fun _ _ => ?_) fun _ => lenient_runs.orReject _ (moves_spawnAdapter _)
    exact .tail (.single (.register requests)) (.note ⟨rfl, rfl, rfl⟩)

theorem moves_startTransfer (transferId : String) (manifest : Message)
    (requests : input.Requests id spec) :
    (startTransfer around id spec transferId manifest).Along (Runs codecs around input) := by
  refine .ite (lenient_runs.reject _ _) (.bind .task fun _ => .ite (lenient_runs.reject _ _) ?_)
  refine .bind (.update fun _ _ => .single (.register requests)) fun _ => ?_
  refine lenient_runs.orReject _ (.bind (moves_spawnAdapter _) fun _ => ?_)
  exact moves_update fun _ => ⟨rfl, rfl, rfl⟩

theorem moves_handleCommand (command : ManagerCommand) :
    (handleCommand codecs around command).Along (Runs codecs around (.command command)) := by
  cases target : command.target with
  | some adapter => exact lenient_runs.handleCommand target (moves_failAdapter adapter)
  | none =>
    cases command with
    | startPlugin _ _ settings => exact moves_startPlugin (.inl ⟨settings, rfl⟩)
    | startTransfer _ _ transferId operation entries =>
      exact moves_startTransfer transferId _ (.inr (.inl ⟨transferId, operation, entries, rfl⟩))
    | stopPlugin id => exact moves_stopPlugin id
    | restartPlugin id => exact moves_restartPlugin id
    | openSettingsWindow _ _ theme =>
      refine .bind .task fun _ => .ite (lenient_runs.orReject _ ?_) (.pure _)
      exact moves_spawnSettingsWindow (.inr (.inr ⟨theme, rfl⟩))
    | shutdown => exact fun _ => .single (.note ⟨rfl, rfl, rfl⟩)
    | _ => cases target

end Supervising

theorem supervise_runs (codecs : Codecs) (state : State) (around : Surroundings)
    (input : SupervisorInput) :
    Runs codecs around input (state, []) (supervise codecs state (around, input)) := by
  unfold supervise
  split
  · exact .refl
  · cases input with
    | command command =>
      exact Handler.Ensures.stateAfter (moves_handleCommand command _)
    | process event =>
      exact Handler.Ensures.stateAfter (moves_handleProcessEvent event _)

end Syntra.Plugins
