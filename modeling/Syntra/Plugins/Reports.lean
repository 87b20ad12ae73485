import Syntra.Plugins.Relaunches
import Syntra.Plugins.Service
import Syntra.StateMachine.Notices

/-!
# What the supervisor reports of its processes

Whatever the supervisor answers, it reports every process that comes and every one that goes, so its
table can be read off its reports. Only a restart ends processes without a word.
-/

namespace Syntra.Plugins

open Notices StateMachine State List False
open Handler (ensures_bind ensures_task ensures_update ensures_emit)

/-- Whether an event says that a process is there, or that it has gone. -/
def ManagerEvent.notice : ManagerEvent → Option (Notice AdapterId)
  | .started adapter _ | .ready adapter _ => some (adapter, true)
  | .stopped adapter | .exited adapter _ => some (adapter, false)
  | .message .. | .cancelled .. | .rejected .. | .diagnostics .. => none

def notices (effects : List Effect) : List (Notice AdapterId) :=
  (System.reports effects).filterMap ManagerEvent.notice

theorem notices_append (first second : List Effect) :
    notices (first ++ second) = notices first ++ notices second := by
  simp [notices, System.reports]

theorem notices_report (event : ManagerEvent) : notices [.report event] = event.notice.toList := by
  cases named : event.notice with
  | none | some => simp [notices, System.reports, named]

def State.has (state : State) (adapter : AdapterId) : Bool := decide (adapter ∈ state.processes)

theorem State.has_insert (state : State) (adapter other : AdapterId) (runtime : AdapterRuntime) :
    has { state with processes := state.processes.insert adapter runtime } other =
      (decide (other = adapter) || state.has other) := by
  simp [has, AList.mem_insert]

theorem State.has_erase (state : State) (adapter other : AdapterId) :
    has { state with processes := state.processes.erase adapter } other =
      (!decide (other = adapter) && state.has other) := by
  simp [has, AList.mem_erase]

/-- What was reported tells how the table has changed, and it is about the processes that are
named. -/
def Tells (named : AdapterId → Prop) (before after : World) : Prop :=
  after.1.stopping = before.1.stopping ∧
    ∃ new, after.2 = before.2 ++ new ∧ (∀ notice ∈ notices new, named notice.1) ∧
      ∀ adapter, after.1.has adapter =
        lastly (fun other => decide (other = adapter)) (before.1.has adapter) (notices new)

variable {named : AdapterId → Prop} {state later : State}

theorem Tells.quiet {log new : List Effect} (silent : notices new = [])
    (going : later.stopping = state.stopping)
    (same : ∀ adapter, later.has adapter = state.has adapter) :
    Tells named (state, log) (later, log ++ new) := by
  refine ⟨going, new, rfl, ?_, ?_⟩
  · intro _ member
    rw [silent] at member
    cases member
  · intro adapter
    rw [silent]
    exact same adapter

theorem Tells.still {log : List Effect}
    (same : later.processes = state.processes ∧ later.stopping = state.stopping) :
    Tells named (state, log) (later, log) := by
  have tells : Tells named (state, log) (later, log ++ []) := by
    refine .quiet rfl same.2 fun _ => ?_
    rw [has, has, same.1]
  rwa [append_nil] at tells

theorem Tells.refl (world : World) : Tells named world world := .still ⟨rfl, rfl⟩

theorem Tells.trans {first second third : World} (here : Tells named first second)
    (there : Tells named second third) : Tells named first third := by
  rcases here with ⟨going, new, grows, about, has⟩
  rcases there with ⟨onward, more, further, also, holds⟩
  refine ⟨onward.trans going, new ++ more, by rw [further, grows, append_assoc], ?_, ?_⟩
  · intro notice member
    rw [notices_append, mem_append] at member
    exact member.elim (about notice) (also notice)
  · intro _
    rw [holds, has, notices_append, lastly_append]

instance : Std.Refl (Tells named) where
  refl := .refl

instance : IsTrans World (Tells named) where
  trans _ _ _ := .trans

theorem Tells.single {log new : List Effect} {adapter : AdapterId} {came : Bool}
    (said : notices new = [(adapter, came)]) (about : named adapter)
    (going : later.stopping = state.stopping)
    (has : ∀ other, later.has other = if adapter = other then came else state.has other) :
    Tells named (state, log) (later, log ++ new) := by
  refine ⟨going, new, rfl, ?_, ?_⟩
  · intro _ member
    rw [said, mem_singleton] at member
    subst member
    exact about
  · intro other
    rw [said, has other]
    by_cases same : adapter = other <;> simp [same]

variable {codecs : Codecs} {around : Surroundings} {adapter : AdapterId}

namespace Supervising

open Handler (update)

theorem tells_note {change : State → State}
    (same : ∀ state, (change state).processes = state.processes ∧
      (change state).stopping = state.stopping) :
    (update change : Supervising Unit).Along (Tells named) :=
  .update fun state _ => .still (same state)

theorem lenient_tells : Lenient (Tells named) where
  note beside := .still ⟨beside.processes, beside.stopping⟩
  tell {state log effect} plain := by
    refine .quiet ?_ rfl fun _ => rfl
    cases effect with
    | report event => cases event <;> first | rfl | cases plain
    | written => rfl
    | spawned | ended => cases plain

def Departs (adapter : AdapterId) (before after : World) : Prop :=
  after.1.stopping = before.1.stopping ∧
    ∃ new, after.2 = before.2 ++ new ∧ notices new = [] ∧
      ∀ other, after.1.has other = (!decide (other = adapter) && before.1.has other)

theorem Departs.onward {before between after : World} (departs : Departs adapter before between)
    (silent : Tells (fun _ => False) between after) : Departs adapter before after := by
  rcases departs with ⟨going, new, grows, none, has⟩
  rcases silent with ⟨onward, more, further, unnamed, kept⟩
  have nothing : notices more = [] :=
    eq_nil_iff_forall_not_mem.mpr fun notice member => unnamed notice member
  refine ⟨onward.trans going, new ++ more, by rw [further, grows, append_assoc], ?_, ?_⟩
  · rw [notices_append, none, nothing]
    rfl
  · intro other
    rw [kept, nothing]
    exact has other

theorem Departs.told {before between : World} (departs : Departs adapter before between)
    (about : named adapter) {event : ManagerEvent} (gone : event.notice = some (adapter, false)) :
    Tells named before (between.1, between.2 ++ [.report event]) := by
  rcases departs with ⟨going, new, grows, none, has⟩
  have said : notices (new ++ [.report event]) = [(adapter, false)] := by
    rw [notices_append, none, notices_report, gone]
    rfl
  rw [grows, append_assoc]
  refine Tells.single said about going fun other => ?_
  rw [has other]
  by_cases same : adapter = other <;> simp [same, eq_comm]

theorem departs_stopAdapter (adapter : AdapterId) (before : World) :
    (stopAdapter adapter).Ensures before (fun _ after => Departs adapter before after)
      fun _ _ => False := by
  rcases before with ⟨state, _⟩
  rw [stopAdapter, ensures_bind, ensures_task]
  cases found : state.processes.lookup adapter with
  | none =>
    refine ⟨rfl, [], (append_nil _).symm, rfl, fun other => ?_⟩
    by_cases same : other = adapter
    · subst same
      simp [has, AList.lookup_eq_none.mp found]
    · simp [same]
  | some runtime =>
    exact ⟨rfl, [.ended adapter runtime.generation], rfl, rfl, state.has_erase adapter⟩

theorem silent_cancelOwned (adapter : AdapterId) (before : World) :
    (cancelOwned around adapter).Ensures before
      (fun _ after => Tells (fun _ => False) before after) fun _ _ => False := by
  refine Handler.Ensures.each (fun after => Tells (fun _ => False) before after) ?_ ?_
  · apply Tells.still
    cases adapter <;> exact ⟨rfl, rfl⟩
  · intro _ _ _ tells
    exact tells.trans (.quiet rfl rfl fun _ => rfl)

theorem tells_failAdapter (about : named adapter) (reason : String) :
    (failAdapter around adapter reason).Along (Tells named) := by
  intro before
  rw [failAdapter, ensures_bind]
  apply (departs_stopAdapter adapter before).mono
  · intro _ between departs
    rw [ensures_bind]
    apply (silent_cancelOwned adapter between).mono
    · exact fun _ _ silent => (departs.onward silent).told about rfl
    · exact fun _ _ => elim
  · exact fun _ _ => elim

theorem tells_launch (about : named adapter) (spec : LaunchSpec) (generation : UInt64)
    (theme : Option String) :
    (launch around adapter spec generation theme).Along (Tells named) := by
  rintro ⟨_, _⟩
  simp only [launch, report, ensures_bind, ensures_answered, ensures_emit, ensures_update]
  refine ⟨fun pid _ => ?_, fun _ _ => .refl _⟩
  have said : notices ([.spawned adapter generation spec (commandArgs adapter spec) theme] ++
      [.report (.started adapter pid)]) = [(adapter, true)] :=
    rfl
  rw [append_assoc]
  refine Tells.single said about rfl fun other => ?_
  rw [has_insert]
  by_cases same : adapter = other <;> simp [same, eq_comm]

theorem tells_spawnAdapter (about : named adapter) :
    (spawnAdapter around adapter).Along (Tells named) := by
  refine .bind .task fun _ => ?_
  split
  · exact .stop _
  · refine .bind (.recover (Lenient.answered _) fun _ =>
      .bind (tells_note fun _ => ⟨rfl, rfl⟩) fun _ => .stop _) fun _ => ?_
    exact .bind (Lenient.answered _) fun _ => .bind (tells_note fun _ => ⟨rfl, rfl⟩) fun _ =>
      tells_launch about _ _ _

variable {id : String}

theorem tells_spawnSettingsWindow (about : named (.settings id)) (spec : LaunchSpec)
    (theme : List (String × String)) :
    (spawnSettingsWindow around id spec theme).Along (Tells named) :=
  .bind .task fun _ => .ite (.pure _) (.bind (Lenient.answered _) fun _ =>
    .bind (Lenient.answered _) fun _ => .bind (tells_note fun _ => ⟨rfl, rfl⟩) fun _ =>
      tells_launch about _ _ _)

theorem tells_relaunch (about : named (.resident id)) (terminal : Bool) :
    (relaunch around id terminal).Along (Tells named) := by
  refine .bind .task fun _ => .bind (tells_note fun _ => ⟨rfl, rfl⟩) fun _ => ?_
  refine .ite (.bind (tells_note fun _ => ⟨rfl, rfl⟩) fun _ => ?_) (.pure _)
  exact lenient_tells.orReject _ (tells_spawnAdapter about)

theorem tells_processExit (about : named adapter) (reason : String) :
    (processExit around adapter reason).Along (Tells named) := by
  refine .bind .task fun state => .bind (tells_note fun _ => ⟨rfl, rfl⟩) fun _ => ?_
  intro before
  have rest {later : World} (departs : Departs adapter before later) :
      (afterExit around adapter reason (decide (adapter ∈ state.terminal))).Attains later
        (Tells named before) := by
    have told : Tells named before (later.1, later.2 ++ [.report (.exited adapter reason)]) :=
      departs.told about rfl
    cases adapter with
    | resident => exact (tells_relaunch about _).onward told
    | transfer | settings => exact told
  rw [ensures_bind]
  apply (departs_stopAdapter adapter before).mono
  · intro _ between departs
    refine Handler.ensures_ite.mpr ⟨fun _ => ?_, fun _ => rest departs⟩
    apply ensures_bind.mpr
    apply (silent_cancelOwned adapter between).mono
    · exact fun _ _ silent => rest (departs.onward silent)
    · exact fun _ _ => elim
  · exact fun _ _ => elim

theorem tells_takeLine (about : named adapter) (line : String) :
    (takeLine codecs around adapter line).Along (Tells named) := by
  have accepts {state : State} {log : List Effect} {runtime : AdapterRuntime}
      (_ : state.processes.lookup adapter = some runtime) (announced : Capabilities) :
      Tells named (state, log)
        (state.admitted adapter runtime (.fromHandshake runtime.spec.approved announced),
          log ++ [.report (.ready adapter (.fromHandshake runtime.spec.approved announced))]) := by
    refine Tells.single rfl about rfl fun other => ?_
    rw [admitted, has_insert]
    by_cases same : adapter = other <;> simp [same, eq_comm]
  have passes {message : Message} : (report (.message adapter message)).Along (Tells named) :=
    .emit fun _ _ => .quiet rfl rfl fun _ => rfl
  refine .bind .task fun state => ?_
  split
  · exact tells_failAdapter about _
  · refine .ite (lenient_tells.acceptHandshake (tells_failAdapter about) accepts _)
      (.recover (.bind (lenient_tells.validateInbound _ _)
      fun _ => .bind (tells_note fun state => ?_) fun _ =>
        passes)
      fun _ => tells_failAdapter about _)
    refine ⟨(agrees_noteMessage _ _ state).processes, ?_⟩
    unfold noteMessage
    split
    all_goals try split
    all_goals rfl

theorem tells_handleProcessEvent (event : ProcessEvent) :
    ∃ adapter, (handleProcessEvent codecs around event).Along (Tells (Eq adapter)) := by
  cases event with
  | line adapter =>
    exact ⟨adapter, .bind .task fun _ => .ite (tells_takeLine rfl _) (.pure _)⟩
  | diagnostic adapter =>
    exact ⟨adapter, .bind .task fun _ => .ite (lenient_tells.takeDiagnostic _ _) (.pure _)⟩
  | failed adapter | exited adapter =>
    exact ⟨adapter, .bind .task fun _ => .ite (tells_processExit rfl _) (.pure _)⟩

theorem tells_startTransfer {transferId : String} (about : named (.transfer id transferId))
    (spec : LaunchSpec) (manifest : Message) :
    (startTransfer around id spec transferId manifest).Along (Tells named) := by
  refine .ite (lenient_tells.reject _ _) (.bind .task fun _ => .ite (lenient_tells.reject _ _) ?_)
  refine .bind (tells_note fun _ => ⟨rfl, rfl⟩) fun _ => lenient_tells.orReject _ ?_
  exact .bind (tells_spawnAdapter about) fun _ => tells_note fun _ => ⟨rfl, rfl⟩

theorem tells_startPlugin (about : named (.resident id)) (spec : LaunchSpec)
    (settings : List (String × String)) :
    (startPlugin around id spec settings).Along (Tells named) := by
  refine .bind .task fun _ => .ite ?_ ?_
  · exact .bind (tells_note fun _ => ⟨rfl, rfl⟩) fun _ => lenient_tells.sendReady
      (tells_failAdapter about) _
  · exact .bind (tells_note fun _ => ⟨rfl, rfl⟩) fun _ =>
      lenient_tells.orReject _ (tells_spawnAdapter about)

theorem tells_handleCommand {command : ManagerCommand} (stays : command ≠ .shutdown)
    (stop : ∀ id, command ≠ .stopPlugin id) (restart : ∀ id, command ≠ .restartPlugin id) :
    ∃ adapter, (handleCommand codecs around command).Along (Tells (Eq adapter)) := by
  cases target : command.target with
  | some adapter => exact ⟨adapter, lenient_tells.handleCommand target (tells_failAdapter rfl)⟩
  | none =>
    cases command with
    | startPlugin id => exact ⟨.resident id, tells_startPlugin rfl _ _⟩
    | startTransfer id _ transferId =>
      exact ⟨.transfer id transferId, tells_startTransfer rfl _ _⟩
    | stopPlugin id => exact absurd rfl (stop id)
    | restartPlugin id => exact absurd rfl (restart id)
    | openSettingsWindow id =>
      refine ⟨.settings id, .bind .task fun _ => .ite (lenient_tells.orReject _ ?_) (.pure _)⟩
      exact tells_spawnSettingsWindow rfl _ _
    | shutdown => exact absurd rfl stays
    | _ => cases target

theorem tells_stopPlugin (id : String) :
    (stopPlugin around id).Along (Tells fun adapter => adapter.plugin = id) := by
  intro before
  rw [stopPlugin, ensures_bind, ensures_task, ensures_bind]
  have each : (Handler.each (around.processOrder.arrange (before.1.processesOf id))
      fun adapter => do stopMarked adapter; report (.stopped adapter) : Supervising Unit).Ensures
        before (fun _ after => Tells (fun adapter => adapter.plugin = id) before after)
        fun _ _ => False := by
    refine Handler.Ensures.each
      (fun after => Tells (fun adapter => adapter.plugin = id) before after) (.refl before)
      fun adapter member state tells => ?_
    have owned : adapter.plugin = id := (mem_processesOf.mp member).2
    rw [ensures_bind, stopMarked, ensures_bind, ensures_update]
    apply (departs_stopAdapter adapter _).mono
    · intro _ _ departs
      have marked : Tells (fun adapter => adapter.plugin = id) state
          ({ state.1 with terminal := state.1.terminal.insert adapter () }, state.2) :=
        .still ⟨rfl, rfl⟩
      exact (tells.trans marked).trans (departs.told owned rfl)
    · exact fun _ _ => elim
  apply each.mono
  · exact fun _ _ tells => tells.trans (.still ⟨rfl, rfl⟩)
  · exact fun _ _ => elim

end Supervising

end Syntra.Plugins
