import Mathlib.Data.List.Dedup
import Syntra.Plugins.Reports

/-!
# Which plugins are running

The registry keeps one flag and one process id for a plugin, the supervisor a table of processes.
Once all events are handled they agree on which plugins have a process, provided that no process
ends while another one of its plugin goes on, and that nothing ends without a word.
-/

namespace Syntra.Plugins

open Notices AdapterId Supervising List
open StateMachine
open Tables
open Handler (ensures_bind ensures_update ensures_task ensures_recover)

def AdapterId.isWindow : AdapterId → Bool
  | .settings _ => true
  | .resident _ | .transfer .. => false

def AdapterId.serves (id : String) (adapter : AdapterId) : Bool :=
  decide (adapter.plugin = id) && !adapter.isWindow

/-- Some process of the plugin is live, apart from its settings window; a supervisor that is
stopping ends all of them. -/
def State.Runs (state : State) (id : String) : Prop :=
  state.stopping = false ∧ ∃ adapter, adapter.serves id = true ∧ state.has adapter = true

/-- The plugin is started again when its resident process is to be launched. -/
def State.Relaunches (state : State) (around : Surroundings) (id : String) : Prop :=
  ∃ spec pid, state.specs.lookup id = some spec ∧ verifyContent around spec = .ok () ∧
    around.checkExecutable spec.executable = .ok () ∧
    around.spawn (.resident id) state.nextGeneration = .ok pid

/-- Unless a whole plugin is stopped, no process ends while another one of its plugin is live; a
restart brings a process where there was one, and the supervisor stops when there is none. -/
structure State.Plain (codecs : Codecs) (state : State) (input : Surroundings × SupervisorInput) :
    Prop where
  ends : (∀ id, input.2 ≠ .command (.stopPlugin id)) →
    ∀ adapter, (adapter, false) ∈ notices (supervise codecs state input).2 →
      adapter.isWindow = false → ∀ other, other.serves adapter.plugin = true →
        state.has other = true → other = adapter
  restarts : ∀ id, input.2 = .command (.restartPlugin id) → state.Runs id →
    state.Relaunches input.1 id
  stops : input.2 = .command .shutdown → ∀ id, ¬state.Runs id

variable {codecs : Codecs} {around : Surroundings} {state : State} {id : String} {flag : Bool}

variable {adapter : AdapterId} {after : World}

theorem AdapterId.serves_iff :
    adapter.serves id = true ↔ adapter.plugin = id ∧ adapter.isWindow = false := by
  simp [serves]

theorem Tells.agrees {named : AdapterId → Prop} (tells : Tells named (state, []) after)
    (going : state.stopping = false)
    (vacated : ∀ adapter, (adapter, false) ∈ notices after.2 → adapter.serves id = true →
      ∀ other, other.serves id = true → after.1.has other = true → other = adapter)
    (right : flag = true ↔ state.Runs id) :
    lastly (serves id) flag (notices after.2) = true ↔ after.1.Runs id := by
  rcases tells with ⟨goes, _, grows, _, has⟩
  subst grows
  rw [State.Runs, and_iff_right (goes.trans going)]
  rw [State.Runs, and_iff_right going] at right
  exact lastly_agrees (fun member _ => has member) right vacated

theorem Tells.agrees_of_single (tells : Tells (Eq adapter) (state, []) after)
    (going : state.stopping = false)
    (ends : ∀ adapter, (adapter, false) ∈ notices after.2 → adapter.isWindow = false →
      ∀ other, other.serves adapter.plugin = true → state.has other = true → other = adapter)
    (right : flag = true ↔ state.Runs id) :
    lastly (serves id) flag (notices after.2) = true ↔ after.1.Runs id := by
  refine tells.agrees going (fun member ended served other serves present => ?_) right
  rcases tells with ⟨_, _, grows, named, has⟩
  subst grows
  by_cases mentioned : ∃ came, (other, came) ∈ notices after.2
  · rcases mentioned with ⟨_, told⟩
    exact (named _ told).symm.trans (named _ ended)
  · have before : state.has other = true := by
      rw [has other, lastly_of_unmentioned] at present
      · exact present
      · intro notice given
        rw [decide_eq_false_iff_not]
        rintro rfl
        exact mentioned ⟨notice.2, given⟩
    rw [serves_iff] at served serves
    refine ends member ended served.2 other ?_ before
    rw [serves_iff, served.1]
    exact serves

namespace Supervising

open Handler (task update emit)

theorem stopPlugin_agrees (stopped : String) (going : state.stopping = false)
    (right : flag = true ↔ state.Runs id) :
    (stopPlugin around stopped).Attains (state, [])
      fun after => lastly (serves id) flag (notices after.2) = true ↔ after.1.Runs id := by
  refine ((tells_stopPlugin stopped (state, [])).and (leaves_stopPlugin stopped state [])).mono ?_
    fun _ _ both => both.2.elim
  rintro _ after ⟨tells, _, lookup⟩
  refine tells.agrees going (fun _ ended served other serves present => ?_) right
  rcases tells with ⟨_, _, grows, named, _⟩
  subst grows
  rw [serves_iff] at served serves
  have same : stopped = id := (named _ ended).symm.trans served.1
  have gone : after.1.processes.lookup other = none := by
    rw [lookup, if_pos (serves.1.trans same.symm)]
  rw [State.has, decide_eq_true_eq] at present
  exact absurd present (AList.lookup_eq_none.mp gone)

/-- The processes of a plugin have gone, and nothing was said of it. -/
structure Hushed (id : String) (before after : World) : Prop where
  stopping : after.1.stopping = before.1.stopping
  specs : after.1.specs = before.1.specs
  nextGeneration : after.1.nextGeneration = before.1.nextGeneration
  silent : ∃ new, after.2 = before.2 ++ new ∧ notices new = []
  others : ∀ adapter, adapter.plugin ≠ id → after.1.has adapter = before.1.has adapter

theorem Hushed.trans {first second third : World} (here : Hushed id first second)
    (there : Hushed id second third) : Hushed id first third where
  stopping := there.stopping.trans here.stopping
  specs := there.specs.trans here.specs
  nextGeneration := there.nextGeneration.trans here.nextGeneration
  others adapter other := (there.others adapter other).trans (here.others adapter other)
  silent := by
    rcases here.silent with ⟨new, grows, none⟩
    rcases there.silent with ⟨more, further, nothing⟩
    refine ⟨new ++ more, by rw [further, grows, append_assoc], ?_⟩
    rw [notices_append, none, nothing]
    rfl

theorem hushed_stopMarked (adapter : AdapterId) (before : World) :
    (stopMarked adapter).Ensures before (fun _ after => Hushed adapter.plugin before after)
      fun _ _ => False := by
  rcases before with ⟨state, _⟩
  rw [stopMarked, ensures_bind, ensures_update, stopAdapter, ensures_bind, ensures_task]
  cases found : state.processes.lookup adapter with
  | none => exact ⟨rfl, rfl, rfl, ⟨[], (append_nil _).symm, rfl⟩, fun _ _ => rfl⟩
  | some runtime =>
    refine ⟨rfl, rfl, rfl, ⟨[.ended adapter runtime.generation], rfl, rfl⟩, fun other apart => ?_⟩
    have different : other ≠ adapter := by
      rintro rfl
      exact apart rfl
    simp [State.has, AList.mem_erase, different]

theorem hushed_stopEach (id : String) (state : State) :
    (Handler.each (around.processOrder.arrange (state.processesOf id)) stopMarked :
      Supervising Unit).Ensures (state, []) (fun _ after => Hushed id (state, []) after ∧
          ∀ adapter, adapter.plugin = id → after.1.has adapter = false) fun _ _ => False := by
  have hushed : (Handler.each (around.processOrder.arrange (state.processesOf id)) stopMarked :
      Supervising Unit).Ensures (state, []) (fun _ after => Hushed id (state, []) after)
        fun _ _ => False := by
    refine Handler.Ensures.each (fun after => Hushed id (state, []) after) ?_ ?_
    · exact ⟨rfl, rfl, rfl, ⟨[], rfl, rfl⟩, fun _ _ => rfl⟩
    · intro adapter member between hushed
      apply (hushed_stopMarked adapter between).mono
      · intro _ _ further
        rw [(mem_processesOf.mp member).2] at further
        exact hushed.trans further
      · exact fun _ _ => False.elim
  have gone := leaves_stopEach (fun adapter state log => leaves_stopMarked adapter state log)
    (around.processOrder.arrange (state.processesOf id)) state []
  refine (hushed.and gone).mono ?_ fun _ _ both => both.1
  rintro _ _ ⟨hushed, stopped⟩
  refine ⟨hushed, fun adapter owned => ?_⟩
  have none := stopped.lookup adapter
  rw [if_pos owned] at none
  rw [State.has, decide_eq_false_iff_not]
  exact AList.lookup_eq_none.mp none

theorem spawnAdapter_launches {log : List Effect} (relaunches : state.Relaunches around id) :
    (spawnAdapter around (.resident id)).Ensures (state, log)
      (fun _ after => after.1.has (.resident id) = true) fun _ _ => False := by
  rcases relaunches with ⟨_, _, found, verified, executable, spawned⟩
  rw [spawnAdapter, ensures_bind, ensures_task]
  simp only [plugin, found, verified, executable, spawned, launch, report, ensures_bind,
    ensures_recover, ensures_answered, ensures_update, Handler.ensures_emit]
  simp [State.has, AList.mem_insert]

/-- The processes of a plugin were stopped, and its resident process was perhaps launched again. -/
structure Restarted (around : Surroundings) (id : String) (state : State) (after : World) :
    Prop where
  told : ∃ between, Hushed id (state, []) between ∧
    (∀ adapter, adapter.plugin = id → between.1.has adapter = false) ∧
    Tells (Eq (.resident id)) between after
  launched : state.stopping = false → state.Relaunches around id →
    after.1.has (.resident id) = true

theorem restarted_restartPlugin (id : String) (state : State) :
    (restartPlugin around id).Attains (state, []) (Restarted around id state) := by
  rw [Handler.Attains, restartPlugin, ensures_bind, ensures_task, ensures_bind]
  refine (hushed_stopEach id state).mono ?_ fun _ _ => False.elim
  rintro _ ⟨later, log⟩ ⟨hushed, none⟩
  have specs : later.specs = state.specs := hushed.specs
  have nextGeneration : later.nextGeneration = state.nextGeneration := hushed.nextGeneration
  have stopping : later.stopping = state.stopping := hushed.stopping
  refine Handler.ensures_ite.mpr ⟨fun _ => ?_, fun not => ?_⟩
  · let reset : State := { later with
      terminal := later.terminal.erase (.resident id), restarts := later.restarts.erase id }
    have noted : Tells (Eq (.resident id)) (later, log) (reset, log) := .still ⟨rfl, rfl⟩
    have along : (spawnAdapter around (.resident id)).Along (Tells (Eq (.resident id))) :=
      tells_spawnAdapter rfl
    have told := (lenient_tells.orReject (.resident id) along).onward noted
    by_cases relaunches : state.Relaunches around id
    · have again : reset.Relaunches around id := by
        rcases relaunches with ⟨spec, pid, found, verified, executable, spawned⟩
        refine ⟨spec, pid, ?_, verified, executable, ?_⟩
        · rw [← found, ← specs]
        · rw [← spawned, ← nextGeneration]
      have launched : (orReject (.resident id) (spawnAdapter around (.resident id))).Attains
          (reset, log) fun after => after.1.has (.resident id) = true := by
        rw [Handler.Attains, orReject, ensures_recover]
        exact (spawnAdapter_launches again).mono (fun _ _ there => there) fun _ _ => False.elim
      refine (told.and launched).mono ?_ ?_
      · exact fun _ after both => ⟨⟨_, hushed, none, both.1⟩, fun _ _ => both.2⟩
      · exact fun _ after both => ⟨⟨_, hushed, none, both.1⟩, fun _ _ => both.2⟩
    · refine told.mono ?_ ?_
      · exact fun _ after tells => ⟨⟨_, hushed, none, tells⟩, fun _ => (absurd · relaunches)⟩
      · exact fun _ _ tells => ⟨⟨_, hushed, none, tells⟩, fun _ => (absurd · relaunches)⟩
  · refine ⟨⟨_, hushed, none, .refl _⟩, fun going relaunches => ?_⟩
    rcases relaunches with ⟨_, _, found, _⟩
    refine absurd ⟨by simp [stopping, going], ?_⟩ not
    rw [specs, ← AList.lookup_isSome, found]
    rfl

theorem Restarted.agrees {restarted : String}
    (restart : Restarted around restarted state after) (going : state.stopping = false)
    (brings : state.Runs restarted → state.Relaunches around restarted)
    (right : flag = true ↔ state.Runs id) :
    lastly (serves id) flag (notices after.2) = true ↔ after.1.Runs id := by
  rcases restart with ⟨⟨between, hushed, none, tells⟩, launched⟩
  rcases tells with ⟨goes, more, further, named, has⟩
  rcases hushed.silent with ⟨_, grows, silent⟩
  have same : notices after.2 = notices more := by
    rw [further, grows, notices_append, nil_append, silent, nil_append]
  rw [same, State.Runs, and_iff_right (goes.trans (hushed.stopping.trans going))]
  rw [State.Runs, and_iff_right going] at right
  by_cases lost : restarted = id ∧ state.Runs id
  · -- The plugin had a process, so it has its resident one again.
    rcases lost with ⟨rfl, ran⟩
    have there := launched going (brings ran)
    have serves : serves restarted (.resident restarted) = true :=
      serves_iff.mpr ⟨rfl, rfl⟩
    refine iff_of_true ?_ ⟨.resident restarted, serves, there⟩
    rw [has, none _ rfl] at there
    exact lastly_of_only serves (fun notice given => (named notice given).symm) there
  · have kept : ∀ adapter, adapter.serves id = true →
        between.1.has adapter = state.has adapter := by
      intro adapter serves
      have owned := (serves_iff.mp serves).1
      by_cases own : restarted = id
      · have idle : ¬state.Runs id := fun ran => lost ⟨own, ran⟩
        rw [none adapter (owned.trans own.symm), eq_comm, ← Bool.not_eq_true]
        exact fun there => idle ⟨going, adapter, serves, there⟩
      · exact hushed.others adapter fun same => own (same.symm.trans owned)
    refine lastly_agrees (fun member serves => ?_) right ?_
    · rw [has, kept member serves]
    · intro member ended served other serves present
      by_cases mentioned : ∃ came, (other, came) ∈ notices more
      · rcases mentioned with ⟨_, told⟩
        exact (named _ told).symm.trans (named _ ended)
      · rw [has other, lastly_of_unmentioned] at present
        · have own : restarted = id := by
            have whose : resident restarted = member := named _ ended
            rw [serves_iff, ← whose] at served
            exact served.1
          rw [none other ((serves_iff.mp serves).1.trans own.symm)] at present
          cases present
        · intro notice given
          rw [decide_eq_false_iff_not]
          rintro rfl
          exact mentioned ⟨notice.2, given⟩

end Supervising

theorem supervise_agrees {input : SupervisorInput} (plain : state.Plain codecs (around, input))
    (right : flag = true ↔ state.Runs id) :
    lastly (serves id) flag (notices (supervise codecs state (around, input)).2) = true ↔
      (supervise codecs state (around, input)).1.Runs id := by
  rcases plain with ⟨ends, restarts, stops⟩
  unfold supervise at *
  cases going : state.stopping with
  | true =>
    exact right
  | false =>
    simp only [going, Bool.false_eq_true, if_false] at ends ⊢
    have single {adapter : AdapterId} {handler : Supervising Unit}
        (stop : ∀ id, input ≠ .command (.stopPlugin id))
        (same : handle codecs around input = handler)
        (along : handler.Along (Tells (Eq adapter))) :
        lastly (serves id) flag
            (notices ((handle codecs around input).stateAfter (state, [])).2) = true ↔
          State.Runs ((handle codecs around input).stateAfter (state, [])).1 id := by
      rw [← same] at along
      exact (Handler.Ensures.stateAfter (along (state, []))).agrees_of_single going
        (ends stop) right
    cases input with
    | process event =>
      have named : ∃ adapter, (handleProcessEvent codecs around event).Along (Tells (Eq adapter)) :=
        tells_handleProcessEvent event
      rcases named with ⟨adapter, along⟩
      exact single (fun _ => nofun) rfl along
    | command command =>
      by_cases stop : ∃ stopped, command = .stopPlugin stopped
      · rcases stop with ⟨stopped, rfl⟩
        exact Handler.Ensures.stateAfter (stopPlugin_agrees stopped going right)
      · by_cases restart : ∃ restarted, command = .restartPlugin restarted
        · rcases restart with ⟨restarted, rfl⟩
          have after : Restarted around restarted state
              ((restartPlugin around restarted).stateAfter (state, [])) :=
            Handler.Ensures.stateAfter (restarted_restartPlugin restarted state)
          exact after.agrees going (restarts restarted rfl) right
        · by_cases stays : command = .shutdown
          · subst stays
            have idle : ¬state.Runs id := stops rfl id
            refine iff_of_false ?_ fun runs => Bool.noConfusion runs.1
            exact fun flagged => idle (right.mp flagged)
          · have named : ∃ adapter, (handleCommand codecs around command).Along
                (Tells (Eq adapter)) :=
              tells_handleCommand stays (fun id same => stop ⟨id, same⟩)
                fun id same => restart ⟨id, same⟩
            rcases named with ⟨_, along⟩
            refine single (fun id same => stop ⟨id, ?_⟩) rfl along
            exact SupervisorInput.command.inj same

/-- The plugin has a process as far as was observed. -/
def Registry.shows (registry : Registry) (id : String) : Bool :=
  decide (id ∈ registry.pids) || decide (registry.running.lookup id = some true)

theorem Registry.mem_runningPlugins {registry : Registry} :
    id ∈ registry.runningPlugins ↔ registry.shows id = true := by
  rw [runningPlugins, mem_dedup, mem_mergeSort, mem_append, ← AList.mem_keys]
  simp only [shows, Bool.or_eq_true, decide_eq_true_eq, mem_map, mem_filter]
  refine or_congr Iff.rfl ?_
  constructor
  · rintro ⟨⟨_, _⟩, ⟨listed, holds⟩, rfl⟩
    rw [← holds]
    exact AList.mem_lookup_iff.mpr listed
  · exact fun found => ⟨⟨id, true⟩, ⟨AList.mem_lookup_iff.mp found, rfl⟩, rfl⟩

theorem Registry.shows_setStarting (registry : Registry) (plugin : String) (pid : UInt32) :
    (registry.setStarting plugin pid).shows id =
      if plugin = id then true else registry.shows id := by
  by_cases same : plugin = id
  · simp [shows, setStarting, same, AList.mem_insert]
  · simp [shows, setStarting, same, Ne.symm same, AList.mem_insert]

theorem Registry.shows_setRunning (registry : Registry) (plugin : String) :
    (registry.setRunning plugin true).shows id =
      if plugin = id then true else registry.shows id := by
  by_cases same : plugin = id
  · simp [shows, setRunning, same]
  · rw [if_neg same, shows, shows, setRunning, lookup_insert, if_neg (Ne.symm same)]

theorem Registry.shows_setStopped (registry : Registry) (plugin : String) :
    (registry.setStopped plugin).shows id = if plugin = id then false else registry.shows id := by
  by_cases same : plugin = id
  · simp [shows, setStopped, same, AList.mem_erase]
  · simp [shows, setStopped, same, Ne.symm same, AList.mem_erase]

theorem Registry.shows_setExited (registry : Registry) (plugin : String) :
    (registry.setExited plugin).shows id = if plugin = id then false else registry.shows id := by
  unfold setExited
  split
  · exact shows_setStopped registry plugin
  · exact shows_setStopped registry plugin

theorem Registry.shows_adoptOwnedSettings (registry : Registry) (plugin : String)
    (settings : List SettingControl) :
    (registry.adoptOwnedSettings plugin settings).shows id = registry.shows id := by
  unfold adoptOwnedSettings
  split
  · rfl
  · rfl

theorem shows_observe (event : ManagerEvent) (registry : Registry) (id : String) :
    (Serving.observe event registry).shows id =
      lastly (serves id) (registry.shows id) event.notice.toList := by
  have window (plugin : String) : serves id (.settings plugin) = false := by
    simp [serves, isWindow]
  have said (adapter : AdapterId) (other : adapter.isWindow = false) (came : Bool)
      {changed : Registry}
      (shown : changed.shows id = if adapter.plugin = id then came else registry.shows id) :
      changed.shows id = lastly (serves id) (registry.shows id) [(adapter, came)] := by
    rw [shown]
    simp [serves, other]
  have silent (plugin : String) (came : Bool) :
      registry.shows id = lastly (serves id) (registry.shows id) [(.settings plugin, came)] := by
    simp [window]
  cases event with
  | started adapter pid =>
    cases adapter with
    | settings plugin => exact silent plugin true
    | resident plugin =>
      exact said (.resident plugin) rfl true (registry.shows_setStarting plugin pid)
    | transfer plugin =>
      exact said (.transfer plugin _) rfl true (registry.shows_setStarting plugin pid)
  | ready adapter =>
    cases adapter with
    | settings plugin => exact silent plugin true
    | resident plugin =>
      exact said (.resident plugin) rfl true (registry.shows_setRunning plugin)
    | transfer plugin =>
      exact said (.transfer plugin _) rfl true (registry.shows_setRunning plugin)
  | stopped adapter =>
    cases adapter with
    | settings plugin => exact silent plugin false
    | resident plugin =>
      exact said (.resident plugin) rfl false (registry.shows_setStopped plugin)
    | transfer plugin =>
      exact said (.transfer plugin _) rfl false (registry.shows_setStopped plugin)
  | exited adapter =>
    cases adapter with
    | settings plugin => exact silent plugin false
    | resident plugin =>
      exact said (.resident plugin) rfl false (registry.shows_setExited plugin)
    | transfer plugin =>
      exact said (.transfer plugin _) rfl false (registry.shows_setExited plugin)
  | message adapter message =>
    cases message with
    | declareSettings settings =>
      cases adapter with
      | settings => rfl
      | resident plugin | transfer plugin => exact registry.shows_adoptOwnedSettings plugin settings
    | _ => cases adapter <;> rfl
  | cancelled adapter => cases adapter <;> rfl
  | rejected | diagnostics => rfl

/-- The supervisor takes up a command or something of a process, or the service an event. -/
inductive Turn where
  | supervisor (around : Surroundings) (input : SupervisorInput)
  | event

namespace System

variable {system : System} {registry : Registry} {history : List System}

def turn (codecs : Codecs) (system : System) : Turn → System
  | .supervisor around input => (system.supervised codecs around input).1
  | .event => (system.step codecs .event).1

/-- The supervisor under any commands, and the service that hears of it. -/
def watching (codecs : Codecs) (registry : Registry) (permits : System → Turn → Prop) :
    Machine System Turn where
  initial := idle registry.unobserved
  enabled := permits
  next := turn codecs

/-- The condition on what the supervisor takes up. -/
def Plain (codecs : Codecs) (system : System) : Turn → Prop
  | .supervisor around input => system.supervisor.Plain codecs (around, input)
  | .event => True

def Heard (system : System) : Prop :=
  ∀ id, lastly (AdapterId.serves id) (system.registry.shows id)
    (system.events.filterMap ManagerEvent.notice) = true ↔ system.supervisor.Runs id

theorem heard_idle (registry : Registry) : Heard (idle registry.unobserved) := by
  intro _
  refine iff_of_false Bool.false_ne_true ?_
  rintro ⟨_, _, _, live⟩
  cases of_decide_eq_true live

theorem Heard.turn (heard : Heard system) {turn : Turn} (plain : Plain codecs system turn) :
    Heard (system.turn codecs turn) := by
  intro id
  cases turn with
  | supervisor =>
    have agrees := supervise_agrees plain (heard id)
    simp only [System.turn, supervised, filterMap_append, lastly_append]
    exact agrees
  | event =>
    have known := heard id
    unfold System.turn System.step
    cases waiting : system.events with
    | nil =>
      simpa [waiting] using known
    | cons event =>
      rw [waiting, filterMap_cons] at known
      rw [shows_observe, ← lastly_append]
      cases noted : event.notice with
      | none | some => simpa [noted] using known

/-- In every run in which processes end plainly, once all events are handled a plugin is running as
far as the registry knows exactly when the supervisor has a process of it. -/
theorem mem_runningPlugins_iff (run : Run (watching codecs registry (Plain codecs)) history)
    (member : system ∈ history) (handled : system.events = []) (id : String) :
    id ∈ system.registry.runningPlugins ↔ system.supervisor.Runs id := by
  have heard : Heard system := by
    apply run.invariant _ system member
    exact ⟨heard_idle registry, fun _ turn heard plain => heard.turn plain⟩
  have known := heard id
  rw [handled] at known
  rw [Registry.mem_runningPlugins]
  exact known

end System

namespace Mounted

def registry : Registry where
  plugins := [{
    manifest := {
      protocolVersion := protocolVersion
      id := "mount"
      version := "1.0"
      args := []
      onDemand := true
      ownsSettings := false
      capabilities
      settings := []
      handshakeIds := ["mount"]
      resources := [] }
    origin := .bundled
    manifestPath := .empty
    executable := "mount" }]
  unsupported := []
  trust := ⟨∅, ∅⟩
  enabled := ∅
  running := ∅
  pids := ∅
  chosen := ∅
  owned := ∅
  store := none

def receive (transferId : String) : Turn :=
  .supervisor Mounted.around (.command (.startTransfer "mount" spec transferId .copy []))

def leave (transferId : String) (generation : UInt64) : Turn :=
  .supervisor Mounted.around (.process
    (.exited (.transfer "mount" transferId) generation "exit status: 0"))

def served : List Turn := [receive "t", .event, leave "t" 1, .event, .event]

def overlapping : List Turn :=
  [receive "t", receive "u", .event, .event, leave "t" 1, .event, .event]

def plainly (system : System) : Turn → Bool
  | .supervisor around input =>
    ((notices (supervise Mounted.codecs system.supervisor (around, input)).2).all fun notice =>
      notice.2 || system.supervisor.processes.keys.all fun other =>
        !other.serves notice.1.plugin || decide (other = notice.1)) &&
    match input with
    | .command (.restartPlugin _) | .command .shutdown => false
    | _ => true
  | .event => true

theorem plain_of_plainly {system : System} {turn : Turn} (passed : plainly system turn = true) :
    system.Plain Mounted.codecs turn := by
  cases turn with
  | event => trivial
  | supervisor _ input =>
    unfold plainly at passed
    rw [Bool.and_eq_true, all_eq_true] at passed
    rcases passed with ⟨single, aside⟩
    refine ⟨?_, ?_, ?_⟩
    · intro _ _ ended _ other serves live
      have alone := single _ ended
      rw [Bool.false_or, List.all_eq_true] at alone
      have last := alone other (AList.mem_keys.mp (of_decide_eq_true live))
      simpa [serves] using last
    · intro id same
      rw [show input = .command (.restartPlugin id) from same] at aside
      cases aside
    · intro same
      rw [show input = .command .shutdown from same] at aside
      cases aside

end Mounted

namespace System

open Mounted

def mounting (permits : System → Turn → Prop) : Machine System Turn :=
  watching Mounted.codecs Mounted.registry permits

/-- When the only transfer is done, its plugin is no longer running. -/
theorem mem_runningPlugins_iff_served :
    "mount" ∈ ((mounting (Plain Mounted.codecs)).after
        (mounting (Plain Mounted.codecs)).initial served).registry.runningPlugins ↔
      ((mounting (Plain Mounted.codecs)).after
        (mounting (Plain Mounted.codecs)).initial served).supervisor.Runs "mount" := by
  have passed : (mounting (Plain Mounted.codecs)).passes id plainly
      (mounting (Plain Mounted.codecs)).initial served = true := by
    decide +kernel
  have follows := Machine.Follows.of_passes (fun _ _ => plain_of_plainly) passed
  rcases Run.of_follows follows with ⟨_, run⟩
  refine mem_runningPlugins_iff run (.head _) ?_ "mount"
  decide +kernel

/-- When one of two transfers is done, the plugin no longer runs although the other goes on. -/
theorem not_mem_runningPlugins_overlapping :
    ¬∀ (codecs : Codecs) (registry : Registry) (history : List System),
      Run (watching codecs registry fun _ _ => True) history →
      ∀ system ∈ history, system.events = [] → ∀ id,
        (id ∈ system.registry.runningPlugins ↔ system.supervisor.Runs id) := by
  intro agrees
  have passed : (mounting fun _ _ => True).passes id (fun _ _ => true)
      (mounting fun _ _ => True).initial overlapping = true := by
    decide +kernel
  have follows := Machine.Follows.of_passes (fun _ _ _ => trivial) passed
  rw [List.map_id] at follows
  rcases Run.of_follows follows with ⟨_, run⟩
  generalize reached : (mounting fun _ _ => True).after (mounting fun _ _ => True).initial
    overlapping = last at run
  have handled : last.events = [] := by
    rw [← reached]
    decide +kernel
  have live : last.supervisor.Runs "mount" := by
    rw [← reached]
    exact ⟨by decide +kernel, .transfer "mount" "u", by decide +kernel, by decide +kernel⟩
  have hidden : last.registry.shows "mount" = false := by
    rw [← reached]
    decide +kernel
  have shown := (agrees _ _ _ run last (.head _) handled "mount").mpr live
  rw [Registry.mem_runningPlugins, hidden] at shown
  cases shown

end System

end Syntra.Plugins
