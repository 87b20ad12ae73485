import Syntra.Plugins.Bookkeeping

/-!
# How often a plugin is relaunched

A resident plugin that ends is started again, but only so often. What is left of its relaunches is
a number of the state: nothing that comes from a process raises it, and every relaunch takes one.
-/

namespace Syntra.Plugins

open StateMachine Tables State Effect AdapterId
open Handler (ensures_bind ensures_update ensures_task ensures_recover ensures_emit ensures_ite)
open Handler.Ensures (mono stateAfter)

def Effect.startsResident (id : String) : Effect → Bool
  | .spawned (.resident other) .. => other = id
  | .spawned (.transfer ..) .. | .spawned (.settings _) .. | .report _ | .written .. | .ended .. =>
    false

/-- A command that is about whether the resident process of a plugin runs. -/
def ManagerCommand.steers : ManagerCommand → Bool
  | .startPlugin .. | .stopPlugin _ | .restartPlugin _ => true
  | .startTransfer .. | .pluginSettings .. | .pluginChangeSetting .. | .pluginOpenSettings ..
  | .openSettingsWindow .. | .pluginPointer .. | .publishFileClipboard .. | .clipboardData ..
  | .rangeResponse .. | .released .. | .unmounted .. | .cancel .. | .shutdown => false

/-- How often the resident process of a plugin was started. -/
def residentStarts (id : String) (effects : List Effect) : ℕ :=
  effects.countP (Effect.startsResident id)

@[simp]
theorem residentStarts_append (id : String) (first second : List Effect) :
    residentStarts id (first ++ second) = residentStarts id first + residentStarts id second :=
  List.countP_append

namespace State

def attempts (state : State) (id : String) : ℕ := (state.restarts.lookup id).getD 0

/-- How often the resident process of a plugin could still be relaunched. -/
def relaunchesLeft (state : State) (id : String) : ℕ :=
  if .resident id ∈ state.processes then maxRestarts - state.attempts id else 0

theorem relaunchesLeft_le (state : State) (id : String) :
    state.relaunchesLeft id ≤ maxRestarts := by
  unfold relaunchesLeft
  split <;> omega

end State

/-- No process of the plugin runs. -/
def NoProcess (id : String) (state : State) : Prop :=
  ∀ adapter ∈ state.processes, adapter.plugin ≠ id

/-- Nothing was launched for a plugin, and no restart counted. -/
structure Subdued (before after : World) : Prop where
  restarts : after.1.restarts = before.1.restarts
  starts : ∀ id, residentStarts id after.2 = residentStarts id before.2
  live : ∀ id, .resident id ∈ after.1.processes → .resident id ∈ before.1.processes

instance : Std.Refl Subdued where
  refl _ := ⟨rfl, fun _ => rfl, fun _ => id⟩

instance : IsTrans World Subdued where
  trans _ _ _ first second :=
    ⟨second.restarts.trans first.restarts, fun id => (second.starts id).trans (first.starts id),
      fun id live => first.live id (second.live id live)⟩

variable {before after : World}

theorem Subdued.relaunchesLeft (subdued : Subdued before after) (id : String) :
    after.1.relaunchesLeft id ≤ before.1.relaunchesLeft id := by
  unfold State.relaunchesLeft State.attempts
  rw [subdued.restarts]
  have live := subdued.live id
  split
  · rename_i there
    rw [if_pos (live there)]
  · exact Nat.zero_le _

variable {codecs : Codecs} {around : Surroundings}

namespace Supervising

open Handler (task update emit)

variable {change : State → State} {id : String}

theorem subdued_update (restarts : ∀ state, (change state).restarts = state.restarts)
    (processes : ∀ state id, .resident id ∈ (change state).processes →
      .resident id ∈ state.processes) : (update change : Supervising Unit).Along Subdued :=
  .update fun state _ => ⟨restarts state, fun _ => rfl, processes state⟩

theorem subdued_note (restarts : ∀ state, (change state).restarts = state.restarts)
    (processes : ∀ state, (change state).processes = state.processes) :
    (update change : Supervising Unit).Along Subdued :=
  subdued_update restarts fun state _ live => processes state ▸ live

theorem subdued_emit {effect : Effect} (starts : ∀ id, effect.startsResident id = false) :
    (emit effect : Supervising Unit).Along Subdued :=
  .emit fun _ _ => ⟨rfl, fun id => by simp [residentStarts, starts id], fun _ => id⟩

theorem subdued_report (event : ManagerEvent) : (report event).Along Subdued :=
  subdued_emit fun _ => rfl

theorem lenient_subdued : Lenient Subdued where
  note beside := ⟨beside.restarts, fun _ => rfl, fun _ live => beside.processes ▸ live⟩
  tell {state log effect} plain := by
    refine ⟨rfl, fun id => ?_, fun _ => id⟩
    cases effect with
    | report | written => simp [residentStarts, startsResident]
    | spawned | ended => cases plain

variable (adapter : AdapterId)

theorem subdued_stopAdapter : (stopAdapter adapter).Along Subdued := by
  refine .bind .task fun _ => ?_
  split
  · exact .pure _
  · refine .bind (subdued_update (fun _ => rfl) fun _ _ live => ?_) fun _ =>
      subdued_emit fun _ => rfl
    exact (AList.mem_erase.mp live).2

theorem subdued_failAdapter (reason : String) : (failAdapter around adapter reason).Along Subdued :=
  .bind (subdued_stopAdapter adapter) fun _ => .bind (lenient_subdued.cancelOwned adapter) fun _ =>
    subdued_report _

theorem subdued_launch {adapter : AdapterId} (other : ∀ id, adapter ≠ .resident id)
    (spec : LaunchSpec) (generation : UInt64) (theme : Option String) :
    (launch around adapter spec generation theme).Along Subdued := by
  refine .bind (Lenient.answered _) fun _ => .bind (subdued_emit fun id => ?_) fun _ =>
    .bind (subdued_update (fun _ => rfl) fun _ id live => ?_) fun _ => subdued_report _
  · cases adapter with
    | resident own => exact absurd rfl (other own)
    | transfer | settings => rfl
  · exact ((AList.mem_insert _).mp live).resolve_left fun same => other id same.symm

theorem subdued_spawnAdapter {adapter : AdapterId} (other : ∀ id, adapter ≠ .resident id) :
    (spawnAdapter around adapter).Along Subdued := by
  refine .bind .task fun _ => ?_
  split
  · exact .stop _
  · refine .bind (.recover (Lenient.answered _) fun _ =>
      .bind (subdued_note (fun _ => rfl) fun _ => rfl) fun _ => .stop _) fun _ => ?_
    exact .bind (Lenient.answered _) fun _ =>
      .bind (subdued_note (fun _ => rfl) fun _ => rfl) fun _ => subdued_launch other _ _ _

theorem subdued_spawnSettingsWindow (id : String) (spec : LaunchSpec)
    (theme : List (String × String)) :
    (spawnSettingsWindow around id spec theme).Along Subdued := by
  refine .bind .task fun _ => .ite (.pure _) (.bind (Lenient.answered _) fun _ =>
    .bind (Lenient.answered _) fun _ => .bind (subdued_note (fun _ => rfl) fun _ => rfl)
      fun _ => subdued_launch ?_ _ _ _)
  rintro _ ⟨⟩

theorem subdued_takeLine (line : String) : (takeLine codecs around adapter line).Along Subdued := by
  have accepts {state : State} {log : List Effect} {runtime : AdapterRuntime}
      (found : state.processes.lookup adapter = some runtime) (announced : Capabilities) :
      Subdued (state, log)
        (state.admitted adapter runtime (.fromHandshake runtime.spec.approved announced),
          log ++ [.report (.ready adapter (.fromHandshake runtime.spec.approved announced))]) := by
    refine ⟨rfl, fun id => by simp [residentStarts, startsResident], fun _ live => ?_⟩
    rcases (AList.mem_insert _).mp live with rfl | there
    · exact (mem_iff_lookup _ _).mpr ⟨runtime, found⟩
    · exact there
  refine .bind .task fun state => ?_
  split
  · exact subdued_failAdapter _ _
  · refine .ite (lenient_subdued.acceptHandshake (subdued_failAdapter _) accepts _)
      (.recover (.bind (lenient_subdued.validateInbound _ _)
      fun _ => .bind (subdued_note (fun state => ?_) fun state => ?_) fun _ => subdued_report _)
      fun _ => subdued_failAdapter _ _)
    · unfold noteMessage
      split
      all_goals try split
      all_goals rfl
    · exact (agrees_noteMessage _ _ state).processes

/-- Just these processes are gone. -/
structure Stopped (list : List AdapterId) (state later : State) : Prop where
  processes : ∀ adapter, later.processes.lookup adapter =
    if adapter ∈ list then none else state.processes.lookup adapter
  specs : later.specs = state.specs

theorem leaves_stopMarked (state : State) (log : List Effect) :
    Leaves (stopMarked adapter) state log (Stopped [adapter] state) := by
  refine (leaves_stopAdapter adapter _ log).mono ?_
  rintro _ rfl
  refine ⟨fun _ => ?_, rfl⟩
  rw [lookup_erase]
  simp

theorem leaves_stopEach {body : AdapterId → Supervising Unit}
    (stops : ∀ adapter state log, Leaves (body adapter) state log (Stopped [adapter] state))
    (list : List AdapterId) (state : State) (log : List Effect) :
    Leaves (.each list body) state log (Stopped list state) := by
  induction list generalizing state log with
  | nil => exact ⟨fun _ => by simp, rfl⟩
  | cons adapter _ ih =>
    refine (stops adapter state log).bind fun later written first => ?_
    refine (ih later written).mono fun _ rest =>
      ⟨fun other => ?_, rest.specs.trans first.specs⟩
    rw [rest.processes, first.processes]
    by_cases same : other = adapter <;> simp [same]

theorem Stopped.lookup {state later : State}
    (stopped : Stopped (around.processOrder.arrange (state.processesOf id)) state later)
    (adapter : AdapterId) :
    later.processes.lookup adapter =
      if adapter.plugin = id then none else state.processes.lookup adapter := by
  rw [stopped.processes]
  by_cases owns : adapter.plugin = id
  · rw [if_pos owns]
    split
    · rfl
    · rename_i other
      refine AList.lookup_eq_none.mpr fun live => other (mem_processesOf.mpr ⟨live, owns⟩)
  · rw [if_neg owns, if_neg fun member => owns (mem_processesOf.mp member).2]

theorem noProcess_of_lookup {state later : State}
    (lookup : ∀ adapter, later.processes.lookup adapter =
      if adapter.plugin = id then none else state.processes.lookup adapter) :
    NoProcess id later := by
  intro _ live owns
  obtain ⟨_, found⟩ := (mem_iff_lookup _ _).mp live
  rw [lookup, if_pos owns] at found
  cases found

theorem leaves_stopPlugin (id : String) (state : State) (log : List Effect) :
    Leaves (stopPlugin around id) state log fun later =>
      id ∉ later.specs ∧ ∀ adapter, later.processes.lookup adapter =
        if adapter.plugin = id then none else state.processes.lookup adapter := by
  have each : Leaves (.each (around.processOrder.arrange (state.processesOf id)) fun adapter => do
      stopMarked adapter
      report (.stopped adapter)) state log
      (Stopped (around.processOrder.arrange (state.processesOf id)) state) :=
    leaves_stopEach (fun adapter state log =>
      (leaves_stopMarked adapter state log).bind fun _ _ => leaves_report _) _ state log
  rw [Leaves, stopPlugin, ensures_bind, ensures_task, ensures_bind]
  refine mono each (fun _ _ stopped => ?_) fun _ _ => False.elim
  exact ⟨fun there => (AList.mem_erase.mp there).1 rfl, stopped.lookup⟩

theorem subdued_stopMarked : (stopMarked adapter).Along Subdued :=
  .bind (subdued_note (fun _ => rfl) fun _ => rfl) fun _ => subdued_stopAdapter adapter

end Supervising

/-- At most this plugin was launched, at most once. -/
structure Launching (id : String) (before after : World) : Prop where
  restarts : after.1.restarts = before.1.restarts
  others : ∀ other, other ≠ id → residentStarts other after.2 = residentStarts other before.2 ∧
    (.resident other ∈ after.1.processes → .resident other ∈ before.1.processes)
  own : residentStarts id after.2 = residentStarts id before.2 ∧
      (.resident id ∈ after.1.processes → .resident id ∈ before.1.processes) ∨
    residentStarts id after.2 = residentStarts id before.2 + 1

/-- A relaunch takes one of those that are left, and nothing gives one back. -/
def Spends (before after : World) : Prop :=
  ∀ id, residentStarts id after.2 + after.1.relaunchesLeft id ≤
    residentStarts id before.2 + before.1.relaunchesLeft id

theorem Subdued.spends (subdued : Subdued before after) : Spends before after := by
  intro id
  have less := subdued.relaunchesLeft id
  rw [subdued.starts id]
  omega

def Idles (before after : World) : Prop :=
  ∀ id, residentStarts id before.2 ≤ residentStarts id after.2 ∧
    (residentStarts id after.2 = residentStarts id before.2 →
      after.1.relaunchesLeft id ≤ before.1.relaunchesLeft id)

instance : Std.Refl Idles where
  refl _ := fun _ => ⟨le_rfl, fun _ => le_rfl⟩

instance : IsTrans World Idles where
  trans first between last idles further := fun id => by
    obtain ⟨grows, less⟩ := idles id
    obtain ⟨growsFurther, lessFurther⟩ := further id
    refine ⟨grows.trans growsFurther, fun same => ?_⟩
    have rest := lessFurther (by omega)
    have start := less (by omega)
    exact rest.trans start

theorem Subdued.idles (subdued : Subdued before after) : Idles before after :=
  fun id => ⟨(subdued.starts id).ge, fun _ => subdued.relaunchesLeft id⟩

theorem relaunchesLeft_le_of {before after : State} {id : String}
    (restarts : after.attempts id = before.attempts id)
    (live : .resident id ∈ after.processes → .resident id ∈ before.processes) :
    after.relaunchesLeft id ≤ before.relaunchesLeft id := by
  unfold relaunchesLeft
  rw [restarts]
  split
  · rename_i there
    rw [if_pos (live there)]
  · exact Nat.zero_le _

theorem Launching.idles {id : String} (launching : Launching id before after) :
    Idles before after := by
  intro other
  have restarts : after.1.attempts other = before.1.attempts other := by
    rw [attempts, launching.restarts]
    rfl
  by_cases same : other = id
  · subst same
    rcases launching.own with ⟨starts, live⟩ | starts
    · exact ⟨starts.ge, fun _ => relaunchesLeft_le_of restarts live⟩
    · exact ⟨by omega, fun _ => by omega⟩
  · obtain ⟨starts, live⟩ := launching.others other same
    exact ⟨starts.ge, fun _ => relaunchesLeft_le_of restarts live⟩

namespace Supervising

open Handler (task update emit)

variable (id : String)

theorem launching_spawnAdapter : (spawnAdapter around (.resident id)).Along (Launching id) := by
  rintro ⟨state, log⟩
  have same (later : State) (restarts : later.restarts = state.restarts)
      (processes : later.processes = state.processes) :
      Launching id (state, log) (later, log) := by
    refine ⟨restarts, fun other _ => ⟨rfl, fun live => ?_⟩, .inl ⟨rfl, fun live => ?_⟩⟩
    · exact (congrArg (resident other ∈ ·) processes).mp live
    · exact (congrArg (resident id ∈ ·) processes).mp live
  rw [spawnAdapter, ensures_bind, ensures_task]
  cases found : state.specs.lookup (resident id).plugin with
  | none => exact same state rfl rfl
  | some =>
    simp only [ensures_bind, ensures_recover, ensures_answered,
      ensures_update, Handler.ensures_stop, launch, report, ensures_emit]
    refine ⟨fun _ _ => ⟨fun _ _ => ⟨fun _ _ => ?_, fun _ _ => same _ rfl rfl⟩,
      fun _ _ => same _ rfl rfl⟩, fun _ _ => same _ rfl rfl⟩
    refine ⟨rfl, fun _ differ => ⟨?_, fun live => ?_⟩, .inr ?_⟩
    · simp [residentStarts, startsResident, Ne.symm differ]
    · exact ((AList.mem_insert _).mp live).resolve_left fun same =>
        differ (resident.inj same)
    · simp [residentStarts, startsResident]

theorem launching_orReject :
    (orReject (.resident id) (spawnAdapter around (.resident id))).Along (Launching id) := by
  intro before
  rw [orReject, ensures_recover]
  refine (launching_spawnAdapter id before).mono (fun _ _ reached => reached) ?_
  rintro _ ⟨_, _⟩ launching
  refine ⟨launching.restarts, fun other differ => ?_, ?_⟩
  · simpa [residentStarts, startsResident] using launching.others other differ
  · simpa [residentStarts, startsResident] using launching.own

variable {before : World} {state : State} {adapter : AdapterId}

theorem relaunch_spends (terminal : Bool) {log : List Effect} (gone : Subdued before (state, log))
    (live : .resident id ∈ before.1.processes) (ended : .resident id ∉ state.processes) :
    (relaunch around id terminal).Attains (state, log) (Spends before) := by
  have left : before.1.relaunchesLeft id = maxRestarts - state.attempts id := by
    rw [relaunchesLeft, if_pos live, attempts, attempts, gone.restarts]
  have others (other : String) : state.attempts other = before.1.attempts other := by
    rw [attempts, attempts, gone.restarts]
  refine ensures_ite.mpr ⟨fun relaunches => ?_, fun _ => ?_⟩
  · rw [ensures_bind, ensures_update]
    have few : state.attempts id < maxRestarts := relaunches.2.2.1
    have spends : ∀ after, Launching id
        ({ state with restarts :=
          (state.restarts.insert id (state.attempts id)).insert id (state.attempts id + 1) }, log)
        after → Spends before after := by
      intro after launching other
      by_cases same : other = id
      · subst same
        have counted : after.1.attempts other = state.attempts other + 1 := by
          rw [attempts, launching.restarts]
          simp
        rcases launching.own with ⟨starts, still⟩ | starts
        · have none : after.1.relaunchesLeft other = 0 := if_neg fun there => ended (still there)
          rw [none, starts, gone.starts other]
          omega
        · have less : after.1.relaunchesLeft other ≤ maxRestarts - (state.attempts other + 1) := by
            rw [relaunchesLeft, counted]
            split <;> omega
          rw [starts, gone.starts other, left]
          omega
      · obtain ⟨starts, still⟩ := launching.others other same
        have kept : after.1.attempts other = before.1.attempts other := by
          rw [← others other, attempts, attempts, launching.restarts]
          simp [same]
        have less := relaunchesLeft_le_of kept fun there => gone.live other (still there)
        rw [starts, gone.starts other]
        omega
    exact (launching_orReject id _).mono (fun _ after => spends after) fun _ after => spends after
  · intro other
    have kept : ({ state with restarts := state.restarts.insert id (state.attempts id) } :
        State).attempts other = before.1.attempts other := by
      rw [← others other]
      unfold attempts
      by_cases same : other = id
      · subst same
        simp
      · simp [same]
    exact Nat.add_le_add (gone.starts other).le (relaunchesLeft_le_of kept (gone.live other))

theorem exited_spends (reason : String) (terminal : Bool) (live : adapter ∈ before.1.processes)
    {world : World} (gone : Subdued before world)
    (ended : ∀ id, adapter = .resident id → adapter ∉ world.1.processes) :
    (do
      report (.exited adapter reason)
      match adapter with
      | .resident id => relaunch around id terminal
      | .transfer .. | .settings _ => pure () : Supervising Unit).Attains world
        (Spends before) := by
  have reported : Subdued before (world.1, world.2 ++ [.report (.exited adapter reason)]) :=
    ⟨gone.restarts, fun id => by
      simpa [residentStarts, startsResident] using gone.starts id, gone.live⟩
  cases adapter with
  | resident id => exact relaunch_spends id terminal reported live (ended id rfl)
  | transfer | settings => exact reported.spends

theorem processExit_spends (live : adapter ∈ state.processes) (reason : String)
    (log : List Effect) :
    (processExit around adapter reason).Attains (state, log) (Spends (state, log)) := by
  rw [Handler.Attains, processExit, ensures_bind, ensures_task, ensures_bind, ensures_update,
    ensures_bind]
  have unmarked : Subdued (state, log)
      ({ state with terminal := state.terminal.erase adapter }, log) :=
    ⟨rfl, fun _ => rfl, fun _ => id⟩
  refine mono (((subdued_stopAdapter adapter).onward unmarked).and
    (leaves_stopAdapter adapter _ log)) ?_ ?_
  · rintro _ world ⟨gone, same⟩
    have ended : adapter ∉ world.1.processes := by
      rw [same]
      exact fun there => (AList.mem_erase.mp there).1 rfl
    refine ensures_ite.mpr ⟨fun _ => ?_, fun _ => ?_⟩
    · rw [ensures_bind]
      refine mono (lenient_subdued.cancelOwned adapter world) (fun _ _ further => ?_)
        fun _ _ further => (trans_of Subdued gone further).spends
      refine exited_spends reason _ live (trans_of Subdued gone further) ?_
      rintro id rfl there
      exact ended (further.live id there)
    · exact exited_spends reason _ live gone fun _ _ => ended
  · exact fun _ _ absurdity => absurdity.2.elim

theorem mem_of_current {generation : UInt64} (counts : current state adapter generation = true) :
    adapter ∈ state.processes := by
  cases found : state.processes.lookup adapter with
  | none => simp [current, found] at counts
  | some runtime => exact (mem_iff_lookup _ _).mpr ⟨runtime, found⟩

theorem spends_handleProcessEvent (event : ProcessEvent) (state : State) (log : List Effect) :
    (handleProcessEvent codecs around event).Attains (state, log) (Spends (state, log)) := by
  have along {handler : Supervising Unit} (subdued : handler.Along Subdued) :
      handler.Attains (state, log) (Spends (state, log)) :=
    (subdued (state, log)).mono (fun _ _ => Subdued.spends) fun _ _ => Subdued.spends
  cases event with
  | line =>
    exact ensures_ite.mpr ⟨fun _ => along (subdued_takeLine _ _), fun _ => along (.pure _)⟩
  | diagnostic =>
    exact ensures_ite.mpr
      ⟨fun _ => along (lenient_subdued.takeDiagnostic _ _), fun _ => along (.pure _)⟩
  | failed | exited =>
    exact ensures_ite.mpr
      ⟨fun counts => processExit_spends (mem_of_current counts) _ _, fun _ => along (.pure _)⟩

theorem idles_of_subdued {handler : Supervising Unit} (subdued : handler.Along Subdued) :
    handler.Along Idles :=
  fun before => (subdued before).mono (fun _ _ => Subdued.idles) fun _ _ => Subdued.idles

theorem subdued_startTransfer (spec : LaunchSpec) (transferId : String) (manifest : Message) :
    (startTransfer around id spec transferId manifest).Along Subdued := by
  refine .ite (subdued_report _) (.bind .task fun _ => .ite (subdued_report _) ?_)
  refine .bind (subdued_note (fun _ => rfl) fun _ => rfl) fun _ => lenient_subdued.orReject _ ?_
  refine .bind (subdued_spawnAdapter ?_) fun _ => subdued_note (fun _ => rfl) fun _ => rfl
  rintro _ ⟨⟩

theorem idles_reset {id : String} (log : List Effect) (later : State)
    (absent : .resident id ∉ state.processes) (same : later.processes = state.processes)
    (restarts : later.restarts = state.restarts.erase id) : Idles (state, log) (later, log) := by
  refine fun other => ⟨le_rfl, fun _ => ?_⟩
  by_cases equal : other = id
  · subst equal
    have none : later.relaunchesLeft other = 0 := if_neg (same ▸ absent)
    exact none ▸ Nat.zero_le _
  · refine relaunchesLeft_le_of ?_ fun live => same ▸ live
    rw [attempts, attempts, restarts, lookup_erase, if_neg equal]

theorem subdued_stopEach {body : AdapterId → Supervising Unit}
    (stops : ∀ adapter state log, Leaves (body adapter) state log (Stopped [adapter] state))
    (subdued : ∀ adapter, (body adapter).Along Subdued) (id : String) (state : State)
    (log : List Effect) :
    (Handler.each (around.processOrder.arrange (state.processesOf id)) body).Ensures (state, log)
      (fun _ after => Subdued (state, log) after ∧ .resident id ∉ after.1.processes)
      fun _ after => Subdued (state, log) after := by
  refine mono ((Handler.Along.each subdued (state, log)).and
    (leaves_stopEach stops _ state log)) ?_ fun _ _ absurdity => absurdity.1
  rintro _ _ ⟨gone, stopped⟩
  exact ⟨gone, fun live => noProcess_of_lookup stopped.lookup _ live rfl⟩

theorem idles_stopPlugin : (stopPlugin around id).Along Idles := by
  rintro ⟨state, log⟩
  rw [stopPlugin, ensures_bind, ensures_task, ensures_bind]
  refine mono (subdued_stopEach (fun adapter state log => ?_) (fun adapter => ?_)
    id state log) ?_ fun _ _ => Subdued.idles
  · exact (leaves_stopMarked adapter state log).bind fun _ _ => leaves_report _
  · exact .bind (subdued_stopMarked adapter) fun _ => subdued_report _
  · rintro _ ⟨later, written⟩ ⟨gone, absent⟩
    have reset := idles_reset written { later with
      specs := later.specs.erase id, restarts := later.restarts.erase id } absent rfl rfl
    exact trans_of Idles gone.idles reset

theorem idles_restartPlugin : (restartPlugin around id).Along Idles := by
  rintro ⟨state, log⟩
  rw [restartPlugin, ensures_bind, ensures_task, ensures_bind]
  refine mono (subdued_stopEach (fun adapter state log => ?_) (fun adapter => ?_)
    id state log) ?_ fun _ _ => Subdued.idles
  · exact leaves_stopMarked adapter state log
  · exact subdued_stopMarked adapter
  · rintro _ ⟨later, written⟩ ⟨gone, absent⟩
    refine ensures_ite.mpr ⟨fun _ => ?_, fun _ => gone.idles⟩
    have reset := trans_of Idles gone.idles (idles_reset written { later with
      terminal := later.terminal.erase (.resident id), restarts := later.restarts.erase id }
      absent rfl rfl)
    refine mono (launching_orReject id _) ?_ ?_
    · exact fun _ _ launching => trans_of Idles reset launching.idles
    · exact fun _ _ launching => trans_of Idles reset launching.idles

theorem subdued_sendNewSettings {settings : List (String × String)} : (do
    update fun state => { state with settings := state.settings.insert id settings }
    sendSettings around (.resident id) settings : Supervising Unit).Along Subdued :=
  .bind (subdued_note (fun _ => rfl) fun _ => rfl) fun _ =>
    lenient_subdued.sendReady (subdued_failAdapter _) _

theorem idles_startPlugin (spec : LaunchSpec) (settings : List (String × String)) :
    (startPlugin around id spec settings).Along Idles := by
  rintro ⟨state, log⟩
  refine ensures_ite.mpr ⟨fun _ => ?_, fun absent => ?_⟩
  · exact idles_of_subdued (subdued_sendNewSettings id) (state, log)
  · rw [ensures_bind, ensures_update]
    have reset := idles_reset log { state with
      terminal := state.terminal.erase (.resident id)
      specs := state.specs.insert id spec
      settings := state.settings.insert id settings
      restarts := state.restarts.erase id } absent rfl rfl
    refine mono (launching_orReject id _) ?_ ?_
    · exact fun _ _ launching => trans_of Idles reset launching.idles
    · exact fun _ _ launching => trans_of Idles reset launching.idles

theorem subdued_handleCommand {command : ManagerCommand} (aside : command.steers = false) :
    (handleCommand codecs around command).Along Subdued := by
  cases target : command.target with
  | some adapter => exact lenient_subdued.handleCommand target (subdued_failAdapter adapter)
  | none =>
    cases command with
    | startTransfer id spec transferId =>
      exact subdued_startTransfer id spec transferId _
    | openSettingsWindow =>
      exact .bind .task fun _ =>
        .ite (lenient_subdued.orReject _ (subdued_spawnSettingsWindow _ _ _)) (.pure _)
    | shutdown =>
      have noted : (update fun state => { state with stopping := true } :
          Supervising Unit).Along Subdued :=
        subdued_note (fun _ => rfl) fun _ => rfl
      exact noted
    | startPlugin | stopPlugin | restartPlugin => cases aside
    | _ => cases target

theorem idles_handleCommand (command : ManagerCommand) :
    (handleCommand codecs around command).Along Idles := by
  cases steers : command.steers with
  | false => exact idles_of_subdued (subdued_handleCommand steers)
  | true =>
    cases command with
    | startPlugin id spec settings => exact idles_startPlugin id spec settings
    | stopPlugin id => exact idles_stopPlugin id
    | restartPlugin id => exact idles_restartPlugin id
    | _ => cases steers

end Supervising

theorem spends_supervise (codecs : Codecs) (state : State) (around : Surroundings)
    (event : ProcessEvent) :
    Spends (state, []) (supervise codecs state (around, .process event)) := by
  unfold supervise
  split
  · exact fun _ => le_rfl
  · exact stateAfter (Supervising.spends_handleProcessEvent event state [])

theorem idles_supervise (codecs : Codecs) (state : State) (around : Surroundings)
    (command : ManagerCommand) :
    Idles (state, []) (supervise codecs state (around, .command command)) := by
  unfold supervise
  split
  · exact refl_of Idles _
  · exact stateAfter (Supervising.idles_handleCommand command (state, []))

end Syntra.Plugins
