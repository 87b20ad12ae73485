import Syntra.Plugins.Moves

/-!
# The books of the supervisor

What the supervisor keeps beside its table of processes is about live processes: ranges that a
process awaits, messages kept for its handshake, transfers it owns and the mark that it ends by
itself (`Bookkept`). The ways to end a process that clean only some of them are those that `Tidy`
leaves out.
-/

namespace Syntra.Plugins

open StateMachine Tables Handler AdapterRuntime False List
open Handler (ensures_bind ensures_task ensures_update ensures_emit ensures_ite ensures_recover
  ensures_pure)

/-- The books are about live processes only. -/
structure Bookkept (state : State) : Prop where
  ranges : ∀ key ∈ state.pendingRanges, ∃ plugin, .transfer plugin key.1 ∈ state.processes
  messages : ∀ adapter ∈ state.pendingMessages, ∃ runtime,
    state.processes.lookup adapter = some runtime ∧ runtime.grant = none
  owned : ∀ plugin transfers, state.ownedTransfers.lookup plugin = some transfers →
    transfers ≠ ∅ → .resident plugin ∈ state.processes
  terminal : ∀ adapter ∈ state.terminal, adapter ∈ state.processes

/-- What waits and what ends are processes that serve a transfer. -/
structure Orderly (state : State) : Prop extends Bookkept state where
  waiting : ∀ adapter ∈ state.pendingMessages, adapter.servedTransfer.isSome
  ending : ∀ adapter ∈ state.terminal, adapter.servedTransfer.isSome ∧
    ∃ runtime, state.processes.lookup adapter = some runtime ∧ runtime.grant.isSome

/-- Two states agree on the books. -/
structure SameBooks (state later : State) : Prop where
  pendingRanges : later.pendingRanges = state.pendingRanges
  pendingMessages : later.pendingMessages = state.pendingMessages
  ownedTransfers : later.ownedTransfers = state.ownedTransfers
  terminal : later.terminal = state.terminal

theorem SameBooks.refl (state : State) : SameBooks state state := ⟨rfl, rfl, rfl, rfl⟩

/-- Neither marked nor awaited by a message: the end of such a process is cleaned up by those who
only take its ranges. -/
def Unmarked (state : State) (adapter : AdapterId) : Prop :=
  adapter ∉ state.terminal ∧ adapter ∉ state.pendingMessages

namespace Orderly

variable {state later : State} {adapter : AdapterId}

variable (orderly : Orderly state)
include orderly

theorem unmarked (lasting : adapter.servedTransfer = none) : Unmarked state adapter := by
  refine ⟨fun marked => ?_, fun kept => ?_⟩
  · simpa [lasting] using (orderly.ending adapter marked).1
  · simpa [lasting] using orderly.waiting adapter kept

theorem not_waiting (ready : state.ready adapter = true) : adapter ∉ state.pendingMessages := by
  intro kept
  obtain ⟨_, found, none⟩ := orderly.messages adapter kept
  simp [State.ready, found, AdapterRuntime.ready, none] at ready

theorem not_ending (unready : state.ready adapter = false) : adapter ∉ state.terminal := by
  intro marked
  obtain ⟨-, _, found, some⟩ := orderly.ending adapter marked
  simp [State.ready, found, ready, some] at unready

/-- The books may shrink, if what they are still about is where it was. -/
theorem shrunk
    (ranges : ∀ key ∈ later.pendingRanges, ∃ plugin, .transfer plugin key.1 ∈ later.processes)
    (messages : ∀ adapter ∈ later.pendingMessages, adapter ∈ state.pendingMessages ∧
      later.processes.lookup adapter = state.processes.lookup adapter)
    (owned : ∀ plugin transfers, later.ownedTransfers.lookup plugin = some transfers →
      transfers ≠ ∅ → .resident plugin ∈ later.processes)
    (terminal : ∀ adapter ∈ later.terminal, adapter ∈ state.terminal ∧
      later.processes.lookup adapter = state.processes.lookup adapter) : Orderly later where
  ranges := ranges
  messages := by
    intro adapter kept
    rw [(messages adapter kept).2]
    exact orderly.messages adapter (messages adapter kept).1
  owned := owned
  terminal := by
    intro adapter marked
    rw [mem_iff_lookup, (terminal adapter marked).2, ← mem_iff_lookup]
    exact orderly.terminal adapter (terminal adapter marked).1
  waiting := fun adapter kept => orderly.waiting adapter (messages adapter kept).1
  ending := by
    intro adapter marked
    rw [(terminal adapter marked).2]
    exact orderly.ending adapter (terminal adapter marked).1

theorem of_processes (books : SameBooks state later)
    (served : ∀ adapter, adapter.servedTransfer.isSome →
      later.processes.lookup adapter = state.processes.lookup adapter)
    (owners : ∀ plugin transfers, state.ownedTransfers.lookup plugin = some transfers →
      transfers ≠ ∅ → .resident plugin ∈ later.processes) : Orderly later := by
  refine orderly.shrunk (fun key pending => ?_) (fun adapter kept => ?_)
    (books.ownedTransfers ▸ owners) fun adapter marked => ?_
  · rw [books.pendingRanges] at pending
    obtain ⟨plugin, live⟩ := orderly.ranges key pending
    refine ⟨plugin, ?_⟩
    rw [mem_iff_lookup, served _ rfl, ← mem_iff_lookup]
    exact live
  · rw [books.pendingMessages] at kept
    exact ⟨kept, served adapter (orderly.waiting adapter kept)⟩
  · rw [books.terminal] at marked
    exact ⟨marked, served adapter (orderly.ending adapter marked).1⟩

theorem congr (books : SameBooks state later) (same : later.processes = state.processes) :
    Orderly later :=
  orderly.of_processes books (fun _ _ => by rw [same])
    fun plugin transfers found some => same ▸ orderly.owned plugin transfers found some

end Orderly

/-- The process is gone with its transfers, and nothing else. -/
structure Cancelled (adapter : AdapterId) (state later : State) : Prop where
  processes : later.processes = state.processes.erase adapter
  pendingMessages : later.pendingMessages = state.pendingMessages
  terminal : later.terminal = state.terminal
  ranges : ∀ key ∈ later.pendingRanges, key ∈ state.pendingRanges ∧
    adapter.servedTransfer ≠ some key.1
  owned : ∀ plugin transfers, later.ownedTransfers.lookup plugin = some transfers →
    state.ownedTransfers.lookup plugin = some transfers ∧ adapter ≠ .resident plugin

theorem Orderly.cancelled {state later : State} {adapter : AdapterId} (orderly : Orderly state)
    (unmarked : Unmarked state adapter) (cancelled : Cancelled adapter state later) :
    Orderly later := by
  have others {other : AdapterId} (differ : other ≠ adapter) :
      later.processes.lookup other = state.processes.lookup other := by
    rw [cancelled.processes, lookup_erase, if_neg differ]
  refine orderly.shrunk (fun key pending => ?_) (fun other kept => ?_)
    (fun plugin transfers found some => ?_) fun other marked => ?_
  · obtain ⟨before, other⟩ := cancelled.ranges key pending
    obtain ⟨plugin, live⟩ := orderly.ranges key before
    refine ⟨plugin, ?_⟩
    rw [cancelled.processes, AList.mem_erase]
    refine ⟨?_, live⟩
    rintro rfl
    exact other rfl
  · rw [cancelled.pendingMessages] at kept
    refine ⟨kept, others ?_⟩
    rintro rfl
    exact unmarked.2 kept
  · obtain ⟨before, other⟩ := cancelled.owned plugin transfers found
    rw [cancelled.processes, AList.mem_erase]
    exact ⟨Ne.symm other, orderly.owned plugin transfers before some⟩
  · rw [cancelled.terminal] at marked
    refine ⟨marked, others ?_⟩
    rintro rfl
    exact unmarked.1 marked

namespace Supervising

open Handler (task update emit)

variable {codecs : Codecs} {around : Surroundings}

abbrev Leaves (handler : Supervising Unit) (state : State) (log : List Effect)
    (post : State → Prop) : Prop :=
  handler.Ensures (state, log) (fun _ after => post after.1) fun _ _ => False

variable {handler : Supervising Unit} {state : State} {log : List Effect} {post : State → Prop}

theorem Leaves.mono {weaker : State → Prop} (leaves : Leaves handler state log post)
    (weakens : ∀ later, post later → weaker later) : Leaves handler state log weaker :=
  Ensures.mono leaves (fun _ after => weakens after.1) fun _ _ => elim

theorem Leaves.bind {next : Supervising Unit} {between : State → Prop}
    (leaves : Leaves handler state log between)
    (onward : ∀ later log, between later → Leaves next later log post) :
    Leaves (do handler; next) state log post := by
  rw [Leaves, ensures_bind]
  exact Ensures.mono leaves (fun _ after => onward after.1 after.2) fun _ _ => elim

theorem leaves_report (event : ManagerEvent) (holds : post state) :
    Leaves (report event) state log post :=
  holds

variable (adapter : AdapterId)

theorem leaves_stopAdapter (state : State) (log : List Effect) :
    Leaves (stopAdapter adapter) state log
      (· = { state with processes := state.processes.erase adapter }) := by
  rw [Leaves, stopAdapter, ensures_bind, ensures_task]
  cases found : state.processes.lookup adapter with
  | none =>
    change state = _
    rw [AList.erase_of_lookup_none found]
  | some => exact rfl

def dropRanges (transfers : List String) (state : State) : State :=
  let drop := fun (ranges : Table (String × UInt64) PendingRange) transferId =>
    ranges.retain fun key _ => key.1 ≠ transferId
  { state with pendingRanges := transfers.foldl drop state.pendingRanges }

theorem mem_dropRanges {transfers : List String} {key : String × UInt64}
    (pending : key ∈ (dropRanges transfers state).pendingRanges) :
    key ∈ state.pendingRanges ∧ key.1 ∉ transfers := by
  have kept : ∀ ranges : Table (String × UInt64) PendingRange,
      key ∈ transfers.foldl
        (fun ranges transferId => ranges.retain fun key _ => key.1 ≠ transferId) ranges →
      key ∈ ranges ∧ key.1 ∉ transfers := by
    clear pending
    induction transfers with
    | nil => exact fun ranges pending => ⟨pending, by simp⟩
    | cons _ _ ih =>
      intro _ pending
      obtain ⟨before, others⟩ := ih _ pending
      obtain ⟨range, found⟩ := (mem_iff_lookup _ _).mp before
      rw [AList.lookup_retain, Option.filter_eq_some_iff] at found
      refine ⟨(mem_iff_lookup _ _).mpr ⟨range, found.1⟩, ?_⟩
      simp only [mem_cons, not_or]
      exact ⟨by simpa using found.2, others⟩
  exact kept state.pendingRanges pending

theorem leaves_cancelEach (adapter : AdapterId) (transfers : List String) (state : State)
    (log : List Effect) :
    Leaves (.each transfers fun transferId => do
      update fun state => { state with
        pendingRanges := state.pendingRanges.retain fun key _ => key.1 ≠ transferId }
      report (.cancelled adapter transferId)) state log (· = dropRanges transfers state) := by
  induction transfers generalizing state log with
  | nil => exact rfl
  | cons _ _ ih =>
    exact ih _ _

theorem leaves_cancelOwned (state : State) (log : List Effect) :
    Leaves (cancelOwned around adapter)
      { state with processes := state.processes.erase adapter } log (Cancelled adapter state) := by
  simp only [Leaves, cancelOwned, ensures_bind, ensures_task, ensures_update]
  cases adapter with
  | resident =>
    refine Leaves.mono (leaves_cancelEach _ _ _ _) ?_
    rintro _ rfl
    refine ⟨rfl, rfl, rfl, fun key pending => ⟨(mem_dropRanges pending).1, by rintro ⟨⟩⟩, ?_⟩
    intro other _ found
    simp only [dropRanges, lookup_erase] at found
    split at found
    · cases found
    · rename_i differ
      exact ⟨found, fun same => differ (AdapterId.resident.inj same).symm⟩
  | transfer =>
    refine Leaves.mono (leaves_cancelEach _ _ _ _) ?_
    rintro _ rfl
    refine ⟨rfl, rfl, rfl, fun key pending => ?_, fun _ _ found => ⟨found, by rintro ⟨⟩⟩⟩
    obtain ⟨before, other⟩ := mem_dropRanges pending
    refine ⟨before, ?_⟩
    rintro ⟨⟩
    exact other (mem_singleton_self _)
  | settings =>
    exact ⟨rfl, rfl, rfl, fun _ pending => ⟨pending, by rintro ⟨⟩⟩,
      fun _ _ found => ⟨found, by rintro ⟨⟩⟩⟩

theorem leaves_failAdapter (reason : String) (state : State) (log : List Effect) :
    Leaves (failAdapter around adapter reason) state log (Cancelled adapter state) := by
  refine (leaves_stopAdapter adapter state log).bind ?_
  rintro _ written rfl
  exact (leaves_cancelOwned adapter state written).bind fun _ _ => leaves_report _

theorem orderly_failAdapter (orderly : Orderly state) {adapter : AdapterId}
    (unmarked : Unmarked state adapter) (reason : String) (log : List Effect) :
    Leaves (failAdapter around adapter reason) state log Orderly :=
  (leaves_failAdapter adapter reason state log).mono fun _ => orderly.cancelled unmarked

theorem trySend_ensures (runtime : AdapterRuntime) (message : Message) (state : State)
    (log : List Effect) :
    (trySend around adapter runtime message).Ensures (state, log)
      (fun outcome after => outcome = around.trySend log.length ∧ after.1 = state)
      fun _ _ => False := by
  exact ensures_ite.mpr ⟨fun _ => ⟨rfl, rfl⟩, fun _ => ⟨rfl, rfl⟩⟩

theorem orderly_sendReady (orderly : Orderly state) {adapter : AdapterId} (log : List Effect)
    (sound : state.ready adapter = true → around.trySend log.length ≠ .sent →
      adapter ∉ state.terminal) (message : Message) :
    Leaves (sendReady around adapter message) state log Orderly := by
  rw [Leaves, sendReady, ensures_bind, ensures_task]
  cases found : state.processes.lookup adapter with
  | none => exact orderly
  | some runtime =>
    refine ensures_ite.mpr ⟨fun _ => orderly, fun answered => ?_⟩
    have ready : state.ready adapter = true := by simpa [State.ready, found] using answered
    rw [ensures_bind]
    refine (trySend_ensures adapter runtime message state log).mono ?_ fun _ _ => elim
    rintro outcome ⟨later, written⟩ ⟨answer, same⟩
    subst same
    have unmarked (failed : outcome ≠ .sent) : Unmarked later adapter :=
      ⟨sound ready (answer ▸ failed), orderly.not_waiting ready⟩
    cases outcome with
    | sent => exact orderly
    | full | closed => exact orderly_failAdapter orderly (unmarked (by simp)) _ written

theorem orderly_sendLasting (orderly : Orderly state) {adapter : AdapterId}
    (lasting : adapter.servedTransfer = none) (message : Message) (log : List Effect) :
    Leaves (sendReady around adapter message) state log Orderly :=
  orderly_sendReady orderly log (fun _ _ => (orderly.unmarked lasting).1) message

theorem orderly_sendDroppable (orderly : Orderly state) {adapter : AdapterId}
    (lasting : adapter.servedTransfer = none) (message : Message) (log : List Effect) :
    Leaves (sendDroppable around adapter message) state log Orderly := by
  rw [Leaves, sendDroppable, ensures_bind, ensures_task]
  cases found : state.processes.lookup adapter with
  | none => exact orderly
  | some runtime =>
    rw [ensures_bind]
    refine (trySend_ensures adapter runtime message state log).mono ?_ fun _ _ => elim
    rintro outcome ⟨_, written⟩ ⟨-, same⟩
    subst same
    cases outcome with
    | sent | full => exact orderly
    | closed => exact orderly_failAdapter orderly (orderly.unmarked lasting) _ written

/-- What a start leaves: the process, which was announced to nobody yet. -/
structure Spawned (adapter : AdapterId) (state later : State) : Prop where
  books : SameBooks state later
  processes : ∃ generation spec,
    later.processes = state.processes.insert adapter ⟨generation, spec, none⟩

end Supervising

theorem Orderly.spawned {state later : State} {adapter : AdapterId} (orderly : Orderly state)
    (absent : adapter ∉ state.processes) (spawned : Supervising.Spawned adapter state later) :
    Orderly later := by
  obtain ⟨books, _, _, inserted⟩ := spawned
  have others (other : AdapterId) (there : other ∈ state.processes) :
      later.processes.lookup other = state.processes.lookup other := by
    rw [inserted, lookup_insert, if_neg]
    rintro rfl
    exact absent there
  have stays (other : AdapterId) (there : other ∈ state.processes) : other ∈ later.processes := by
    rw [mem_iff_lookup, others other there, ← mem_iff_lookup]
    exact there
  refine orderly.shrunk (fun key pending => ?_) (fun other kept => ?_)
    (fun plugin transfers found some => ?_) fun other marked => ?_
  · rw [books.pendingRanges] at pending
    obtain ⟨plugin, live⟩ := orderly.ranges key pending
    exact ⟨plugin, stays _ live⟩
  · rw [books.pendingMessages] at kept
    obtain ⟨runtime, found, -⟩ := orderly.messages other kept
    exact ⟨kept, others other ((mem_iff_lookup _ _).mpr ⟨runtime, found⟩)⟩
  · rw [books.ownedTransfers] at found
    exact stays _ (orderly.owned plugin transfers found some)
  · rw [books.terminal] at marked
    exact ⟨marked, others other (orderly.terminal other marked)⟩

namespace Supervising

variable {codecs : Codecs} {around : Surroundings}

theorem launch_ensures (adapter : AdapterId) (spec : LaunchSpec) (generation : UInt64)
    (theme : Option String) (state : State) (log : List Effect) :
    (launch around adapter spec generation theme).Ensures (state, log)
      (fun _ after => Spawned adapter state after.1)
      fun _ after => after.1 = state ∧ ∀ pid, around.spawn adapter generation ≠ .ok pid := by
  simp only [launch, report, ensures_bind, ensures_answered, ensures_emit, ensures_update]
  refine ⟨fun pid _ => ⟨⟨rfl, rfl, rfl, rfl⟩, generation, spec, rfl⟩, ?_⟩
  exact fun _ refused => ⟨trivial, fun _ => by simp [refused]⟩

/-- All that a start of a process asks for is there. -/
structure Launchable (around : Surroundings) (state : State) (adapter : AdapterId) : Prop where
  spec : ∀ spec, state.specs.lookup adapter.plugin = some spec →
    verifyContent around spec = .ok () ∧ around.checkExecutable spec.executable = .ok ()
  registered : adapter.plugin ∈ state.specs
  spawns : ∃ pid, around.spawn adapter state.nextGeneration = .ok pid

theorem spawnAdapter_ensures (adapter : AdapterId) (state : State) (log : List Effect) :
    (spawnAdapter around adapter).Ensures (state, log)
      (fun _ after => Spawned adapter state after.1)
      fun _ after => SameBooks state after.1 ∧ after.1.processes = state.processes ∧
        ¬Launchable around state adapter := by
  rw [spawnAdapter, ensures_bind, ensures_task]
  cases found : state.specs.lookup adapter.plugin with
  | none =>
    refine ⟨.refl state, rfl, fun launchable => ?_⟩
    obtain ⟨spec, some⟩ := (mem_iff_lookup _ _).mp launchable.registered
    simp [found] at some
  | some spec =>
    simp only [ensures_bind, ensures_recover, ensures_answered, ensures_update, ensures_stop]
    refine ⟨fun _ verified => ⟨fun _ executable => ?_, fun reason refused => ?_⟩,
      fun _ refused => ?_⟩
    · refine (launch_ensures adapter spec _ none _ log).mono ?_ ?_
      · rintro _ ⟨later, written⟩ ⟨books, inserted⟩
        exact ⟨⟨books.pendingRanges, books.pendingMessages, books.ownedTransfers, books.terminal⟩,
          inserted⟩
      · rintro _ ⟨_, _⟩ ⟨same, fails⟩
        subst same
        refine ⟨⟨rfl, rfl, rfl, rfl⟩, rfl, fun launchable => ?_⟩
        obtain ⟨pid, spawns⟩ := launchable.spawns
        exact fails pid spawns
    · refine ⟨⟨rfl, rfl, rfl, rfl⟩, trivial, fun launchable => ?_⟩
      have executable := (launchable.spec spec found).2
      rw [refused] at executable
      cases executable
    · refine ⟨⟨rfl, rfl, rfl, rfl⟩, trivial, fun launchable => ?_⟩
      have verified := (launchable.spec spec found).1
      rw [refused] at verified
      cases verified

variable {adapter : AdapterId}

theorem leaves_orReject {starting : Supervising Unit} {state : State} {log : List Effect}
    {post : State → Prop} (leaves : starting.Attains (state, log) fun after => post after.1) :
    Leaves (orReject adapter starting) state log post := by
  rw [Leaves, orReject, ensures_recover]
  exact leaves.mono (fun _ _ => id) fun _ _ => id

theorem orderly_spawn {state : State} (orderly : Orderly state) (absent : adapter ∉ state.processes)
    (log : List Effect) :
    Leaves (orReject adapter (spawnAdapter around adapter)) state log Orderly := by
  refine leaves_orReject ((spawnAdapter_ensures adapter state log).mono ?_ ?_)
  · exact fun _ after spawned => orderly.spawned absent spawned
  · exact fun _ _ failed => orderly.congr failed.1 failed.2.1

variable {id : String}

theorem orderly_relaunch {state : State} (orderly : Orderly state)
    (absent : .resident id ∉ state.processes) (terminal : Bool) (log : List Effect) :
    Leaves (relaunch around id terminal) state log Orderly := by
  refine ensures_ite.mpr ⟨fun _ => ?_, fun _ => orderly.congr ⟨rfl, rfl, rfl, rfl⟩ rfl⟩
  refine orderly_spawn ?_ ?_ _
  · exact orderly.congr ⟨rfl, rfl, rfl, rfl⟩ rfl
  · exact absent

theorem orderly_settingsWindow {state : State} (orderly : Orderly state) (id : String)
    (spec : LaunchSpec) (theme : List (String × String)) (log : List Effect) :
    Leaves (orReject (.settings id) (spawnSettingsWindow around id spec theme)) state log
      Orderly := by
  refine leaves_orReject ?_
  refine ensures_ite.mpr ⟨fun _ => orderly, fun absent => ?_⟩
  simp only [ensures_bind, ensures_answered, ensures_update]
  refine ⟨fun _ _ => ⟨fun _ _ => ?_, fun _ _ => orderly⟩, fun _ _ => orderly⟩
  have counted : Orderly { state with nextGeneration := nextGeneration state.nextGeneration } :=
    orderly.congr ⟨rfl, rfl, rfl, rfl⟩ rfl
  refine (launch_ensures (.settings id) spec _ _ _ log).mono ?_ ?_
  · exact fun _ _ spawned => counted.spawned absent spawned
  · rintro _ ⟨_, _⟩ ⟨same, -⟩
    exact same ▸ counted

/-- A range that is asked for is not empty and new, and there is room for it. -/
def HasRoom (state : State) (message : Message) : Prop :=
  ∀ request, message = .rangeRequest request →
    request.length ≠ 0 ∧ state.pendingRanges.keys.length < maxPendingRanges ∧
      (request.transferId, request.requestId) ∉ state.pendingRanges

def Asks (message : Message) (key : String × UInt64) : Prop :=
  ∃ request, message = .rangeRequest request ∧ key = (request.transferId, request.requestId)

/-- The checks of a frame let the message through. -/
def Admissible (state : State) (grant : Grant) (adapter : AdapterId) (message : Message) : Prop :=
  grant.permits message = true ∧
    match message with
    | .declareSettings settings => validateDeclaredSettings settings = .ok ()
    | _ => validateTransfer adapter message = .ok () ∧ validateMount message = .ok () ∧
      HasRoom state message

/-- The same books, but for a range that may be new. -/
structure Noted (state later : State) (ranges : String × UInt64 → Prop) : Prop where
  agrees : state.Agrees later
  pendingMessages : later.pendingMessages = state.pendingMessages
  ownedTransfers : later.ownedTransfers = state.ownedTransfers
  terminal : later.terminal = state.terminal
  pendingRanges : ∀ key ∈ later.pendingRanges, key ∈ state.pendingRanges ∨ ranges key

theorem Noted.refl (state : State) (ranges : String × UInt64 → Prop) : Noted state state ranges :=
  ⟨.refl state, rfl, rfl, rfl, fun _ => .inl⟩

theorem noteRange_noted (message : Message) (state : State) (log : List Effect) :
    (noteRange message).Ensures (state, log)
      (fun _ after => HasRoom state message ∧ Noted state after.1 (Asks message))
      fun _ after => ¬HasRoom state message ∧ Noted state after.1 fun _ => False := by
  unfold noteRange
  split
  · rename_i request
    refine ensures_ite.mpr ⟨fun empty => ?_, fun some => ensures_ite.mpr
      ⟨fun full => ?_, fun below => ?_⟩⟩
    · exact ⟨fun room => (room request rfl).1 empty, .refl state _⟩
    · exact ⟨fun room => absurd (room request rfl).2.1 (Nat.not_lt.mpr full), .refl state _⟩
    · simp only [ensures_bind, ensures_update]
      refine ensures_ite.mpr ⟨fun duplicate => ?_, fun new => ?_⟩
      · refine ⟨fun room => (room request rfl).2.2 duplicate, ⟨rfl, rfl, rfl⟩, rfl, rfl, rfl,
          fun key pending => ?_⟩
        rcases (AList.mem_insert _).mp pending with rfl | before
        · exact .inl duplicate
        · exact .inl before
      · refine ⟨?_, ⟨rfl, rfl, rfl⟩, rfl, rfl, rfl, fun _ pending => ?_⟩
        · rintro _ ⟨⟩
          exact ⟨some, Nat.lt_of_not_le below, new⟩
        · rcases (AList.mem_insert _).mp pending with rfl | before
          · exact .inr ⟨request, rfl, rfl⟩
          · exact .inl before
  · rename_i other
    exact ⟨fun request same => absurd same (other request), .refl state _⟩

theorem Noted.orderly {state later : State} {ranges : String × UInt64 → Prop}
    (noted : Noted state later ranges) (orderly : Orderly state)
    (live : ∀ key, ranges key → ∃ plugin, .transfer plugin key.1 ∈ state.processes) :
    Orderly later := by
  have kept : Orderly { later with pendingRanges := state.pendingRanges } :=
    orderly.congr ⟨rfl, noted.pendingMessages, noted.ownedTransfers, noted.terminal⟩
      noted.agrees.processes
  refine ⟨⟨fun key pending => ?_, kept.messages, kept.owned, kept.terminal⟩, kept.waiting,
    kept.ending⟩
  rw [noted.agrees.processes]
  exact (noted.pendingRanges key pending).elim (orderly.ranges key) (live key)

theorem validateInbound_noted {state : State} {grant : Grant}
    (granted : (state.processes.lookup adapter).bind AdapterRuntime.grant = some grant)
    (message : Message) (log : List Effect) :
    (validateInbound adapter message).Ensures (state, log)
      (fun _ after => Admissible state grant adapter message ∧ Noted state after.1 (Asks message))
      fun _ after => ¬Admissible state grant adapter message ∧
        Noted state after.1 fun _ => False := by
  unfold validateInbound
  rw [ensures_bind, ensures_task, granted]
  refine ensures_ite.mpr ⟨fun refused => ?_, fun permits => ?_⟩
  · exact ⟨fun admissible => by simp [admissible.1] at refused, .refl state _⟩
  have permitted : grant.permits message = true := by simpa using permits
  split
  · rename_i settings
    rw [ensures_answered]
    refine ⟨fun _ declared => ⟨⟨permitted, declared⟩, .refl state _⟩,
      fun _ refused => ⟨?_, .refl state _⟩⟩
    rintro ⟨-, declared⟩
    simp [declared] at refused
  · rename_i undeclared
    have admissible : Admissible state grant adapter message ↔
        validateTransfer adapter message = .ok () ∧ validateMount message = .ok () ∧
          HasRoom state message := by
      simp only [Admissible, permitted, true_and]
    rw [ensures_bind, ensures_answered, admissible]
    refine ⟨fun _ transfer => ?_, fun _ refused => ⟨fun checks => ?_, .refl state _⟩⟩
    · rw [ensures_bind]
      refine (noteRange_noted message state log).mono ?_ ?_
      · rintro _ ⟨later, written⟩ ⟨room, noted⟩
        rw [ensures_answered]
        refine ⟨fun _ mount => ⟨⟨transfer, mount, room⟩, noted⟩, fun _ refused => ⟨?_, ?_⟩⟩
        · exact fun checks => by simp [checks.2.1] at refused
        · refine { noted with pendingRanges := fun key pending => .inl ?_ }
          refine (noted.pendingRanges key pending).resolve_right ?_
          rintro ⟨_, rfl, -⟩
          cases refused
      · rintro _ ⟨_, _⟩ ⟨full, noted⟩
        exact ⟨fun checks => full checks.2.2, noted⟩
    · simp [checks.1] at refused

theorem orderly_disown {state : State} (orderly : Orderly state) (plugin transferId : String) :
    Orderly { state with
      ownedTransfers := modify state.ownedTransfers plugin (·.erase transferId) } := by
  refine ⟨⟨orderly.ranges, orderly.messages, fun other transfers found some => ?_,
    orderly.terminal⟩, orderly.waiting, orderly.ending⟩
  rw [lookup_modify] at found
  split at found
  · rename_i same
    subst same
    obtain ⟨before, owned, rfl⟩ := Option.map_eq_some_iff.mp found
    refine orderly.owned other before owned ?_
    rintro rfl
    exact some rfl
  · exact orderly.owned other transfers found some

variable {runtime : AdapterRuntime}

section

variable {state : State} (orderly : Orderly state)
include orderly

theorem orderly_noteMessage (found : state.processes.lookup adapter = some runtime)
    (granted : runtime.grant.isSome) {message : Message}
    (owner : ∀ manifest, message = .copyManifest manifest →
      .resident adapter.plugin ∈ state.processes) :
    Orderly (noteMessage adapter message state) := by
  have marked : Orderly (if adapter.servedTransfer.isSome then
      { state with terminal := state.terminal.insert adapter () } else state) := by
    split
    · rename_i serves
      refine ⟨⟨orderly.ranges, orderly.messages, orderly.owned, fun other marked => ?_⟩,
        orderly.waiting, fun other marked => ?_⟩
      · rcases (AList.mem_insert _).mp marked with rfl | before
        · exact (mem_iff_lookup _ _).mpr ⟨runtime, found⟩
        · exact orderly.terminal other before
      · rcases (AList.mem_insert _).mp marked with rfl | before
        · exact ⟨serves, runtime, found, granted⟩
        · exact orderly.ending other before
    · exact orderly
  unfold noteMessage
  split
  · exact marked
  · exact marked
  · exact marked
  · exact orderly_disown orderly adapter.plugin _
  · rename_i manifest
    refine ⟨⟨orderly.ranges, orderly.messages, fun other transfers owned some => ?_,
      orderly.terminal⟩, orderly.waiting, orderly.ending⟩
    simp only [lookup_insert] at owned
    split at owned
    · rename_i same
      exact same ▸ owner manifest rfl
    · exact orderly.owned other transfers owned some
  · exact orderly

theorem orderly_admitted (found : state.processes.lookup adapter = some runtime)
    (unready : runtime.grant = none) (grant : Grant) :
    Orderly { state.admitted adapter runtime grant with
      pendingMessages := state.pendingMessages.erase adapter } := by
  have stays {other : AdapterId} (there : other ∈ state.processes) :
      other ∈ (state.admitted adapter runtime grant).processes :=
    (AList.mem_insert _).mpr (.inr there)
  have others {other : AdapterId} (differ : other ≠ adapter) :
      (state.admitted adapter runtime grant).processes.lookup other =
        state.processes.lookup other := by
    rw [State.admitted, lookup_insert, if_neg differ]
  refine orderly.shrunk (fun key pending => ?_) (fun other kept => ?_)
    (fun plugin transfers owned some => stays (orderly.owned plugin transfers owned some))
    fun other marked => ⟨marked, others ?_⟩
  · obtain ⟨plugin, live⟩ := orderly.ranges key pending
    exact ⟨plugin, stays live⟩
  · obtain ⟨differ, before⟩ := AList.mem_erase.mp kept
    exact ⟨before, others differ⟩
  · rintro rfl
    obtain ⟨-, _, before, some⟩ := orderly.ending other marked
    rw [found, Option.some.injEq] at before
    simp [← before, unready] at some

theorem orderly_each {α : Type} (list : List α) {body : α → Supervising Unit}
    (turn : ∀ element state log, Orderly state → Leaves (body element) state log Orderly)
    (log : List Effect) : Leaves (.each list body) state log Orderly :=
  Ensures.each (fun world : World => Orderly world.1) orderly
    fun element _ world kept => turn element world.1 world.2 kept

theorem orderly_handOver (id : String) (log : List Effect) :
    Leaves (handOver around id) state log Orderly := by
  refine Leaves.bind (orderly_sendLasting orderly rfl _ log) ?_
  intro later _ kept
  have settled : Orderly { later with pendingChanges := later.pendingChanges.erase id } :=
    kept.congr ⟨rfl, rfl, rfl, rfl⟩ rfl
  exact orderly_each settled _ (fun _ _ log before => orderly_sendLasting before rfl _ log) _

end

theorem orderly_welcome {state : State}
    (orderly : Orderly { state with pendingMessages := state.pendingMessages.erase adapter })
    (unmarked : adapter ∉ state.terminal) (log : List Effect) :
    Leaves (welcome around adapter) state log Orderly := by
  simp only [Leaves, welcome, ensures_bind, ensures_task, ensures_update]
  have sent : Leaves ((state.pendingMessages.lookup adapter).elim (pure ())
      (sendReady around adapter))
      { state with pendingMessages := state.pendingMessages.erase adapter } log Orderly := by
    cases state.pendingMessages.lookup adapter with
    | none => exact orderly
    | some message => exact orderly_sendReady orderly log (fun _ _ => unmarked) message
  refine Ensures.mono sent ?_ fun _ _ => elim
  intro _ after kept
  cases adapter with
  | resident id => exact orderly_handOver kept id after.2
  | transfer | settings => exact kept

def handshakeAnswer (adapter : AdapterId) (runtime : AdapterRuntime) (message : Message) :
    Except String Grant :=
  validateHandshake
    (fun announced => decide (announced = adapter.plugin) ||
      runtime.spec.handshakeIds.any (· = announced))
    runtime.spec.approved message runtime.spec.role

theorem orderly_acceptHandshake {state : State} (orderly : Orderly state)
    (found : state.processes.lookup adapter = some runtime) (unready : runtime.grant = none)
    (message : Message)
    (awaited : adapter ∈ state.pendingMessages → (handshakeAnswer adapter runtime message).isOk)
    (log : List Effect) : Leaves (acceptHandshake around adapter message) state log Orderly := by
  have unmarked : adapter ∉ state.terminal := by
    refine orderly.not_ending ?_
    simp [State.ready, found, ready, unready]
  rw [Leaves, acceptHandshake, ensures_bind, ensures_task, found]
  dsimp only
  split
  · rename_i reason refused
    refine orderly_failAdapter orderly ⟨unmarked, fun kept => ?_⟩ _ log
    have taken := awaited kept
    rw [handshakeAnswer, refused] at taken
    cases taken
  · rename_i grant taken
    exact orderly_welcome (orderly_admitted orderly found unready grant) unmarked _

/-- What the message is about has a process. -/
def Served (state : State) (adapter : AdapterId) (message : Message) : Prop :=
  (∀ request, message = .rangeRequest request →
    ∃ plugin, .transfer plugin request.transferId ∈ state.processes) ∧
  ∀ manifest, message = .copyManifest manifest → .resident adapter.plugin ∈ state.processes

/-- What a line may do to a process: nothing ends one that is marked, and what is noted is about a
process that is there. -/
def TidyLine (codecs : Codecs) (state : State) (adapter : AdapterId) (line : String) : Prop :=
  match codecs.decodeLine line with
  | .error _ => Unmarked state adapter
  | .ok message => ∀ runtime, state.processes.lookup adapter = some runtime →
    match runtime.grant with
    | none => adapter ∈ state.pendingMessages → (handshakeAnswer adapter runtime message).isOk
    | some grant =>
      (¬Admissible state grant adapter message → adapter ∉ state.terminal) ∧
        (Admissible state grant adapter message → Served state adapter message)

/-- No message waits for the process, and if it is marked its ranges have another one. -/
def TidyExit (state : State) (adapter : AdapterId) : Prop :=
  adapter ∉ state.pendingMessages ∧
    (adapter ∈ state.terminal → ∀ key ∈ state.pendingRanges, adapter.servedTransfer = some key.1 →
      ∃ plugin, .transfer plugin key.1 ∈ state.processes ∧ .transfer plugin key.1 ≠ adapter)

theorem orderly_takeLine {state : State} (orderly : Orderly state)
    (found : state.processes.lookup adapter = some runtime) {line : String}
    (tidy : TidyLine codecs state adapter line) (log : List Effect) :
    Leaves (takeLine codecs around adapter line) state log Orderly := by
  rw [Leaves, takeLine, ensures_bind, ensures_task]
  unfold TidyLine at tidy
  cases decoded : codecs.decodeLine line with
  | error =>
    rw [decoded] at tidy
    exact orderly_failAdapter orderly tidy _ log
  | ok message =>
    rw [decoded] at tidy
    replace tidy := tidy runtime found
    dsimp only
    cases granted : runtime.grant with
    | none =>
      rw [granted] at tidy
      have unready : (!state.ready adapter) = true := by
        simp [State.ready, found, ready, granted]
      rw [if_pos unready]
      exact orderly_acceptHandshake orderly found granted message tidy log
    | some grant =>
      rw [granted] at tidy
      have ready : state.ready adapter = true := by
        simp [State.ready, found, ready, granted]
      rw [if_neg (by simp [ready])]
      have names : (state.processes.lookup adapter).bind AdapterRuntime.grant = some grant := by
        simp [found, granted]
      simp only [ensures_recover, ensures_bind]
      refine (validateInbound_noted names message log).mono ?_ ?_
      · rintro _ ⟨later, written⟩ ⟨admissible, noted⟩
        have served := tidy.2 admissible
        have kept : Orderly later := by
          refine noted.orderly orderly ?_
          rintro _ ⟨request, rfl, rfl⟩
          exact served.1 request rfl
        have there : later.processes.lookup adapter = some runtime := by
          rw [noted.agrees.processes, found]
        refine orderly_noteMessage kept there (by simp [granted]) fun manifest same => ?_
        rw [noted.agrees.processes]
        exact served.2 manifest same
      · rintro _ ⟨later, written⟩ ⟨refused, noted⟩
        have kept : Orderly later := noted.orderly orderly fun _ => elim
        refine orderly_failAdapter kept ⟨?_, ?_⟩ _ written
        · rw [noted.terminal]
          exact tidy.1 refused
        · rw [noted.pendingMessages]
          exact orderly.not_waiting ready

theorem orderly_ended {state : State} (orderly : Orderly state) (tidy : TidyExit state adapter)
    (marked : adapter ∈ state.terminal) :
    Orderly { state with
      terminal := state.terminal.erase adapter
      processes := state.processes.erase adapter } := by
  have serves := (orderly.ending adapter marked).1
  have others {other : AdapterId} (differ : other ≠ adapter) :
      (state.processes.erase adapter).lookup other = state.processes.lookup other := by
    rw [lookup_erase, if_neg differ]
  refine orderly.shrunk (fun key pending => ?_) (fun other kept => ⟨kept, others ?_⟩)
    (fun plugin transfers owned some => ?_) fun other before => ?_
  · obtain ⟨plugin, live⟩ := orderly.ranges key pending
    by_cases own : .transfer plugin key.1 = adapter
    · have served : adapter.servedTransfer = some key.1 := own ▸ rfl
      obtain ⟨other, there, differ⟩ := tidy.2 marked key pending served
      exact ⟨other, AList.mem_erase.mpr ⟨differ, there⟩⟩
    · exact ⟨plugin, AList.mem_erase.mpr ⟨own, live⟩⟩
  · rintro rfl
    exact tidy.1 kept
  · refine AList.mem_erase.mpr ⟨?_, orderly.owned plugin transfers owned some⟩
    rintro rfl
    cases serves
  · obtain ⟨differ, there⟩ := AList.mem_erase.mp before
    exact ⟨there, others differ⟩

variable {state : State} (orderly : Orderly state)
include orderly

theorem orderly_processExit (tidy : TidyExit state adapter) (reason : String) (log : List Effect) :
    Leaves (processExit around adapter reason) state log Orderly := by
  -- what follows when the process is gone and the books are in order
  have rest (later : State) (written : List Effect) (kept : Orderly later)
      (gone : adapter ∉ later.processes) :
      Leaves (afterExit around adapter reason (decide (adapter ∈ state.terminal))) later written
        Orderly := by
    cases adapter with
    | resident => exact orderly_relaunch kept gone _ _
    | transfer | settings => exact kept
  simp only [Leaves, processExit, ensures_bind, ensures_task, ensures_update]
  refine Ensures.mono (leaves_stopAdapter adapter _ log) ?_ fun _ _ => elim
  rintro _ ⟨_, written⟩ rfl
  refine ensures_ite.mpr ⟨fun unmarked => ?_, fun marked => ?_⟩
  · have unmarked : adapter ∉ state.terminal := by simpa using unmarked
    have cancelled := @leaves_cancelOwned around adapter
      { state with terminal := state.terminal.erase adapter } written
    refine Leaves.bind cancelled fun later written went => ?_
    refine rest later written ?_ ?_
    · have same : state.terminal.erase adapter = state.terminal := by
        rw [AList.erase_of_lookup_none]
        exact AList.lookup_eq_none.mpr unmarked
      rw [same] at went
      exact orderly.cancelled ⟨unmarked, tidy.1⟩ went
    · rw [went.processes]
      exact fun there => (AList.mem_erase.mp there).1 rfl
  · have marked : adapter ∈ state.terminal := by simpa using marked
    exact rest _ written (orderly_ended orderly tidy marked)
      fun there => (AList.mem_erase.mp there).1 rfl

/-- What an event of a process must not do at a bad moment. -/
def TidyEvent (codecs : Codecs) (state : State) : ProcessEvent → Prop
  | .line adapter generation line =>
    current state adapter generation = true → TidyLine codecs state adapter line
  | .diagnostic .. => True
  | .failed adapter generation _ | .exited adapter generation _ =>
    current state adapter generation = true → TidyExit state adapter

theorem orderly_handleProcessEvent {event : ProcessEvent} (tidy : TidyEvent codecs state event)
    (log : List Effect) : Leaves (handleProcessEvent codecs around event) state log Orderly := by
  cases event with
  | line =>
    refine ensures_ite.mpr ⟨fun counts => ?_, fun _ => orderly⟩
    have named := counts
    rw [current, Option.any_eq_true] at named
    obtain ⟨_, found, -⟩ := named
    exact orderly_takeLine orderly found (tidy counts) log
  | diagnostic =>
    refine ensures_ite.mpr ⟨fun _ => ?_, fun _ => orderly⟩
    exact orderly.congr ⟨rfl, rfl, rfl, rfl⟩ rfl
  | failed | exited =>
    exact ensures_ite.mpr
      ⟨fun counts => orderly_processExit orderly (tidy counts) _ log, fun _ => orderly⟩

/-- The answer to a range request is one that the process may not be given. -/
def Unfit (codecs : Codecs) (pending : PendingRange) (response : Clipboard.RangeResponse) : Prop :=
  response.offset ≠ pending.offset ∨ response.error = none ∧
    ∀ data, codecs.decodeBase64 response.dataBase64 = some data → pending.length.toNat < data.length

/-- A first message to a process does not end it while it is marked. -/
def Delivers (around : Surroundings) (state : State) (adapter : AdapterId) : Prop :=
  state.ready adapter = true → around.trySend 0 ≠ .sent → adapter ∉ state.terminal

/-- What a command must not do at a bad moment: a stop of a plugin that runs, a restart of one that
does not come up again or has other processes, a message that ends a process that is marked. -/
def TidyCommand (codecs : Codecs) (around : Surroundings) (state : State) : ManagerCommand → Prop
  | .stopPlugin id => ∀ adapter ∈ state.processes, adapter.plugin ≠ id
  | .restartPlugin id => ∀ adapter ∈ state.processes, adapter.plugin = id →
    adapter = .resident id ∧ id ∈ state.specs ∧
      (Launchable around state adapter ∨ (state.ownedTransfers.lookup id).getD ∅ = ∅)
  | .rangeResponse id response =>
    let adapter := .transfer id response.transferId
    Delivers around state adapter ∧
      ∀ pending, state.pendingRanges.lookup (response.transferId, response.requestId) =
        some pending → Unfit codecs pending response → Unmarked state adapter
  | .unmounted id unmounted => Delivers around state (.transfer id unmounted.transferId)
  | .cancel adapter _ => Delivers around state adapter
  | _ => True

theorem orderly_answered (key : String × UInt64) :
    Orderly { state with pendingRanges := state.pendingRanges.erase key } :=
  ⟨⟨fun other pending => orderly.ranges other (AList.mem_erase.mp pending).2, orderly.messages,
    orderly.owned, orderly.terminal⟩, orderly.waiting, orderly.ending⟩

theorem orderly_answerRange {response : Clipboard.RangeResponse}
    (tidy : TidyCommand codecs around state (.rangeResponse id response)) :
    Leaves (answerRange codecs around id response) state [] Orderly := by
  unfold answerRange
  rw [Leaves, ensures_bind, ensures_task]
  cases found : state.pendingRanges.lookup (response.transferId, response.requestId) with
  | none => exact orderly
  | some pending =>
    have kept := orderly_answered orderly (response.transferId, response.requestId)
    have refused (unfit : Unfit codecs pending response) (reason other : String) :
        Leaves (do
          reject (some (.transfer id response.transferId)) reason
          failAdapter around (.transfer id response.transferId) other)
          { state with pendingRanges :=
              state.pendingRanges.erase (response.transferId, response.requestId) } [] Orderly :=
      orderly_failAdapter kept (tidy.2 pending found unfit) other _
    have sent := orderly_sendReady kept [] tidy.1 (.rangeResponse response)
    refine ensures_ite.mpr ⟨fun differs => refused (.inl differs) _ _, fun _ =>
      ensures_ite.mpr ⟨fun _ => sent, fun clean => ?_⟩⟩
    have clean : response.error = none := by simpa using clean
    split
    · rename_i data decoded
      refine ensures_ite.mpr ⟨fun _ => sent, fun oversized => ?_⟩
      refine refused (.inr ⟨clean, fun other same => ?_⟩) _ _
      rw [decoded, Option.some.injEq] at same
      exact same ▸ Nat.lt_of_not_le oversized
    · rename_i undecoded
      refine refused (.inr ⟨clean, fun _ same => ?_⟩) _ _
      rw [undecoded] at same
      cases same

theorem orderly_startTransfer (id : String) (spec : LaunchSpec) (transferId : String)
    (manifest : Message) (log : List Effect) :
    Leaves (startTransfer around id spec transferId manifest) state log Orderly := by
  refine ensures_ite.mpr ⟨fun _ => orderly, fun _ => ?_⟩
  refine ensures_ite.mpr ⟨fun _ => orderly, fun absent => ?_⟩
  rw [ensures_bind, ensures_update]
  have known : Orderly { state with specs := state.specs.insert id spec } :=
    orderly.congr ⟨rfl, rfl, rfl, rfl⟩ rfl
  refine leaves_orReject ?_
  rw [Attains, ensures_bind]
  refine (spawnAdapter_ensures (.transfer id transferId) _ log).mono ?_ ?_
  · rintro _ ⟨later, _⟩ spawned
    have started := known.spawned absent spawned
    obtain ⟨generation, launched, inserted⟩ := spawned.processes
    have there : later.processes.lookup (.transfer id transferId) =
        some ⟨generation, launched, none⟩ := by
      rw [inserted, lookup_insert, if_pos rfl]
    refine ⟨⟨started.ranges, fun other kept => ?_, started.owned, started.terminal⟩,
      fun other kept => ?_, started.ending⟩
    · rcases (AList.mem_insert _).mp kept with rfl | before
      · exact ⟨_, there, rfl⟩
      · exact started.messages other before
    · rcases (AList.mem_insert _).mp kept with rfl | before
      · rfl
      · exact started.waiting other before
  · exact fun _ _ failed => known.congr failed.1 failed.2.1

theorem orderly_startPlugin (id : String) (spec : LaunchSpec) (settings : List (String × String))
    (log : List Effect) : Leaves (startPlugin around id spec settings) state log Orderly := by
  refine ensures_ite.mpr ⟨fun _ => ?_, fun absent => ?_⟩
  · rw [ensures_bind, ensures_update]
    refine orderly_sendLasting ?_ rfl _ log
    exact orderly.congr ⟨rfl, rfl, rfl, rfl⟩ rfl
  · rw [ensures_bind, ensures_update]
    refine orderly_spawn ?_ ?_ log
    · refine orderly.congr ⟨rfl, rfl, rfl, ?_⟩ rfl
      rw [AList.erase_of_lookup_none]
      exact AList.lookup_eq_none.mpr (orderly.unmarked rfl).1
    · exact absent

omit orderly in
theorem mem_processesOf {state : State} :
    adapter ∈ around.processOrder.arrange (state.processesOf id) ↔
      adapter ∈ state.processes ∧ adapter.plugin = id := by
  rw [IterOrder.mem_arrange, State.processesOf, mem_filter, decide_eq_true_eq]
  exact Iff.rfl

omit orderly in
theorem nodup_processesOf (state : State) (id : String) :
    (around.processOrder.arrange (state.processesOf id)).Nodup := by
  rw [IterOrder.nodup_arrange]
  exact (state.processes.keys_nodup).filter _

/-- When a resident process was the only one of a plugin, the books do not change by its going and
coming again. -/
theorem orderly_replaced {later : State} (id : String) (books : SameBooks state later)
    (others : ∀ adapter, adapter ≠ .resident id →
      later.processes.lookup adapter = state.processes.lookup adapter)
    (owner : (state.ownedTransfers.lookup id).getD ∅ ≠ ∅ → .resident id ∈ later.processes) :
    Orderly later := by
  refine orderly.of_processes books (fun adapter serves => others adapter ?_) ?_
  · rintro rfl
    cases serves
  · intro plugin transfers found some
    by_cases same : plugin = id
    · subst same
      exact owner (by simpa [found] using some)
    · rw [mem_iff_lookup, others _ fun equal => same (AdapterId.resident.inj equal),
        ← mem_iff_lookup]
      exact orderly.owned plugin transfers found some

theorem orderly_restartPlugin (running : state.stopping = false)
    (tidy : TidyCommand codecs around state (.restartPlugin id)) (log : List Effect) :
    Leaves (restartPlugin around id) state log Orderly := by
  rw [Leaves, restartPlugin, ensures_bind, ensures_task]
  by_cases live : .resident id ∈ state.processes
  · obtain ⟨-, known, comes⟩ := tidy (.resident id) live rfl
    have only : around.processOrder.arrange (state.processesOf id) = [.resident id] := by
      have nodup : (around.processOrder.arrange (state.processesOf id)).Nodup :=
        nodup_processesOf state id
      have member : .resident id ∈ around.processOrder.arrange (state.processesOf id) :=
        mem_processesOf.mpr ⟨live, rfl⟩
      refine perm_singleton.mp ((perm_ext_iff_of_nodup nodup (nodup_singleton _)).mpr
        fun adapter => ⟨fun other => ?_, fun same => mem_singleton.mp same ▸ member⟩)
      obtain ⟨there, owns⟩ := mem_processesOf.mp other
      exact mem_singleton.mpr (tidy adapter there owns).1
    rw [only]
    simp only [each, stopMarked, ensures_bind, ensures_update, ensures_pure, ensures_task]
    refine Ensures.mono (leaves_stopAdapter _ _ log) ?_ fun _ _ => elim
    rintro _ ⟨_, written⟩ rfl
    rw [if_pos ⟨by simpa using running, known⟩, ensures_bind, ensures_update]
    have terminal : (state.terminal.insert (.resident id) ()).erase (.resident id) =
        state.terminal := by
      have absent : .resident id ∉ state.terminal := (orderly.unmarked rfl).1
      rw [AList.erase_insert, AList.erase_of_lookup_none (AList.lookup_eq_none.mpr absent)]
    refine leaves_orReject ((spawnAdapter_ensures (.resident id) _ written).mono ?_ ?_)
    · rintro _ ⟨later, written⟩ ⟨books, _, spec, inserted⟩
      refine orderly_replaced orderly id
        ⟨books.pendingRanges, books.pendingMessages, books.ownedTransfers,
          books.terminal.trans terminal⟩ (fun adapter differ => ?_) fun _ => ?_
      · rw [inserted, lookup_insert, if_neg differ]
        exact AList.lookup_erase_ne differ
      · rw [inserted]
        exact (AList.mem_insert _).mpr (.inl rfl)
    · rintro _ ⟨_, _⟩ ⟨books, same, fails⟩
      refine orderly_replaced orderly id
        ⟨books.pendingRanges, books.pendingMessages, books.ownedTransfers,
          books.terminal.trans terminal⟩ (fun adapter differ => ?_) fun owns => ?_
      · rw [same]
        exact AList.lookup_erase_ne differ
      · exact absurd (comes.resolve_right owns) fun launchable =>
          fails ⟨launchable.spec, launchable.registered, launchable.spawns⟩
  · have none : around.processOrder.arrange (state.processesOf id) = [] := by
      refine eq_nil_iff_forall_not_mem.mpr fun adapter member => ?_
      obtain ⟨there, owns⟩ := mem_processesOf.mp member
      exact live ((tidy adapter there owns).1 ▸ there)
    rw [none]
    refine ensures_ite.mpr ⟨fun _ => ?_, fun _ => orderly⟩
    rw [ensures_bind, ensures_update]
    refine orderly_spawn ?_ ?_ log
    · refine orderly.congr ⟨rfl, rfl, rfl, ?_⟩ rfl
      rw [AList.erase_of_lookup_none]
      exact AList.lookup_eq_none.mpr (orderly.unmarked rfl).1
    · exact live

theorem orderly_stopPlugin (tidy : TidyCommand codecs around state (.stopPlugin id))
    (log : List Effect) : Leaves (stopPlugin around id) state log Orderly := by
  have none : around.processOrder.arrange (state.processesOf id) = [] := by
    refine eq_nil_iff_forall_not_mem.mpr fun adapter member => ?_
    obtain ⟨there, owns⟩ := mem_processesOf.mp member
    exact tidy adapter there owns
  rw [Leaves, stopPlugin, ensures_bind, ensures_task, none]
  exact orderly.congr ⟨rfl, rfl, rfl, rfl⟩ rfl

theorem orderly_handleCommand (running : state.stopping = false) {command : ManagerCommand}
    (tidy : TidyCommand codecs around state command) :
    Leaves (handleCommand codecs around command) state [] Orderly := by
  cases command with
  | publishFileClipboard | clipboardData => exact orderly_sendLasting orderly rfl _ _
  | startTransfer => exact orderly_startTransfer orderly ..
  | rangeResponse => exact orderly_answerRange orderly tidy
  | stopPlugin => exact orderly_stopPlugin orderly tidy _
  | restartPlugin => exact orderly_restartPlugin orderly running tidy _
  | startPlugin => exact orderly_startPlugin orderly ..
  | released id transferId =>
    have kept := orderly_disown orderly id transferId
    exact ensures_ite.mpr ⟨fun _ => kept, fun _ => orderly_sendLasting kept rfl _ _⟩
  | unmounted =>
    exact ensures_ite.mpr ⟨fun _ => orderly, fun _ => orderly_sendReady orderly [] tidy _⟩
  | cancel adapter transferId =>
    cases adapter with
    | resident plugin =>
      have kept := orderly_disown orderly plugin transferId
      exact ensures_ite.mpr ⟨fun _ => kept, fun _ => orderly_sendLasting kept rfl _ _⟩
    | transfer =>
      exact ensures_ite.mpr ⟨fun _ => orderly, fun _ => orderly_sendReady orderly [] tidy _⟩
    | settings => exact orderly
  | pluginSettings id settings =>
    have kept : Orderly { state with settings := state.settings.insert id settings } :=
      orderly.congr ⟨rfl, rfl, rfl, rfl⟩ rfl
    exact ensures_ite.mpr ⟨fun _ => orderly_sendLasting kept rfl _ _, fun _ => kept⟩
  | pluginChangeSetting =>
    refine ensures_ite.mpr ⟨fun _ => orderly_sendLasting orderly rfl _ _, fun _ => ?_⟩
    exact orderly.congr ⟨rfl, rfl, rfl, rfl⟩ rfl
  | pluginOpenSettings =>
    exact ensures_ite.mpr ⟨fun _ => orderly_sendLasting orderly rfl _ _, fun _ => orderly⟩
  | openSettingsWindow id spec theme =>
    exact ensures_ite.mpr
      ⟨fun _ => orderly_settingsWindow orderly id spec theme [], fun _ => orderly⟩
  | pluginPointer =>
    exact ensures_ite.mpr ⟨fun _ => orderly_sendDroppable orderly rfl _ _, fun _ => orderly⟩
  | shutdown => exact orderly.congr ⟨rfl, rfl, rfl, rfl⟩ rfl

end Supervising

/-- What a step must not do at a bad moment. -/
def Tidy (codecs : Codecs) (state : State) (input : Surroundings × SupervisorInput) : Prop :=
  state.stopping = false →
    match input.2 with
    | .command command => Supervising.TidyCommand codecs input.1 state command
    | .process event => Supervising.TidyEvent codecs state event

theorem Orderly.new : Orderly State.new := by
  refine ⟨⟨?_, ?_, ?_, ?_⟩, ?_, ?_⟩
  · exact fun key pending => absurd pending (AList.notMem_empty key)
  · exact fun adapter kept => absurd kept (AList.notMem_empty adapter)
  · rintro _ _ ⟨⟩
  · exact fun adapter marked => absurd marked (AList.notMem_empty adapter)
  · exact fun adapter kept => absurd kept (AList.notMem_empty adapter)
  · exact fun adapter marked => absurd marked (AList.notMem_empty adapter)

theorem Supervising.Leaves.stateAfter {handler : Supervising Unit} {state : State}
    {log : List Effect} {post : State → Prop} (leaves : Leaves handler state log post) :
    post (handler.stateAfter (state, log)).1 := by
  have after : handler.Attains (state, log) fun after => post after.1 :=
    Ensures.mono leaves (fun _ _ => id) fun _ _ => elim
  exact Ensures.stateAfter after

theorem Orderly.supervise {codecs : Codecs} {state : State}
    {input : Surroundings × SupervisorInput} (orderly : Orderly state)
    (tidy : Tidy codecs state input) : Orderly (supervise codecs state input).1 := by
  unfold Plugins.supervise
  split
  · exact orderly
  · rename_i going
    have running : state.stopping = false := by simpa using going
    replace tidy := tidy running
    obtain ⟨_, _ | _⟩ := input
    · exact (Supervising.orderly_handleCommand orderly running tidy).stateAfter
    · exact (Supervising.orderly_handleProcessEvent orderly tidy []).stateAfter

/-- In every run without a step at a bad moment, the books are about live processes in every state
that is reached. -/
theorem bookkept_of_tidy (codecs : Codecs) (inputs : List (Surroundings × SupervisorInput))
    (tidy : ∀ state input, Meets (supervise codecs) State.new inputs state input →
      Tidy codecs state input)
    (earlier : List (Surroundings × SupervisorInput)) (reached : earlier <+: inputs) :
    Bookkept (outcome (supervise codecs) State.new earlier).1 := by
  obtain ⟨later, rfl⟩ := reached
  have orderly : Orderly (outcome (supervise codecs) State.new earlier).1 :=
    outcome_keeps (fun state input kept => kept.supervise)
      (fun state input meets => tidy state input (meets.append later)) Orderly.new
  exact orderly.toBookkept

namespace Mounted

def capabilities : Capabilities where
  clipboardRead := false
  paste := true
  cancel := true
  requiresLiveMount := true
  pointerEvents := false
  mimeTypes := [uriListMime]

def spec : LaunchSpec where
  executable := "mount"
  args := []
  approved := capabilities
  handshakeIds := ["mount"]
  role := some .mountedFileReceive
  digest := ""
  integrity := none

def hello : String :=
  "\x7b\"type\":\"hello\",\"data\":\x7b\"protocol_version\":1,\"adapter_id\":\"mount\"," ++
    "\"name\":\"Mount\",\"capabilities\":\x7b\"paste\":true,\"cancel\":true," ++
    "\"requires_live_mount\":true,\"mime_types\":[\"text/uri-list\"]\x7d\x7d\x7d"

def range : String :=
  "\x7b\"type\":\"range_request\",\"data\":\x7b\"transfer_id\":\"t\",\"request_id\":1," ++
    "\"entry_id\":0,\"offset\":0,\"length\":10\x7d\x7d"

def codecs : Codecs where
  decodeLine line :=
    if line = hello then .ok (.hello protocolVersion "mount" "Mount" capabilities)
    else if line = range then .ok (.rangeRequest ⟨"t", 1, 0, 0, 10⟩)
    else .error "malformed"
  decodeBase64 _ := none

def around : Surroundings where
  digest _ _ := .error "no package"
  checkExecutable _ := .ok ()
  spawn _ _ := .ok 100
  trySend _ := .sent
  processOrder := .asStored _
  transferOrder := .asStored _

def adapter : AdapterId := .transfer "mount" "t"

def begun : List (Surroundings × SupervisorInput) :=
  [(around, .command (.startTransfer "mount" spec "t" .copy [])),
    (around, .process (.line adapter 1 hello)), (around, .process (.line adapter 1 range))]

def stopped : List (Surroundings × SupervisorInput) :=
  begun ++ [(around, .command (.stopPlugin "mount"))]

def crashed : List (Surroundings × SupervisorInput) :=
  begun ++ [(around, .process (.exited adapter 1 "exit status: 1"))]

end Mounted

set_option maxRecDepth 10000 in
/-- A plugin that is stopped while it awaits a range leaves the range behind. -/
theorem unkept_stopped : ¬∀ codecs inputs,
    Bookkept (outcome (supervise codecs) State.new inputs).1 := by
  intro kept
  have stopped := kept Mounted.codecs Mounted.stopped
  have left : ("t", 1) ∈
      (outcome (supervise Mounted.codecs) State.new Mounted.stopped).1.pendingRanges.keys := by
    decide
  obtain ⟨_, live⟩ := stopped.ranges _ left
  replace live := AList.mem_keys.mp live
  cases live

set_option maxRecDepth 10000 in
theorem bookkept_crashed :
    Bookkept (outcome (supervise Mounted.codecs) State.new Mounted.crashed).1 := by
  refine bookkept_of_tidy Mounted.codecs Mounted.crashed ?_ Mounted.crashed List.prefix_rfl
  intro _ _ meets
  simp only [Mounted.crashed, Mounted.begun, List.cons_append, List.nil_append, meets_cons] at meets
  rcases meets with ⟨rfl, rfl⟩ | ⟨rfl, rfl⟩ | ⟨rfl, rfl⟩ | ⟨rfl, rfl⟩ | none
  · exact fun _ => trivial
  · rintro - - runtime found
    cases found
    intro _
    decide
  · rintro - - _ found
    cases found
    refine ⟨fun _ => by decide, fun _ => ⟨?_, ?_⟩⟩
    · rintro _ ⟨⟩
      exact ⟨"mount", by decide⟩
    · rintro _ ⟨⟩
  · intro _ _
    refine ⟨by decide, fun marked => absurd marked ?_⟩
    decide
  · exact absurd none not_meets_nil

end Syntra.Plugins
