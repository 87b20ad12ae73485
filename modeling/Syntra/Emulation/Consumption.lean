import Syntra.Emulation.Task

/-!
# Requests to the emulation task

What becomes of a peer's client when the task takes a request that ends it. In the session and
during the initialisation of a backend such a request is obeyed; the loop that waits for the backend
to be enabled passes over the removal of a peer, and `wait_for_termination` over everything.
-/

namespace Syntra.Emulation

open Proto StateMachine Tables AList List
open Handler (ensures_bind ensures_emit ensures_pure ensures_task ensures_update)

namespace EmulationTask

variable {Address Backend : Type} {task : EmulationTask Address Backend} {addr : Address}

/-- Neither a handle nor a record of pressed buttons is kept for a peer. -/
def Forgotten (task : EmulationTask Address Backend) (addr : Address) : Prop :=
  addr ∉ task.handles ∧ addr ∉ task.pressedButtons

/-- What a request that ends something must have brought about. -/
def Honoured (task : EmulationTask Address Backend) : ProxyRequest Address Backend → Prop
  | .remove addr => task.Forgotten addr
  | .setInputSharing false => ∀ addr, task.Forgotten addr
  | .terminate => (∀ addr, task.Forgotten addr) ∧ task.phase = .ended
  | _ => True

/-- The task does not drop the request in its phase. -/
def Heard (task : EmulationTask Address Backend) (request : ProxyRequest Address Backend) : Prop :=
  match task.phase, request with
  | .waiting, .remove addr => addr ∉ task.handles
  | .creating _, .remove addr => addr ∉ task.handles
  | .creating _, .setInputSharing false => False
  | .creating _, .terminate => False
  | _, _ => True

/-- A peer with pressed buttons has a handle, the end has been asked for when the request is under
way, and clients are created only where there are some. -/
structure Sound (task : EmulationTask Address Backend) : Prop where
  recorded : ∀ addr ∈ task.pressedButtons, addr ∈ task.handles
  exits : .terminate ∈ task.requests → task.exitRequested = true
  remembered : ∀ remaining, task.phase = .creating remaining → ∃ addr, addr ∈ task.handles

theorem sound_new (backend : Option Backend) :
    Sound (new backend : EmulationTask Address Backend) where
  recorded addr member := absurd member (notMem_empty addr)
  exits member := nomatch member
  remembered _ creating := nomatch creating

theorem Sound.forgotten_iff (sound : task.Sound) : task.Forgotten addr ↔ addr ∉ task.handles := by
  constructor
  · intro forgotten
    exact forgotten.1
  · intro absent
    exact ⟨absent, fun member => absent (sound.recorded addr member)⟩

theorem forgotten_clearClients (task : EmulationTask Address Backend) (addr : Address) :
    task.clearClients.Forgotten addr :=
  ⟨notMem_empty addr, notMem_empty addr⟩

theorem Sound.of_idle (recorded : ∀ addr ∈ task.pressedButtons, addr ∈ task.handles)
    (exits : .terminate ∈ task.requests → task.exitRequested = true)
    (idle : ∀ remaining, task.phase ≠ .creating remaining) : task.Sound :=
  ⟨recorded, exits, fun remaining creating => absurd creating (idle remaining)⟩

theorem Sound.clearClients (sound : task.Sound)
    (idle : ∀ remaining, task.phase ≠ .creating remaining) : task.clearClients.Sound :=
  .of_idle (fun addr member => absurd member (notMem_empty addr)) sound.exits idle

theorem forgotten_afterEmulation (forgotten : task.Forgotten addr) :
    task.afterEmulation.Forgotten addr := by
  unfold afterEmulation
  split
  · exact forgotten_clearClients task addr
  · split
    · exact forgotten
    · exact forgotten

theorem forgotten_endSession (forgotten : task.Forgotten addr) : task.endSession.1.Forgotten addr :=
  forgotten_afterEmulation forgotten

theorem Sound.afterEmulation (sound : task.Sound) : task.afterEmulation.Sound := by
  unfold EmulationTask.afterEmulation
  split
  · exact .of_idle (fun addr member => absurd member (notMem_empty addr)) sound.exits
      fun _ creating => nomatch creating
  · split
    · exact .of_idle sound.recorded sound.exits fun _ creating => nomatch creating
    · exact .of_idle sound.recorded sound.exits fun _ creating => nomatch creating

theorem Sound.endSession (sound : task.Sound) : task.endSession.1.Sound :=
  Sound.afterEmulation ⟨sound.recorded, sound.exits, sound.remembered⟩

theorem ended_afterEmulation (exits : task.exitRequested = true) :
    (∀ addr, task.afterEmulation.Forgotten addr) ∧ task.afterEmulation.phase = .ended := by
  rw [EmulationTask.afterEmulation, if_pos exits]
  exact ⟨forgotten_clearClients task, rfl⟩

theorem Sound.pop {request : ProxyRequest Address Backend}
    {requests : List (ProxyRequest Address Backend)} (sound : task.Sound)
    (head : task.requests = request :: requests) : Sound { task with requests := requests } where
  recorded := sound.recorded
  exits member := sound.exits (head ▸ mem_cons_of_mem request member)
  remembered := sound.remembered

theorem Sound.send (sound : task.Sound) (request : ProxyRequest Address Backend) :
    (task.send request).Sound := by
  have exits : ∀ requested : ProxyRequest Address Backend, requested ≠ .terminate →
      .terminate ∈ task.requests ++ [requested] → task.exitRequested = true := by
    intro _ other member
    rcases mem_append.mp member with earlier | latest
    · exact sound.exits earlier
    · exact absurd (mem_singleton.mp latest).symm other
  cases request with
  | terminate => exact ⟨sound.recorded, fun _ => rfl, sound.remembered⟩
  | _ => exact ⟨sound.recorded, exits _ (fun same => nomatch same), sound.remembered⟩

section Session

variable [DecidableEq Address] {log : List (Effect Address)} {around : Surroundings Address}

theorem forgotten_removeClient {other : Address} :
    (task.removeClient addr).Forgotten other ↔ other = addr ∨ task.Forgotten other := by
  simp only [Forgotten, removeClient, mem_erase, ne_eq, not_and]
  by_cases same : other = addr <;> simp [same]

theorem Sound.removeClient (sound : task.Sound)
    (idle : ∀ remaining, task.phase ≠ .creating remaining) (addr : Address) :
    (task.removeClient addr).Sound := by
  refine .of_idle ?_ sound.exits idle
  intro other member
  have kept := mem_erase.mp member
  exact mem_erase.mpr ⟨kept.1, sound.recorded other kept.2⟩

omit [DecidableEq Address] in
theorem ensures_releaseButtons (handle : EmulationHandle) (buttons : List UInt32) :
    (releaseButtons around handle buttons : Handler Address Backend Bool).Ensures (task, log)
      (fun _ after => after.1 = task) fun _ _ => False := by
  induction buttons generalizing log with
  | nil => simp [releaseButtons]
  | cons _ _ ih =>
    simp only [releaseButtons, ensures_bind, ensures_emit, ensures_pure]
    exact ih

theorem ensures_releaseClient (addr : Address) :
    (releaseClient around addr : Handler Address Backend Bool).Ensures (task, log)
      (fun _ after => after.1 = task.removeClient addr) fun _ _ => False := by
  simp only [releaseClient, ensures_bind, ensures_task]
  cases found : task.handles.lookup addr with
  | none =>
    have kept : { task with pressedButtons := task.pressedButtons.erase addr } =
        task.removeClient addr := by
      rw [EmulationTask.removeClient, erase_of_lookup_none found]
    by_cases android : around.android = true <;> simp [android, kept]
  | some handle =>
    simp only [ensures_bind, ensures_update, ensures_emit, ensures_pure]
    apply (ensures_releaseButtons handle _).mono
    · intro _ _ same
      exact same
    · exact fun _ _ impossible => impossible

theorem ensures_releaseClients (addrs : List Address) :
    (releaseClients around addrs : Handler Address Backend Bool).Ensures (task, log)
      (fun _ after => after.1 = addrs.foldl EmulationTask.removeClient task) fun _ _ => False := by
  induction addrs generalizing task log with
  | nil => simp [releaseClients]
  | cons addr _ ih =>
    simp only [releaseClients, ensures_bind, ensures_pure, foldl_cons]
    apply (ensures_releaseClient addr).mono
    · intro _ _ removed
      rw [← removed]
      exact ih
    · exact fun _ _ impossible => impossible

theorem forgotten_foldl_removeClient {addrs : List Address} :
    (addrs.foldl EmulationTask.removeClient task).Forgotten addr ↔
      addr ∈ addrs ∨ task.Forgotten addr := by
  induction addrs generalizing task with
  | nil => simp
  | cons _ _ ih =>
    rw [foldl_cons, ih, forgotten_removeClient, mem_cons]
    tauto

/-- The task is in a session. -/
structure Running (task : EmulationTask Address Backend) : Prop where
  sound : task.Sound
  phase : ∃ clipboardActive, task.phase = .running clipboardActive

variable (running : task.Running)
include running

omit [DecidableEq Address] in
theorem Running.idle (remaining : List EmulationHandle) : task.phase ≠ .creating remaining := by
  rcases running.phase with ⟨_, phase⟩
  rw [phase]
  exact fun same => nomatch same

theorem Running.removeClient (addr : Address) : (task.removeClient addr).Running :=
  ⟨running.sound.removeClient running.idle addr, running.phase⟩

theorem Running.foldl_removeClient (addrs : List Address) :
    (addrs.foldl EmulationTask.removeClient task).Running := by
  induction addrs generalizing task with
  | nil => exact running
  | cons addr _ ih => exact ih (running.removeClient addr)

theorem Running.holdButtons (known : addr ∈ task.handles) (event : InputEvent) :
    (task.holdButtons addr event).Running := by
  unfold EmulationTask.holdButtons
  split
  · refine ⟨.of_idle ?_ running.sound.exits running.idle, running.phase⟩
    intro other member
    rcases (mem_insert _).mp member with same | earlier
    · rw [same]
      exact known
    · exact running.sound.recorded other earlier
  · exact running

theorem ensures_clientHandle (addr : Address) :
    (clientHandle addr : Handler Address Backend EmulationHandle).Ensures (task, log)
      (fun _ after => after.1.Running ∧ addr ∈ after.1.handles) fun _ _ => False := by
  simp only [clientHandle, ensures_bind, ensures_task]
  cases found : task.handles.lookup addr with
  | some handle =>
    exact ⟨running, (mem_iff_lookup _ addr).mpr ⟨handle, found⟩⟩
  | none =>
    refine ⟨⟨.of_idle ?_ running.sound.exits running.idle, running.phase⟩, ?_⟩
    · intro other member
      exact (mem_insert _).mpr (.inr (running.sound.recorded other member))
    · exact (mem_insert _).mpr (.inl rfl)

theorem ensures_sessionInput (event : InputEvent) (addr : Address) :
    (sessionInput around event addr : Handler Address Backend Unit).Attains (task, log)
      fun after => after.1.Running := by
  simp only [sessionInput, ensures_bind, ensures_task]
  by_cases sharing : task.inputSharing = true
  · simp only [sharing, if_true, ensures_bind, ensures_update, consume, ensures_emit]
    apply (ensures_clientHandle running addr).mono
    · intro handle _ created
      have held := created.1.holdButtons created.2 event
      by_cases consumed : around.consumes event handle = true
      · cases around.pointerEdge handle <;> simpa [consumed] using held
      · simpa [consumed] using held
    · exact fun _ _ impossible => impossible.elim
  · simpa [sharing] using running

theorem ensures_receiveRunning (request : ProxyRequest Address Backend) :
    (receiveRunning around request).Attains (task, log) fun after => after.1.Running := by
  cases request with
  | input event addr => exact ensures_sessionInput running event addr
  | remove addr =>
    simp only [receiveRunning, ensures_bind]
    apply (ensures_releaseClient addr).mono
    · intro released after removed
      have kept : after.1.Running := removed ▸ running.removeClient addr
      cases released <;> simpa using kept
    · exact fun _ _ impossible => impossible.elim
  | setInputSharing enabled =>
    simp only [receiveRunning]
    cases enabled with
    | true => simpa using running
    | false =>
      simp only [Bool.not_false, if_true, ensures_bind, ensures_task]
      apply (ensures_releaseClients _).mono
      · intro released after removed
        have kept : after.1.Running := removed ▸ running.foldl_removeClient _
        cases released <;> simpa using kept
      · exact fun _ _ impossible => impossible.elim
  | setBackend =>
    exact ⟨⟨running.sound.recorded, running.sound.exits, running.sound.remembered⟩, running.phase⟩
  | _ => simpa [receiveRunning] using running

omit running

omit [DecidableEq Address] in
theorem inSession_of_ensures (holds : EmulationTask Address Backend → Prop)
    {handler : Handler Address Backend Unit}
    (ensures : handler.Ensures (task, []) (fun _ after => holds after.1)
      fun _ after => holds after.1.endSession.1) :
    holds (task.inSession handler).1 := by
  unfold Handler.Ensures at ensures
  unfold inSession
  rcases ended : handler (task, []) with ⟨⟨⟩ | ⟨⟩, _, _⟩
  · rw [ended] at ensures
    exact ensures
  · rw [ended] at ensures
    exact ensures

section Requests

variable {request : ProxyRequest Address Backend}

variable (sound : task.Sound)
include sound

omit [DecidableEq Address] in
theorem honoured_receiveWaiting_iff (phase : task.phase = .waiting) :
    (task.receiveWaiting request).1.Honoured request ↔ task.Heard request := by
  unfold Heard
  rw [phase]
  cases request with
  | remove => exact sound.forgotten_iff
  | terminate =>
    simp only [receiveWaiting, Honoured, iff_true]
    exact ⟨forgotten_clearClients task, trivial⟩
  | setInputSharing enabled =>
    cases enabled with
    | true => simp [Honoured]
    | false => simpa [receiveWaiting, Honoured] using forgotten_clearClients task
  | _ => simp [Honoured]

omit sound in
theorem honoured_receiveInitializing : (task.receiveInitializing request).1.Honoured request := by
  cases request with
  | remove => exact forgotten_removeClient.mpr (.inl rfl)
  | terminate => exact ended_afterEmulation rfl
  | setInputSharing enabled =>
    cases enabled with
    | true => trivial
    | false => exact forgotten_clearClients _
  | _ => trivial

omit [DecidableEq Address] in
theorem honoured_receiveCreating_iff {remaining : List EmulationHandle}
    (phase : task.phase = .creating remaining) :
    (task.receiveCreating request).1.Honoured request ↔ task.Heard request := by
  rcases sound.remembered remaining phase with ⟨known, member⟩
  unfold Heard
  rw [phase]
  cases request with
  | remove => exact sound.forgotten_iff
  | terminate => simp [receiveCreating, Honoured]
  | setInputSharing enabled =>
    cases enabled with
    | true => simp [Honoured]
    | false =>
      simp only [receiveCreating, Honoured, iff_false, not_forall]
      exact ⟨known, fun forgotten => forgotten.1 member⟩
  | _ => simp [Honoured]

theorem honoured_receiveRunning (exits : request = .terminate → task.exitRequested = true) :
    (task.inSession (receiveRunning around request)).1.Honoured request := by
  cases request with
  | remove addr =>
    apply inSession_of_ensures fun after => after.Forgotten addr
    simp only [receiveRunning, ensures_bind]
    apply (ensures_releaseClient addr).mono
    · intro released after removed
      have forgotten : after.1.Forgotten addr := by
        rw [removed, forgotten_removeClient]
        exact .inl rfl
      cases released with
      | true => simpa using forgotten
      | false => simpa using forgotten_endSession forgotten
    · exact fun _ _ impossible => impossible.elim
  | terminate => exact ended_afterEmulation (exits rfl)
  | setInputSharing enabled =>
    cases enabled with
    | true => trivial
    | false =>
      apply inSession_of_ensures fun after => ∀ addr, after.Forgotten addr
      simp only [receiveRunning, Bool.not_false, if_true, ensures_bind, ensures_task]
      apply (ensures_releaseClients _).mono
      · intro released after removed
        have forgotten : ∀ addr, after.1.Forgotten addr := by
          intro addr
          rw [removed, forgotten_foldl_removeClient, IterOrder.mem_arrange]
          by_cases known : addr ∈ task.handles
          · exact .inl (mem_keys.mp known)
          · exact .inr (sound.forgotten_iff.mpr known)
        cases released with
        | true => simpa using forgotten
        | false => simpa using fun addr => forgotten_endSession (forgotten addr)
      · exact fun _ _ impossible => impossible.elim
  | _ => trivial

theorem honoured_take_iff (alive : task.phase ≠ .ended)
    (exits : request = .terminate → task.exitRequested = true) :
    (task.take around request).1.Honoured request ↔ task.Heard request := by
  unfold take
  cases phase : task.phase with
  | waiting => exact honoured_receiveWaiting_iff sound phase
  | initializing =>
    have heard : task.Heard request := by simp [Heard, phase]
    simpa [heard] using honoured_receiveInitializing
  | creating => exact honoured_receiveCreating_iff sound phase
  | running =>
    have heard : task.Heard request := by simp [Heard, phase]
    simpa [heard] using honoured_receiveRunning sound exits
  | ended => exact absurd phase alive

theorem honoured_receive_iff (alive : task.phase ≠ .ended)
    {requests : List (ProxyRequest Address Backend)} (head : task.requests = request :: requests) :
    (task.receive around).1.Honoured request ↔ task.Heard request := by
  rw [receive, head]
  apply honoured_take_iff (sound.pop head) alive
  intro same
  apply sound.exits
  rw [head, same]
  exact .head _

omit [DecidableEq Address] in
theorem Sound.receiveWaiting (phase : task.phase = .waiting) :
    (task.receiveWaiting request).1.Sound := by
  have idle : ∀ remaining, task.phase ≠ .creating remaining := by simp [phase]
  cases request with
  | reenable
  | setBackend => exact .of_idle sound.recorded sound.exits fun _ same => nomatch same
  | terminate =>
    exact .of_idle (sound.clearClients idle).recorded sound.exits fun _ same => nomatch same
  | setInputSharing enabled =>
    cases enabled with
    | true => exact sound
    | false => exact sound.clearClients idle
  | _ => exact sound

theorem Sound.receiveInitializing {backend : Option Backend}
    (phase : task.phase = .initializing backend) : (task.receiveInitializing request).1.Sound := by
  have idle : ∀ remaining, task.phase ≠ .creating remaining := by simp [phase]
  cases request with
  | setBackend => exact Sound.afterEmulation ⟨sound.recorded, sound.exits, sound.remembered⟩
  | terminate =>
    have asked : Sound { task with exitRequested := true } :=
      ⟨sound.recorded, fun _ => rfl, sound.remembered⟩
    exact asked.afterEmulation
  | setInputSharing enabled =>
    have set : Sound { task with inputSharing := enabled } :=
      ⟨sound.recorded, sound.exits, sound.remembered⟩
    cases enabled with
    | true => exact set
    | false => exact set.clearClients idle
  | remove addr => exact sound.removeClient idle addr
  | _ => exact sound

omit [DecidableEq Address] in
theorem Sound.receiveCreating : (task.receiveCreating request).1.Sound := by
  cases request with
  | terminate => exact .of_idle sound.recorded sound.exits fun _ same => nomatch same
  | _ => exact sound

theorem Sound.take : (task.take around request).1.Sound := by
  unfold EmulationTask.take
  cases phase : task.phase with
  | waiting => exact sound.receiveWaiting phase
  | initializing => exact sound.receiveInitializing phase
  | creating => exact sound.receiveCreating
  | running clipboardActive =>
    apply inSession_of_ensures Sound
    apply (ensures_receiveRunning ⟨sound, clipboardActive, phase⟩ request).mono
    · exact fun _ after running => running.sound
    · exact fun _ _ running => running.sound.endSession
  | ended => exact sound

theorem Sound.receive : (task.receive around).1.Sound := by
  unfold EmulationTask.receive
  cases head : task.requests with
  | nil => exact sound
  | cons => exact (sound.pop head).take

theorem Sound.initialized (name : String) : (task.initialized name around).1.Sound := by
  by_cases sharing : task.inputSharing = true
  · simp only [EmulationTask.initialized, sharing, if_true]
    refine ⟨sound.recorded, sound.exits, ?_⟩
    intro _ creating
    simp only [createClients] at creating
    split at creating
    · exact nomatch creating
    · rename_i some
      rcases exists_mem_of_ne_nil _ some with ⟨handle, member⟩
      rcases mem_filterMap.mp member with ⟨addr, _, found⟩
      exact ⟨addr, (mem_iff_lookup _ addr).mpr ⟨handle, found⟩⟩
  · simp only [EmulationTask.initialized, sharing]
    exact .of_idle (fun addr member => absurd member (notMem_empty addr)) sound.exits
      fun _ same => nomatch same

section

omit [DecidableEq Address]

theorem Sound.created : task.created.1.Sound := by
  unfold EmulationTask.created
  split
  · rename_i handle remaining creating
    refine ⟨sound.recorded, sound.exits, ?_⟩
    intro _ _
    exact sound.remembered _ creating
  · exact sound

theorem Sound.clipboard (offered : Option (String × ByteFormat.Bytes)) :
    (task.clipboard offered around).1.Sound := by
  cases offered with
  | none => exact .of_idle sound.recorded sound.exits fun _ same => nomatch same
  | some => exact sound

end

omit sound

theorem Sound.step (sound : task.Sound) (event : Event Address Backend) :
    (task.step event).1.Sound := by
  cases event with
  | send request => exact sound.send request
  | receive => exact sound.receive
  | initialized name => exact sound.initialized name
  | initializationFailed | timedOut => exact sound.afterEmulation
  | created => exact sound.created
  | clipboard offered => exact sound.clipboard offered
  | healthCheck healthy =>
    cases healthy with
    | true => exact sound
    | false => exact sound.endSession

end Requests

end Session

section Runs

variable [DecidableEq Address]

/-- The run takes this request off the queue here. -/
def Takes (backend : Option Backend) (events : List (Event Address Backend))
    (request : ProxyRequest Address Backend) (before after : EmulationTask Address Backend) :
    Prop :=
  ∃ earlier around later, events = earlier ++ .receive around :: later ∧
    before = (machine backend).after (new backend) earlier ∧
    before.requests.head? = some request ∧ after = (before.receive around).1

theorem Takes.honoured_iff {backend : Option Backend} {events : List (Event Address Backend)}
    {request : ProxyRequest Address Backend} {before after : EmulationTask Address Backend}
    (takes : Takes backend events request before after)
    (follows : (machine backend).Follows (new backend) events) :
    after.Honoured request ↔ before.Heard request := by
  rcases takes with ⟨earlier, _, _, rfl, rfl, head, rfl⟩
  rw [Machine.follows_append] at follows
  have sound : Sound ((machine backend).after (new backend) earlier) :=
    follows.1.keeps (fun _ event sound _ => sound.step event) (sound_new backend)
  rcases head?_eq_some_iff.mp head with ⟨_, queue⟩
  exact honoured_receive_iff sound follows.2.1.2 queue

/-- Whatever happens, no button is recorded for a peer without a handle, the end is only under way
when it was asked for, and clients are created only while there is a peer. -/
theorem recorded_after (backend : Option Backend) (events : List (Event Address Backend)) :
    Sound ((machine backend).after (new backend) events) :=
  Machine.after_keeps (fun _ event sound => sound.step event) (sound_new backend) events

/-- In a run every request that ends something is honoured if and only if the task never takes
the removal of a peer that has a handle while it waits to be enabled or creates clients, nor the end
of input sharing or its own end while it creates clients. -/
theorem requests_honoured_iff (backend : Option Backend) (events : List (Event Address Backend))
    (follows : (machine backend).Follows (new backend) events) :
    (∀ request before after, Takes backend events request before after → after.Honoured request) ↔
      ∀ request before after, Takes backend events request before after → before.Heard request := by
  constructor
  · intro honoured request before after takes
    exact (takes.honoured_iff follows).mp (honoured request before after takes)
  · intro heard request before after takes
    exact (takes.honoured_iff follows).mpr (heard request before after takes)

/-! A backend that takes everything, and runs in which a peer presses a button. -/

def calm : Surroundings ℕ where
  android := false
  consumes _ _ := true
  pointerEdge _ := none
  setFileClipboard _ := .ok ()
  decodeNativeImage _ _ := .error ""
  clients := .asStored ℕ
  buttons := .asStored UInt32

def pressed : List (Event ℕ Unit) :=
  [.initialized "dummy" calm, .send (.input (.pointer (.button 0 272 1)) 7), .receive calm]

def released : List (Event ℕ Unit) :=
  pressed ++ [.send (.remove 7), .receive calm]

def departed : List (Event ℕ Unit) :=
  pressed ++ [.healthCheck false, .send (.remove 7), .receive calm]

def terminated : List (Event ℕ Unit) :=
  pressed ++ [.healthCheck false, .send .reenable, .receive calm, .initialized "dummy" calm,
    .send .terminate, .receive calm]

theorem requests_honoured_released :
    (machine none).Follows (new none) released ∧
      ∀ request before after, Takes none released request before after →
        after.Honoured request := by
  have follows : (machine none).Follows (new none) released :=
    ⟨⟨_, rfl⟩, trivial, ⟨by decide, by decide⟩, trivial, ⟨by decide, by decide⟩, trivial⟩
  refine ⟨follows, ?_⟩
  apply (requests_honoured_iff none released follows).mpr
  rintro _ _ _ ⟨earlier, _, _, split, rfl, head, -⟩
  match earlier, split with
  | [_, _], split | [_, _, _, _], split =>
    cases split
    cases head
    trivial
  | _ :: _ :: _ :: _ :: _ :: _, split => simp [released, pressed] at split

theorem requests_not_honoured :
    ((machine none).Follows (new none) departed ∧
        ∃ before after, Takes none departed (.remove 7) before after ∧
          ¬after.Honoured (.remove 7)) ∧
      (machine none).Follows (new none) terminated ∧
        ∃ before after, Takes none terminated .terminate before after ∧
          ¬after.Honoured .terminate := by
  refine ⟨⟨⟨⟨_, rfl⟩, trivial, ⟨by decide, by decide⟩, ⟨_, rfl⟩, trivial, ⟨by decide, by decide⟩,
    trivial⟩, _, _, ⟨pressed ++ [.healthCheck false, .send (.remove 7)], calm, [], rfl, rfl, rfl,
    rfl⟩, ?_⟩, ⟨⟨_, rfl⟩, trivial, ⟨by decide, by decide⟩, ⟨_, rfl⟩, trivial,
    ⟨by decide, by decide⟩, ⟨_, rfl⟩, trivial, ⟨by decide, by decide⟩, trivial⟩, _, _,
    ⟨pressed ++ [.healthCheck false, .send .reenable, .receive calm, .initialized "dummy" calm,
      .send .terminate], calm, [], rfl, rfl, rfl, rfl⟩, ?_⟩
  · intro forgotten
    exact forgotten.1 (by decide)
  · intro ended
    exact nomatch ended.2

end Runs

end EmulationTask

end Syntra.Emulation
