import Syntra.Capture.Holding
import Syntra.Capture.Lookups

/-!
# What is replayed

The keyboard and the buttons of this device, what each peer has as pressed by what it was sent, and
the presses that are captured while the entry of a client waits for its acknowledgement. They are
watched beside the task, over any run.
-/

namespace Syntra.Capture

open Proto StateMachine CaptureTask Handler List CaptureEffect
open CaptureTask (calm reasonsOf step_ended touchOf)

/-- What can be held down. -/
inductive Switch
  | key (code : UInt32)
  | button (code : UInt32)
  deriving DecidableEq, Repr

def switchOf : InputEvent → Option (Switch × Bool)
  | .keyboard (.key _ key state) => some (.key key, state ≠ 0)
  | .pointer (.button _ button state) => some (.button button, state ≠ 0)
  | _ => none

abbrev Pressed := Switch → Bool

def Pressed.after (pressed : Pressed) (event : InputEvent) : Pressed :=
  match switchOf event with
  | some (switch, down) => Function.update pressed switch down
  | none => pressed

/-- Some event is about the switch. -/
def Touches (switch : Switch) (events : List InputEvent) : Prop :=
  ∃ event ∈ events, ∃ down, switchOf event = some (switch, down)

theorem after_eq_iff {first second : Pressed} {event : InputEvent} {switch : Switch} :
    first.after event switch = second.after event switch ↔
      (∃ down, switchOf event = some (switch, down)) ∨ first switch = second switch := by
  unfold Pressed.after
  cases about : switchOf event with
  | none => simp
  | some change =>
    rcases change with ⟨other, _⟩
    by_cases same : switch = other
    · subst same
      simp
    · simp [Function.update_of_ne same, Ne.symm same]

theorem foldl_after_eq_iff {first second : Pressed} {events : List InputEvent} {switch : Switch} :
    events.foldl Pressed.after first switch = events.foldl Pressed.after second switch ↔
      Touches switch events ∨ first switch = second switch := by
  induction events generalizing first second with
  | nil => simp [Touches]
  | cons _ _ ih =>
    rw [foldl_cons, foldl_cons, ih, after_eq_iff]
    simp only [Touches, exists_mem_cons_iff]
    rw [or_left_comm, or_assoc]

/-- What a peer has as pressed is told by the input it is sent, and a `Leave` lets go of all. -/
def tell (view : CaptureHandle → Pressed) : CaptureEffect → CaptureHandle → Pressed
  | .send client (.input event) => Function.update view client ((view client).after event)
  | .send client (.leave _) => Function.update view client fun _ => false
  | _ => view

variable {view : CaptureHandle → Pressed}

theorem tell_quiet {effect : CaptureEffect} (quiet : effect.Quiet) : tell view effect = view := by
  unfold tell
  split
  · exact quiet.elim
  · exact quiet.elim
  · rfl

theorem foldl_tell_quiet {effects : List CaptureEffect} (quiet : ∀ effect ∈ effects, effect.Quiet) :
    effects.foldl tell view = view := by
  induction effects with
  | nil => rfl
  | cons effect _ ih =>
    rw [foldl_cons, tell_quiet (quiet effect mem_cons_self)]
    exact ih fun other member => quiet other (mem_cons_of_mem effect member)

theorem foldl_tell_input {client : CaptureHandle} {events : List InputEvent} :
    (events.map fun event => send client (.input event)).foldl tell view client =
      events.foldl Pressed.after (view client) := by
  induction events generalizing view with
  | nil => rfl
  | cons _ _ ih =>
    rw [map_cons, foldl_cons, foldl_cons, ih]
    simp [tell]

def entersClient (effects : List CaptureEffect) : Bool :=
  effects.any fun effect =>
    match effect with
    | .report (.clientEntered _) => true
    | _ => false

theorem entersClient_eq_false {effects : List CaptureEffect} :
    entersClient effects = false ↔ ∀ client, .report (.clientEntered client) ∉ effects := by
  rw [entersClient, any_eq_false]
  constructor
  · intro none client member
    exact none _ member rfl
  · intro none _ member
    split
    · rename_i client
      exact absurd member (none client)
    · exact Bool.false_ne_true

namespace CaptureTask

/-- An enter-only barrier gets a copy of what the barrier beside it brings. -/
def isCopy (task : CaptureTask) (handle : CaptureHandle) : Bool :=
  (task.captureOf handle).any fun capture => capture.2 = .enterOnly

theorem isCopy_eq_true {task : CaptureTask} {handle : CaptureHandle} :
    task.isCopy handle = true ↔ ∃ pos, task.captureOf handle = some (pos, .enterOnly) := by
  unfold isCopy
  cases task.captureOf handle with
  | none => simp
  | some => simp [Prod.ext_iff]

def pressOf (task : CaptureTask) : CaptureInput → Option InputEvent
  | .captured handle (.input event) =>
    if isHeld event && !task.isCopy handle then some event else none
  | _ => none

end CaptureTask

/-- The user types, or the task takes an input. -/
inductive Happening
  | typed (event : InputEvent)
  | turn (around : Surroundings) (input : CaptureInput)

/-- The task with what is pressed on this device and on the peers. -/
structure Watch where
  task : CaptureTask
  /-- What is down on this device. -/
  physical : Pressed
  /-- What each peer has as pressed. -/
  view : CaptureHandle → Pressed
  /-- Both as they were when a client was entered last. -/
  enteredPhysical : Pressed
  enteredView : CaptureHandle → Pressed
  /-- The presses that are captured while an entry waits, with the client that is active then. -/
  since : List (CaptureHandle × InputEvent)

namespace Watch

def new (backend : Option CaptureBackend) (releaseBind : List UInt32) (physical : Pressed)
    (view : CaptureHandle → Pressed) : Watch where
  task := .new backend releaseBind
  physical := physical
  view := view
  enteredPhysical := physical
  enteredView := view
  since := []

def captured (watch : Watch) (input : CaptureInput) : List (CaptureHandle × InputEvent) :=
  match watch.task.activeClient, watch.task.state, watch.task.pressOf input with
  | some client, .waitingForAck, some event => [(client, event)]
  | _, _, _ => []

def physicalAfter (watch : Watch) (input : CaptureInput) : Pressed :=
  (watch.task.pressOf input).elim watch.physical watch.physical.after

variable [FloatOps]

def turn (watch : Watch) (around : Surroundings) (input : CaptureInput) : Watch :=
  let turned := watch.task.step (around, input)
  let physical := watch.physicalAfter input
  let view := turned.2.foldl tell watch.view
  if entersClient turned.2 then
    { task := turned.1
      physical := physical
      view := view
      enteredPhysical := physical
      enteredView := view
      since := [] }
  else
    { watch with
      task := turned.1
      physical := physical
      view := view
      since := watch.since ++ watch.captured input }

def step (watch : Watch) : Happening → Watch × List CaptureEffect
  | .typed event => ({ watch with physical := watch.physical.after event }, [])
  | .turn around input => (watch.turn around input, (watch.task.step (around, input)).2)

end Watch

namespace CaptureTask

variable {captures : List (CaptureHandle × Position × CaptureType)} {around : Surroundings}
  {reasons : Reasons} {task : CaptureTask} {client : CaptureHandle} {before after : World}

/-- The client was entered and has not acknowledged it. -/
def Awaits (task : CaptureTask) (client : CaptureHandle) : Prop :=
  task.activeClient = some client ∧ task.state = .waitingForAck

/-- Since `task` the entry has waited: nothing that was held is gone, and the client has nothing
else pressed. -/
structure Waited (task : CaptureTask) (client : CaptureHandle) (world : World) : Prop where
  awaits : task.Awaits client
  kept : ∃ more, world.1.heldUntilAck = task.heldUntilAck ++ more
  untold : ∀ view, world.2.foldl tell view client = view client

def Lasts (task : CaptureTask) (client : CaptureHandle) (world : World) : Prop :=
  entersClient world.2 = true ∨ (world.1.Awaits client → task.Waited client world)

theorem entersClient_append {effects more : List CaptureEffect} :
    entersClient (effects ++ more) = (entersClient effects || entersClient more) := by
  simp [entersClient]

theorem Lasts.emits {state later : CaptureTask} {log effects : List CaptureEffect}
    (lasts : task.Lasts client (state, log)) (goes : later.Awaits client → state.Awaits client)
    (kept : ∃ more, later.heldUntilAck = state.heldUntilAck ++ more)
    (untold : state.Awaits client → ∀ view, effects.foldl tell view client = view client) :
    task.Lasts client (later, log ++ effects) := by
  rcases lasts with entered | waited
  · exact .inl (by rw [entersClient_append, entered, Bool.true_or])
  · refine .inr fun awaits => ?_
    have before := waited (goes awaits)
    rcases before.kept with ⟨first, held⟩
    rcases kept with ⟨more, longer⟩
    refine ⟨before.awaits, ⟨first ++ more, ?_⟩, fun _ => ?_⟩
    · rw [longer, held, append_assoc]
    · rw [foldl_append, untold (goes awaits), before.untold]

theorem Lasts.notes {state later : CaptureTask} {log : List CaptureEffect}
    (lasts : task.Lasts client (state, log)) (goes : later.Awaits client → state.Awaits client)
    (kept : ∃ more, later.heldUntilAck = state.heldUntilAck ++ more) :
    task.Lasts client (later, log) := by
  have same : task.Lasts client (later, log ++ []) := lasts.emits goes kept fun _ _ => rfl
  rwa [append_nil] at same

theorem lasts_of_gone {world : World} (gone : ¬world.1.Awaits client) : task.Lasts client world :=
  .inr fun awaits => absurd awaits gone

theorem lasts_of_entered {state : CaptureTask} {log : List CaptureEffect} {next : CaptureHandle} :
    task.Lasts client (state, log ++ [.report (.clientEntered next)]) :=
  .inl (by rw [entersClient_append]; simp [entersClient])

theorem foldl_tell_entry {handle : CaptureHandle} {event : ProtoEvent} (entry : IsEntry event) :
    [send handle event].foldl tell view = view := by
  cases event with
  | enter | enterAt | enterVia => rfl
  | _ => exact entry.elim

theorem Move.lasts (move : Move captures around before after)
    (lasts : task.Lasts client before) : task.Lasts client after := by
  cases move with
  | note agrees =>
    refine lasts.notes ?_ ⟨[], by rw [agrees.heldUntilAck, append_nil]⟩
    rw [Awaits, agrees.activeClient, agrees.state]
    exact id
  | emit quiet =>
    refine lasts.emits id ⟨[], by simp⟩ fun _ view => ?_
    rw [foldl_cons, tell_quiet quiet]
    rfl
  | arm | disarm => exact lasts.notes id ⟨[], by simp⟩
  | release => exact lasts_of_gone nofun
  | refuse => exact lasts.emits id ⟨[], by simp⟩ fun _ _ => rfl
  | enter _ entry =>
    exact lasts.emits id ⟨[], by simp⟩ fun _ _ => by rw [foldl_tell_entry entry]
  | forward _ sending =>
    refine lasts_of_gone fun awaits => ?_
    rw [awaits.2] at sending
    cases sending
  | retry => exact lasts.notes id ⟨[], by simp⟩

theorem Turning.lasts
    (speaks : ∀ handle event, reasons.speaks handle event → ∀ view,
      tell view (.send handle event) = view)
    (turning : Turning captures reasons before after) (lasts : task.Lasts client before) :
    task.Lasts client after := by
  cases turning with
  | activate | handOver => exact lasts_of_entered
  | hold => exact lasts.notes id ⟨[_], rfl⟩
  | acknowledge => exact lasts_of_gone fun awaits => nomatch awaits.2
  | say reason =>
    refine lasts.emits id ⟨[], by simp⟩ fun _ _ => ?_
    rw [foldl_cons, speaks _ _ reason]
    rfl

theorem lasts_refl (agrees : task.Agrees before.1) (silent : before.2 = []) :
    task.Lasts client before := by
  refine .inr fun awaits => ⟨?_, ⟨[], by rw [agrees.heldUntilAck, append_nil]⟩, ?_⟩
  · rw [Awaits, agrees.activeClient, agrees.state] at awaits
    exact awaits
  · rw [silent]
    exact fun _ => rfl

variable [FloatOps] {input : CaptureInput}

theorem step_lasts (speaks : ∀ handle event, input = .request (.sendProto handle event) →
    ∀ view, tell view (.send handle event) = view) :
    task.Lasts client (task.step (around, input)) := by
  apply step_keeps (task.Lasts client)
  · exact fun after agrees => lasts_refl agrees rfl
  · refine .inr fun awaits => ⟨?_, ⟨[], by simp [edited_heldUntilAck]⟩, fun _ => rfl⟩
    rw [Awaits, edited_activeClient, edited_state] at awaits
    exact awaits
  · exact fun _ _ move => move.lasts
  · exact fun _ _ turning => turning.lasts speaks
  · rintro _ _ _ ⟨_, _, rfl⟩ silent lasts
    exact lasts.emits id ⟨[], by simp⟩ fun _ _ => by rw [foldl_tell_quiet silent]

theorem step_unheld (other : bringsPress input = false) :
    (task.step (around, input)).1.heldUntilAck = task.heldUntilAck ∨
      (task.step (around, input)).1.heldUntilAck = [] := by
  have bides : Bides True False (task, []) (task.step (around, input)) :=
    step_bides (fun _ => trivial) (not_holds_of_other other) fun _ => id
  exact bides.1.resolve_left id

variable {handle : CaptureHandle} {event : InputEvent}

theorem step_enters_none (press : isHeld event = true) :
    entersClient (task.step (around, .captured handle (.input event))).2 = false := by
  have bides : Bides False True (task, []) (task.step (around, .captured handle (.input event))) :=
    step_bides (not_activates_of_press press) (fun _ => trivial) nofun
  rcases bides with ⟨_, _, log, entered⟩
  rw [entersClient_eq_false, log]
  simpa using entered

theorem step_copy (active : task.activeClient ≠ none) (press : isHeld event = true)
    (copy : task.isCopy handle = true) :
    (task.step (around, .captured handle (.input event))).1.heldUntilAck = task.heldUntilAck ∨
      (task.step (around, .captured handle (.input event))).1.heldUntilAck = [] := by
  have bides : BidesFrom (CaptureTask.handle around task.phase (.captured handle (.input event)))
      (task, []) := by
    rcases isCopy_eq_true.mp copy with ⟨_, found⟩
    cases task.phase with
    | session => exact ensures_copy active press found
    | starting | inactive | ended => exact refl_of (Bides False False) (task, [])
  exact (bides_step bides).1.resolve_left id

theorem step_press (awaits : task.Awaits client) (press : isHeld event = true)
    (collects : task.Collects handle) :
    let after := (task.step (around, .captured handle (.input event))).1
    after.phase = .ended ∨ after.activeClient = none ∨
      after.heldUntilAck = task.heldUntilAck ++ [event] := by
  have pressed : (CaptureTask.handle around task.phase (.captured handle (.input event))).Ensures
      (task, []) (fun _ after => after.1.activeClient = none ∨
        after.1.heldUntilAck = task.heldUntilAck ++ [event])
      fun halt after => halt ≠ .noSuchCapture → after.1.activeClient = none := by
    rw [collects.session]
    exact ensures_press awaits.1 awaits.2 press collects
  refine step_of_ensures (fun after => after.1.phase = .ended ∨ after.1.activeClient = none ∨
    after.1.heldUntilAck = task.heldUntilAck ++ [event]) pressed (fun _ => .inr) ?_
  intro halt after stopped
  cases halt with
  | noSuchCapture => exact .inl rfl
  | captureError | sessionOver =>
    rcases rephased_retire after.1 with ⟨_, _, same⟩
    refine .inr (.inl ?_)
    rw [conclude, same]
    exact stopped (by decide)

end CaptureTask

/-- A message that changes what the peer has as pressed. -/
def controlsSwitches : ProtoEvent → Bool
  | .input _ | .leave _ => true
  | _ => false

theorem tell_of_other {handle : CaptureHandle} {event : ProtoEvent}
    (other : controlsSwitches event = false) : tell view (.send handle event) = view := by
  cases event with
  | input | leave => cases other
  | _ => rfl

namespace Watch

variable [FloatOps] {watch : Watch} {around : Surroundings} {input : CaptureInput}
  {client : CaptureHandle}

/-- No touch activates a client while something is held, a press for an entry that waits is
collected, and the service does not control a peer by itself. -/
structure Fair (watch : Watch) (around : Surroundings) (input : CaptureInput) : Prop where
  empty : ∀ handle event touch, input = .captured handle event →
    touchOf event = some touch →
      CaptureTask.Activates around watch.task handle touch → watch.task.heldUntilAck = []
  collects : ∀ client handle event, watch.task.Awaits client →
    input = .captured handle (.input event) → CaptureTask.isHeld event = true →
      watch.task.isCopy handle = true ∨ watch.task.Collects handle
  speaks : ∀ handle event, input = .request (.sendProto handle event) →
    controlsSwitches event = false

/-- The user types while no client is active, and every turn is fair. -/
def Orderly (watch : Watch) : Happening → Prop
  | .typed _ => watch.task.activeClient = none
  | .turn around input => watch.Fair around input

/-- The buffer holds what came in since the client was entered, and the peer has seen none of it. -/
structure Faithful (watch : Watch) (client : CaptureHandle) : Prop where
  buffer : watch.task.heldUntilAck = watch.since.map Prod.snd
  owner : ∀ held ∈ watch.since, held.1 = client
  physical : watch.physical = (watch.since.map Prod.snd).foldl Pressed.after watch.enteredPhysical
  view : watch.view client = watch.enteredView client

def Sound (watch : Watch) : Prop :=
  watch.task.phase ≠ .ended → ∀ client, watch.task.Awaits client → watch.Faithful client

section

omit [FloatOps]

theorem press_cases (task : CaptureTask) (input : CaptureInput) :
    (∃ handle event, input = .captured handle (.input event) ∧
      isHeld event = true ∧ task.isCopy handle = false ∧
        task.pressOf input = some event) ∨
    (∃ handle event, input = .captured handle (.input event) ∧
      isHeld event = true ∧ task.isCopy handle = true ∧ task.pressOf input = none) ∨
    bringsPress input = false ∧ task.pressOf input = none := by
  cases input with
  | captured handle event =>
    cases event with
    | input event =>
      cases press : isHeld event with
      | true =>
        cases copy : task.isCopy handle with
        | true =>
          exact .inr (.inl ⟨handle, event, rfl, press, copy, by
            simp [pressOf, copy]⟩)
        | false =>
          exact .inl ⟨handle, event, rfl, press, copy, by
            simp [pressOf, press, copy]⟩
      | false => exact .inr (.inr ⟨press, by simp [pressOf, press]⟩)
    | _ => exact .inr (.inr ⟨rfl, rfl⟩)
  | _ => exact .inr (.inr ⟨rfl, rfl⟩)

theorem captured_of_press {event : InputEvent} (awaits : watch.task.Awaits client)
    (press : watch.task.pressOf input = some event) : watch.captured input = [(client, event)] := by
  rw [captured, awaits.1, awaits.2, press]

theorem captured_of_none (press : watch.task.pressOf input = none) : watch.captured input = [] := by
  unfold captured
  split
  · rename_i _ _ _ event _ _ some
    cases press.symm.trans some
  · rfl

end

theorem held_after (fair : watch.Fair around input)
    (waited : watch.task.Waited client (watch.task.step (around, input)))
    (awaits : (watch.task.step (around, input)).1.Awaits client)
    (live : (watch.task.step (around, input)).1.phase ≠ .ended) :
    (watch.task.step (around, input)).1.heldUntilAck =
      watch.task.heldUntilAck ++ (watch.captured input).map Prod.snd := by
  have stays : (watch.task.step (around, input)).1.heldUntilAck = watch.task.heldUntilAck ∨
      (watch.task.step (around, input)).1.heldUntilAck = [] →
      (watch.task.step (around, input)).1.heldUntilAck = watch.task.heldUntilAck := by
    rintro (same | none)
    · exact same
    · rcases waited.kept with ⟨_, longer⟩
      rw [none, nil_eq, append_eq_nil_iff] at longer
      rw [none, longer.1]
  rcases press_cases watch.task input with
    ⟨handle, event, rfl, press, original, brought⟩ | ⟨handle, event, rfl, press, copy, brought⟩ |
    ⟨other, brought⟩
  · rw [captured_of_press waited.awaits brought]
    have collects : watch.task.Collects handle := by
      rcases fair.collects client handle event waited.awaits rfl press with copy | collects
      · cases copy.symm.trans original
      · exact collects
    rcases step_press waited.awaits press collects with ended | idle | held
    · exact absurd ended live
    · cases idle.symm.trans awaits.1
    · exact held
  · rw [captured_of_none brought, stays ?_]
    · simp
    · exact step_copy (by simp [waited.awaits.1]) press copy
  · rw [captured_of_none brought, stays (step_unheld other)]
    simp

omit [FloatOps] in
theorem physicalAfter_eq (awaits : watch.task.Awaits client) (input : CaptureInput) :
    watch.physicalAfter input =
      ((watch.captured input).map Prod.snd).foldl Pressed.after watch.physical := by
  cases press : watch.task.pressOf input with
  | none =>
    rw [captured_of_none press, physicalAfter, press]
    rfl
  | some =>
    rw [captured_of_press awaits press, physicalAfter, press]
    rfl

omit [FloatOps] in
theorem owner_captured (awaits : watch.task.Awaits client) :
    ∀ held ∈ watch.captured input, held.1 = client := by
  cases press : watch.task.pressOf input with
  | none => simp [captured_of_none press]
  | some => simp [captured_of_press awaits press]

theorem live_of_live (live : (watch.task.step (around, input)).1.phase ≠ .ended) :
    watch.task.phase ≠ .ended := by
  intro ended
  have still : ∃ after, watch.task.Agrees after ∧
      watch.task.step (around, input) = (after, []) := step_ended ended input
  rcases still with ⟨_, agrees, same⟩
  rw [same] at live
  exact live (agrees.phase.trans ended)

theorem Fair.unheld (fair : watch.Fair around input)
    (entered : entersClient (watch.task.step (around, input)).2 = true) :
    (watch.task.step (around, input)).1.heldUntilAck = [] := by
  have unpressed : bringsPress input = false := by
    rcases press_cases watch.task input with
      ⟨handle, event, rfl, press, -, -⟩ | ⟨handle, event, rfl, press, -, -⟩ | ⟨other, -⟩
    · rw [step_enters_none press] at entered
      cases entered
    · rw [step_enters_none press] at entered
      cases entered
    · exact other
  let activates := (reasonsOf around watch.task input).activates
  have bides : Bides activates False (watch.task, []) (watch.task.step (around, input)) :=
    step_bides id (not_holds_of_other unpressed) fun _ => id
  rcases bides with ⟨kept, _, log, ⟨handle, event, touch, same, about, opens⟩ | cleared | none⟩
  · rcases kept.resolve_left id with still | gone
    · exact still.trans (fair.empty handle event touch same about opens)
    · exact gone
  · exact cleared.2
  · rw [log, nil_append, entersClient_eq_false.mpr none] at entered
    cases entered

theorem Sound.turn (sound : watch.Sound) (fair : watch.Fair around input) :
    (watch.turn around input).Sound := by
  cases entered : entersClient (watch.task.step (around, input)).2 with
  | true =>
    rw [Watch.turn, if_pos entered]
    exact fun _ _ _ => ⟨fair.unheld entered, by simp, rfl, rfl⟩
  | false =>
    rw [Watch.turn, if_neg (by simp [entered])]
    intro live client awaits
    have lasts : watch.task.Lasts client (watch.task.step (around, input)) :=
      step_lasts fun handle event same _ =>
        tell_of_other (fair.speaks handle event same)
    rcases lasts with entering | waits
    · rw [entered] at entering
      cases entering
    · have waited := waits awaits
      have before := sound (live_of_live live) client waited.awaits
      refine ⟨?_, ?_, ?_, (waited.untold watch.view).trans before.view⟩
      · rw [map_append, ← before.buffer]
        exact held_after fair waited awaits live
      · intro held member
        rcases mem_append.mp member with earlier | now
        · exact before.owner held earlier
        · exact owner_captured waited.awaits held now
      · rw [map_append, foldl_append, ← before.physical]
        exact physicalAfter_eq waited.awaits input

theorem Sound.step {happening : Happening} (sound : watch.Sound)
    (orderly : watch.Orderly happening) : (watch.step happening).1.Sound := by
  cases happening with
  | typed =>
    intro _ _ awaits
    cases orderly.symm.trans awaits.1
  | turn => exact sound.turn orderly

/-- What is sent for the presses captured since the entry: to each client what was captured when it
was active. -/
def replay (watch : Watch) : List CaptureEffect :=
  watch.since.map fun held => .send held.1 (.input held.2)

omit [FloatOps] in
theorem Faithful.replay_eq (faithful : watch.Faithful client) :
    watch.replay = watch.task.heldUntilAck.map fun event => send client (.input event) := by
  rw [faithful.buffer, map_map, replay]
  exact map_congr_left fun held member => by simp [faithful.owner held member]

end Watch

namespace CaptureTask

variable {task : CaptureTask} {client : CaptureHandle} {around : Surroundings}

def Replays (task : CaptureTask) (client : CaptureHandle) (log : List CaptureEffect) : Prop :=
  ∃ quiet rest, (∀ effect ∈ quiet, effect.Quiet) ∧
    log = quiet ++ (task.heldUntilAck.map fun event => .send client (.input event)) ++ rest

theorem Replays.append {log : List CaptureEffect} (replays : task.Replays client log)
    (more : List CaptureEffect) : task.Replays client (log ++ more) := by
  rcases replays with ⟨quiet, rest, silent, rfl⟩
  exact ⟨quiet, rest ++ more, silent, append_assoc ..⟩

theorem ensures_acknowledge {first : CaptureEffect} (silent : first.Quiet) :
    (acknowledge client).Attains (task, [first]) fun after => task.Replays client after.2 := by
  simp only [acknowledge, ensures_bind, ensures_task, ensures_update]
  apply ensures_announceDeparture.mono
  · rintro _ _ ⟨quiet, unheard, rfl⟩
    apply ensures_each_emit.mono
    · rintro _ _ rfl
      refine ⟨first :: quiet, [], forall_mem_cons.mpr ⟨silent, unheard⟩, ?_⟩
      simp
    · exact fun _ _ stops => stops
  · exact fun _ _ stops => stops

variable [FloatOps]

theorem step_ack (session : task.phase = .session) (awaits : task.Awaits client)
    (fingerprint : String) (serial : UInt32) :
    task.Replays client (task.step (around, .message client fingerprint (.ack serial))).2 := by
  have handled : (handleMessage around client fingerprint (.ack serial)).Attains (task, [])
      fun after => task.Replays client after.2 := by
    have plain : isForwardedProtocol (.ack serial) = false := rfl
    have unnoted : noteMessage around client (.ack serial) = pure () := rfl
    have acts : handleActive around client (.ack serial) = (do
        let task ← Handler.task
        if task.state = .waitingForAck then acknowledge client : Handler Unit) := rfl
    simp only [handleMessage, plain, unnoted, answerActive, acts, Handler.ensures_bind,
      Handler.ensures_emit, Handler.ensures_task, Handler.ensures_pure, Bool.false_eq_true,
      if_false, awaits.1, awaits.2, if_true, List.nil_append]
    have silent : (CaptureEffect.report (.peerAuthenticated client fingerprint)).Quiet := trivial
    have syncs : Runs task.captures around False (syncCaptures around) := runs_syncCaptures
    have bides : (syncCaptures around).Along (Bides False False) := syncs.along
    apply (ensures_acknowledge silent).mono
    · intro _ middle replays
      apply (bides middle).mono
      · rintro _ after ⟨_, more, log, _⟩
        rw [log]
        exact replays.append more
      · rintro _ after ⟨_, more, log, _⟩
        rw [log]
        exact replays.append more
    · exact fun _ _ stopped => stopped
  have heard : (handle around task.phase
      (.message client fingerprint (.ack serial))).Attains (task, [])
        fun after => task.Replays client after.2 := by
    rw [session]
    exact handled
  refine step_of_ensures (fun after => task.Replays client after.2) heard (fun _ done => done) ?_
  intro halt _ replays
  cases halt with
  | noSuchCapture => exact replays
  | captureError | sessionOver => exact replays.append _

end CaptureTask

namespace Watch

variable [FloatOps] {watch : Watch} {around : Surroundings} {input : CaptureInput}

omit [FloatOps] in
theorem sound_new (backend : Option CaptureBackend) (releaseBind : List UInt32)
    (physical : Pressed) (view : CaptureHandle → Pressed) :
    (new backend releaseBind physical view).Sound :=
  fun _ _ awaits => nomatch awaits.1

/-- In a run in which no touch activates a client while events are held, and every press that is
captured while an entry waits finds its barrier and room, the acknowledgement of an entry sends the
presses that were captured since, in their order, to the client that was active then. After that a
peer has a switch as it is on this device exactly when there was an event about it since the entry,
or both had it alike when the client was entered. -/
theorem held_presses_arrive (backend : Option CaptureBackend) (releaseBind : List UInt32)
    (physical : Pressed) (view : CaptureHandle → Pressed) (happenings : List Happening)
    (orderly : ∀ watch happening,
      Meets step (new backend releaseBind physical view) happenings watch happening →
        watch.Orderly happening)
    (around : Surroundings) (client : CaptureHandle) (fingerprint : String) (serial : UInt32) :
    let watch := (outcome step (new backend releaseBind physical view) happenings).1
    watch.task.phase = .session → watch.task.Awaits client →
      ∃ quiet rest, (∀ effect ∈ quiet, effect.Quiet) ∧
        (watch.task.step (around, .message client fingerprint (.ack serial))).2 =
          quiet ++ watch.replay ++ rest ∧
        (∀ held ∈ watch.since, held.1 = client) ∧
        ∀ switch, (quiet ++ watch.replay).foldl tell watch.view client switch =
            watch.physical switch ↔
          Touches switch (watch.since.map Prod.snd) ∨
            watch.enteredView client switch = watch.enteredPhysical switch := by
  intro watch session awaits
  have sound : watch.Sound :=
    outcome_keeps (fun _ _ sound orderly => sound.step orderly) orderly
      (sound_new backend releaseBind physical view)
  have faithful : watch.Faithful client := sound (by simp [session]) client awaits
  have replays : watch.task.Replays client
      (watch.task.step (around, .message client fingerprint (.ack serial))).2 :=
    CaptureTask.step_ack session awaits fingerprint serial
  rcases replays with ⟨quiet, rest, silent, replayed⟩
  refine ⟨quiet, rest, silent, ?_, faithful.owner, fun _ => ?_⟩
  · rw [replayed, faithful.replay_eq]
  · rw [List.foldl_append, foldl_tell_quiet silent, faithful.replay_eq, foldl_tell_input,
      faithful.view, faithful.buffer, faithful.physical]
    exact foldl_after_eq_iff

def stroke (key : UInt32) (state : UInt8) : InputEvent := .keyboard (.key 0 key state)

theorem Fair.of_other (unheld : watch.task.heldUntilAck = []) (other : bringsPress input = false)
    (silent : ∀ handle event, input ≠ .request (.sendProto handle event)) :
    watch.Fair around input where
  empty _ _ _ _ _ _ := unheld
  collects _ _ _ _ same held := by
    rw [same, bringsPress, held] at other
    cases other
  speaks handle event same := absurd same (silent handle event)

theorem Fair.of_press {handle : CaptureHandle} {event : InputEvent}
    (held : isHeld event = true) (collects : watch.task.Collects handle) :
    watch.Fair around (.captured handle (.input event)) where
  empty _ _ _ same about activates := by
    cases same
    cases about
    rcases activates.passes with ⟨_, counts, -⟩
    exact absurd counts (not_counts_press held)
  collects _ _ _ _ same _ := by
    cases same
    exact .inr collects
  speaks := nofun

/-- What is held of one more press. -/
def keep (held : List InputEvent) (event : InputEvent) : List InputEvent :=
  if held.length < maxHeldUntilAck then held ++ [event] else held

def holding (held captured : List InputEvent) : Watch where
  task := { CaptureTask.new none [1] with
    phase := .session
    activeClient := some 1
    ackDeadline := some ackTimeout
    localDeparture := some (.left, none)
    captures := [(1, .left, .default), (2, .right, .default)]
    enabledCaptures := ((∅ : Tables.KeySet CaptureHandle).insert 1 ()).insert 2 ()
    heldUntilAck := held }
  physical := captured.foldl Pressed.after fun _ => false
  view _ _ := false
  enteredPhysical _ := false
  enteredView _ _ := false
  since := captured.map fun event => (1, event)

def entering : List Happening :=
  [.turn calm (.created .x11), .turn calm (.request (.create 1 .left .default)),
    .turn calm (.request (.create 2 .right .default)),
    .turn calm (.captured 1 .begin)]

def ready (captures : List (CaptureHandle × Position × CaptureType))
    (enabledCaptures : Tables.KeySet CaptureHandle) : Watch :=
  { new none [1] (fun _ => false) fun _ _ => false with
    task := { CaptureTask.new none [1] with phase := .session, captures, enabledCaptures } }

theorem step_created : ((new none [1] (fun _ => false) fun _ _ => false).step
    (.turn calm (.created .x11))).1 = ready [] ∅ := by
  rfl

theorem step_first : ((ready [] ∅).step (.turn calm (.request (.create 1 .left .default)))).1 =
    ready [(1, .left, .default)] ((∅ : Tables.KeySet CaptureHandle).insert 1 ()) := by
  rfl

theorem step_second : ((ready [(1, .left, .default)]
    ((∅ : Tables.KeySet CaptureHandle).insert 1 ())).step
    (.turn calm (.request (.create 2 .right .default)))).1 =
    ready [(1, .left, .default), (2, .right, .default)]
      (((∅ : Tables.KeySet CaptureHandle).insert 1 ()).insert 2 ()) := by
  rfl

theorem step_entered : ((ready [(1, .left, .default), (2, .right, .default)]
    (((∅ : Tables.KeySet CaptureHandle).insert 1 ()).insert 2 ())).step
    (.turn calm (.captured 1 .begin))).1 = holding [] [] := by
  rfl

theorem outcome_entering :
    (outcome step (new none [1] (fun _ => false) fun _ _ => false) entering).1 = holding [] [] := by
  simp only [entering, outcome, step_created, step_first, step_second, step_entered]

theorem orderly_entering {happening : Happening} (meets : Meets step
    (new none [1] (fun _ => false) fun _ _ => false) entering watch happening) :
    watch.Orderly happening := by
  simp only [entering, meets_cons, not_meets_nil, or_false, step_created, step_first,
    step_second] at meets
  rcases meets with ⟨reached, rfl⟩ | ⟨reached, rfl⟩ | ⟨reached, rfl⟩ | ⟨reached, rfl⟩
  · exact Fair.of_other (by rw [reached]; rfl) rfl nofun
  · exact Fair.of_other (by rw [reached]; rfl) rfl nofun
  · exact Fair.of_other (by rw [reached]; rfl) rfl nofun
  · exact Fair.of_other (by rw [reached]; rfl) rfl nofun

variable {captured held : List InputEvent}

variable {event : InputEvent} (press : CaptureTask.isHeld event = true)
include press

omit [FloatOps] in
theorem hold_holding :
    hold event ((holding held captured).task, []) =
      (.ok (), ((holding (keep held event) captured).task, [])) := by
  by_cases room : held.length < maxHeldUntilAck
  · have fits : (holding held captured).task.heldUntilAck.length < maxHeldUntilAck := room
    rw [keep, if_pos room]
    simp only [hold, update, press, fits, decide_true, Bool.and_self, if_true]
    rfl
  · have full : ¬(holding held captured).task.heldUntilAck.length < maxHeldUntilAck := room
    rw [keep, if_neg room]
    simp only [hold, update, press, full, decide_false, Bool.and_false,
      Bool.false_eq_true, if_false]

theorem task_holding :
    (holding held captured).task.step (calm, .captured 1 (.input event)) =
      ((holding (keep held event) captured).task, [.send 1 (.enter .right)]) := by
  have handled : handle calm .session (.captured 1 (.input event))
      ((holding held captured).task, []) =
      (hold event >>= fun _ => (do
        let task ← Handler.task
        sendOrRelease calm 1 (task.enterEvent .right) :
          Handler Unit)) ((holding held captured).task, []) := by
    rfl
  have session : (holding held captured).task.phase = .session := rfl
  rw [CaptureTask.step, session, handled, Handler.bind_of_ok (hold_holding press)]
  rfl

theorem step_holding :
    ((holding held captured).step (.turn calm (.captured 1 (.input event)))).1 =
      holding (keep held event) (captured ++ [event]) := by
  have awaits : (holding held captured).task.Awaits 1 := ⟨rfl, rfl⟩
  have original : (holding held captured).task.isCopy 1 = false := rfl
  have brought :
      (holding held captured).task.pressOf (.captured 1 (.input event)) = some event := by
    rw [pressOf, press, original]
    rfl
  change (holding held captured).turn calm (.captured 1 (.input event)) = _
  unfold turn
  rw [task_holding press, physicalAfter, brought, captured_of_press awaits brought]
  dsimp only
  rw [if_neg (by decide)]
  simp [holding, tell]

omit press

def presses (events : List InputEvent) : List Happening :=
  events.map fun event => .turn calm (.captured 1 (.input event))

theorem outcome_presses {events : List InputEvent} (press : ∀ event ∈ events, isHeld event = true) :
    (outcome step (holding held captured) (presses events)).1 =
      holding (events.foldl keep held) (captured ++ events) := by
  induction events generalizing held captured with
  | nil => simp [presses, outcome]
  | cons event _ ih =>
    have first := press event mem_cons_self
    have rest := fun other member => press other (mem_cons_of_mem event member)
    rw [presses, map_cons, outcome]
    rw [step_holding first]
    refine (ih rest).trans ?_
    simp

theorem orderly_presses {events : List InputEvent} {happening : Happening}
    (press : ∀ event ∈ events, isHeld event = true)
    (room : held.length + events.length ≤ maxHeldUntilAck)
    (meets : Meets step (holding held captured) (presses events) watch happening) :
    watch.Orderly happening := by
  induction events generalizing held captured with
  | nil => exact (not_meets_nil meets).elim
  | cons event _ ih =>
    have first := press event mem_cons_self
    have fits : held.length < maxHeldUntilAck := by
      rw [length_cons] at room
      omega
    rw [presses, map_cons, meets_cons, step_holding first] at meets
    rcases meets with ⟨rfl, rfl⟩ | later
    · exact Fair.of_press first ⟨rfl, ⟨.left, rfl⟩, rfl, fits⟩
    · refine ih (fun other member => press other (mem_cons_of_mem event member)) ?_ later
      rw [keep, if_pos fits, length_append, length_singleton]
      rw [length_cons] at room
      omega

/-- A key goes down, then another one down and up. -/
def threePresses : List InputEvent := [stroke 30 1, stroke 31 1, stroke 31 0]

omit [FloatOps] in
theorem held_presses_arrive_three : ∃ happenings, happenings = entering ++ presses threePresses ∧
    ∀ [FloatOps],
      let watch := (outcome step (new none [1] (fun _ => false) fun _ _ => false) happenings).1
      ∃ quiet rest, (∀ effect ∈ quiet, effect.Quiet) ∧
        (watch.task.step (calm, .message 1 "" (.ack 0))).2 = quiet ++ watch.replay ++ rest ∧
        (∀ held ∈ watch.since, held.1 = 1) ∧
        ∀ switch, (quiet ++ watch.replay).foldl tell watch.view 1 switch = watch.physical switch ↔
          Touches switch (watch.since.map Prod.snd) ∨
            watch.enteredView 1 switch = watch.enteredPhysical switch := by
  refine ⟨entering ++ presses threePresses, rfl, fun {_} => ?_⟩
  have press : ∀ event ∈ threePresses, CaptureTask.isHeld event = true := by decide
  have reached : (outcome step (new none [1] (fun _ => false) fun _ _ => false)
      (entering ++ presses threePresses)).1 = holding threePresses threePresses := by
    rw [outcome_append, outcome_entering, outcome_presses press]
    rfl
  apply held_presses_arrive none [1] _ _ (entering ++ presses threePresses)
  · intro _ _ meets
    rw [meets_append, outcome_entering] at meets
    rcases meets with first | second
    · exact orderly_entering first
    · exact orderly_presses press (by decide) second
  · rw [reached]
    rfl
  · rw [reached]
    exact ⟨rfl, rfl⟩

/-- A key goes down, others are struck, and it goes up again as the event after the last one that
there is room for. -/
def tooMany : List InputEvent := stroke 30 1 :: List.replicate 63 (stroke 31 0) ++ [stroke 30 0]

omit [FloatOps] in
/-- A key is held for one client, then another client is entered and gets it; and after too many
presses a client does not get the one that lets go of a key. -/
theorem held_press_misses :
    (∃ happenings, ∀ [FloatOps],
      let before := (outcome step (new none [1] (fun _ => false) fun _ _ => false) happenings).1
      let after := (before.step (.turn calm (.captured 2 .begin))).1
      before.task.Awaits 1 ∧ before.since = [(1, stroke 30 1)] ∧ after.task.phase = .session ∧
        after.task.Awaits 2 ∧ .send 2 (.input (stroke 30 1)) ∈
          (after.task.step (calm, .message 2 "" (.ack 0))).2) ∧
    ∃ happenings, ∀ [FloatOps],
      let watch := (outcome step (new none [1] (fun _ => false) fun _ _ => false) happenings).1
      watch.task.phase = .session ∧ watch.task.Awaits 1 ∧ ∃ quiet rest,
        (watch.task.step (calm, .message 1 "" (.ack 0))).2 = quiet ++
          (watch.task.heldUntilAck.map fun event => .send 1 (.input event)) ++ rest ∧
        (quiet ++ watch.task.heldUntilAck.map fun event => .send 1 (.input event)).foldl tell
          watch.view 1 (.key 30) = true ∧ watch.physical (.key 30) = false := by
  refine ⟨⟨entering ++ presses [stroke 30 1], fun {_} => ?_⟩,
    ⟨entering ++ presses tooMany, fun {_} => ?_⟩⟩
  · dsimp only
    rw [outcome_append, outcome_entering, outcome_presses (by decide)]
    refine ⟨⟨rfl, rfl⟩, rfl, rfl, ⟨rfl, rfl⟩, ?_⟩
    let after := ((holding [stroke 30 1] [stroke 30 1]).step (.turn calm (.captured 2 .begin))).1
    have replays : after.task.Replays 2 (after.task.step (calm, .message 2 "" (.ack 0))).2 :=
      CaptureTask.step_ack rfl ⟨rfl, rfl⟩ "" 0
    rcases replays with ⟨quiet, rest, _, effects⟩
    have held : after.task.heldUntilAck = [stroke 30 1] := rfl
    rw [held] at effects
    change _ ∈ (after.task.step (calm, .message 2 "" (.ack 0))).2
    rw [effects]
    simp
  · have kept : tooMany.foldl keep [] = stroke 30 1 :: List.replicate 63 (stroke 31 0) := by
      decide +kernel
    rw [outcome_append, outcome_entering, outcome_presses (by decide), kept]
    refine ⟨rfl, ⟨rfl, rfl⟩, ?_⟩
    let watch := holding (stroke 30 1 :: List.replicate 63 (stroke 31 0)) ([] ++ tooMany)
    have replays : watch.task.Replays 1 (watch.task.step (calm, .message 1 "" (.ack 0))).2 :=
      CaptureTask.step_ack rfl ⟨rfl, rfl⟩ "" 0
    rcases replays with ⟨quiet, rest, silent, effects⟩
    refine ⟨quiet, rest, effects, ?_, ?_⟩
    · rw [List.foldl_append, foldl_tell_quiet silent, foldl_tell_input]
      decide +kernel
    · change tooMany.foldl Pressed.after (fun _ => false) (.key 30) = false
      decide +kernel

end Watch

end Syntra.Capture
