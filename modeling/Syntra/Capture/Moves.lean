import Syntra.Capture.Session

/-!
# The moves of the capture task

Every handler of the capture task is made of few moves: it notes something, has an effect that is of
no interest to the control of the peers, starts or ends the measure of a push, lets a client go or
sends input. A turn of the loop is a sequence of such moves, with at most one turning among them: a
client is activated or acknowledges its entry, the pointer is handed over, or input is held.
-/

namespace Syntra.Capture

open Proto StateMachine Handler

abbrev World := CaptureTask × List CaptureEffect

/-- Nothing that concerns who is in control. -/
def CaptureEffect.Quiet : CaptureEffect → Prop
  | .send .. | .cleanupTimedOut _ | .report (.clientEntered _) => False
  | _ => True

/-- A message by which a peer asks to move its pointer onto this screen. -/
def IsEntry : ProtoEvent → Prop
  | .enter _ | .enterAt .. | .enterVia .. => True
  | _ => False

/-- A call of the backend fails that does not end the control of a peer. -/
def Surroundings.CallFails (around : Surroundings) : Prop :=
  ∃ operation, around.failure = some operation ∧ operation ≠ .release

namespace CaptureTask

/-- Two states agree on the control of the peers, the push that is measured and the captures. -/
structure Agrees (task after : CaptureTask) : Prop where
  activeClient : after.activeClient = task.activeClient
  ackDeadline : after.ackDeadline = task.ackDeadline
  heldUntilAck : after.heldUntilAck = task.heldUntilAck
  state : after.state = task.state
  localDeparture : after.localDeparture = task.localDeparture
  pressure : after.pressure = task.pressure
  captures : after.captures = task.captures
  phase : after.phase = task.phase

def released (task : CaptureTask) : CaptureTask :=
  { task with
    landingAlong := none
    localDeparture := none
    ackDeadline := none
    heldUntilAck := []
    state := .waitingForAck
    activeClient := none }

def handedOver (task : CaptureTask) (next : CaptureHandle) (deadline : ℕ) : CaptureTask :=
  { task with
    state := .waitingForAck
    ackDeadline := some deadline
    heldUntilAck := []
    activeClient := some next }

def activated (task : CaptureTask) (handle : CaptureHandle) (pos : Position) (deadline : ℕ) :
    CaptureTask :=
  { task with
    state := .waitingForAck
    legacyEntry := false
    ackDeadline := some deadline
    localDeparture := some (pos, task.entryAlong)
    activeClient := some handle }

/-- The release of a peer is cut off by `REMOTE_RELEASE_TIMEOUT`, before its `Leave` is sent. -/
def CutsOff (around : Surroundings) : Prop :=
  ∃ limit < (cleanupEvents around).length, around.cleanupLimit = some limit

def farewell (around : Surroundings) : Option CaptureHandle → List CaptureEffect
  | none => []
  | some handle =>
    let events := cleanupEvents around
    let limit := around.cleanupLimit.getD events.length
    (events.take limit).map (.send handle) ++
      if limit < events.length then [.cleanupTimedOut handle] else []

def Listed (captures : List (CaptureHandle × Position × CaptureType)) (handle : CaptureHandle) :
    Prop :=
  ∃ capture ∈ captures, capture.1 = handle

/-- One move, with `captures` those that a push may be measured on. -/
inductive Move (captures : List (CaptureHandle × Position × CaptureType)) (around : Surroundings) :
    World → World → Prop
  | note {task after : CaptureTask} {log : List CaptureEffect} (agrees : task.Agrees after) :
      Move captures around (task, log) (after, log)
  | emit {task : CaptureTask} {log : List CaptureEffect} {effect : CaptureEffect}
      (quiet : effect.Quiet) : Move captures around (task, log) (task, log ++ [effect])
  | arm {task : CaptureTask} {log : List CaptureEffect} {handle : CaptureHandle} (soFar : F64)
      (since : ℕ) (listed : Listed captures handle) :
      Move captures around (task, log) ({ task with pressure := some (handle, soFar, since) }, log)
  | disarm {task : CaptureTask} {log : List CaptureEffect} :
      Move captures around (task, log) ({ task with pressure := none }, log)
  | release {task : CaptureTask} {log quiet : List CaptureEffect}
      (silent : ∀ effect ∈ quiet, effect.Quiet) :
      Move captures around (task, log)
        (task.released, log ++ quiet ++ farewell around task.activeClient)
  | refuse {task : CaptureTask} {log : List CaptureEffect} (handle : CaptureHandle)
      (target : String) (side : Position) :
      Move captures around (task, log) (task, log ++ [.send handle (.handoff target side)])
  | enter {task : CaptureTask} {log : List CaptureEffect} {handle : CaptureHandle}
      {event : ProtoEvent} (active : task.activeClient = some handle) (entry : IsEntry event) :
      Move captures around (task, log) (task, log ++ [.send handle event])
  | forward {task : CaptureTask} {log : List CaptureEffect} {handle : CaptureHandle}
      {event : InputEvent} (active : task.activeClient = some handle)
      (sending : task.state = .sending) :
      Move captures around (task, log) (task, log ++ [.send handle (.input event)])
  | retry {task : CaptureTask} {log : List CaptureEffect} (deadline : ℕ)
      (active : task.activeClient ≠ none) (waiting : task.state = .waitingForAck) :
      Move captures around (task, log)
        ({ task with legacyEntry := true, ackDeadline := some deadline }, log)

/-- What may cause a turn of the loop to be more than moves. -/
structure Reasons where
  /-- A touch of an edge activates its client. -/
  activates : Prop
  /-- A client acknowledges its entry. -/
  acknowledges : CaptureHandle → Prop
  /-- The service has something said to a peer. -/
  speaks : CaptureHandle → ProtoEvent → Prop
  /-- A client hands the pointer over. -/
  handsOver : Prop
  /-- A press is brought. -/
  holds : Prop

def Reasons.none : Reasons where
  activates := False
  acknowledges _ := False
  speaks _ _ := False
  handsOver := False
  holds := False

def acknowledged (task : CaptureTask) : CaptureTask :=
  { task with
    enteringVia := none
    entryAlong := none
    state := .sending
    ackDeadline := none
    heldUntilAck := [] }

/-- One move that can change the active client, for the reasons given. -/
inductive Turning (captures : List (CaptureHandle × Position × CaptureType)) (reasons : Reasons) :
    World → World → Prop
  | activate {task : CaptureTask} {log : List CaptureEffect} {handle : CaptureHandle}
      (pos : Position) (deadline : ℕ) (reason : reasons.activates)
      (other : task.activeClient ≠ some handle) (listed : Listed captures handle) :
      Turning captures reasons (task, log)
        (task.activated handle pos deadline, log ++ [.report (.clientEntered handle)])
  | acknowledge {task : CaptureTask} {log quiet : List CaptureEffect} {handle : CaptureHandle}
      (reason : reasons.acknowledges handle) (active : task.activeClient = some handle)
      (waiting : task.state = .waitingForAck) (silent : ∀ effect ∈ quiet, effect.Quiet) :
      Turning captures reasons (task, log)
        (task.acknowledged, log ++ quiet ++
          task.heldUntilAck.map fun event => .send handle (.input event))
  | say {task : CaptureTask} {log : List CaptureEffect} {handle : CaptureHandle}
      {event : ProtoEvent} (reason : reasons.speaks handle event) :
      Turning captures reasons (task, log) (task, log ++ [.send handle event])
  | handOver {task : CaptureTask} {log : List CaptureEffect} {source next : CaptureHandle}
      (deadline : ℕ) (reason : reasons.handsOver) (active : task.activeClient = some source)
      (other : next ≠ source) (listed : Listed task.captures next) :
      Turning captures reasons (task, log)
        (task.handedOver next deadline,
          log ++ [.send source (.leave 0)] ++ [.report (.clientEntered next)])
  | hold {task : CaptureTask} {log : List CaptureEffect} {event : InputEvent}
      (reason : reasons.holds) (active : task.activeClient ≠ none)
      (waiting : task.state = .waitingForAck)
      (room : task.heldUntilAck.length < maxHeldUntilAck) :
      Turning captures reasons (task, log)
        ({ task with heldUntilAck := task.heldUntilAck ++ [event] }, log)

abbrev Moves (captures : List (CaptureHandle × Position × CaptureType)) (around : Surroundings) :
    World → World → Prop :=
  Relation.ReflTransGen (Move captures around)

def Opened (captures : List (CaptureHandle × Position × CaptureType)) (around : Surroundings)
    (reasons : Reasons) (start after : World) : Prop :=
  Moves captures around start after ∨
    ∃ before turned, Moves captures around start before ∧
      Turning captures reasons before turned ∧ Moves captures around turned after

/-- The captures have not changed, and what refers to a capture refers to one of them. -/
structure Kept (captures : List (CaptureHandle × Position × CaptureType)) (task : CaptureTask) :
    Prop where
  same : task.captures = captures
  pressure : ∀ measured, task.pressure = some measured → Listed captures measured.1
  active : ∀ handle, task.activeClient = some handle → Listed captures handle

variable {captures : List (CaptureHandle × Position × CaptureType)} {around : Surroundings}
  {start before after : World}

theorem farewell_told (inTime : ¬CutsOff around) (handle : CaptureHandle) :
    .send handle (.leave 0) ∈ farewell around (some handle) := by
  have enough : (cleanupEvents around).length ≤
      around.cleanupLimit.getD (cleanupEvents around).length := by
    cases limited : around.cleanupLimit with
    | none => exact le_rfl
    | some limit => exact Nat.not_lt.mp fun cut => inTime ⟨limit, cut, limited⟩
  simp only [farewell, List.take_of_length_le enough]
  simp [cleanupEvents]

theorem Move.kept (move : Move captures around before after) (kept : Kept captures before.1) :
    Kept captures after.1 := by
  cases move with
  | note agrees =>
    refine ⟨agrees.captures.trans kept.same, ?_, ?_⟩
    · intro measured arms
      exact kept.pressure measured (agrees.pressure.symm.trans arms)
    · intro handle active
      exact kept.active handle (agrees.activeClient.symm.trans active)
  | arm _ _ listed =>
    refine ⟨kept.same, ?_, kept.active⟩
    rintro _ ⟨⟩
    exact listed
  | disarm => exact ⟨kept.same, nofun, kept.active⟩
  | release => exact ⟨kept.same, kept.pressure, nofun⟩
  | retry => exact ⟨kept.same, kept.pressure, kept.active⟩
  | emit | refuse | enter | forward => exact kept

variable {reasons : Reasons}

theorem Turning.kept (turning : Turning captures reasons before after)
    (kept : Kept captures before.1) : Kept captures after.1 := by
  cases turning with
  | activate _ _ _ _ listed =>
    refine ⟨kept.same, kept.pressure, ?_⟩
    rintro _ ⟨⟩
    exact listed
  | acknowledge | hold => exact ⟨kept.same, kept.pressure, kept.active⟩
  | say => exact kept
  | handOver _ _ _ _ listed =>
    refine ⟨kept.same, kept.pressure, ?_⟩
    rintro _ ⟨⟩
    rw [← kept.same]
    exact listed

theorem Move.idle (move : Move captures around before after)
    (idle : before.1.activeClient = none) : after.1.activeClient = none := by
  cases move with
  | note agrees => exact agrees.activeClient.trans idle
  | release => rfl
  | arm | disarm | retry | emit | refuse | enter | forward => exact idle

theorem Moves.keeps {holds : World → Prop} (moves : Moves captures around before after)
    (each : ∀ ⦃before after⦄, Move captures around before after → holds before → holds after)
    (start : holds before) : holds after := by
  induction moves with
  | refl => exact start
  | tail _ move ih => exact each move ih

theorem Opened.keeps {holds : World → Prop} (opened : Opened captures around reasons before after)
    (each : ∀ ⦃before after⦄, Move captures around before after → holds before → holds after)
    (turns : ∀ ⦃before after⦄, Turning captures reasons before after → holds before → holds after)
    (start : holds before) : holds after := by
  rcases opened with moves | ⟨_, _, first, turning, rest⟩
  · exact moves.keeps each start
  · exact rest.keeps each (turns turning (first.keeps each start))

theorem Moves.kept (moves : Moves captures around before after) (kept : Kept captures before.1) :
    Kept captures after.1 :=
  moves.keeps (fun _ _ move => move.kept) kept

theorem Moves.idle (moves : Moves captures around before after)
    (idle : before.1.activeClient = none) : after.1.activeClient = none :=
  moves.keeps (fun _ _ move => move.idle) idle

theorem Opened.kept (opened : Opened captures around reasons before after)
    (kept : Kept captures before.1) : Kept captures after.1 :=
  opened.keeps (fun _ _ move => move.kept) (fun _ _ turning => turning.kept) kept

theorem Opened.preceded (moves : Moves captures around start before)
    (opened : Opened captures around reasons before after) :
    Opened captures around reasons start after := by
  rcases opened with further | ⟨_, _, first, turning, rest⟩
  · exact .inl (moves.trans further)
  · exact .inr ⟨_, _, moves.trans first, turning, rest⟩

/-- What is known where a handler stops. A missing lookup is not to blame on a task that remembers
only captures that are there (`sound`), and a call that fails leaves no client active, unless it is
one that ends no control. -/
structure Halts (around : Surroundings) (sound : Prop) (before : World) (halt : Halt)
    (after : World) : Prop where
  lookup : halt = .noSuchCapture → ¬sound
  call : halt ≠ .noSuchCapture → after.1.activeClient = none ∨
    around.CallFails ∧ before.1.activeClient ≠ none

variable (captures around) in
/-- From a state a handler makes moves, with at most one turning. -/
def RunsAt {α : Type} (sound : Prop) (reasons : Reasons) (handler : Handler α) (before : World) :
    Prop :=
  (sound → Kept captures before.1) →
    handler.Ensures before (fun _ after => Opened captures around reasons before after)
      fun halt after => Opened captures around reasons before after ∧
        Halts around sound before halt after

variable (captures around) in
/-- From every state a handler makes moves only. -/
def Runs {α : Type} (sound : Prop) (handler : Handler α) : Prop :=
  ∀ before, RunsAt captures around sound .none handler before

variable {sound : Prop} {reasons : Reasons} {α β : Type}

theorem Opened.moves (opened : Opened captures around .none before after) :
    Moves captures around before after := by
  rcases opened with moves | ⟨_, _, -, turning, -⟩
  · exact moves
  · cases turning with
    | activate _ _ reason | acknowledge reason | say reason | handOver _ reason | hold reason =>
      exact reason.elim

theorem Opened.followed (opened : Opened captures around reasons start before)
    (moves : Moves captures around before after) : Opened captures around reasons start after := by
  rcases opened with earlier | ⟨_, _, first, turning, later⟩
  · exact .inl (earlier.trans moves)
  · exact .inr ⟨_, _, first, turning, later.trans moves⟩

theorem Turning.idle (turning : Turning captures reasons before after)
    (never : ¬reasons.activates) (idle : before.1.activeClient = none) :
    after.1.activeClient = none := by
  cases turning with
  | activate _ _ reason => exact absurd reason never
  | acknowledge | say | hold => exact idle
  | handOver _ _ active => exact absurd (idle.symm.trans active) (by simp)

theorem Opened.idle (opened : Opened captures around reasons before after)
    (never : ¬reasons.activates) (idle : before.1.activeClient = none) :
    after.1.activeClient = none :=
  opened.keeps (fun _ _ move => move.idle) (fun _ _ turning => turning.idle never) idle

theorem Opened.weaken (opened : Opened captures around .none before after) :
    Opened captures around reasons before after :=
  .inl opened.moves

theorem Halts.preceded {halt : Halt} (moves : Moves captures around start before)
    (halts : Halts around sound before halt after) : Halts around sound start halt after := by
  refine ⟨halts.lookup, fun call => ?_⟩
  rcases halts.call call with idle | ⟨fails, active⟩
  · exact .inl idle
  · exact .inr ⟨fails, fun idle => active (moves.idle idle)⟩

theorem RunsAt.onward {handler : Handler α} (moves : Moves captures around start before)
    (kept : sound → Kept captures start.1)
    (runs : RunsAt captures around sound reasons handler before) :
    handler.Ensures before (fun _ after => Opened captures around reasons start after)
      fun halt after => Opened captures around reasons start after ∧
        Halts around sound start halt after := by
  apply (runs fun holds => moves.kept (kept holds)).mono
  · exact fun _ _ opened => opened.preceded moves
  · exact fun _ _ stopped => ⟨stopped.1.preceded moves, stopped.2.preceded moves⟩

/-- After a turning only moves follow. -/
theorem RunsAt.followsTurning {handler : Handler α}
    (opened : Opened captures around reasons start before) (active : start.1.activeClient ≠ none)
    (kept : sound → Kept captures start.1)
    (runs : RunsAt captures around sound .none handler before) :
    handler.Ensures before (fun _ after => Opened captures around reasons start after)
      fun halt after => Opened captures around reasons start after ∧
        Halts around sound start halt after := by
  apply (runs fun holds => opened.kept (kept holds)).mono
  · exact fun _ _ further => opened.followed further.moves
  · intro _ _ stopped
    refine ⟨opened.followed stopped.1.moves, stopped.2.lookup, fun call => ?_⟩
    exact (stopped.2.call call).imp_right fun fails => ⟨fails.1, active⟩

theorem Runs.at {handler : Handler α} (runs : Runs captures around sound handler)
    (before : World) : RunsAt captures around sound reasons handler before := by
  intro kept
  apply (runs before kept).mono
  · exact fun _ _ opened => opened.weaken
  · exact fun _ _ stopped => ⟨stopped.1.weaken, stopped.2⟩

variable {next : β → Handler α}

theorem Runs.bind {handler : Handler β} (first : Runs captures around sound handler)
    (rest : ∀ value after, Moves captures around before after →
      RunsAt captures around sound reasons (next value) after) :
    RunsAt captures around sound reasons (handler >>= next) before := by
  intro kept
  rw [ensures_bind]
  apply (first before kept).mono
  · intro value after opened
    exact (rest value after opened.moves).onward opened.moves kept
  · exact fun _ _ stopped => ⟨stopped.1.weaken, stopped.2⟩

theorem Runs.andThen {handler : Handler β} (first : Runs captures around sound handler)
    (rest : ∀ value, Runs captures around sound (next value)) :
    Runs captures around sound (handler >>= next) :=
  fun _ => first.bind fun value after _ => rest value after

theorem RunsAt.andThen {handler : Handler β}
    (first : RunsAt captures around sound reasons handler before) (never : ¬reasons.activates)
    (rest : ∀ value, Runs captures around sound (next value)) :
    RunsAt captures around sound reasons (handler >>= next) before := by
  intro kept
  rw [ensures_bind]
  apply (first kept).mono
  · intro value middle opened
    apply (rest value middle fun holds => opened.kept (kept holds)).mono
    · exact fun _ after further => opened.followed further.moves
    · intro _ _ stopped
      refine ⟨opened.followed stopped.1.moves, stopped.2.lookup, fun call => ?_⟩
      rcases stopped.2.call call with idle | ⟨fails, active⟩
      · exact .inl idle
      · exact .inr ⟨fails, fun idle => active (opened.idle never idle)⟩
  · exact fun _ _ stopped => stopped

theorem Runs.pure (value : α) : Runs captures around sound (Pure.pure value : Handler α) :=
  fun _ _ => .inl .refl

theorem Runs.ite {condition : Prop} [Decidable condition] {yes no : Handler α}
    (first : Runs captures around sound yes) (second : Runs captures around sound no) :
    Runs captures around sound (if condition then yes else no) := by
  split
  · exact first
  · exact second

theorem RunsAt.task {next : CaptureTask → Handler α}
    (rest : RunsAt captures around sound reasons (next before.1) before) :
    RunsAt captures around sound reasons (task >>= next) before := by
  intro kept
  exact rest kept

theorem Runs.task {next : CaptureTask → Handler α}
    (rest : ∀ task, Runs captures around sound (next task)) :
    Runs captures around sound (task >>= next) :=
  fun before => .task (rest before.1 before)

variable {change : CaptureTask → CaptureTask}

theorem RunsAt.update (move : Move captures around before (change before.1, before.2)) :
    RunsAt captures around sound reasons (update change) before :=
  fun _ => .inl (.single move)

variable {effect : CaptureEffect}

theorem RunsAt.emit (move : Move captures around before (before.1, before.2 ++ [effect])) :
    RunsAt captures around sound reasons (emit effect) before :=
  fun _ => .inl (.single move)

theorem RunsAt.updateThen {next : Unit → Handler α}
    (move : Move captures around before (change before.1, before.2))
    (rest : RunsAt captures around sound reasons (next ()) (change before.1, before.2)) :
    RunsAt captures around sound reasons (Handler.update change >>= next) before := by
  intro kept
  rw [ensures_bind, ensures_update]
  exact rest.onward (.single move) kept

theorem RunsAt.emitThen {next : Unit → Handler α}
    (move : Move captures around before (before.1, before.2 ++ [effect]))
    (rest : RunsAt captures around sound reasons (next ()) (before.1, before.2 ++ [effect])) :
    RunsAt captures around sound reasons (Handler.emit effect >>= next) before := by
  intro kept
  rw [ensures_bind, ensures_emit]
  exact rest.onward (.single move) kept

variable (captures) in
/-- A question does not change the task, and its answer is one that the state gives. -/
def Asks {α : Type} (sound : Prop) (handler : Handler α) (answers : CaptureTask → α → Prop) :
    Prop :=
  ∀ before : World, (sound → Kept captures before.1) →
    handler.Ensures before (fun value after => after = before ∧ answers before.1 value)
      fun halt after => after = before ∧ halt = .noSuchCapture ∧ ¬sound

section Asks

variable {handler : Handler β} {answers : CaptureTask → β → Prop}

variable (asks : Asks captures sound handler answers)
include asks

theorem Asks.runs : Runs captures around sound handler := by
  intro before kept
  apply (asks before kept).mono
  · rintro _ _ ⟨rfl, -⟩
    exact .inl .refl
  · rintro _ _ ⟨rfl, rfl, unsound⟩
    exact ⟨.inl .refl, fun _ => unsound, fun other => absurd rfl other⟩

theorem Asks.bind (rest : ∀ value, answers before.1 value →
      RunsAt captures around sound reasons (next value) before) :
    RunsAt captures around sound reasons (handler >>= next) before := by
  intro kept
  rw [ensures_bind]
  apply (asks before kept).mono
  · rintro value _ ⟨rfl, given⟩
    exact rest value given kept
  · rintro _ _ ⟨rfl, rfl, unsound⟩
    exact ⟨.inl .refl, fun _ => unsound, fun other => absurd rfl other⟩

theorem Asks.mono {weaker : CaptureTask → β → Prop}
    (weakens : ∀ task value, answers task value → weaker task value) :
    Asks captures sound handler weaker :=
  fun before kept => (asks before kept).mono
    (fun _ _ given => ⟨given.1, weakens _ _ given.2⟩) fun _ _ stopped => stopped

omit asks in
theorem Asks.pure {value : β} (given : ∀ task, answers task value) :
    Asks captures sound (Pure.pure value : Handler β) answers :=
  fun before _ => ⟨rfl, given before.1⟩

omit asks in
theorem Asks.task {next : CaptureTask → Handler β}
    (rest : ∀ task, Asks captures sound (next task) fun present value =>
      present = task → answers present value) :
    Asks captures sound (task >>= next) answers := by
  intro before kept
  apply (rest before.1 before kept).mono
  · exact fun _ _ given => ⟨given.1, given.2 rfl⟩
  · exact fun _ _ stopped => stopped

theorem Asks.andThen {further : CaptureTask → α → Prop}
    (rest : ∀ value, Asks captures sound (next value) fun task final =>
      answers task value → further task final) :
    Asks captures sound (handler >>= next) further := by
  intro before kept
  rw [ensures_bind]
  apply (asks before kept).mono
  · rintro value _ ⟨rfl, given⟩
    apply (rest value _ kept).mono
    · exact fun _ _ final => ⟨final.1, final.2 given⟩
    · exact fun _ _ stopped => stopped
  · exact fun _ _ stopped => stopped

end Asks

theorem Runs.note (agrees : ∀ task : CaptureTask, task.Agrees (change task)) :
    Runs captures around sound (update change) :=
  fun before => .update (.note (agrees before.1))

theorem Runs.emit (quiet : effect.Quiet) : Runs captures around sound (emit effect) :=
  fun _ => .emit (.emit quiet)

theorem Runs.each {list : List β} {body : β → Handler Unit}
    (turn : ∀ element, Runs captures around sound (body element)) :
    Runs captures around sound (each list body) := by
  induction list with
  | nil => exact .pure ()
  | cons element _ ih => exact (turn element).andThen fun _ => ih

end CaptureTask

end Syntra.Capture
