import Syntra.Capture.Touches

/-!
# Turns of the loop

Every turn of the loop of the capture task is an edit of the captures, moves with at most one
turning among them, and a change of the phase (`step_turns`).
-/

namespace Syntra.Capture

open Proto StateMachine Tables Handler
open Handler (ensures_bind ensures_task ensures_update)

namespace CaptureTask

variable {captures : List (CaptureHandle × Position × CaptureType)} {around : Surroundings}
  {sound : Prop} {reasons : Reasons} {handle : CaptureHandle}

theorem runs_noteMessage (event : ProtoEvent) :
    Runs captures around sound (noteMessage around handle event) := by
  unfold noteMessage
  split
  · exact .andThen (.emit trivial) fun _ => .ite (.emit trivial) (.pure ())
  · exact .pure ()

variable {before after : World} {stopped : Halt → World → Prop} {fingerprint : String} {α : Type}
  {change : CaptureTask → CaptureTask} {handler : Handler α}

theorem ensures_announceDeparture :
    announceDeparture.Ensures before
      (fun _ after => ∃ quiet : List CaptureEffect, (∀ effect ∈ quiet, effect.Quiet) ∧
        after = (before.1, before.2 ++ quiet)) stopped := by
  simp only [announceDeparture, ensures_bind, ensures_task]
  split
  · refine ⟨[_], ?_, rfl⟩
    exact List.forall_mem_singleton.mpr trivial
  · exact ⟨[], by simp, by simp⟩

theorem runs_acknowledge (active : before.1.activeClient = some handle)
    (waiting : before.1.state = .waitingForAck) (reason : reasons.acknowledges handle) :
    RunsAt captures around sound reasons (acknowledge handle) before := by
  intro _
  simp only [acknowledge, ensures_bind, ensures_task, ensures_update]
  apply ensures_announceDeparture.mono
  · rintro _ _ ⟨_, silent, rfl⟩
    apply ensures_each_emit.mono
    · rintro _ _ rfl
      exact .inr ⟨_, _, .refl, .acknowledge reason active waiting silent, .refl⟩
    · exact fun _ _ stops => stops
  · exact fun _ _ stops => stops

variable [FloatOps]

theorem runs_refuseHandoff (listed : sound → Listed captures handle) :
    Runs captures around sound (refuseHandoff around handle) :=
  (asks_getPos listed).runs.andThen fun _ => runs_releaseCapture.andThen fun _ => .emit trivial

variable {event : ProtoEvent} {input : CaptureInput} {task : CaptureTask}

theorem runs_handleActive (active : before.1.activeClient = some handle)
    (reason : ∀ serial, event = .ack serial → reasons.acknowledges handle)
    (hands : ∀ target side, event = .handoff target side → reasons.handsOver) :
    RunsAt captures around sound reasons (handleActive around handle event) before := by
  intro kept
  have listed : sound → Listed captures handle := fun holds => (kept holds).active handle active
  refine RunsAt.task ?_ kept
  cases event with
  | ack serial =>
    dsimp only
    split
    · rename_i waiting
      exact runs_acknowledge active waiting (reason serial rfl)
    · exact (Runs.pure ()).at before
  | leave => exact (runs_returnLocalPointer none).at before
  | leaveAt along => exact (runs_returnLocalPointer (some along)).at before
  | pong alive =>
    cases alive with
    | false => exact runs_releaseCapture.at before
    | true => exact (Runs.pure ()).at before
  | handoff =>
    dsimp only
    split
    · exact runs_handoff (hands _ _ rfl) active _ _
    · exact (runs_refuseHandoff listed).at before
  | _ => exact (Runs.pure ()).at before

theorem runs_answerActive (reason : ∀ serial, event = .ack serial → reasons.acknowledges handle)
    (hands : ∀ target side, event = .handoff target side → reasons.handsOver) (before : World) :
    RunsAt captures around sound reasons (answerActive around handle event) before := by
  refine .task ?_
  split
  · rename_i active
    exact runs_handleActive active reason hands
  · exact (Runs.pure ()).at before

theorem runs_handleMessage (reason : ∀ serial, event = .ack serial → reasons.acknowledges handle)
    (hands : ∀ target side, event = .handoff target side → reasons.handsOver)
    (never : ¬reasons.activates) (before : World) :
    RunsAt captures around sound reasons (handleMessage around handle fingerprint event)
      before := by
  refine .emitThen (.emit trivial) ?_
  split
  · exact .emit (.emit trivial)
  · refine (runs_noteMessage event).bind fun _ after _ => ?_
    exact (runs_answerActive reason hands after).andThen never fun _ => runs_syncCaptures

omit [FloatOps] in
theorem runs_handleCommon {request : CaptureRequest}
    (reason : ∀ handle event, request = .sendProto handle event → reasons.speaks handle event)
    (before : World) :
    RunsAt captures around sound reasons (handleCommon around request) before := by
  cases request with
  | setMultiHop | setSeparatePeerPointers | setEdgePressure | setReleaseBind =>
    rw [handleCommon]
    exact .update (.note (by constructor <;> rfl))
  | sendProto handle event =>
    intro _
    simp only [handleCommon, sendProtoEvent]
    split
    · exact .inr ⟨_, _, .refl, .say (reason handle event rfl), .refl⟩
    · exact .inl .refl
  | sendClipboard => exact .emit (.emit trivial)
  | _ => exact (Runs.pure ()).at before

theorem runs_handleRelease : Runs captures around sound (handleRelease around) := by
  refine .task fun _ => runs_clearPressure.andThen fun _ => ?_
  refine (runs_releaseCaptureAt _).andThen fun _ => ?_
  unfold placeAtLanding
  split
  · refine .andThen (.note fun _ => by constructor <;> rfl) fun _ => ?_
    exact .ite (.emit trivial) (.pure ())
  · exact .pure ()

theorem runs_setController (controller : Option (String × Position)) :
    Runs captures around sound (setController around controller) := by
  refine .task fun _ => .andThen (.note fun _ => by constructor <;> rfl) fun _ => ?_
  exact .ite runs_releaseCapture (.pure ())

theorem runs_releaseUnless (enabled : Bool) :
    Runs captures around sound (releaseUnless around enabled) :=
  .ite (.pure ()) runs_releaseCapture

theorem runs_setInputSharing (enabled : Bool) :
    Runs captures around sound (handleRequest around (.setInputSharing enabled)) :=
  .andThen (.note fun _ => by constructor <;> rfl) fun _ =>
    (runs_releaseUnless enabled).andThen fun _ => runs_syncCaptures

theorem ensures_releaseCapture (before : World) :
    (releaseCapture around).Ensures before (fun _ after => after.1.activeClient = none)
      fun _ _ => True := by
  rw [releaseCapture, ensures_bind]
  apply ensures_true.mono
  · intro _ cleared _
    rw [ensures_bind]
    apply (ensures_releaseCaptureAt none cleared).mono
    · rintro _ _ ⟨_, _, rfl⟩
      rfl
    · exact fun _ _ _ => trivial
  · exact fun _ _ _ => trivial

theorem runs_releaseAndStop :
    Runs captures around sound
      (releaseCapture around >>= fun _ => .stop .sessionOver : Handler Unit) := by
  intro before kept
  rw [ensures_bind]
  apply ((runs_releaseCapture before kept).and (ensures_releaseCapture before)).mono
  · exact fun _ _ ended => ⟨ended.1, nofun, fun _ => .inl ended.2⟩
  · exact fun _ _ stopped => stopped.1

def edited (task : CaptureTask) : CaptureInput → CaptureTask
  | .request (.create handle pos captureType) => task.addCapture handle pos captureType
  | .request (.destroy handle) => task.removeCapture handle
  | _ => task

/-- What may cause the turn of an input to be more than moves. -/
def reasonsOf (around : Surroundings) (task : CaptureTask) (input : CaptureInput) : Reasons where
  activates := ∃ handle event touch, input = .captured handle event ∧ touchOf event = some touch ∧
    Activates around task handle touch
  acknowledges handle := ∃ fingerprint serial, input = .message handle fingerprint (.ack serial)
  speaks handle event := input = .request (.sendProto handle event)
  handsOver := ∃ handle fingerprint target side,
    input = .message handle fingerprint (.handoff target side)
  holds := ∃ handle event, input = .captured handle (.input event) ∧ isHeld event = true

omit [FloatOps] in
theorem runs_reconnectLostPeers : Runs captures around sound (reconnectLostPeers around) :=
  .task fun _ => .each fun _ => .ite (.emit trivial) (.pure ())

omit [FloatOps] in
theorem ensures_legacyEntryRetry (before : World) :
    (legacyEntryRetry around).Ensures before
      (fun retry after => ∀ handle event, retry = some (handle, event) →
        after.1.activeClient = some handle ∧ IsEntry event) fun _ _ => True := by
  simp only [legacyEntryRetry, ensures_bind, ensures_task]
  split
  · simp
  · rename_i client active
    split
    · simp
    · rw [ensures_bind, ensures_update, ensures_bind]
      have asks : Asks [] False (entrySide client) fun _ _ => True := asks_entrySide False.elim
      apply (asks _ False.elim).mono
      · rintro side _ ⟨rfl, -⟩ _ _ ⟨⟩
        exact ⟨active, isEntry_enterEvent _ side⟩
      · exact fun _ _ _ => trivial

theorem runs_expireEntry : Runs captures around sound (expireEntry around) := by
  intro before kept
  rw [expireEntry, ensures_bind]
  apply ((runs_legacyEntryRetry before kept).and (ensures_legacyEntryRetry before)).mono
  · rintro _ after ⟨opened, active⟩
    refine RunsAt.onward opened.moves kept ?_
    split
    · rename_i handle event
      exact .emit (.enter (active handle event rfl).1 (active handle event rfl).2)
    · exact runs_releaseCapture.at after
  · exact fun _ _ stopped => stopped.1

theorem runs_handleAckDue : Runs captures around sound (handleAckDue around) :=
  .task fun _ => .ite runs_expireEntry (.pure ())

/-- The backend ends, which ends a session whatever its state. -/
def Ends : CaptureInput → Prop
  | .captureFailed | .captureEnded => True
  | _ => False

/-- Why a session ended, and what that says of the state it left. -/
structure Stops (around : Surroundings) (task : CaptureTask) (input : CaptureInput) (halt : Halt)
    (after : World) : Prop where
  lookup : halt = .noSuchCapture → ¬Kept (edited task input).captures (edited task input)
  call : halt ≠ .noSuchCapture → after.1.activeClient = none ∨
    around.CallFails ∧ task.activeClient ≠ none ∨ Ends input

def TurnsTo {α : Type} (around : Surroundings) (task : CaptureTask) (input : CaptureInput)
    (handler : Handler α) : Prop :=
  handler.Ensures (task, [])
    (fun _ after => Opened (edited task input).captures around (reasonsOf around task input)
      (edited task input, []) after)
    fun halt after => Opened (edited task input).captures around (reasonsOf around task input)
      (edited task input, []) after ∧ Stops around task input halt after

omit [FloatOps] in
@[simp]
theorem edited_activeClient (task : CaptureTask) (input : CaptureInput) :
    (edited task input).activeClient = task.activeClient := by
  unfold edited
  split <;> rfl

omit [FloatOps] in
theorem Halts.stops {task : CaptureTask} {input : CaptureInput} {halt : Halt} {after : World}
    (halts : Halts around (Kept (edited task input).captures (edited task input))
      (edited task input, []) halt after) : Stops around task input halt after := by
  refine ⟨halts.lookup, fun call => ?_⟩
  rcases halts.call call with idle | ⟨fails, active⟩
  · exact .inl idle
  · exact .inr (.inl ⟨fails, by simpa using active⟩)

theorem turnsTo_of_ensures (ensures : handler.Ensures (task, [])
      (fun _ after => Opened (edited task input).captures around (reasonsOf around task input)
        (edited task input, []) after)
      fun halt after => Opened (edited task input).captures around (reasonsOf around task input)
        (edited task input, []) after ∧
          Halts around (Kept (edited task input).captures (edited task input))
            (edited task input, []) halt after) : TurnsTo around task input handler := by
  apply ensures.mono
  · exact fun _ _ opened => opened
  · exact fun _ _ stopped => ⟨stopped.1, stopped.2.stops⟩

theorem TurnsTo.of_runs (same : edited task input = task)
    (runs : RunsAt task.captures around (Kept task.captures task) (reasonsOf around task input)
      handler (task, [])) : TurnsTo around task input handler := by
  apply turnsTo_of_ensures
  rw [same]
  exact runs id

theorem TurnsTo.of_edit {rest : Unit → Handler α} (edits : change task = edited task input)
    (runs : RunsAt (edited task input).captures around
      (Kept (edited task input).captures (edited task input)) (reasonsOf around task input)
      (rest ()) (edited task input, [])) :
    TurnsTo around task input (update change >>= rest) := by
  apply turnsTo_of_ensures
  rw [ensures_bind, ensures_update, edits]
  exact runs id

theorem TurnsTo.andThen {β : Type} {handler : Handler β} {next : β → Handler α}
    (first : TurnsTo around task input handler) (never : ¬(reasonsOf around task input).activates)
    (rest : ∀ value, Runs (edited task input).captures around
      (Kept (edited task input).captures (edited task input)) (next value)) :
    TurnsTo around task input (handler >>= next) := by
  rw [TurnsTo, ensures_bind]
  apply Ensures.mono first
  · intro value middle opened
    apply (rest value middle opened.kept).mono
    · exact fun _ after further => opened.followed further.moves
    · intro _ _ stopped
      refine ⟨opened.followed stopped.1.moves, stopped.2.lookup, fun call => ?_⟩
      rcases stopped.2.call call with idle | ⟨fails, active⟩
      · exact .inl idle
      · refine .inr (.inl ⟨fails, fun idle => active (opened.idle never ?_)⟩)
        simpa using idle
  · exact fun _ _ stopped => stopped

theorem turnsTo_createCapture {pos : Position} {captureType : CaptureType} :
    TurnsTo around task (.request (.create handle pos captureType))
      (createCapture handle pos captureType) :=
  .of_edit rfl ((Runs.ite (.emit (by trivial)) (.pure ())).at _)

theorem turnsTo_destroyCapture :
    TurnsTo around task (.request (.destroy handle)) (destroyCapture around handle) := by
  refine .of_edit rfl (.task ?_)
  split
  · exact (runs_releaseActive.andThen fun _ => runs_eraseBarrier).at _
  · exact (Runs.pure ()).at _

theorem never_activates (other : ∀ handle event, input ≠ .captured handle event) :
    ¬(reasonsOf around task input).activates := by
  rintro ⟨handle, event, _, same, -⟩
  exact other handle event same

variable (request : CaptureRequest)

theorem turnsTo_handleCommon (same : edited task (.request request) = task) :
    TurnsTo around task (.request request) (handleCommon around request) :=
  .of_runs same (runs_handleCommon (fun _ _ said => congrArg CaptureInput.request said) _)

theorem turnsTo_handleRequest :
    TurnsTo around task (.request request) (handleRequest around request) := by
  cases request with
  | create =>
    exact turnsTo_createCapture.andThen (never_activates (by simp)) fun _ => runs_syncCaptures
  | destroy => exact turnsTo_destroyCapture
  | reenable => exact .of_runs rfl ((Runs.pure ()).at _)
  | setBackend =>
    refine .of_runs rfl (.updateThen (.note (by constructor <;> rfl)) ?_)
    exact runs_releaseAndStop.at _
  | release => exact .of_runs rfl (runs_handleRelease.at _)
  | setController controller => exact .of_runs rfl ((runs_setController controller).at _)
  | setInputSharing enabled => exact .of_runs rfl ((runs_setInputSharing enabled).at _)
  | setMultiHop | setSeparatePeerPointers | setEdgePressure | setReleaseBind | sendProto |
    sendClipboard =>
      exact turnsTo_handleCommon _ rfl

theorem turnsTo_handleSession (input : CaptureInput) :
    TurnsTo around task input (handleSession around input) := by
  cases input with
  | captured handle event =>
    refine .of_runs rfl (runs_handleCaptureEvent rfl ?_ ?_)
    · rintro touch same press rfl held
      cases event with
      | input => exact ⟨handle, press, by cases same; rfl, held⟩
      | begin | entry | clipboard => cases same
    · exact fun touch same activates => ⟨handle, event, touch, rfl, same, activates⟩
  | captureFailed | captureEnded => exact ⟨.inl .refl, nofun, fun _ => .inr (.inr trivial)⟩
  | message _ fingerprint =>
    refine .of_runs rfl (runs_handleMessage ?_ ?_ (never_activates (by simp)) _)
    · rintro serial rfl
      exact ⟨fingerprint, serial, rfl⟩
    · rintro target side rfl
      exact ⟨_, fingerprint, target, side, rfl⟩
  | reconnect => exact .of_runs rfl (runs_reconnectLostPeers.at _)
  | ackDue => exact .of_runs rfl (runs_handleAckDue.at _)
  | request request => exact turnsTo_handleRequest request
  | cancelled => exact .of_runs rfl (runs_releaseAndStop.at _)
  | created | creationFailed | initializationTimedOut | entered =>
    exact .of_runs rfl ((Runs.pure ()).at _)

theorem turnsTo_handleInactiveRequest :
    TurnsTo around task (.request request) (handleInactiveRequest around request) := by
  cases request with
  | create =>
    exact turnsTo_createCapture.andThen (never_activates (by simp)) fun _ => .pure false
  | destroy => exact .of_edit rfl ((Runs.pure false).at _)
  | reenable => exact .of_runs rfl ((Runs.pure true).at _)
  | release => exact .of_runs rfl ((Runs.pure false).at _)
  | setBackend =>
    refine .of_runs rfl (.updateThen (.note (by constructor <;> rfl)) ?_)
    exact (Runs.pure true).at _
  | setController =>
    refine .of_runs rfl (.updateThen (.note (by constructor <;> rfl)) ?_)
    exact (runs_clearPressure.andThen fun _ => .pure false).at _
  | setInputSharing =>
    refine .of_runs rfl (.updateThen (.note (by constructor <;> rfl)) ?_)
    exact (Runs.pure false).at _
  | setMultiHop | setSeparatePeerPointers | setEdgePressure | setReleaseBind | sendProto |
    sendClipboard =>
      exact (turnsTo_handleCommon _ rfl).andThen (never_activates (by simp)) fun _ => .pure false

theorem turnsTo_handleInactiveMessage :
    TurnsTo around task (.message handle fingerprint event)
      (handleInactiveMessage around handle fingerprint event) := by
  refine .of_runs rfl (.emitThen (.emit (by trivial)) ?_)
  split
  · exact .emit (.emit (by trivial))
  · exact (runs_noteMessage event).at _

omit [FloatOps] in
@[simp]
theorem edited_state (task : CaptureTask) (input : CaptureInput) :
    (edited task input).state = task.state := by
  unfold edited
  split <;> rfl

omit [FloatOps] in
@[simp]
theorem edited_phase (task : CaptureTask) (input : CaptureInput) :
    (edited task input).phase = task.phase := by
  unfold edited
  split <;> rfl

theorem turnsTo_none (same : edited task input = task) :
    TurnsTo around task input (pure () : Handler Unit) :=
  .of_runs same ((Runs.pure ()).at _)

/-- Only the phase has changed, and whether capture is to start again. -/
def Rephased (task after : CaptureTask) : Prop :=
  ∃ phase restartNow, after = { task with phase := phase, restartNow := restartNow }

def Turn (around : Surroundings) (task : CaptureTask) (input : CaptureInput) (after : World) :
    Prop :=
  ∃ middle quiet, Opened (edited task input).captures around (reasonsOf around task input)
      (edited task input, []) middle ∧
    Rephased middle.1 after.1 ∧ (∀ effect ∈ quiet, effect.Quiet) ∧ after.2 = middle.2 ++ quiet

def TakesTurn (around : Surroundings) (task : CaptureTask) (input : CaptureInput)
    (handler : Handler Unit) : Prop :=
  handler.Ensures (task, []) (fun _ after => Turn around task input after)
    fun halt after => Opened (edited task input).captures around (reasonsOf around task input)
      (edited task input, []) after ∧ Stops around task input halt after

omit [FloatOps] in
theorem rephased_refl (task : CaptureTask) : Rephased task task :=
  ⟨task.phase, task.restartNow, rfl⟩

omit [FloatOps] in
theorem rephased_retire (task : CaptureTask) : Rephased task task.retire := by
  unfold retire
  split
  · exact ⟨.starting, false, rfl⟩
  · exact ⟨.inactive, task.restartNow, rfl⟩

theorem Turn.of_opened {middle : World} {after : CaptureTask}
    (opened : Opened (edited task input).captures around
      (reasonsOf around task input) (edited task input, []) middle)
    (rephased : Rephased middle.1 after) : Turn around task input (after, middle.2) :=
  ⟨middle, [], opened, rephased, by simp, by simp⟩

theorem TurnsTo.takes {handler : Handler Unit} (turns : TurnsTo around task input handler) :
    TakesTurn around task input handler :=
  turns.mono (fun _ after opened => .of_opened opened (rephased_refl after.1))
    fun _ _ stopped => stopped

theorem TurnsTo.rephase {change : α → CaptureTask → CaptureTask}
    (turns : TurnsTo around task input handler)
    (rephases : ∀ value task, Rephased task (change value task)) :
    TakesTurn around task input (handler >>= fun value => .update (change value)) := by
  rw [TakesTurn, ensures_bind]
  apply turns.mono
  · exact fun value after opened => .of_opened opened (rephases value after.1)
  · exact fun _ _ stopped => stopped

theorem takesTurn_update (same : edited task input = task)
    (rephased : Rephased task (change task)) :
    TakesTurn around task input (update change) := by
  have opened : Opened (edited task input).captures around (reasonsOf around task input)
      (edited task input, []) (task, []) := by
    rw [same]
    exact .inl .refl
  exact .of_opened opened rephased

theorem takesTurn_startSession (backend : CaptureBackend) :
    TakesTurn around task (.created backend) (startSession around backend) := by
  rw [TakesTurn, startSession, ensures_bind, ensures_emit, ensures_bind,
    ensures_update, ensures_bind]
  have prepared : Moves task.captures around (task, [])
      ({ task with enabledCaptures := ∅ }, [.report (.captureEnabled backend.display)]) :=
    .tail (.single (.emit (by trivial))) (.note (by constructor <;> rfl))
  apply (runs_syncCaptures.at _ |>.onward prepared id).mono
  · exact fun _ after opened => .of_opened opened ⟨.session, after.1.restartNow, rfl⟩
  · exact fun _ _ stopped => ⟨stopped.1, stopped.2.stops⟩

theorem takesTurn_handleStarting (input : CaptureInput) :
    TakesTurn around task input (handleStarting around input) := by
  cases input with
  | created backend => exact takesTurn_startSession backend
  | creationFailed | initializationTimedOut | cancelled =>
    exact takesTurn_update rfl (rephased_retire task)
  | request request =>
    refine (turnsTo_handleInactiveRequest request).rephase fun _ task => ?_
    split
    · exact rephased_retire task
    · exact rephased_refl task
  | message => exact turnsTo_handleInactiveMessage.takes
  | reconnect => exact (TurnsTo.of_runs rfl (runs_reconnectLostPeers.at _)).takes
  | captured | captureFailed | captureEnded | ackDue | entered => exact (turnsTo_none rfl).takes

theorem takesTurn_handleInactive (input : CaptureInput) :
    TakesTurn around task input (handleInactive around input) := by
  cases input with
  | request request =>
    refine (turnsTo_handleInactiveRequest request).rephase fun _ task => ?_
    split
    · exact ⟨.starting, task.restartNow, rfl⟩
    · exact rephased_refl task
  | message => exact turnsTo_handleInactiveMessage.takes
  | reconnect => exact (TurnsTo.of_runs rfl (runs_reconnectLostPeers.at _)).takes
  | cancelled =>
    rw [handleInactive]
    exact takesTurn_update rfl ⟨.ended, task.restartNow, rfl⟩
  | created | creationFailed | initializationTimedOut | captured | captureFailed | captureEnded |
    ackDue | entered => exact (turnsTo_none rfl).takes

omit [FloatOps] in
theorem agrees_share (task : CaptureTask) (lastEntry : Option (Position × ℕ))
    (landingAlong : Option F32) :
    task.Agrees { task with lastEntry := lastEntry, landingAlong := landingAlong } := by
  constructor <;> rfl

theorem takesTurn_handle (live : task.phase ≠ .ended) (input : CaptureInput) :
    TakesTurn around task input (CaptureTask.handle around task.phase input) := by
  have phase : TakesTurn around task input (handlePhase around task.phase input) := by
    cases at_ : task.phase with
    | starting => exact takesTurn_handleStarting input
    | session => exact (turnsTo_handleSession input).takes
    | inactive => exact takesTurn_handleInactive input
    | ended => exact absurd at_ live
  cases input with
  | entered lastEntry landingAlong =>
    have turns : TurnsTo around task (.entered lastEntry landingAlong)
        (share lastEntry landingAlong) :=
      .of_runs rfl (.update (.note (agrees_share task lastEntry landingAlong)))
    exact turns.takes
  | _ => exact phase

omit [FloatOps] in
theorem rephased_conclude (halt : Halt) : Rephased after.1 (conclude after halt).1 := by
  cases halt with
  | noSuchCapture => exact ⟨.ended, after.1.restartNow, rfl⟩
  | captureError | sessionOver => exact rephased_retire after.1

theorem conclude_turns {halt : Halt}
    (opened : Opened (edited task input).captures around (reasonsOf around task input)
      (edited task input, []) after) : Turn around task input (conclude after halt) := by
  cases halt with
  | noSuchCapture => exact .of_opened opened (rephased_conclude .noSuchCapture)
  | captureError | sessionOver =>
    refine ⟨after, [.terminate, .report .captureDisabled], opened, rephased_retire after.1, ?_, rfl⟩
    intro _ member
    rcases List.mem_pair.mp member with rfl | rfl <;> trivial

theorem step_of_ensures {post : Unit → World → Prop} (holds : World → Prop)
    (ensures : (CaptureTask.handle around task.phase input).Ensures (task, []) post stopped)
    (ends : ∀ after, post () after → holds after)
    (stops : ∀ halt after, stopped halt after → holds (conclude after halt)) :
    holds (step task (around, input)) := by
  unfold Ensures at ensures
  unfold step
  split at ensures
  · rename_i ended
    rw [ended]
    exact ends _ ensures
  · rename_i halted
    rw [halted]
    exact stops _ _ ensures

theorem step_turns (live : task.phase ≠ .ended) (input : CaptureInput) :
    Turn around task input (step task (around, input)) :=
  step_of_ensures (Turn around task input) (takesTurn_handle live input) (fun _ turn => turn)
    fun _ _ stopped => conclude_turns stopped.1

theorem step_ended (ended : task.phase = .ended) (input : CaptureInput) :
    ∃ after, task.Agrees after ∧ step task (around, input) = (after, []) := by
  unfold step
  rw [ended]
  cases input with
  | entered lastEntry landingAlong =>
    exact ⟨_, agrees_share task lastEntry landingAlong, rfl⟩
  | _ => exact ⟨task, by constructor <;> rfl, rfl⟩

theorem step_keeps (holds : World → Prop) (rests : ∀ after, task.Agrees after → holds (after, []))
    (start : holds (edited task input, []))
    (each : ∀ ⦃before after⦄, Move (edited task input).captures around before after →
      holds before → holds after) (turns : ∀ ⦃before after⦄,
      Turning (edited task input).captures (reasonsOf around task input) before after →
        holds before → holds after)
    (closes : ∀ ⦃middle : World⦄ ⦃after quiet⦄, Rephased middle.1 after →
      (∀ effect ∈ quiet, effect.Quiet) → holds middle → holds (after, middle.2 ++ quiet)) :
    holds (step task (around, input)) := by
  by_cases ended : task.phase = .ended
  · have rest : ∃ after, task.Agrees after ∧ step task (around, input) = (after, []) :=
      step_ended ended input
    rcases rest with ⟨after, agrees, same⟩
    rw [same]
    exact rests after agrees
  · have turn : Turn around task input (step task (around, input)) := step_turns ended input
    rcases turn with ⟨_, _, opened, rephased, silent, emitted⟩
    have closed := closes rephased silent (opened.keeps each turns start)
    rw [← emitted] at closed
    exact closed

end CaptureTask

end Syntra.Capture
