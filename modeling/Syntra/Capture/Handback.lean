import Syntra.Capture.Lookups

/-!
# Handing control back

A client that stops being the active one is told to let go. Four things break this: a touch of
another edge that activates its client at once, the end of what the backend delivers, a call of the
backend that fails while a client is active, and a release that takes too long to reach the client.
A session without them hands control back whatever happens (`hands_back`).
-/

namespace Syntra.Capture

open Proto StateMachine
open Handler (ensures_bind ensures_task ensures_update ensures_emit)

namespace CaptureTask

variable {captures : List (CaptureHandle × Position × CaptureType)} {around : Surroundings}
  {sound : Prop} {reasons : Reasons} {handle client : CaptureHandle} {before after : World}

/-- A `Leave` is sent to the client. -/
def Told (client : CaptureHandle) (effects : List CaptureEffect) : Prop :=
  .send client (.leave 0) ∈ effects

/-- The client is still the active one, or has been told. -/
def Handed (client : CaptureHandle) (world : World) : Prop :=
  world.1.activeClient = some client ∨ Told client world.2

theorem Told.append {effects : List CaptureEffect} (told : Told client effects)
    (more : List CaptureEffect) : Told client (effects ++ more) :=
  List.mem_append_left more told

variable {task : CaptureTask} {input : CaptureInput} {log : List CaptureEffect}

theorem Handed.emits {later : CaptureTask} (handed : Handed client (task, log))
    (same : later.activeClient = task.activeClient) (more : List CaptureEffect) :
    Handed client (later, log ++ more) :=
  handed.imp (fun active => same.trans active) fun told => told.append more

theorem Handed.rests {later : CaptureTask} (handed : Handed client (task, log))
    (same : later.activeClient = task.activeClient) :
    Handed client (later, log) :=
  handed.imp_left fun active => same.trans active

theorem Handed.released (inTime : ¬CutsOff around) (handed : Handed client (task, log)) :
    Handed client (task.released, log ++ farewell around task.activeClient) := by
  right
  rcases handed with active | told
  · rw [show task.activeClient = some client from active]
    exact List.mem_append_right log (farewell_told inTime client)
  · exact told.append _

theorem Move.handed (move : Move captures around before after) (inTime : ¬CutsOff around)
    (handed : Handed client before) : Handed client after := by
  cases move with
  | note agrees => exact handed.rests agrees.activeClient
  | emit | refuse | enter | forward => exact handed.emits rfl _
  | arm | disarm | retry => exact handed.rests rfl
  | release =>
    rename_i task log quiet silent
    have emitted : Handed client (task, log ++ quiet) := handed.emits rfl quiet
    exact emitted.released inTime

theorem Turning.handed (turning : Turning captures reasons before after)
    (never : ¬reasons.activates) (handed : Handed client before) : Handed client after := by
  cases turning with
  | activate _ _ reason => exact absurd reason never
  | acknowledge =>
    rw [List.append_assoc]
    exact handed.emits rfl _
  | say => exact handed.emits rfl _
  | handOver _ _ active =>
    right
    rcases handed with same | told
    · obtain rfl : _ = client := Option.some.inj (active.symm.trans same)
      simp [Told]
    · exact (told.append _).append _
  | hold => exact handed.rests rfl

theorem Move.phase (move : Move captures around before after) : after.1.phase = before.1.phase := by
  cases move with
  | note agrees => exact agrees.phase
  | _ => rfl

theorem Turning.phase (turning : Turning captures reasons before after) :
    after.1.phase = before.1.phase := by
  cases turning <;> rfl

theorem Opened.phase (opened : Opened captures around reasons before after) :
    after.1.phase = before.1.phase :=
  opened.keeps (fun _ _ move same => move.phase.trans same)
    (fun _ _ turning same => turning.phase.trans same) rfl

/-- A handler lets the client go, also where it stops, unless a lookup is missed. -/
def LeavesIdle {α : Type} (handler : Handler α) (before : World) : Prop :=
  handler.Ensures before (fun _ after => after.1.activeClient = none)
    fun halt after => halt ≠ .noSuchCapture → after.1.activeClient = none

variable (around) in
theorem LeavesIdle.andThen {α β : Type} {handler : Handler β} {next : β → Handler α}
    (first : LeavesIdle handler before) (rest : ∀ value, Runs [] around False (next value)) :
    LeavesIdle (handler >>= next) before := by
  rw [LeavesIdle, ensures_bind]
  apply Handler.Ensures.mono first
  · intro value middle idle
    apply (rest value middle False.elim).mono
    · exact fun _ _ opened => opened.moves.idle idle
    · intro _ _ stopped call
      exact (stopped.2.call call).resolve_right fun fails => fails.2 idle
  · exact fun _ _ stopped => stopped

theorem Frees.leavesIdle
    (first : Frees handler) (rest : ∀ value after, LeavesIdle (next value) after) :
    LeavesIdle (handler >>= next) before := by
  rw [LeavesIdle, ensures_bind]
  exact (first before).mono (fun value after _ => rest value after) fun _ _ stopped => stopped

theorem leavesIdle_releaseCaptureAt (landing : Option Position) :
    LeavesIdle (releaseCaptureAt around landing) before := by
  apply (ensures_releaseCaptureAt landing before).mono
  · rintro _ _ ⟨quiet, silent, rfl⟩
    rfl
  · rintro _ _ ⟨-, _, _, rfl⟩ _
    rfl

variable [FloatOps]

theorem leavesIdle_releaseCapture : LeavesIdle (releaseCapture around) before :=
  frees_clearPressure.leavesIdle fun _ _ =>
    (leavesIdle_releaseCaptureAt none).andThen around fun _ => .pure ()

theorem leavesIdle_returnLocalPointer (exitAlong : Option F32) :
    LeavesIdle (returnLocalPointer around exitAlong) before := by
  rw [returnLocalPointer, LeavesIdle, ensures_bind, ensures_task]
  split
  · exact leavesIdle_releaseCapture
  · rename_i edge oldAlong _
    have released : LeavesIdle (releaseReturned around edge oldAlong exitAlong) before := by
      cases exitAlong with
      | some =>
        refine frees_clearPressure.leavesIdle fun _ _ => ?_
        exact (leavesIdle_releaseCaptureAt (some edge)).andThen around fun _ => .pure ()
      | none => exact leavesIdle_releaseCapture.andThen around fun _ => .emit trivial
    exact released.andThen around fun _ => .note fun _ => by constructor <;> rfl

omit [FloatOps] in
theorem leavesIdle_handoffHome : LeavesIdle (handoffHome around handle) before := by
  refine frees_getPos.leavesIdle fun edge _ => ?_
  exact (leavesIdle_releaseCaptureAt (some edge)).andThen around fun _ =>
    .ite (.emit trivial) (.pure ())

theorem leavesIdle_refuseHandoff : LeavesIdle (refuseHandoff around handle) before :=
  frees_getPos.leavesIdle fun _ _ => leavesIdle_releaseCapture.andThen around fun _ => .emit trivial

/-- A message with which the active client gives control back, or cannot go on with it. -/
def GivesBack (around : Surroundings) (task : CaptureTask) : ProtoEvent → Prop
  | .leave _ | .leaveAt _ | .pong false => True
  | .handoff target _ => task.state ≠ .sending ∨ target = around.ownFingerprint
  | _ => False

/-- An input that has the active client let go before anything else is asked of the backend. -/
def LetsGo (around : Surroundings) (task : CaptureTask) : CaptureInput → Prop
  | .message handle _ event => task.activeClient = some handle ∧ GivesBack around task event
  | .request (.setInputSharing enabled) => enabled = false
  | .request (.destroy handle) => task.activeClient = some handle
  | _ => False

variable {event : ProtoEvent}

theorem leavesIdle_handleActive (gives : GivesBack around before.1 event) :
    LeavesIdle (handleActive around handle event) before := by
  rw [handleActive, LeavesIdle, ensures_bind, ensures_task]
  cases event with
  | leave => exact leavesIdle_returnLocalPointer none
  | leaveAt along => exact leavesIdle_returnLocalPointer (some along)
  | pong alive =>
    cases alive with
    | false => exact leavesIdle_releaseCapture
    | true => exact gives.elim
  | handoff =>
    dsimp only
    split
    · rename_i sending
      rw [handoff, ensures_bind, ensures_task, if_pos (Or.resolve_left gives (not_not.mpr sending))]
      exact leavesIdle_handoffHome
    · exact leavesIdle_refuseHandoff
  | _ => exact gives.elim

omit [FloatOps] in
theorem GivesBack.plain (gives : GivesBack around task event) :
    isForwardedProtocol event = false := by
  cases event with
  | leave | leaveAt | handoff | pong => rfl
  | _ => exact gives.elim

omit [FloatOps] in
theorem ensures_noteMessage (event : ProtoEvent) :
    (noteMessage around handle event).Ensures before (fun _ after => after.1 = before.1)
      fun _ _ => False := by
  unfold noteMessage
  split
  · rw [ensures_bind, ensures_emit]
    split
    · rfl
    · rfl
  · rfl

theorem leavesIdle_handleMessage {fingerprint : String}
    (active : before.1.activeClient = some handle) (gives : GivesBack around before.1 event) :
    LeavesIdle (handleMessage around handle fingerprint event) before := by
  rw [handleMessage, gives.plain, LeavesIdle, ensures_bind, ensures_emit]
  simp only [Bool.false_eq_true, if_false]
  rw [ensures_bind]
  apply (ensures_noteMessage event).mono
  · rintro _ noted same
    have answers : LeavesIdle (answerActive around handle event) noted := by
      rw [answerActive, LeavesIdle, ensures_bind, ensures_task, same, if_pos active]
      exact leavesIdle_handleActive (same ▸ gives)
    exact answers.andThen around fun _ => runs_syncCaptures
  · exact fun _ _ => False.elim

theorem ensures_destroyLetsGo (active : task.activeClient = some handle) :
    (destroyCapture around handle).Ensures (task, []) (fun _ _ => True)
      fun halt after => halt ≠ .noSuchCapture → after.1.activeClient = none := by
  rw [destroyCapture, ensures_bind, ensures_update, ensures_bind, ensures_task]
  split
  · have released : LeavesIdle (releaseActive around handle) (task.removeCapture handle, []) := by
      rw [releaseActive, LeavesIdle, ensures_bind, ensures_task,
        if_pos (show (task.removeCapture handle).activeClient = some handle from active)]
      exact leavesIdle_releaseCapture
    exact Handler.Ensures.mono (released.andThen around fun _ => runs_eraseBarrier)
      (fun _ _ _ => trivial) fun _ _ stopped => stopped
  · trivial

theorem ensures_letsGo (letsGo : LetsGo around task input) :
    (handleSession around input).Ensures (task, []) (fun _ _ => True)
      fun halt after => halt ≠ .noSuchCapture → after.1.activeClient = none := by
  unfold LetsGo at letsGo
  split at letsGo
  · rename_i handle fingerprint event
    have idle : LeavesIdle (handleMessage around handle fingerprint event) (task, []) :=
      leavesIdle_handleMessage letsGo.1 letsGo.2
    exact idle.mono (fun _ _ _ => trivial) fun _ _ stopped => stopped
  · rename_i enabled
    subst letsGo
    have idle : LeavesIdle (releaseUnless around false >>= fun _ => syncCaptures around)
        ({ task with inputSharing := false }, []) :=
      leavesIdle_releaseCapture.andThen around fun _ => runs_syncCaptures
    exact idle.mono (fun _ _ _ => trivial) fun _ _ stopped => stopped
  · rename_i handle
    exact ensures_destroyLetsGo letsGo
  · exact letsGo.elim

/-- What keeps the control of the active client in order at a turn. -/
structure HandsBack (around : Surroundings) (task : CaptureTask) (input : CaptureInput) :
    Prop where
  spares : task.Spares input
  /-- No touch of another edge activates its client at once. -/
  stays : ∀ handle event touch, input = .captured handle event → touchOf event = some touch →
    task.activeClient ≠ none → ¬Activates around task handle touch
  /-- The backend delivers on. -/
  delivers : Ends input → task.activeClient = none
  /-- No call of the backend fails before the client has been let go. -/
  succeeds : around.CallFails → task.activeClient = none ∨ LetsGo around task input
  /-- No release is cut off. -/
  inTime : CutsOff around → task.activeClient = none

theorem ensures_session (handsBack : HandsBack around task input) :
    (handleSession around input).Ensures (task, []) (fun _ after => after.1.phase = task.phase)
      fun halt after => halt ≠ .noSuchCapture → after.1.activeClient = none := by
  have turns : TurnsTo around task input (handleSession around input) :=
    turnsTo_handleSession input
  by_cases letsGo : LetsGo around task input
  · apply (turns.and (ensures_letsGo letsGo)).mono
    · exact fun _ after ended => ended.1.phase.trans (edited_phase task input)
    · exact fun _ _ stopped => stopped.2
  · apply turns.mono
    · exact fun _ after opened => opened.phase.trans (edited_phase task input)
    · intro _ _ stopped call
      rcases stopped.2.call call with idle | ⟨fails, active⟩ | ends
      · exact idle
      · exact absurd (handsBack.succeeds fails) (not_or.mpr ⟨active, letsGo⟩)
      · refine stopped.1.idle (never_activates ?_) (by simpa using handsBack.delivers ends)
        rintro _ _ rfl
        exact ends.elim

theorem step_unheard {event : CaptureEvent} (other : task.phase ≠ .session) :
    step task (around, .captured handle event) = (task, []) := by
  unfold step
  cases phase : task.phase with
  | session => exact absurd phase other
  | starting | inactive | ended => rfl

theorem step_idle (other : task.phase ≠ .session) (idle : task.activeClient = none) :
    (step task (around, input)).1.activeClient = none := by
  by_cases heard : ∃ handle event, input = .captured handle event
  · rcases heard with ⟨handle, event, rfl⟩
    rw [step_unheard other]
    exact idle
  · have never : ¬(reasonsOf around task input).activates :=
      never_activates fun handle event same => heard ⟨handle, event, same⟩
    apply step_keeps (fun world => world.1.activeClient = none)
    · exact fun after agrees => agrees.activeClient.trans idle
    · exact (edited_activeClient task input).trans idle
    · exact fun _ _ move => move.idle
    · exact fun _ _ turning => turning.idle never
    · rintro _ _ _ ⟨_, _, rfl⟩ _ still
      exact still

theorem step_handed (handsBack : HandsBack around task input)
    (active : task.activeClient = some client) : Handed client (step task (around, input)) := by
  have never : ¬(reasonsOf around task input).activates := by
    rintro ⟨handle, event, touch, captured, touches, activates⟩
    exact handsBack.stays handle event touch captured touches (by simp [active]) activates
  have inTime : ¬CutsOff around := fun cut => by simp [handsBack.inTime cut] at active
  apply step_keeps (Handed client)
  · exact fun after agrees => .inl (agrees.activeClient.trans active)
  · exact .inl ((edited_activeClient task input).trans active)
  · exact fun _ _ move => move.handed inTime
  · exact fun _ _ turning => turning.handed never
  · rintro _ _ quiet ⟨_, _, rfl⟩ _ handed
    exact handed.emits rfl quiet

theorem ensures_unless_panics (calm : ¬task.Panics (around, input)) :
    (CaptureTask.handle around task.phase input).Ensures (task, []) (fun _ _ => True)
      fun halt _ => halt ≠ .noSuchCapture := by
  unfold Handler.Ensures
  split
  · trivial
  · rename_i halted
    rintro rfl
    exact calm (congrArg Prod.fst halted)

theorem step_leaves (session : task.phase = .session) (handsBack : HandsBack around task input)
    (calm : ¬task.Panics (around, input)) (left : (step task (around, input)).1.phase ≠ .session) :
    (step task (around, input)).1.activeClient = none := by
  have heard : (CaptureTask.handle around task.phase input).Ensures (task, [])
      (fun _ after => after.1.phase = .session)
      fun halt after => halt ≠ .noSuchCapture → after.1.activeClient = none := by
    rw [session]
    cases input with
    | entered => exact session
    | _ =>
      exact (ensures_session handsBack).mono (fun _ _ same => same.trans session)
        fun _ _ stopped => stopped
  refine step_of_ensures (fun after => after.1.phase ≠ .session → after.1.activeClient = none)
    (heard.and (ensures_unless_panics calm)) ?_ ?_ left
  · exact fun after ended left => absurd ended.1 left
  · intro halt _ stopped _
    rcases rephased_conclude halt with ⟨_, _, same⟩
    rw [same]
    exact stopped.1 stopped.2

/-- What holds between two inputs of the task. -/
structure Orderly (task : CaptureTask) : Prop where
  intact : task.Intact
  idle : task.phase ≠ .session → task.activeClient = none

theorem step_orderly (orderly : task.Orderly) (handsBack : HandsBack around task input) :
    (step task (around, input)).1.Orderly := by
  have sound : (step task (around, input)).1.Intact ∧ ¬task.Panics (around, input) :=
    step_intact orderly.intact handsBack.spares
  refine ⟨sound.1, fun left => ?_⟩
  by_cases session : task.phase = .session
  · exact step_leaves session handsBack sound.2 left
  · exact step_idle session (orderly.idle session)

omit [FloatOps] in
theorem orderly_new (backend : Option CaptureBackend) (releaseBind : List UInt32) :
    (new backend releaseBind).Orderly :=
  ⟨intact_new backend releaseBind, fun _ => rfl⟩

/-- Whenever a client stops being the active one a `Leave` is sent to it, and the end of a session
leaves none active. -/
theorem hands_back (backend : Option CaptureBackend) (releaseBind : List UInt32)
    (inputs : List (Surroundings × CaptureInput))
    (handsBack : ∀ task input, Meets step (new backend releaseBind) inputs task input →
      HandsBack input.1 task input.2) :
    ∀ task input, Meets step (new backend releaseBind) inputs task input →
      (∀ client, task.activeClient = some client →
        (step task input).1.activeClient ≠ some client → Told client (step task input).2) ∧
      ((step task input).1.phase ≠ .session → (step task input).1.activeClient = none) := by
  intro task input meets
  have orderly : task.Orderly :=
    meets.reached (fun _ _ orderly handsBack => step_orderly orderly handsBack) handsBack
      (orderly_new backend releaseBind)
  refine ⟨fun _ active other => ?_, (step_orderly orderly (handsBack task input meets)).idle⟩
  exact (step_handed (handsBack task input meets) active).resolve_left other

/-- A client is entered, acknowledges and leaves, and the session is cancelled. -/
def enteredAndLeft : List (Surroundings × CaptureInput) :=
  [(calm, .created .x11), (calm, .request (.create 1 .left .default)), (calm, .captured 1 .begin),
    (calm, .message 1 "" (.ack 0)),
    (calm, .message 1 "" (.leave 0)),
    (calm, .cancelled)]

omit [FloatOps] in
theorem calm_succeeds : ¬calm.CallFails := by
  rintro ⟨_, fails, -⟩
  cases fails

omit [FloatOps] in
theorem calm_inTime : ¬CutsOff calm := by
  rintro ⟨_, -, cut⟩
  cases cut

theorem handsBack_calm (spares : task.Spares input)
    (other : ∀ handle event, input ≠ .captured handle event) (delivers : ¬Ends input) :
    HandsBack calm task input where
  spares := spares
  stays handle event _ same := absurd same (other handle event)
  delivers ends := absurd ends delivers
  succeeds fails := absurd fails calm_succeeds
  inTime cut := absurd cut calm_inTime

omit [FloatOps] in
theorem hands_back_entered : ∃ inputs : List (Surroundings × CaptureInput),
    inputs = enteredAndLeft ∧ ∀ [FloatOps], ∀ task input,
      Meets step (new none [1]) inputs task input →
        (∀ client, task.activeClient = some client →
          (step task input).1.activeClient ≠ some client → Told client (step task input).2) ∧
        ((step task input).1.phase ≠ .session → (step task input).1.activeClient = none) := by
  refine ⟨enteredAndLeft, rfl, fun task input => hands_back none [1] _ ?_ task input⟩
  intro task _ meets
  simp only [enteredAndLeft, meets_cons, not_meets_nil, or_false] at meets
  rcases meets with ⟨-, rfl⟩ | ⟨-, rfl⟩ | ⟨reached, rfl⟩ | ⟨-, rfl⟩ | ⟨-, rfl⟩ | ⟨-, rfl⟩
  · exact handsBack_calm trivial (by simp) id
  · exact handsBack_calm trivial (by simp) id
  · refine ⟨trivial, ?_, False.elim, fun fails => absurd fails calm_succeeds,
      fun cut => absurd cut calm_inTime⟩
    have idle : task.activeClient = none := by rw [reached]; rfl
    exact fun _ _ _ _ _ active => absurd idle active
  · exact handsBack_calm trivial (by simp) id
  · exact handsBack_calm trivial (by simp) id
  · exact handsBack_calm trivial (by simp) id

omit [FloatOps] in
/-- The stream of the backend ends while a client is active: the session is over, and the client
has not been told. -/
theorem ended_unannounced : ∃ inputs : List (Surroundings × CaptureInput), ∀ [FloatOps],
    ∃ task input, Meets step (new none [1]) inputs task input ∧
      task.phase = .session ∧ task.activeClient = some 1 ∧
      (step task input).1.phase ≠ .session ∧ (step task input).1.activeClient ≠ none ∧
      ¬Told 1 (step task input).2 := by
  refine ⟨[(calm, .created .x11), (calm, .request (.create 1 .left .default)),
    (calm, .captured 1 .begin), (calm, .captureEnded)], ?_⟩
  intro _
  refine ⟨_, _, Meets.last _ [_, _, _] _, rfl, rfl, ?_, ?_, ?_⟩
  · exact Phase.noConfusion
  · nofun
  · show ¬Told 1 [.terminate, .report .captureDisabled]
    simp [Told]

end CaptureTask

end Syntra.Capture
