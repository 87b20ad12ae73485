import Syntra.Capture.Moves

/-!
# The handlers of the capture task, move by move

One lemma for each handler. Where a handler looks a capture up, it is listed among those that there
are; where it speaks to a client, that client is active.
-/

namespace Syntra.Capture

open Proto StateMachine
open Handler (emit ensures_bind ensures_emit ensures_task ensures_update stop)

namespace CaptureTask

variable {captures : List (CaptureHandle × Position × CaptureType)} {around : Surroundings}
  {sound : Prop} {reasons : Reasons} {handle : CaptureHandle}

variable (listed : sound → Listed captures handle)
include listed

theorem asks_lookUp :
    Asks captures sound (lookUp handle) fun task capture =>
      task.captureOf handle = some capture := by
  intro _ kept
  simp only [lookUp, ensures_bind, ensures_task]
  split
  · rename_i capture found
    exact ⟨rfl, found⟩
  · rename_i absent
    refine ⟨rfl, rfl, fun holds => ?_⟩
    rcases listed holds with ⟨capture, member, rfl⟩
    rw [captureOf, (kept holds).same, Option.map_eq_none_iff] at absent
    simpa using List.find?_eq_none.mp absent capture member

theorem asks_getPos :
    Asks captures sound (getPos handle) fun task pos =>
      ∃ captureType, task.captureOf handle = some (pos, captureType) :=
  (asks_lookUp listed).andThen fun capture => .pure fun _ found => ⟨capture.2, found⟩

theorem asks_getType :
    Asks captures sound (getType handle) fun task captureType =>
      ∃ pos, task.captureOf handle = some (pos, captureType) :=
  (asks_lookUp listed).andThen fun capture => .pure fun _ found => ⟨capture.1, found⟩

theorem asks_entrySide : Asks captures sound (entrySide handle) fun _ _ => True :=
  (asks_getPos listed).andThen fun _ => .pure fun _ _ => trivial

theorem asks_returnsToController :
    Asks captures sound (returnsToController around handle) fun task returns =>
      returns = true → task.activeClient = none := by
  refine .task fun task => ?_
  split
  · exact .pure fun _ _ => nofun
  · split
    · exact .pure fun _ _ => nofun
    · rename_i free
      have idle : task.activeClient = none := by
        cases active : task.activeClient with
        | none => rfl
        | some => simp [active] at free
      have any : ∀ present, True → present = task → present.activeClient = none :=
        fun present _ same => same ▸ idle
      split
      · exact .pure fun present same _ => any present trivial same
      · refine (asks_getType listed).andThen fun _ => ?_
        split
        · refine (asks_getPos listed).andThen fun _ => .pure ?_
          exact fun present _ _ same _ => any present trivial same
        · exact .pure fun _ _ _ => nofun

omit listed

variable [FloatOps]

theorem runs_reportPressure (listed : sound → Listed captures handle) (soFar : F64)
    (force : Bool) : Runs captures around sound (reportPressure around handle soFar force) := by
  refine .task fun _ => .ite ?_ (.pure ())
  refine .andThen (.note fun _ => ⟨rfl, rfl, rfl, rfl, rfl, rfl, rfl, rfl⟩) fun _ => ?_
  exact (asks_getPos listed).runs.andThen fun _ => .emit trivial

theorem runs_clearPressure : Runs captures around sound (clearPressure around) := by
  intro before kept
  have listed : ∀ measured, before.1.pressure = some measured → sound →
      Listed captures measured.1 :=
    fun measured arms holds => (kept holds).pressure measured arms
  refine RunsAt.task (.updateThen .disarm ?_) kept
  split
  · rename_i measured _ _ arms
    exact (runs_reportPressure (listed _ arms) .zero true).at _
  · exact (Runs.pure ()).at _

section

omit [FloatOps]

theorem runs_fail (fails : around.CallFails) :
    Runs captures around sound (stop .captureError : Handler Unit) := by
  intro before _
  refine ⟨.inl .refl, nofun, fun _ => ?_⟩
  by_cases idle : before.1.activeClient = none
  · exact .inl idle
  · exact .inr ⟨fails, idle⟩

theorem runs_answer {operation : BackendCall} (other : operation ≠ .release) :
    Runs captures around sound (answer around operation) := by
  unfold answer
  split
  · rename_i fails
    exact runs_fail ⟨operation, fails, other⟩
  · exact .pure ()

theorem runs_letGo : Runs captures around sound (letGo around) :=
  .andThen (.emit trivial) fun _ => runs_answer nofun

end

def Released (around : Surroundings) (before after : World) : Prop :=
  ∃ quiet : List CaptureEffect, (∀ effect ∈ quiet, effect.Quiet) ∧
    after = (before.1.released, before.2 ++ quiet ++ farewell around before.1.activeClient)

variable {before : World} {stopped : Halt → World → Prop}

omit [FloatOps] in
theorem ensures_cleanUp :
    (cleanUp around handle).Ensures before
      (fun _ after => after = (before.1, before.2 ++ farewell around (some handle))) stopped := by
  simp only [cleanUp, farewell, ensures_bind]
  apply Handler.ensures_each_emit.mono
  · rintro _ _ rfl
    split
    · simp
    · simp
  · exact fun _ _ stops => stops

variable (landing : Option Position)

section

omit [FloatOps]

variable (along : Option F32)

theorem ensures_announceReturn (before : World) :
    (announceReturn around landing along).Ensures before
      (fun _ after => ∃ quiet : List CaptureEffect, (∀ effect ∈ quiet, effect.Quiet) ∧
        after = (before.1, before.2 ++ quiet)) stopped := by
  have silent : (announceReturn around landing along).Ensures before
      (fun _ after => after = before) stopped ∨
      ∃ edge, announceReturn around landing along =
        emit (.report (.pointerReturned edge along)) := by
    unfold announceReturn
    split
    · split
      · exact .inl rfl
      · exact .inr ⟨_, rfl⟩
    · exact .inl rfl
  rcases silent with unchanged | ⟨edge, told⟩
  · apply unchanged.mono
    · rintro _ _ rfl
      exact ⟨[], by simp, by simp⟩
    · exact fun _ _ stops => stops
  · rw [told, ensures_emit]
    refine ⟨[.report (.pointerReturned edge along)], ?_, rfl⟩
    exact List.forall_mem_singleton.mpr trivial

theorem ensures_leaveClient (active : Option CaptureHandle) (before : World) :
    (leaveClient around landing along active).Ensures before
      (fun _ after => ∃ quiet : List CaptureEffect, (∀ effect ∈ quiet, effect.Quiet) ∧
        after = (before.1, before.2 ++ quiet ++ farewell around active)) stopped := by
  cases active with
  | none => exact ⟨[], by simp, by simp [farewell]⟩
  | some =>
    rw [leaveClient, ensures_bind]
    apply (ensures_announceReturn landing along before).mono
    · rintro _ _ ⟨quiet, silent, rfl⟩
      apply ensures_cleanUp.mono
      · rintro _ _ rfl
        exact ⟨quiet, silent, rfl⟩
      · exact fun _ _ stops => stops
    · exact fun _ _ stops => stops

theorem quiet_releaseWith : (releaseWith landing along).Quiet := by
  cases landing <;> trivial

theorem ensures_releaseCaptureAt (before : World) :
    (releaseCaptureAt around landing).Ensures before (fun _ after => Released around before after)
      fun halt after => halt = .captureError ∧ Released around before after := by
  simp only [releaseCaptureAt, ensures_bind, ensures_task, ensures_update, ensures_emit]
  apply (ensures_leaveClient landing before.1.landingAlong before.1.activeClient _).mono
  · rintro _ _ ⟨quiet, silent, rfl⟩
    have done : Released around before (before.1.released, before.2 ++
        [releaseWith landing before.1.landingAlong] ++ quiet ++
          farewell around before.1.activeClient) := by
      refine ⟨releaseWith landing before.1.landingAlong :: quiet, ?_, by simp⟩
      exact List.forall_mem_cons.mpr ⟨quiet_releaseWith landing _, silent⟩
    unfold answer
    split
    · exact ⟨rfl, done⟩
    · exact done
  · exact fun _ _ stops => stops

theorem Released.move {after : World} (released : Released around before after) :
    Move captures around before after := by
  rcases released with ⟨_, silent, rfl⟩
  exact .release silent

theorem runs_releaseCaptureAt : Runs captures around sound (releaseCaptureAt around landing) := by
  intro before _
  apply (ensures_releaseCaptureAt landing before).mono
  · exact fun _ _ released => .inl (.single released.move)
  · rintro _ _ ⟨rfl, released⟩
    refine ⟨.inl (.single released.move), nofun, fun _ => .inl ?_⟩
    rcases released with ⟨_, _, rfl⟩
    rfl

end

theorem runs_releaseCapture : Runs captures around sound (releaseCapture around) :=
  runs_clearPressure.andThen fun _ => (runs_releaseCaptureAt none).andThen fun _ => .pure ()

theorem runs_releaseReturned (edge : Position) (oldAlong exitAlong : Option F32) :
    Runs captures around sound (releaseReturned around edge oldAlong exitAlong) := by
  cases exitAlong with
  | some =>
    refine runs_clearPressure.andThen fun _ => ?_
    refine .andThen (.note fun _ => by constructor <;> rfl) fun _ => ?_
    exact (runs_releaseCaptureAt (some edge)).andThen fun _ => .pure ()
  | none => exact runs_releaseCapture.andThen fun _ => .emit trivial

theorem runs_returnLocalPointer (exitAlong : Option F32) :
    Runs captures around sound (returnLocalPointer around exitAlong) := by
  refine .task fun _ => ?_
  split
  · exact runs_releaseCapture
  · refine (runs_releaseReturned _ _ exitAlong).andThen fun _ => ?_
    exact .note fun _ => by constructor <;> rfl

theorem runs_releaseActive : Runs captures around sound (releaseActive around handle) :=
  .task fun _ => .ite runs_releaseCapture (.pure ())

omit [FloatOps] in
theorem runs_eraseBarrier :
    Runs captures around sound (do
      .update fun task => { task with enabledCaptures := task.enabledCaptures.erase handle }
      call around (.destroy handle) (.destroy handle)) :=
  .andThen (.note fun _ => by constructor <;> rfl) fun _ =>
    .andThen (.emit (by trivial)) fun _ => runs_answer nofun

theorem runs_syncCapture (pos : Position) :
    Runs captures around sound (syncCapture around handle pos) := by
  refine .task fun _ => .ite ?_ (.ite ?_ (.pure ()))
  · refine .andThen (.note fun _ => by constructor <;> rfl) fun _ => ?_
    refine .andThen (.emit trivial) fun _ => ?_
    split
    · rename_i fails
      refine .andThen (.note fun _ => by constructor <;> rfl) fun _ => ?_
      exact runs_fail ⟨.create handle, fails, nofun⟩
    · exact .pure ()
  · exact runs_releaseActive.andThen fun _ => runs_eraseBarrier

theorem runs_syncCaptures : Runs captures around sound (syncCaptures around) :=
  .task fun _ => .each fun capture => runs_syncCapture capture.2.1

section

omit [FloatOps]

theorem isEntry_enterEvent (task : CaptureTask) (side : Position) :
    IsEntry (task.enterEvent side) := by
  unfold enterEvent
  split
  · trivial
  · split
    · trivial
    · trivial
  · trivial

theorem runs_legacyEntryRetry : Runs captures around sound (legacyEntryRetry around) := by
  intro before kept
  refine RunsAt.task ?_ kept
  split
  · exact (Runs.pure none).at _
  · rename_i handle active
    split
    · exact (Runs.pure none).at _
    · rename_i retries
      have waiting : before.1.state = .waitingForAck := by
        by_contra other
        simp [other] at retries
      refine .updateThen (.retry _ (by simp [active]) waiting) ?_
      have listed : sound → Listed captures handle := fun holds => (kept holds).active handle active
      exact (asks_entrySide listed).runs.bind fun side after _ =>
        (Runs.task fun task => .pure (some (handle, task.enterEvent side))) after

theorem runs_handoffHome (listed : sound → Listed captures handle) :
    Runs captures around sound (handoffHome around handle) := by
  refine (asks_getPos listed).runs.andThen fun edge => ?_
  refine .andThen (.note fun _ => by constructor <;> rfl) fun _ => ?_
  exact (runs_releaseCaptureAt (some edge)).andThen fun _ => .ite (.emit trivial) (.pure ())

theorem runs_handOver {source next : CaptureHandle} (reason : reasons.handsOver)
    (active : before.1.activeClient = some source) (other : next ≠ source)
    (listed : Listed before.1.captures next) :
    RunsAt captures around sound reasons (handOver around source next) before := by
  intro kept
  have source_listed : sound → Listed captures source :=
    fun holds => (kept holds).active source active
  have next_listed : sound → Listed captures next := fun holds => (kept holds).same ▸ listed
  refine (asks_getPos source_listed).bind (fun _ _ => ?_) kept
  refine (asks_getPos next_listed).bind fun _ _ => ?_
  have turning : Turning captures reasons before
      (before.1.handedOver next (around.now + ackTimeout),
        before.2 ++ [.send source (.leave 0)] ++ [.report (.clientEntered next)]) :=
    .handOver _ reason active other listed
  intro kept
  rw [ensures_bind, ensures_emit, ensures_bind, ensures_update, ensures_bind, ensures_emit]
  refine RunsAt.followsTurning (.inr ⟨_, _, .refl, turning, .refl⟩) (by simp [active]) kept ?_
  refine (asks_entrySide next_listed).bind fun side _ => ?_
  refine .updateThen (.note (by constructor <;> rfl)) (.task ?_)
  exact .emit (.enter rfl (isEntry_enterEvent _ side))

theorem listed_nextDevice {task : CaptureTask} {source next : CaptureHandle} {target : String}
    (found : task.nextDevice around source target = some next) :
    Listed task.captures next ∧ next ≠ source := by
  rcases Option.map_eq_some_iff.mp found with ⟨capture, among, rfl⟩
  have chosen := List.find?_some among
  simp only [Bool.and_eq_true, decide_eq_true_eq] at chosen
  exact ⟨⟨capture, List.mem_of_find?_eq_some among, rfl⟩, chosen.1.2⟩

theorem runs_handoff (reason : reasons.handsOver) (active : before.1.activeClient = some handle)
    (target : String) (side : Position) :
    RunsAt captures around sound reasons (handoff around handle target side) before := by
  intro kept
  have listed : sound → Listed captures handle := fun holds => (kept holds).active handle active
  refine RunsAt.task ?_ kept
  split
  · exact (runs_handoffHome listed).at before
  · split
    · exact .emit (.refuse handle target side)
    · rename_i next found
      have chosen := listed_nextDevice found
      split
      · exact runs_handOver reason active chosen.2 chosen.1
      · exact .emit (.refuse handle target side)

end

end CaptureTask

end Syntra.Capture
