import Syntra.Capture.Handlers

/-!
# Touches of an edge

An event of a capture goes through stages: a push is measured, touches that lead nowhere or are
repeated are let go, and what is left activates its client or is sent to the one that is active.
-/

namespace Syntra.Capture

open Proto StateMachine Tables
open Handler (ensures_bind ensures_task ensures_pure ensures_true ensures_update)

namespace CaptureTask

variable {captures : List (CaptureHandle × Position × CaptureType)} {around : Surroundings}
  {sound : Prop} {reasons : Reasons} {handle : CaptureHandle} [FloatOps]

/-- Only the push and what was reported of it have changed. -/
def OnlyPressure (before after : World) : Prop :=
  ∃ pressure report amount, after.1 = { before.1 with
    pressure := pressure, lastPressureReport := report, lastPressureAmount := amount }

instance : Std.Refl OnlyPressure where
  refl before := ⟨before.1.pressure, before.1.lastPressureReport, before.1.lastPressureAmount, rfl⟩

instance : IsTrans World OnlyPressure where
  trans := by
    rintro before ⟨-, middle⟩ ⟨-, after⟩ ⟨_, _, _, rfl⟩ ⟨pressure, report, amount, rfl⟩
    exact ⟨pressure, report, amount, rfl⟩

omit [FloatOps] in
theorem along_lookUp : (lookUp handle).Along OnlyPressure := by
  refine .bind .task fun _ => ?_
  split
  · exact .pure _
  · exact .stop _

variable (soFar : F64)

theorem along_reportPressure (force : Bool) :
    (reportPressure around handle soFar force).Along OnlyPressure := by
  refine .bind .task fun _ => .ite ?_ (.pure ())
  refine .bind (.update fun state log => ⟨_, _, _, rfl⟩) fun _ => ?_
  refine .bind (.bind along_lookUp fun _ => .pure _) fun _ => ?_
  exact .emit fun state log => refl_of OnlyPressure (state, log)

theorem along_clearPressure : (clearPressure around).Along OnlyPressure := by
  refine .bind .task fun _ => .bind (.update fun _ _ => ⟨_, _, _, rfl⟩) fun _ => ?_
  split
  · exact along_reportPressure .zero true
  · exact .pure ()

theorem along_reachPressure : (reachPressure around).Along OnlyPressure := by
  refine .bind .task fun task => ?_
  split
  · exact along_reportPressure task.edgePressure true
  · exact .pure ()

/-- A touch that goes on past the measure, as `counted`: there is nothing to measure, the edge is
touched afresh, or the push has been enough. -/
inductive Counts (around : Surroundings) (task : CaptureTask) (handle : CaptureHandle) :
    Touch → Touch → Bool → Prop
  | free {touch : Touch} (free : task.pressure = none) :
      Counts around task handle touch touch false
  | fresh {soFar : F64} {since : ℕ} (measured : task.pressure = some (handle, soFar, since))
      (late : duplicateTouch ≤ around.now - since) :
      Counts around task handle .begin .begin false
  | reached {soFar : F64} {since : ℕ} {time : UInt32} {dx dy : F64} {pos : Position}
      {captureType : CaptureType} (measured : task.pressure = some (handle, soFar, since))
      (capture : task.captureOf handle = some (pos, captureType))
      (enough : advancePressure soFar (around.now - since) pos dx dy task.edgePressure = .reached) :
      Counts around task handle (.input (.pointer (.motion time dx dy))) .begin true

theorem runs_touchBeside {pending : CaptureHandle} (listed : Listed captures handle) :
    Runs captures around sound (touchBeside around handle pending) := by
  refine .andThen ?_ fun same => .ite runs_releaseCapture (.pure ())
  intro _ kept
  refine RunsAt.task ?_ kept
  split
  · rename_i there
    have pending_listed : sound → Listed captures pending := by
      intro holds
      rcases List.any_eq_true.mp there with ⟨capture, member, same⟩
      rw [(kept holds).same] at member
      exact ⟨capture, member, of_decide_eq_true same⟩
    exact (asks_getPos fun _ => listed).bind fun _ _ =>
      (asks_getPos pending_listed).bind fun _ _ => (Runs.pure _).at _
  · exact (Runs.pure false).at _

theorem runs_reachPressure : Runs captures around sound (reachPressure around) := by
  intro _ kept
  refine RunsAt.task ?_ kept
  split
  · rename_i measured _ _ arms
    refine (runs_reportPressure (fun holds => ?_) _ true).at _
    exact (kept holds).pressure _ arms
  · exact (Runs.pure ()).at _

theorem runs_push (listed : Listed captures handle) (soFar : F64) (since : ℕ) (dx dy : F64) :
    Runs captures around sound (push around handle soFar since dx dy) := by
  refine .task fun _ => (asks_getPos fun _ => listed).runs.andThen fun _ => ?_
  split
  · intro _
    refine .updateThen (.arm _ _ listed) ?_
    exact ((runs_reportPressure (fun _ => listed) _ false).andThen fun _ => .pure false).at _
  · exact runs_reachPressure.andThen fun _ => runs_clearPressure.andThen fun _ => .pure true
  · exact runs_clearPressure.andThen fun _ => runs_letGo.andThen fun _ => .pure false

theorem ensures_push (since : ℕ) (dx dy : F64) (before : World) :
    (push around handle soFar since dx dy).Ensures before
      (fun reached after => reached = true → OnlyPressure before after ∧
        ∃ pos captureType, before.1.captureOf handle = some (pos, captureType) ∧
          advancePressure soFar (around.now - since) pos dx dy before.1.edgePressure = .reached)
      fun _ _ => True := by
  simp only [push, ensures_bind, ensures_task]
  have asks : Asks before.1.captures False (getPos handle) _ := asks_getPos False.elim
  apply (asks before False.elim).mono
  · rintro pos _ ⟨rfl, captureType, found⟩
    split
    · simp only [ensures_bind, ensures_pure]
      exact ensures_true.mono
        (fun _ _ _ => ensures_true.mono (fun _ _ _ => by simp) fun _ _ _ => trivial)
        fun _ _ _ => trivial
    · rename_i enough
      have along : Handler.Along (do
          reachPressure around
          clearPressure around
          return true : Handler Bool) OnlyPressure :=
        along_reachPressure.bind fun _ => along_clearPressure.bind fun _ => .pure true
      exact (along _).mono (fun _ _ only _ => ⟨only, pos, captureType, found, enough⟩)
        fun _ _ _ => trivial
    · simp only [ensures_bind, ensures_pure]
      exact ensures_true.mono
        (fun _ _ _ => ensures_true.mono (fun _ _ _ => by simp) fun _ _ _ => trivial)
        fun _ _ _ => trivial
  · exact fun _ _ _ => trivial

theorem runs_measure (listed : Listed captures handle) (touch : Touch) :
    Runs captures around sound (measure around handle touch) := by
  refine .task fun _ => ?_
  split
  · exact .pure _
  · refine .ite ((runs_touchBeside listed).andThen fun _ => .pure none) ?_
    split
    · exact (runs_push listed _ _ _ _).andThen fun _ => .pure _
    · exact .ite (runs_clearPressure.andThen fun _ => .pure _) (.pure none)
    · exact .pure none

theorem ensures_measure (touch : Touch) (before : World) :
    (measure around handle touch).Ensures before
      (fun measured after => ∀ counted met, measured = some (counted, met) →
        OnlyPressure before after ∧ Counts around before.1 handle touch counted met)
      fun _ _ => True := by
  simp only [measure, ensures_bind, ensures_task]
  split
  · rename_i free
    rintro counted met ⟨⟩
    exact ⟨refl_of OnlyPressure before, .free free⟩
  · rename_i pending soFar since measured
    split
    · rw [ensures_bind]
      exact ensures_true.mono (fun _ _ _ => by simp) fun _ _ _ => trivial
    · rename_i same
      rw [not_not] at same
      subst same
      split
      · rename_i time dx dy
        rw [ensures_bind]
        apply (ensures_push soFar since dx dy before).mono
        · intro reached _ enough _ _
          cases reached with
          | false => simp
          | true =>
            rintro ⟨⟩
            rcases enough rfl with ⟨only, _, _, found, reached⟩
            exact ⟨only, .reached measured found reached⟩
        · exact fun _ _ _ => trivial
      · split
        · rename_i late
          rw [ensures_bind]
          apply (along_clearPressure before).mono
          · rintro _ _ only _ _ ⟨⟩
            exact ⟨only, .fresh measured late⟩
          · exact fun _ _ _ => trivial
        · simp
      · simp

def Frees {α : Type} (handler : Handler α) : Prop :=
  ∀ before, handler.Ensures before (fun _ _ => True)
    fun halt after => halt ≠ .noSuchCapture → after.1.activeClient = none

section

omit [FloatOps]

theorem Frees.bind {α β : Type} {handler : Handler β} {next : β → Handler α}
    (first : Frees handler) (rest : ∀ value, Frees (next value)) : Frees (handler >>= next) := by
  intro before
  rw [ensures_bind]
  exact (first before).mono (fun value after _ => rest value after) fun _ _ stopped => stopped

theorem Frees.pure {α : Type} (value : α) : Frees (Pure.pure value : Handler α) :=
  fun _ => trivial

theorem Frees.emit (effect : CaptureEffect) : Frees (Handler.emit effect) :=
  fun _ => trivial

theorem frees_lookUp : Frees (lookUp handle) := by
  intro _
  simp only [lookUp, ensures_bind, ensures_task]
  split
  · trivial
  · exact fun other => absurd rfl other

theorem frees_getPos : Frees (getPos handle) :=
  frees_lookUp.bind fun _ => .pure _

end

theorem frees_reportPressure (force : Bool) : Frees (reportPressure around handle soFar force) := by
  intro _
  simp only [reportPressure, ensures_bind, ensures_task]
  split
  · rw [ensures_bind, ensures_update]
    exact frees_getPos.bind (fun _ => .emit _) _
  · trivial

theorem frees_clearPressure : Frees (clearPressure around) := by
  intro _
  simp only [clearPressure, ensures_bind, ensures_task, ensures_update]
  split
  · exact frees_reportPressure .zero true _
  · trivial

theorem frees_releaseCapture : Frees (releaseCapture around) := by
  refine frees_clearPressure.bind fun _ => .bind ?_ fun _ _ => trivial
  intro before
  apply (ensures_releaseCaptureAt none before).mono
  · exact fun _ _ _ => trivial
  · rintro _ _ ⟨rfl, _, _, rfl⟩ _
    rfl

variable {before : World} {touch : Touch}

/-- What a touch brings may be held. -/
def Holds (reasons : Reasons) (touch : Touch) : Prop :=
  ∀ event, touch = .input event → isHeld event = true → reasons.holds

omit [FloatOps] in
theorem ensures_outgoing (side : Position) (held : Holds reasons touch)
    (active : before.1.activeClient ≠ none) :
    (outgoing side touch).Ensures before
      (fun event after => Opened captures around reasons before after ∧
        after.1.activeClient = before.1.activeClient ∧
        (IsEntry event ∨ ∃ input, event = .input input ∧ after.1.state = .sending))
      fun _ _ => False := by
  cases touch with
  | begin =>
    refine ⟨.inl (.single (.note ?_)), rfl, .inl (isEntry_enterEvent _ side)⟩
    constructor <;> rfl
  | input event =>
    simp only [outgoing, ensures_bind, ensures_task]
    split
    · rename_i sending
      exact ⟨.inl .refl, rfl, .inr ⟨event, rfl, sending⟩⟩
    · rename_i waiting
      simp only [hold, ensures_bind, ensures_task, ensures_update, ensures_pure]
      refine ⟨?_, ?_, .inl (isEntry_enterEvent _ side)⟩
      · split
        · rename_i room
          simp only [Bool.and_eq_true, decide_eq_true_eq] at room
          exact .inr ⟨_, _, .refl, .hold (held event rfl room.1) active waiting room.2, .refl⟩
        · exact .inl .refl
      · split <;> rfl

theorem frees_forward (touch : Touch) : Frees (forward around handle touch) := by
  intro before
  simp only [forward, ensures_bind, ensures_task]
  split
  · trivial
  · rename_i target _
    have side : Frees (entrySide target) := frees_getPos.bind fun _ => .pure _
    have outgoing (side : Position) : Frees (outgoing side touch) := by
      intro _
      cases touch with
      | begin => trivial
      | input =>
        simp only [CaptureTask.outgoing, ensures_bind, ensures_task]
        split <;> trivial
    refine side.bind (fun side => (outgoing side).bind fun _ => .bind (.emit _) fun _ => ?_) _
    split
    · exact frees_releaseCapture
    · exact .pure ()

theorem runs_sendOrRelease {event : ProtoEvent} (active : before.1.activeClient = some handle)
    (fits : IsEntry event ∨ ∃ input, event = .input input ∧ before.1.state = .sending) :
    RunsAt captures around sound reasons (sendOrRelease around handle event) before := by
  refine .emitThen ?_ ((Runs.ite runs_releaseCapture (.pure ())).at _)
  rcases fits with entry | ⟨_, rfl, sending⟩
  · exact .enter active entry
  · exact .forward active sending

theorem runs_forward (held : Holds reasons touch)
    (entered : touch = .begin → before.1.activeClient ≠ none) :
    RunsAt captures around sound reasons (forward around handle touch) before := by
  intro kept
  refine RunsAt.task ?_ kept
  cases active : before.1.activeClient with
  | none =>
    have later : touch ≠ .begin := fun begins => entered begins active
    simp only [inputTarget, active, later]
    exact (Runs.pure ()).at before
  | some target =>
    simp only [inputTarget, active]
    have listed : sound → Listed captures target := fun holds => (kept holds).active target active
    refine (asks_entrySide listed).bind fun side _ => ?_
    intro kept
    rw [ensures_bind]
    have there : before.1.activeClient ≠ none := by simp [active]
    apply (ensures_outgoing side held there).mono
    · rintro _ _ ⟨opened, same, fits⟩
      exact RunsAt.followsTurning opened there kept (runs_sendOrRelease (same.trans active) fits)
    · exact fun _ _ => False.elim

variable (listed : Listed captures handle)
include listed

theorem runs_activateOrForward (held : Holds reasons touch)
    (reason : touch = .begin → before.1.activeClient ≠ some handle → reasons.activates) :
    RunsAt captures around sound reasons (activateOrForward around handle touch) before := by
  intro kept
  refine RunsAt.task ?_ kept
  split
  · rename_i crosses
    simp only [Bool.and_eq_true, decide_eq_true_eq] at crosses
    intro kept
    simp only [activate, ensures_bind]
    apply (asks_getPos (fun _ => listed) before kept).mono
    · rintro pos after ⟨same, -⟩
      obtain rfl : before = after := same.symm
      have activation : Turning captures reasons before (before.1.activated handle pos
          (around.now + ackTimeout), before.2 ++ [.report (.clientEntered handle)]) :=
        .activate pos _ (reason crosses.1 crosses.2) crosses.2 listed
      have further : RunsAt captures around sound .none (forward around handle touch)
          (before.1.activated handle pos (around.now + ackTimeout),
            before.2 ++ [.report (.clientEntered handle)]) :=
        runs_forward (fun _ brings => by cases crosses.1.symm.trans brings)
          fun _ => by simp [activated]
      have runs := further fun holds => activation.kept (kept holds)
      have opened : ∀ after, Opened captures around .none _ after →
          Opened captures around reasons before after := fun after further =>
        .inr ⟨before, _, .refl, activation, further.moves⟩
      apply (runs.and (frees_forward touch _)).mono
      · exact fun _ after ended => opened after ended.1
      · exact fun _ after stopped =>
          ⟨opened after stopped.1.1, stopped.1.2.lookup, fun other => .inl (stopped.2 other)⟩
    · rintro _ _ ⟨rfl, rfl, unsound⟩
      exact ⟨.inl .refl, fun _ => unsound, fun other => absurd rfl other⟩
  · rename_i stays
    refine runs_forward held fun begins idle => stays ?_
    simp [begins, idle]

/-- When a touch takes the pointer over the edge. -/
structure Crosses (around : Surroundings) (task : CaptureTask) (handle : CaptureHandle)
    (met : Bool) : Prop where
  /-- The edge leads to a client, and neither has the pointer just come back there nor has it just
  been passed on. -/
  capture : ∃ pos, task.captureOf handle = some (pos, .default) ∧
    task.returnedJustNow around pos = false ∧ task.passedOnJustNow around pos = false
  ready : around.remoteReady handle = true ∨ task.activeClient = none
  settled : task.isTouchpad around = true ∨ task.justEntered around = false
  pushed : met = true ∨ around.android = true ∨ task.isTouchpad around = true ∨
    F64.zero.lt task.edgePressure = false

omit [FloatOps] in
theorem runs_passBack : Runs captures around sound (passBack around handle) := by
  refine (asks_getPos fun _ => listed).runs.andThen fun _ => ?_
  refine .andThen (.note fun _ => by constructor <;> rfl) fun _ => runs_letGo.andThen fun _ => ?_
  refine .task fun _ => ?_
  split
  · exact .emit trivial
  · exact .pure ()

omit [FloatOps] in
theorem runs_passOn : Runs captures around sound (passOn around handle) := by
  refine (asks_getPos fun _ => listed).runs.andThen fun _ => ?_
  refine .andThen (.note fun _ => by constructor <;> rfl) fun _ => runs_letGo.andThen fun _ => ?_
  refine .task fun _ => ?_
  split
  · exact .andThen (.emit trivial) fun _ => .emit trivial
  · exact .pure ()

omit listed in
omit [FloatOps] in
theorem runs_landAgain : Runs captures around sound (landAgain around) := by
  refine .task fun _ => (runs_releaseCaptureAt _).andThen fun _ => ?_
  split
  · exact .ite (.pure ()) (.emit trivial)
  · exact .pure ()

theorem runs_deliver (held : Holds reasons touch)
    (reason : touch = .begin → before.1.activeClient ≠ some handle →
      (∃ pos, before.1.captureOf handle = some (pos, .default)) → reasons.activates) :
    RunsAt captures around sound reasons (deliver around handle touch) before := by
  refine (asks_getType fun _ => listed).bind fun captureType given => .task ?_
  split
  · refine (asks_getPos fun _ => listed).bind fun _ _ => ?_
    exact (Runs.ite runs_letGo (.pure ())).at before
  · rename_i normal
    split
    · exact (runs_passOn listed).at before
    · refine runs_activateOrForward listed held fun begins other => reason begins other ?_
      cases captureType with
      | default => exact given
      | enterOnly => exact absurd rfl normal

theorem runs_announce (held : Holds reasons touch)
    (reason : touch = .begin → before.1.activeClient ≠ some handle →
      (∃ pos, before.1.captureOf handle = some (pos, .default)) → reasons.activates) :
    RunsAt captures around sound reasons (announce around handle touch) before := by
  refine .task ?_
  split
  · exact .emitThen (.emit trivial) (runs_deliver listed held reason)
  · exact runs_deliver listed held reason

omit listed in
omit [FloatOps] in
theorem asks_returning (listed : sound → Listed captures handle) :
    Asks captures sound (returning around handle) fun task returns =>
      returns = true → task.activeClient = none := by
  refine .task fun _ => ?_
  split
  · exact .pure fun _ _ => nofun
  · exact (asks_returnsToController listed).mono fun _ _ given _ => given

omit listed in
omit [FloatOps] in
theorem asks_armsPressure (listed : sound → Listed captures handle) (touch : Touch)
    (met returns : Bool) :
    Asks captures sound (armsPressure around handle touch met returns) fun task arms =>
      arms = false → touch = .begin → (∃ pos, task.captureOf handle = some (pos, .default)) →
        met = true ∨ around.android = true ∨ task.isTouchpad around = true ∨
          F64.zero.lt task.edgePressure = false := by
  refine .task fun _ => ?_
  split
  · refine (asks_getType listed).andThen fun _ => .pure ?_
    rintro present ⟨_, found⟩ rfl arms - ⟨_, normal⟩
    rw [normal] at found
    cases found
    simp at arms
  · rename_i spared
    refine .pure ?_
    rintro _ rfl - rfl -
    simpa [or_iff_not_imp_left] using spared

variable {met : Bool}

theorem runs_armOrAnnounce (held : Holds reasons touch)
    (reason : touch = .begin → before.1.activeClient ≠ some handle →
      (∃ pos, before.1.captureOf handle = some (pos, .default)) →
      (met = true ∨ around.android = true ∨ before.1.isTouchpad around = true ∨
        F64.zero.lt before.1.edgePressure = false) → reasons.activates) :
    RunsAt captures around sound reasons (armOrAnnounce around handle touch met) before := by
  refine (asks_returning fun _ => listed).bind fun returns _ => ?_
  refine (asks_armsPressure (fun _ => listed) touch met returns).bind fun _ given => ?_
  split
  · exact .update (.arm _ _ listed)
  · rename_i spared
    split
    · exact (runs_passBack listed).at before
    · refine runs_announce listed held fun begins other capture => ?_
      exact reason begins other capture (given (by simpa using spared) begins capture)

theorem runs_skipRepeated (held : Holds reasons touch)
    (reason : touch = .begin → before.1.activeClient ≠ some handle →
      (∃ pos, before.1.captureOf handle = some (pos, .default) ∧
        before.1.returnedJustNow around pos = false ∧ before.1.passedOnJustNow around pos = false) →
      (met = true ∨ around.android = true ∨ before.1.isTouchpad around = true ∨
        F64.zero.lt before.1.edgePressure = false) → reasons.activates) :
    RunsAt captures around sound reasons (skipRepeated around handle touch met) before := by
  refine .task ((asks_getPos fun _ => listed).bind fun pos given => ?_)
  split
  · exact runs_letGo.at before
  · rename_i apart
    refine runs_armOrAnnounce listed held fun begins other capture pushed => ?_
    refine reason begins other ⟨pos, ?_, ?_⟩ pushed
    · rcases given with ⟨_, found⟩
      rcases capture with ⟨_, normal⟩
      rw [normal] at found
      cases found
      exact normal
    · simpa [begins] using apart

theorem runs_skipEntry (held : Holds reasons touch)
    (reason : touch = .begin → before.1.activeClient ≠ some handle →
      (∃ pos, before.1.captureOf handle = some (pos, .default) ∧
        before.1.returnedJustNow around pos = false ∧ before.1.passedOnJustNow around pos = false) →
      (before.1.isTouchpad around = true ∨ before.1.justEntered around = false) →
      (met = true ∨ around.android = true ∨ before.1.isTouchpad around = true ∨
        F64.zero.lt before.1.edgePressure = false) → reasons.activates) :
    RunsAt captures around sound reasons (skipEntry around handle touch met) before := by
  refine .task ?_
  split
  · exact runs_landAgain.at before
  · rename_i settled
    refine runs_skipRepeated listed held fun begins other capture pushed => ?_
    refine reason begins other capture ?_ pushed
    simpa [begins, or_iff_not_imp_left] using settled

omit listed in
omit [FloatOps] in
theorem asks_leadsNowhere (listed : sound → Listed captures handle) (touch : Touch) :
    Asks captures sound (leadsNowhere around handle touch) fun task nowhere =>
      nowhere = false → touch = .begin →
        (∃ pos, task.captureOf handle = some (pos, .default)) →
          around.remoteReady handle = true ∨ task.activeClient = none := by
  unfold leadsNowhere
  split
  · refine (asks_getType listed).andThen fun _ => ?_
    split
    · refine (asks_returnsToController listed).andThen fun _ => .pure ?_
      intro task given _ leads _ _
      exact .inr (given (by simpa using leads))
    · rename_i ready
      refine .pure ?_
      rintro task ⟨_, found⟩ - - ⟨_, normal⟩
      rw [normal] at found
      cases found
      exact .inl (by simpa using ready)
  · rename_i input
    exact .pure fun _ _ begins => absurd begins input

theorem runs_handleTouch (held : Holds reasons touch)
    (reason : touch = .begin → before.1.activeClient ≠ some handle →
      Crosses around before.1 handle met → reasons.activates) :
    RunsAt captures around sound reasons (handleTouch around handle touch met) before := by
  refine (asks_leadsNowhere (fun _ => listed) touch).bind fun _ given => ?_
  split
  · exact runs_letGo.at before
  · rename_i leads
    refine runs_skipEntry listed held fun begins other capture settled pushed => ?_
    have ready := given (by simpa using leads) begins (capture.imp fun _ facts => facts.1)
    exact reason begins other ⟨capture, ready, settled, pushed⟩

omit listed in
omit [FloatOps] in
theorem OnlyPressure.crosses {after : World} (only : OnlyPressure before after)
    (crosses : Crosses around after.1 handle met) : Crosses around before.1 handle met := by
  rcases only with ⟨_, _, _, same⟩
  rw [same] at crosses
  exact ⟨crosses.capture, crosses.ready, crosses.settled, crosses.pushed⟩

/-- When a touch makes a client active. -/
structure Activates (around : Surroundings) (task : CaptureTask) (handle : CaptureHandle)
    (touch : Touch) : Prop where
  there : task.hasCapture handle = true
  unbound : task.releaseBindPressed around = false
  other : task.activeClient ≠ some handle
  passes : ∃ met, Counts around task handle touch .begin met ∧ Crosses around task handle met

omit listed in
theorem Counts.of_input {task : CaptureTask} {event : InputEvent} {counted : Touch}
    (counts : Counts around task handle touch counted met) (brings : counted = .input event) :
    touch = .input event := by
  cases counts with
  | free => exact brings
  | fresh | reached => cases brings

theorem runs_measureAndHandle (held : Holds reasons touch)
    (reason : before.1.activeClient ≠ some handle →
      (∃ met, Counts around before.1 handle touch .begin met ∧
        Crosses around before.1 handle met) → reasons.activates) :
    RunsAt captures around sound reasons (measureAndHandle around handle touch) before := by
  intro kept
  rw [measureAndHandle, ensures_bind]
  apply ((runs_measure listed touch before kept).and (ensures_measure touch before)).mono
  · rintro _ _ ⟨opened, passes⟩
    split
    · rename_i counted met
      have crossing := passes counted met rfl
      have holds : Holds reasons counted := fun event brings =>
        held event (crossing.2.of_input brings)
      refine (runs_handleTouch listed holds fun begins other crosses => ?_).onward opened.moves kept
      subst begins
      refine reason ?_ ⟨met, crossing.2, crossing.1.crosses crosses⟩
      rcases crossing.1 with ⟨_, _, _, same⟩
      rw [same] at other
      exact other
    · exact .inl opened.moves
  · exact fun _ _ stopped => ⟨stopped.1.1.weaken, stopped.1.2⟩

omit listed

theorem runs_handleQueued (same : before.1.captures = captures) (held : Holds reasons touch)
    (reason : Activates around before.1 handle touch → reasons.activates) :
    RunsAt captures around sound reasons (handleQueued around handle touch) before := by
  refine .task ?_
  split
  · exact (Runs.ite runs_letGo (.pure ())).at before
  · rename_i there
    have there : before.1.hasCapture handle = true := by simpa using there
    split
    · exact runs_releaseCapture.at before
    · rename_i unbound
      have listed : Listed captures handle := by
        rcases List.any_eq_true.mp there with ⟨capture, member, named⟩
        rw [same] at member
        exact ⟨capture, member, of_decide_eq_true named⟩
      exact runs_measureAndHandle listed held fun other passes =>
        reason ⟨there, by simpa using unbound, other, passes⟩

def touchOf : CaptureEvent → Option Touch
  | .begin => some .begin
  | .input event => some (.input event)
  | .entry _ | .clipboard .. => none

theorem runs_handleCaptureEvent {event : CaptureEvent} (same : before.1.captures = captures)
    (held : ∀ touch, touchOf event = some touch → Holds reasons touch)
    (reason : ∀ touch, touchOf event = some touch → Activates around before.1 handle touch →
      reasons.activates) :
    RunsAt captures around sound reasons (handleCaptureEvent around handle event) before := by
  cases event with
  | entry =>
    rw [handleCaptureEvent]
    exact .update (.note (by constructor <;> rfl))
  | clipboard =>
    rw [handleCaptureEvent]
    split
    · exact .emit (.emit (by trivial))
    · exact (Runs.pure ()).at before
  | begin => exact runs_handleQueued same (held .begin rfl) (reason .begin rfl)
  | input event =>
    exact runs_handleQueued same (held (.input event) rfl) (reason (.input event) rfl)

end CaptureTask

end Syntra.Capture
