import Syntra.Capture.Turns
import Syntra.StateMachine.Run

/-!
# Captures that are looked up

The capture task remembers the capture of the active client and of the push that is measured. Both
are looked up later, so a capture that is destroyed while the task still remembers it ends the task
(`gone_capture`). As long as no destruction leaves one of them behind, every capture that is looked
up is there (`looks_up_present`).
-/

namespace Syntra.Capture

open Proto StateMachine Tables
open Handler (ensures_bind ensures_task ensures_update)

namespace CaptureTask

variable {around : Surroundings} {handle : CaptureHandle}

def Intact (task : CaptureTask) : Prop :=
  Kept task.captures task

/-- No destruction leaves a capture behind that the task remembers. -/
def Spares (task : CaptureTask) : CaptureInput → Prop
  | .request (.destroy handle) => task.phase ≠ .ended →
    (∀ measured, task.pressure = some measured → measured.1 ≠ handle) ∧
    (task.activeClient = some handle → task.phase = .session ∧ handle ∈ task.enabledCaptures)
  | _ => True

section Removal

variable {before : World}

theorem ensures_getPos (listed : Listed before.1.captures handle) :
    (getPos handle).Ensures before (fun _ after => after = before) fun _ _ => False := by
  simp only [getPos, lookUp, ensures_bind, ensures_task]
  split
  · exact rfl
  · rename_i absent
    rcases listed with ⟨capture, member, rfl⟩
    rw [captureOf, Option.map_eq_none_iff] at absent
    simpa using List.find?_eq_none.mp absent capture member

variable [FloatOps]

theorem ensures_clearPressure (listed : ∀ measured, before.1.pressure = some measured →
    Listed before.1.captures measured.1) :
    (clearPressure around).Ensures before
      (fun _ after => after.1.pressure = none ∧ after.1.captures = before.1.captures)
      fun _ _ => False := by
  simp only [clearPressure, ensures_bind, ensures_task, ensures_update]
  split
  · rename_i measured soFar since arms
    simp only [reportPressure, Bool.true_or, if_true, ensures_bind, ensures_task, ensures_update]
    refine (ensures_getPos ?_).mono ?_ ?_
    · exact listed _ arms
    · rintro _ _ rfl
      exact ⟨rfl, rfl⟩
    · exact fun _ _ => False.elim
  · exact ⟨rfl, rfl⟩

theorem ensures_letClientGo (listed : ∀ measured, before.1.pressure = some measured →
    Listed before.1.captures measured.1) :
    (releaseCapture around).Ensures before (fun _ after => Kept before.1.captures after.1)
      fun halt after => halt = .captureError ∧ Kept before.1.captures after.1 := by
  rw [releaseCapture, ensures_bind]
  apply (ensures_clearPressure listed).mono
  · rintro _ cleared ⟨free, same⟩
    have kept (after : World) (released : Released around cleared after) :
        Kept before.1.captures after.1 := by
      rcases released with ⟨_, _, rfl⟩
      exact ⟨same, by simp [released, free], by simp [released]⟩
    rw [ensures_bind]
    apply (ensures_releaseCaptureAt none cleared).mono
    · exact fun _ after released => kept after released
    · exact fun _ after stopped => ⟨stopped.1, kept after stopped.2⟩
  · exact fun _ _ => False.elim

theorem ensures_destroyActive {task : CaptureTask}
    (listed : ∀ measured, task.pressure = some measured →
      Listed (task.removeCapture handle).captures measured.1)
    (active : task.activeClient = some handle) (enabled : handle ∈ task.enabledCaptures) :
    (destroyCapture around handle).Ensures (task, [])
      (fun _ after => Kept (task.removeCapture handle).captures after.1) fun halt after =>
        halt ≠ .noSuchCapture ∧ Kept (task.removeCapture handle).captures after.1 := by
  have still : (task.removeCapture handle).activeClient = some handle := active
  have there : handle ∈ (task.removeCapture handle).enabledCaptures := enabled
  simp only [destroyCapture, releaseActive, call, ensures_bind, ensures_task,
    ensures_update, there, still, if_true]
  have gone : (releaseCapture around).Ensures (task.removeCapture handle, []) _ _ :=
    ensures_letClientGo listed
  apply gone.mono
  · intro _ after kept
    have erased : Kept (task.removeCapture handle).captures
        { after.1 with enabledCaptures := after.1.enabledCaptures.erase handle } :=
      ⟨kept.same, kept.pressure, kept.active⟩
    unfold answer
    split
    · exact ⟨by decide, erased⟩
    · exact erased
  · rintro _ _ ⟨rfl, kept⟩
    exact ⟨by decide, kept⟩

end Removal

variable [FloatOps]

/-- A capture is looked up that is gone. -/
def Panics (task : CaptureTask) (input : Surroundings × CaptureInput) : Prop :=
  (CaptureTask.handle input.1 task.phase input.2 (task, [])).1 = .error .noSuchCapture

omit [FloatOps] in
theorem Kept.add {task : CaptureTask} {pos : Position} {captureType : CaptureType}
    (kept : Kept task.captures task) : Kept (task.addCapture handle pos captureType).captures
      (task.addCapture handle pos captureType) := by
  have more (other : CaptureHandle) (listed : Listed task.captures other) :
      Listed (task.addCapture handle pos captureType).captures other := by
    rcases listed with ⟨capture, member, named⟩
    exact ⟨capture, List.mem_append_left _ member, named⟩
  refine ⟨rfl, ?_, ?_⟩
  · exact fun measured arms => more _ (kept.pressure measured arms)
  · exact fun other active => more _ (kept.active other active)

variable {task : CaptureTask}

section

omit [FloatOps]

theorem listed_removeCapture {other : CaptureHandle} (listed : Listed task.captures other)
    (differs : other ≠ handle) : Listed (task.removeCapture handle).captures other := by
  rcases listed with ⟨capture, member, rfl⟩
  exact ⟨capture, List.mem_filter.mpr ⟨member, by simpa using differs⟩, rfl⟩

theorem Kept.remove (kept : Kept task.captures task)
    (unmeasured : ∀ measured, task.pressure = some measured → measured.1 ≠ handle)
    (inactive : task.activeClient ≠ some handle) :
    Kept (task.removeCapture handle).captures (task.removeCapture handle) := by
  refine ⟨rfl, ?_, ?_⟩
  · exact fun measured arms =>
      listed_removeCapture (kept.pressure measured arms) (unmeasured measured arms)
  · intro other active
    refine listed_removeCapture (kept.active other active) ?_
    rintro rfl
    exact inactive active

variable {captures : List (CaptureHandle × Position × CaptureType)}

theorem Rephased.kept {after : CaptureTask} (rephased : Rephased task after)
    (kept : Kept captures task) : Kept captures after := by
  rcases rephased with ⟨_, _, rfl⟩
  exact ⟨kept.same, kept.pressure, kept.active⟩

theorem Kept.intact (kept : Kept captures task) : task.Intact := by
  rw [Intact, kept.same]
  exact kept

end

variable {input : CaptureInput}

theorem not_panics {post : Unit → World → Prop} {stopped : Halt → World → Prop}
    (ensures : (CaptureTask.handle around task.phase input).Ensures (task, []) post stopped)
    (never : ∀ after, ¬stopped .noSuchCapture after) : ¬task.Panics (around, input) := by
  intro panics
  unfold Panics at panics
  unfold Handler.Ensures at ensures
  split at ensures
  · rename_i ended
    simp [ended] at panics
  · rename_i halted
    simp only [halted, Except.error.injEq] at panics
    exact never _ (panics ▸ ensures)

theorem step_intact_of_edited (live : task.phase ≠ .ended)
    (kept : Kept (edited task input).captures (edited task input)) :
    (step task (around, input)).1.Intact ∧ ¬task.Panics (around, input) := by
  constructor
  · have turn : Turn around task input (step task (around, input)) := step_turns live input
    rcases turn with ⟨_, _, opened, rephased, -⟩
    exact (rephased.kept (opened.kept kept)).intact
  · exact not_panics (takesTurn_handle live input) fun _ stopped => stopped.2.lookup rfl kept

theorem step_intact_of_destroyed (intact : task.Intact)
    (unmeasured : ∀ measured, task.pressure = some measured → measured.1 ≠ handle)
    (active : task.activeClient = some handle) (session : task.phase = .session)
    (enabled : handle ∈ task.enabledCaptures) :
    (step task (around, .request (.destroy handle))).1.Intact ∧
      ¬task.Panics (around, .request (.destroy handle)) := by
  have listed (measured : CaptureHandle × F64 × ℕ) (arms : task.pressure = some measured) :
      Listed (task.removeCapture handle).captures measured.1 :=
    listed_removeCapture (intact.pressure measured arms) (unmeasured measured arms)
  have destroys : (destroyCapture around handle).Ensures (task, []) _ _ :=
    ensures_destroyActive listed active enabled
  have handles : CaptureTask.handle around task.phase (.request (.destroy handle)) =
      destroyCapture around handle := by
    rw [session]
    rfl
  rw [← handles] at destroys
  constructor
  · have after : Kept (task.removeCapture handle).captures
        (step task (around, .request (.destroy handle))).1 :=
      step_of_ensures (fun after => Kept _ after.1) destroys (fun _ kept => kept)
        fun halt _ stopped => (rephased_conclude halt).kept stopped.2
    exact after.intact
  · exact not_panics destroys fun _ stopped => stopped.1 rfl

theorem step_intact (intact : task.Intact) (spares : task.Spares input) :
    (step task (around, input)).1.Intact ∧ ¬task.Panics (around, input) := by
  by_cases ended : task.phase = .ended
  · constructor
    · have rests : ∃ after, task.Agrees after ∧ step task (around, input) = (after, []) :=
        step_ended ended input
      rcases rests with ⟨after, agrees, same⟩
      have move : Move task.captures around (task, []) (after, []) := .note agrees
      rw [same]
      exact (move.kept intact).intact
    · unfold Panics
      rw [ended]
      cases input <;> nofun
  · by_cases destroyed : ∃ handle, input = .request (.destroy handle) ∧
      task.activeClient = some handle
    · rcases destroyed with ⟨handle, rfl, active⟩
      rcases spares ended with ⟨unmeasured, barrier⟩
      exact step_intact_of_destroyed intact unmeasured active (barrier active).1 (barrier active).2
    · refine step_intact_of_edited ended ?_
      unfold edited
      split
      · exact Kept.add intact
      · rename_i handle
        exact Kept.remove intact (spares ended).1 fun active => destroyed ⟨handle, rfl, active⟩
      · exact intact

omit [FloatOps] in
theorem intact_new (backend : Option CaptureBackend) (releaseBind : List UInt32) :
    (new backend releaseBind).Intact :=
  ⟨rfl, nofun, nofun⟩

/-- In a run in which no destruction leaves a remembered capture behind, every capture that is
looked up is there. -/
theorem looks_up_present (backend : Option CaptureBackend) (releaseBind : List UInt32)
    (inputs : List (Surroundings × CaptureInput))
    (spares : ∀ task input, Meets step (new backend releaseBind) inputs task input →
      task.Spares input.2) :
    ∀ task input, Meets step (new backend releaseBind) inputs task input → ¬task.Panics input := by
  intro task input meets
  have intact : task.Intact :=
    meets.reached (fun _ _ intact spares => (step_intact intact spares).1) spares
      (intact_new backend releaseBind)
  exact (step_intact intact (spares task input meets)).2

def calm : Surroundings where
  android := false
  now := 0
  remoteReady _ := true
  peerConnected _ := true
  clientFingerprint _ := none
  ownFingerprint := ""
  pressedKeys := []
  pressedButtons := []
  failure := none
  placed := true
  sendFails := false
  cleanupLimit := none

def destroyedActive : List (Surroundings × CaptureInput) :=
  [(calm, .created .x11), (calm, .request (.create 1 .left .default)), (calm, .captured 1 .begin),
    (calm, .request (.destroy 1)),
    (calm, .request .release)]

omit [FloatOps] in
theorem looks_up_present_destroyed : ∃ inputs : List (Surroundings × CaptureInput),
    inputs = destroyedActive ∧ ∀ [FloatOps], ∀ task input,
      Meets step (new none [1]) inputs task input → ¬task.Panics input := by
  refine ⟨destroyedActive, rfl, fun task input => looks_up_present none [1] _ ?_ task input⟩
  intro _ _ meets
  simp only [destroyedActive, meets_cons, not_meets_nil, or_false] at meets
  rcases meets with ⟨-, rfl⟩ | ⟨-, rfl⟩ | ⟨-, rfl⟩ | ⟨reached, rfl⟩ | ⟨-, rfl⟩
  · trivial
  · trivial
  · trivial
  · intro _
    rw [reached]
    refine ⟨?_, fun _ => ⟨rfl, ?_⟩⟩
    · nofun
    · show (1 : CaptureHandle) ∈ (∅ : KeySet CaptureHandle).insert 1 ()
      decide
  · trivial

def measuring : CaptureTask :=
  { new none [1] with
    phase := .session
    edgePressure := ⟨0x4059000000000000⟩
    captures := [(1, .left, .default)]
    enabledCaptures := (∅ : KeySet CaptureHandle).insert 1 ()
    pressure := some (1, .zero, 0) }

/-- The capture of that client is destroyed. -/
def bereft : CaptureTask :=
  { measuring with captures := [], enabledCaptures := measuring.enabledCaptures.erase 1 }

omit [FloatOps] in
/-- The capture on which a push is measured is destroyed. The push is looked up when it ends. -/
theorem gone_capture : ∃ inputs : List (Surroundings × CaptureInput), ∀ [FloatOps],
    ∃ task input, Meets step (new none [1]) inputs task input ∧ task.Panics input := by
  refine ⟨[(calm, .created .x11), (calm, .request (.setEdgePressure ⟨0x4059000000000000⟩)),
    (calm, .request (.create 1 .left .default)), (calm, .captured 1 .begin),
    (calm, .request (.destroy 1)), (calm, .request .release)], ?_⟩
  intro _
  refine ⟨bereft, (calm, .request .release), ?_, rfl⟩
  have destroyed : Meets step measuring [(calm, .request (.destroy 1)), (calm, .request .release)]
      bereft (calm, .request .release) :=
    Meets.here.onward rfl
  exact (((destroyed.onward rfl).onward rfl).onward rfl).onward rfl

end CaptureTask

end Syntra.Capture
