import Syntra.Capture.Turns
import Syntra.StateMachine.Run

/-!
# Who is controlled

The fields that say which client is controlled, and whether its entry is still to be acknowledged,
belong together in every state that the capture task reaches (`coherent_always`).
-/

namespace Syntra.Capture

open Proto StateMachine

namespace CaptureTask

/-- The session fields fit together: what waits for an acknowledgement has a client that it waits
for. -/
structure Coherent (task : CaptureTask) : Prop where
  sending : task.state = .sending → task.activeClient ≠ none
  deadline : task.ackDeadline ≠ none ↔ task.activeClient ≠ none ∧ task.state = .waitingForAck
  held : task.heldUntilAck ≠ [] → task.activeClient ≠ none ∧ task.state = .waitingForAck
  capped : task.heldUntilAck.length ≤ maxHeldUntilAck
  departure : task.localDeparture ≠ none → task.activeClient ≠ none

variable {captures : List (CaptureHandle × Position × CaptureType)} {around : Surroundings}
  {reasons : Reasons} {before after : World}

variable {task : CaptureTask}

theorem Agrees.coherent {after : CaptureTask} (agrees : task.Agrees after)
    (coherent : task.Coherent) : after.Coherent := by
  constructor
  · rw [agrees.state, agrees.activeClient]
    exact coherent.sending
  · rw [agrees.ackDeadline, agrees.state, agrees.activeClient]
    exact coherent.deadline
  · rw [agrees.heldUntilAck, agrees.state, agrees.activeClient]
    exact coherent.held
  · rw [agrees.heldUntilAck]
    exact coherent.capped
  · rw [agrees.localDeparture, agrees.activeClient]
    exact coherent.departure

theorem Move.coherent (move : Move captures around before after)
    (coherent : before.1.Coherent) : after.1.Coherent := by
  cases move with
  | note agrees => exact agrees.coherent coherent
  | emit | refuse | enter | forward => exact coherent
  | arm | disarm => exact ⟨coherent.1, coherent.2, coherent.3, coherent.4, coherent.5⟩
  | release => constructor <;> simp [released]
  | retry _ active waiting =>
    exact ⟨coherent.sending, by simp [active, waiting], coherent.held, coherent.capped,
      coherent.departure⟩

theorem Turning.coherent (turning : Turning captures reasons before after)
    (coherent : before.1.Coherent) : after.1.Coherent := by
  cases turning with
  | activate =>
    constructor
    · simp [activated]
    · simp [activated]
    · simp [activated]
    · exact coherent.capped
    · simp [activated]
  | acknowledge _ active => constructor <;> simp [acknowledged, active]
  | say => exact coherent
  | handOver => constructor <;> simp [handedOver]
  | hold _ active waiting room =>
    refine ⟨coherent.sending, coherent.deadline, fun _ => ⟨active, waiting⟩, ?_, coherent.departure⟩
    simp only [List.length_append, List.length_singleton]
    exact room

theorem Rephased.coherent {after : CaptureTask} (rephased : Rephased task after)
    (coherent : task.Coherent) : after.Coherent := by
  rcases rephased with ⟨_, _, rfl⟩
  exact ⟨coherent.1, coherent.2, coherent.3, coherent.4, coherent.5⟩

theorem edited_coherent (input : CaptureInput) (coherent : task.Coherent) :
    (edited task input).Coherent := by
  unfold edited
  split <;> exact ⟨coherent.1, coherent.2, coherent.3, coherent.4, coherent.5⟩

theorem coherent_new (backend : Option CaptureBackend) (releaseBind : List UInt32) :
    (new backend releaseBind).Coherent := by
  constructor <;> simp [new]

variable [FloatOps]

theorem step_coherent (input : CaptureInput) (coherent : task.Coherent) :
    (step task (around, input)).1.Coherent := by
  apply step_keeps (fun world => world.1.Coherent)
  · exact fun _ agrees => agrees.coherent coherent
  · exact edited_coherent input coherent
  · exact fun _ _ move => move.coherent
  · exact fun _ _ turning => turning.coherent
  · exact fun _ _ _ rephased _ => rephased.coherent

/-- Whatever the task takes in, its session fields fit together. -/
theorem coherent_always (backend : Option CaptureBackend) (releaseBind : List UInt32)
    (inputs : List (Surroundings × CaptureInput)) :
    (outcome step (new backend releaseBind) inputs).1.Coherent :=
  have always (task : CaptureTask) (input : Surroundings × CaptureInput)
      (_ : Meets step (new backend releaseBind) inputs task input) : True := trivial
  outcome_keeps (fun _ input coherent _ => step_coherent input.2 coherent) always
    (coherent_new backend releaseBind)

end CaptureTask

end Syntra.Capture
