import Syntra.Capture.Turns

/-!
# Who holds input

Presses are held by the event that brings them, and clients are entered by a touch of an edge or a
hand-off, which lets go of what is held. Every move of the capture task bides: it keeps what is held
or lets it go, and enters no client.
-/

namespace Syntra.Capture

open Proto StateMachine Tables Handler False
open Handler (ensures_bind ensures_task ensures_emit ensures_update ensures_pure)

namespace CaptureTask

variable {around : Surroundings} {handle : CaptureHandle} {enters holds : Prop}

/-- What is held stays or is let go, unless `holds`, and no client is entered before it is let go,
unless `enters`. -/
def Bides (enters holds : Prop) (before after : World) : Prop :=
  (holds ∨ after.1.heldUntilAck = before.1.heldUntilAck ∨ after.1.heldUntilAck = []) ∧
    ∃ more, after.2 = before.2 ++ more ∧ (enters ∨ ¬holds ∧ after.1.heldUntilAck = [] ∨
      ∀ client, .report (.clientEntered client) ∉ more)

instance : Std.Refl (Bides enters holds) where
  refl before := ⟨.inr (.inl rfl), [], by simp, .inr (.inr (by simp))⟩

instance : IsTrans World (Bides enters holds) where
  trans := by
    rintro before middle after ⟨kept, first, log, entered⟩ ⟨held, second, longer, later⟩
    refine ⟨?_, first ++ second, by rw [longer, log, List.append_assoc], ?_⟩
    · rcases held with holds | same | none
      · exact .inl holds
      · rw [same]
        exact kept
      · exact .inr (.inr none)
    · rcases later with enters | cleared | none
      · exact .inl enters
      · exact .inr (.inl cleared)
      · rcases entered with enters | ⟨keeps, cleared⟩ | never
        · exact .inl enters
        · rcases held.resolve_left keeps with same | gone
          · exact .inr (.inl ⟨keeps, same.trans cleared⟩)
          · exact .inr (.inl ⟨keeps, gone⟩)
        · exact .inr (.inr fun client member =>
            (List.mem_append.mp member).elim (never client) (none client))

theorem not_entered_of_quiet {effect : CaptureEffect} (quiet : effect.Quiet)
    (client : CaptureHandle) : effect ≠ .report (.clientEntered client) := by
  rintro rfl
  exact quiet

theorem not_entered_of_farewell {active : Option CaptureHandle} (client : CaptureHandle) :
    .report (.clientEntered client) ∉ farewell around active := by
  cases active with
  | none => simp [farewell]
  | some =>
    simp only [farewell, List.mem_append, List.mem_map, not_or]
    refine ⟨by simp, ?_⟩
    split <;> simp

theorem Bides.of_kept {task after : CaptureTask} {log more : List CaptureEffect}
    (kept : after.heldUntilAck = task.heldUntilAck ∨ after.heldUntilAck = [])
    (unentered : ∀ client, .report (.clientEntered client) ∉ more) :
    Bides enters holds (task, log) (after, log ++ more) :=
  ⟨.inr kept, more, rfl, .inr (.inr unentered)⟩

theorem Bides.of_noted {task after : CaptureTask} {log : List CaptureEffect}
    (kept : after.heldUntilAck = task.heldUntilAck) :
    Bides enters holds (task, log) (after, log) := by
  have bides : Bides enters holds (task, log) (after, log ++ []) := .of_kept (.inl kept) (by simp)
  rwa [List.append_nil] at bides

variable {captures : List (CaptureHandle × Position × CaptureType)} {before after : World}

theorem Move.bides (move : Move captures around before after) :
    Bides enters holds before after := by
  cases move with
  | note agrees => exact .of_noted agrees.heldUntilAck
  | arm | disarm | retry => exact .of_noted rfl
  | emit quiet =>
    refine .of_kept (.inl rfl) fun client member => ?_
    exact not_entered_of_quiet quiet client (List.mem_singleton.mp member).symm
  | release silent =>
    rw [List.append_assoc]
    refine .of_kept (.inr rfl) fun client member => ?_
    rcases List.mem_append.mp member with quiet | farewell
    · exact not_entered_of_quiet (silent _ quiet) client rfl
    · exact not_entered_of_farewell client farewell
  | refuse | enter | forward => exact .of_kept (.inl rfl) (by simp)

theorem Turning.bides {reasons : Reasons} (turning : Turning captures reasons before after)
    (entered : reasons.activates → enters) (held : reasons.holds → holds)
    (handed : reasons.handsOver → ¬holds) : Bides enters holds before after := by
  cases turning with
  | activate _ _ reason => exact ⟨.inr (.inl rfl), [_], rfl, .inl (entered reason)⟩
  | acknowledge _ _ _ silent =>
    rw [List.append_assoc]
    refine .of_kept (.inr rfl) fun client member => ?_
    rcases List.mem_append.mp member with quiet | replayed
    · exact not_entered_of_quiet (silent _ quiet) client rfl
    · simp at replayed
  | say => exact .of_kept (.inl rfl) (by simp)
  | handOver _ reason =>
    exact ⟨.inr (.inr rfl), _, List.append_assoc .., .inr (.inl ⟨handed reason, rfl⟩)⟩
  | hold reason => exact ⟨.inl (held reason), [], by simp, .inr (.inr (by simp))⟩

theorem Moves.bides (moves : Moves captures around before after) :
    Bides enters holds before after :=
  moves.keeps (fun _ _ move bides => trans_of _ bides move.bides) (refl_of _ before)

theorem Runs.along {α : Type} {handler : Handler α} (runs : Runs captures around False handler) :
    handler.Along (Bides enters holds) := by
  intro before
  apply (runs before elim).mono
  · exact fun _ _ opened => opened.moves.bides
  · exact fun _ _ stopped => stopped.1.moves.bides

variable [FloatOps]

variable {input : CaptureInput} {task : CaptureTask}

omit [FloatOps] in
theorem edited_heldUntilAck (task : CaptureTask) (input : CaptureInput) :
    (edited task input).heldUntilAck = task.heldUntilAck := by
  unfold edited
  split
  · rfl
  · rfl
  · rfl

theorem step_bides (entered : (reasonsOf around task input).activates → enters)
    (held : (reasonsOf around task input).holds → holds)
    (handed : (reasonsOf around task input).handsOver → ¬holds) :
    Bides enters holds (task, []) (step task (around, input)) := by
  apply step_keeps (Bides enters holds (task, []))
  · exact fun _ agrees => .of_noted agrees.heldUntilAck
  · exact .of_noted (edited_heldUntilAck task input)
  · exact fun _ _ move bides => trans_of _ bides move.bides
  · exact fun _ _ turning bides => trans_of _ bides (turning.bides entered held handed)
  · rintro ⟨middle, log⟩ after quiet ⟨_, _, rfl⟩ silent bides
    refine trans_of _ bides (.of_kept (.inl rfl) fun client member => ?_)
    exact not_entered_of_quiet (silent _ member) client rfl

def bringsPress : CaptureInput → Bool
  | .captured _ (.input event) => isHeld event
  | _ => false

theorem not_holds_of_other (other : bringsPress input = false) :
    ¬(reasonsOf around task input).holds := by
  rintro ⟨_, _, rfl, press⟩
  cases other.symm.trans press

theorem not_counts_press {event : InputEvent} {met : Bool} (press : isHeld event = true) :
    ¬Counts around task handle (.input event) .begin met := by
  intro counts
  cases counts with
  | reached => cases press

theorem not_activates_of_press {event : InputEvent} (press : isHeld event = true) :
    ¬(reasonsOf around task (.captured handle (.input event))).activates := by
  rintro ⟨_, _, _, ⟨⟩, about, activates⟩
  cases about
  rcases activates.passes with ⟨_, counts, -⟩
  exact not_counts_press press counts

def BidesFrom {α : Type} (handler : Handler α) (before : World) : Prop :=
  handler.Ensures before (fun _ after => Bides False False before after)
    fun _ after => Bides False False before after

theorem bides_step (bides : BidesFrom (CaptureTask.handle around task.phase input) (task, [])) :
    Bides False False (task, []) (step task (around, input)) := by
  refine step_of_ensures (Bides False False (task, [])) bides (fun _ run => run) ?_
  intro halt final run
  refine trans_of (Bides False False) run ?_
  cases halt with
  | noSuchCapture => exact .of_noted rfl
  | captureError | sessionOver =>
    rcases rephased_retire final.1 with ⟨_, _, same⟩
    exact .of_kept (.inl (by rw [same])) (by simp)

section Presses

variable {before : World} {event : InputEvent} {post : Unit → World → Prop}
  {stopped : Halt → World → Prop}

omit [FloatOps] in
theorem ensures_getPos_or_absent {post : Position → World → Prop}
    (found : ∀ pos, post pos before) (absent : stopped .noSuchCapture before) :
    (getPos handle).Ensures before post stopped := by
  simp only [getPos, lookUp, ensures_bind, ensures_task]
  split
  · exact found _
  · exact absent

theorem ensures_handleTouch_input {met : Bool} (active : before.1.activeClient ≠ none)
    (delivers : (deliver around handle (.input event)).Ensures before post stopped)
    (absent : stopped .noSuchCapture before) :
    (handleTouch around handle (.input event) met).Ensures before post stopped := by
  have back : (returning around handle).Ensures before
      (fun back after => back = false ∧ after = before) stopped := by
    simp only [returning, ensures_bind, ensures_task]
    split
    · exact ⟨rfl, rfl⟩
    · simp only [returnsToController, ensures_bind, ensures_task]
      split
      · exact ⟨rfl, rfl⟩
      · rw [if_pos (by simp [Option.isSome_iff_ne_none.mpr active])]
        exact ⟨rfl, rfl⟩
  simp only [handleTouch, leadsNowhere, skipEntry, skipRepeated, reduceCtorEq, if_false,
    decide_false, Bool.false_and, ensures_bind, ensures_pure, ensures_task]
  refine ensures_getPos_or_absent (fun _ => ?_) absent
  rw [armOrAnnounce, ensures_bind]
  apply back.mono
  · rintro _ _ ⟨rfl, rfl⟩
    simpa [armsPressure, announce] using delivers
  · exact fun _ _ stops => stops

variable {capture : Position × CaptureType} {pos : Position} {client : CaptureHandle}

omit [FloatOps] in
theorem hasCapture_of_captureOf {task : CaptureTask}
    (found : task.captureOf handle = some capture) : task.hasCapture handle = true := by
  rcases Option.map_eq_some_iff.mp found with ⟨listed, among, _⟩
  exact List.any_eq_true.mpr ⟨listed, List.mem_of_find?_eq_some among, by
    simpa using List.find?_some among⟩

omit [FloatOps] in
theorem ensures_getType {post : CaptureType → World → Prop}
    (found : before.1.captureOf handle = some capture) (holds : post capture.2 before) :
    (getType handle).Ensures before post stopped := by
  simp only [getType, lookUp, ensures_bind, ensures_task, found]
  exact holds

omit [FloatOps] in
theorem listed_of_captureOf {task : CaptureTask}
    (found : task.captureOf handle = some capture) : Listed task.captures handle := by
  rcases Option.map_eq_some_iff.mp found with ⟨listed, among, _⟩
  exact ⟨listed, List.mem_of_find?_eq_some among, by simpa using List.find?_some among⟩

theorem ensures_deliver_copy (copy : before.1.captureOf handle = some (pos, .enterOnly)) :
    BidesFrom (deliver around handle (.input event)) before := by
  rw [BidesFrom, deliver, ensures_bind]
  refine ensures_getType copy ?_
  have edge : Asks before.1.captures False (getPos handle) _ := asks_getPos elim
  have lets : Runs before.1.captures around False (do
      let pos ← getPos handle
      if !before.1.isDefaultCaptureAt pos then
        letGo around : Handler Unit) :=
    edge.runs.andThen fun _ => .ite runs_letGo (.pure ())
  exact lets.along before

theorem ensures_copy (active : before.1.activeClient ≠ none) (press : isHeld event = true)
    (copy : before.1.captureOf handle = some (pos, .enterOnly)) :
    BidesFrom (handleQueued around handle (.input event)) before := by
  simp only [BidesFrom, handleQueued, ensures_bind, ensures_task,
    hasCapture_of_captureOf copy, Bool.not_true, Bool.false_eq_true, if_false]
  split
  · have releases : Runs before.1.captures around False (releaseCapture around) :=
      runs_releaseCapture
    exact releases.along before
  · rw [measureAndHandle, ensures_bind]
    have measures : Runs before.1.captures around False (measure around handle (.input event)) :=
      runs_measure (listed_of_captureOf copy) (.input event)
    apply ((measures.along before).and (ensures_measure (.input event) before)).mono
    · rintro _ after ⟨bides, passes⟩
      split
      · rename_i counted met
        rcases passes counted met rfl with ⟨⟨_, _, _, same⟩, counts⟩
        cases counts with
        | free =>
          have there : after.1.captureOf handle = some (pos, .enterOnly) := by
            rw [same]
            exact copy
          have onward : (deliver around handle (.input event)).Attains after
              (Bides False False before) :=
            (ensures_deliver_copy there).mono (fun _ _ => trans_of _ bides)
              fun _ _ => trans_of _ bides
          exact ensures_handleTouch_input (by rw [same]; exact active) onward bides
        | reached => cases press
      · exact bides
    · exact fun _ _ stopped => stopped.1

theorem ensures_forward_press (active : before.1.activeClient = some client)
    (waiting : before.1.state = .waitingForAck) (press : isHeld event = true)
    (room : before.1.heldUntilAck.length < maxHeldUntilAck) :
    (forward around handle (.input event)).Ensures before
      (fun _ after => after.1.activeClient = none ∨
        after.1.heldUntilAck = before.1.heldUntilAck ++ [event])
      fun halt after => halt ≠ .noSuchCapture → after.1.activeClient = none := by
  simp only [forward, inputTarget, active, ensures_bind, ensures_task, entrySide]
  refine ensures_getPos_or_absent (fun _ => ?_) (absurd rfl)
  simp only [outgoing, hold, press, room, sendOrRelease, ensures_bind, ensures_pure, ensures_task,
    waiting, ensures_update, ensures_emit, Bool.true_and, decide_true, if_true]
  split
  · apply ((ensures_releaseCapture _).and (frees_releaseCapture _)).mono
    · exact fun _ _ released => .inl released.1
    · exact fun _ _ stopped => stopped.2
  · exact .inr rfl

/-- A press is collected: the barrier that brings it is there and takes input, no push is measured,
and there is room. -/
structure Collects (task : CaptureTask) (handle : CaptureHandle) : Prop where
  session : task.phase = .session
  barrier : ∃ pos, task.captureOf handle = some (pos, .default)
  unmeasured : task.pressure = none
  room : task.heldUntilAck.length < maxHeldUntilAck

theorem ensures_press (active : before.1.activeClient = some client)
    (waiting : before.1.state = .waitingForAck) (press : isHeld event = true)
    (collects : before.1.Collects handle) :
    (handleQueued around handle (.input event)).Ensures before
      (fun _ after => after.1.activeClient = none ∨
        after.1.heldUntilAck = before.1.heldUntilAck ++ [event])
      fun halt after => halt ≠ .noSuchCapture → after.1.activeClient = none := by
  rcases collects.barrier with ⟨_, found⟩
  simp only [handleQueued, ensures_bind, ensures_task,
    hasCapture_of_captureOf found, Bool.not_true, Bool.false_eq_true, if_false]
  split
  · apply ((ensures_releaseCapture before).and (frees_releaseCapture before)).mono
    · exact fun _ _ released => .inl released.1
    · exact fun _ _ stopped => stopped.2
  · simp only [measureAndHandle, measure, collects.unmeasured, ensures_bind,
      ensures_task, ensures_pure]
    refine ensures_handleTouch_input (by simp [active]) ?_ (absurd rfl)
    rw [deliver, ensures_bind]
    refine ensures_getType found ?_
    exact ensures_forward_press active waiting press collects.room

end Presses

end CaptureTask

end Syntra.Capture
