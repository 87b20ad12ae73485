import Mathlib.Logic.Relation
import Syntra.Emulation.Listen

/-!
# The handlers of the listening task, move by move

Whatever the listening task answers is made of few moves: it has an effect that is of no interest to
the control of this screen, notes something beside the peers in control, lets a peer in or go, or
forwards input.
-/

namespace Syntra.Emulation

open Proto StateMachine Handler

variable {Ip Backend : Type} [DecidableEq Ip]

/-- An effect other than a report on a pointer, an acknowledgement and forwarded input. -/
def ListenEffect.Quiet : ListenEffect Ip Backend → Prop
  | .report (.entered ..) | .report (.left ..) | .report .noLongerControlled => False
  | .reply _ (.ack _) => False
  | .proxy (.input ..) | .touchpadInput .. => False
  | _ => True

/-- A message by which a peer asks to move its pointer onto this screen. -/
def IsEntry : ProtoEvent → Prop
  | .enter _ | .enterAt .. | .enterVia .. => True
  | _ => False

namespace ListenTask

/-- The task and its effects so far. -/
abbrev World (Ip Backend : Type) := ListenTask Ip × List (ListenEffect Ip Backend)

/-- What an accepted entry does, in this order. -/
def entryEffects (task : ListenTask Ip) (around : ListenSurroundings Ip) (addr : SocketAddr Ip)
    (fingerprint : String) (pos : Position) (through : Option Position) (along : Option F32) :
    List (ListenEffect Ip Backend) :=
  let side := task.entrySide around addr fingerprint pos through
  let first : Bool := addr ∉ task.activeInputs
  [.report .releaseNotify, .report (.entered addr side fingerprint first through.isSome along)] ++
    (if first && (around.android || task.multiHop) then [.proxy (.placePointer side along)]
      else []) ++
    [.reply addr (.ack 0)]

/-- An effect that forwards the input of a peer, to the emulation or to the next device. -/
def Forwards (addr : SocketAddr Ip) (event : InputEvent) : ListenEffect Ip Backend → Prop
  | .proxy (.input forwarded other) => other = addr ∧ forwarded = event
  | .touchpadInput _ forwarded => forwarded = event
  | _ => False

/-- One move of the answer to an input, which the task took in the state `start`. -/
inductive Move (start : ListenTask Ip) (around : ListenSurroundings Ip)
    (input : ListenInput Ip Backend) : World Ip Backend → World Ip Backend → Prop
  | speak {task : ListenTask Ip} {log : List (ListenEffect Ip Backend)}
      {effect : ListenEffect Ip Backend} (quiet : effect.Quiet) :
      Move start around input (task, log) (task, log ++ [effect])
  | note {task after : ListenTask Ip} {log : List (ListenEffect Ip Backend)}
      (same : after.activeInputs = task.activeInputs) :
      Move start around input (task, log) (after, log)
  | leave {task : ListenTask Ip} {log : List (ListenEffect Ip Backend)} {addr : SocketAddr Ip}
      (side : Option Position) (along : Option F32) (controls : addr ∈ task.activeInputs) :
      Move start around input (task, log)
        ({ task with activeInputs := task.activeInputs.erase addr },
          log ++ .report (.left addr side along) ::
            if task.activeInputs.erase addr = ∅ then [.report .noLongerControlled] else [])
  | dismiss {task after : ListenTask Ip} {log : List (ListenEffect Ip Backend)}
      (still : task.activeInputs = start.activeInputs) (emptied : after.activeInputs = ∅)
      (asked : input = .request (.setInputSharing false)) :
      Move start around input (task, log) (after, log)
  | admitted {task after : ListenTask Ip} {log : List (ListenEffect Ip Backend)}
      {addr : SocketAddr Ip} {event : ProtoEvent} {fingerprint : String} (pos : Position)
      (through : Option Position) (along : Option F32) (asked : input = .message addr event)
      (entry : IsEntry event) (accepts : start.acceptsInput around = true)
      (known : around.certificateFingerprint addr = some fingerprint)
      (inserted : after.activeInputs = task.activeInputs.insert addr ()) :
      Move start around input (task, log)
        (after, log ++ task.entryEffects around addr fingerprint pos through along)
  | resume {task after : ListenTask Ip} {log : List (ListenEffect Ip Backend)}
      {addr : SocketAddr Ip} {target : String} {side : Position}
      (still : task.activeInputs = start.activeInputs)
      (inserted : after.activeInputs = task.activeInputs.insert addr ())
      (asked : input = .message addr (.handoff target side)) :
      Move start around input (task, log) (after, log)
  | acknowledge {task : ListenTask Ip} {log : List (ListenEffect Ip Backend)}
      {addr : SocketAddr Ip} {serial : UInt32} (asked : input = .message addr (.leave serial)) :
      Move start around input (task, log) (task, log ++ [.reply addr (.ack 0)])
  | say {task : ListenTask Ip} {log : List (ListenEffect Ip Backend)} {addr : SocketAddr Ip}
      {event : ProtoEvent} (asked : input = .request (.sendProto addr event)) :
      Move start around input (task, log) (task, log ++ [.reply addr event])
  | forward {task : ListenTask Ip} {log : List (ListenEffect Ip Backend)} {addr : SocketAddr Ip}
      {event : InputEvent} {effect : ListenEffect Ip Backend}
      (asked : input = .message addr (.input event)) (forwards : Forwards addr event effect)
      (controls : addr ∈ start.activeInputs) (sharing : start.inputSharing = true) :
      Move start around input (task, log) (task, log ++ [effect])

/-- A sequence of moves. -/
def Runs (start : ListenTask Ip) (around : ListenSurroundings Ip) (input : ListenInput Ip Backend) :
    World Ip Backend → World Ip Backend → Prop :=
  Relation.ReflTransGen (Move start around input)

variable {start task : ListenTask Ip} {around : ListenSurroundings Ip}
  {input : ListenInput Ip Backend}

instance : Std.Refl (Runs start around input) where
  refl _ := .refl

instance : IsTrans (World Ip Backend) (Runs start around input) where
  trans _ _ _ first second := Relation.ReflTransGen.trans first second

/-- What every move does, a sequence of moves does. -/
theorem Runs.along {relation : World Ip Backend → World Ip Backend → Prop} [Std.Refl relation]
    [IsTrans _ relation] (goes : Move start around input ≤ relation) :
    Runs start around input ≤ relation :=
  (Relation.ReflTransGen.mono goes).trans Relation.reflTransGen_eq_self.le

theorem runs_emit {effect : ListenEffect Ip Backend} (quiet : effect.Quiet) :
    (emit effect : Handler Ip Backend Unit).Along (Runs start around input) :=
  .emit fun _ _ => .single (.speak quiet)

theorem runs_update {change : ListenTask Ip → ListenTask Ip}
    (same : ∀ task, (change task).activeInputs = task.activeInputs) :
    (update change : Handler Ip Backend Unit).Along (Runs start around input) :=
  .update fun task _ => .single (.note (same task))

section Beside

variable (addr : SocketAddr Ip)

theorem runs_returnPointer (along : Option F32) :
    (returnPointer addr along : Handler Ip Backend Unit).Along (Runs start around input) := by
  refine .bind .task fun _ => ?_
  split
  · exact .ite (runs_emit trivial) (runs_emit trivial)
  · exact runs_emit trivial

theorem runs_endControlAt (along : Option F32) :
    (endControlAt addr along : Handler Ip Backend Unit).Along (Runs start around input) := by
  rintro ⟨task, log⟩
  simp only [endControlAt, ensures_bind, ensures_task, ensures_update]
  by_cases controls : addr ∈ task.activeInputs
  · have left : Runs start around input (task, log) _ :=
      .single (.leave (task.enteredFrom.lookup addr) along controls)
    by_cases free : task.activeInputs.erase addr = ∅
    · simpa [controls, free] using left
    · simpa [controls, free] using left
  · have same : task.activeInputs.erase addr = task.activeInputs :=
      AList.erase_of_lookup_none (AList.lookup_eq_none.mpr controls)
    simpa [controls, same] using refl_of (Runs start around input) (task, log)

theorem runs_startHandoff (edge : PointerEdge) :
    (startHandoff around addr edge : Handler Ip Backend Bool).Along (Runs start around input) := by
  refine .bind .task fun _ => ?_
  split
  · exact .pure false
  · refine .bind (runs_endControlAt addr none) fun _ => .bind (runs_update fun _ => rfl) fun _ => ?_
    exact .bind (runs_emit trivial) fun _ => .bind (runs_emit trivial) fun _ => .pure true

theorem runs_answerStaleInput :
    (answerStaleInput around addr : Handler Ip Backend Unit).Along (Runs start around input) :=
  .bind .task fun _ => .bind (runs_update fun _ => rfl) fun _ => .ite (runs_emit trivial) (.pure ())

theorem runs_handleClipboard (event : ProtoEvent) :
    (handleClipboard around addr event : Handler Ip Backend Unit).Along
      (Runs start around input) := by
  refine .bind .task fun _ => .bind (runs_update fun _ => rfl) fun _ => ?_
  refine .bind ?_ fun _ => .ite (runs_emit trivial) (.pure ())
  unfold reportContent
  split
  · exact runs_emit trivial
  · exact .pure ()

theorem runs_expirePeer :
    (expirePeer addr : Handler Ip Backend Unit).Along (Runs start around input) := by
  refine .bind .task fun _ => .bind (runs_endControlAt addr none) fun _ => ?_
  refine .bind (runs_update fun _ => rfl) fun _ => .bind (runs_emit trivial) fun _ => ?_
  exact .bind (runs_emit trivial) fun _ => .ite (runs_emit trivial) (.pure ())

omit addr

theorem runs_handleEmulation (event : BackendEvent (SocketAddr Ip)) :
    (handleEmulation around event : Handler Ip Backend Unit).Along (Runs start around input) := by
  refine .bind ?_ fun _ => ?_
  · unfold noteEmulation
    split
    · exact runs_update fun _ => rfl
    · exact runs_update fun _ => rfl
    · exact .pure ()
  · cases event with
    | pointerEdge addr edge along =>
      refine .bind (runs_startHandoff addr edge) fun _ => .ite ?_ (.pure ())
      refine .bind .task fun _ => .ite ?_ (.pure ())
      refine .bind (runs_endControlAt addr along) fun _ => ?_
      exact .bind (runs_emit trivial) fun _ => runs_returnPointer addr along
    | _ => exact runs_emit trivial

theorem runs_handleTick :
    (handleTick around : Handler Ip Backend Unit).Along (Runs start around input) := by
  refine .bind .task fun _ => .bind (runs_update fun _ => rfl) fun _ => ?_
  exact .bind (.each runs_expirePeer) fun _ => runs_update fun _ => rfl

end Beside

section Messages

variable {addr : SocketAddr Ip} {event : ProtoEvent} (log : List (ListenEffect Ip Backend))

theorem ensures_acceptEntry (addr : SocketAddr Ip) (fingerprint : String) (pos : Position)
    (through : Option Position) (along : Option F32) :
    (acceptEntry around addr fingerprint pos through along :
      Handler Ip Backend Unit).Ensures (task, log)
      (fun _ after => after.1.activeInputs = task.activeInputs.insert addr () ∧
        after.2 = log ++ task.entryEffects around addr fingerprint pos through along)
      fun _ _ => False := by
  simp only [acceptEntry, entryEffects, ensures_bind, ensures_task, ensures_update]
  by_cases known : addr ∈ task.activeInputs
  · simp [known]
  · by_cases placed : (around.android || task.multiHop) = true
    · simp [known, placed]
    · simp [known, placed]

/-- The task has noted that a peer is there. -/
def heard (task : ListenTask Ip) (around : ListenSurroundings Ip) (addr : SocketAddr Ip) :
    ListenTask Ip :=
  { task with lastResponse := task.lastResponse.insert addr around.now }

theorem runs_handleEnter (asked : input = .message addr event) (entry : IsEntry event)
    (pos : Position) (through : Option Position) (along : Option F32) :
    (handleEnter around addr pos through along : Handler Ip Backend Unit).Attains
      (start.heard around addr, log) (Runs start around input (start.heard around addr, log)) := by
  have refused (handler : Handler Ip Backend Unit) (runs : handler.Along
      (Runs start around input)) := runs (start.heard around addr, log)
  refine ensures_ite.mpr ⟨fun accepts => ?_, fun _ => refused _ ?_⟩
  · split
    · exact refused _ (runs_emit trivial)
    · rename_i fingerprint known
      apply (ensures_acceptEntry log addr fingerprint pos through along).mono
      · rintro _ ⟨_, _⟩ ⟨inserted, rfl⟩
        exact .single (.admitted pos through along asked entry accepts known inserted)
      · exact fun _ _ impossible => impossible.elim
  · exact .bind (runs_emit trivial) fun _ => runs_emit trivial

theorem runs_handoffRefused {target : String} {side : Position}
    (asked : input = .message addr (.handoff target side)) :
    (handoffRefused around addr side : Handler Ip Backend Unit).Attains
      (start.heard around addr, log) (Runs start around input (start.heard around addr, log)) := by
  simp only [handoffRefused, ensures_bind, ensures_update, ensures_task]
  split
  · simp only [ensures_bind, ensures_update, ensures_emit]
    exact .tail (.single (.resume rfl rfl asked)) (.speak (by trivial))
  · simp only [ensures_bind, ensures_update, ensures_emit]
    exact .tail (.single (.resume rfl rfl asked)) (.speak (by trivial))

theorem runs_handleInput {event : InputEvent} (asked : input = .message addr (.input event)) :
    (handleInput around addr event : Handler Ip Backend Unit).Attains (start.heard around addr, log)
      (Runs start around input (start.heard around addr, log)) := by
  refine ensures_ite.mpr ⟨fun controlled => ?_, fun _ => ensures_ite.mpr ⟨fun _ => ?_, fun _ => ?_⟩⟩
  · simp only [Bool.and_eq_true, decide_eq_true_eq] at controlled
    have forward {effect : ListenEffect Ip Backend} (forwards : Forwards addr event effect) :
        (emit effect : Handler Ip Backend Unit).Along (Runs start around input) :=
      .emit fun _ _ => .single (.forward asked forwards controlled.2 controlled.1)
    have relays : (relayInput around addr event : Handler Ip Backend Bool).Along
        (Runs start around input) := by
      refine .bind .task fun _ => .ite ?_ (.pure false)
      split
      · exact .pure false
      · refine .ite (.pure false) (.ite ?_ (.bind (forward rfl) fun _ => .pure true))
        exact .bind (runs_update fun _ => rfl) fun _ =>
          .bind (runs_emit trivial) fun _ => .pure false
    have consumes : (do
        let relayed ← relayInput around addr event
        if !relayed then
          consumeInput around addr event : Handler Ip Backend Unit).Along
        (Runs start around input) :=
      .bind relays fun _ =>
        .ite (.bind .task fun _ => .ite (forward ⟨rfl, rfl⟩) (.pure ())) (.pure ())
    exact consumes _
  · exact runs_answerStaleInput addr _
  · exact refl_of (Runs start around input) _

theorem runs_dispatch (addr : SocketAddr Ip) (event : ProtoEvent) :
    (dispatch around addr event : Handler Ip Backend Unit).Attains (start.heard around addr, log)
      (Runs start around (.message addr event) (start.heard around addr, log)) := by
  have beside {handler : Handler Ip Backend Unit}
      (runs : handler.Along (Runs start around (.message addr event))) :=
    runs (start.heard around addr, log)
  cases event with
  | enter pos => exact runs_handleEnter log rfl (by trivial) pos none none
  | enterAt side along => exact runs_handleEnter log rfl (by trivial) side none (some along)
  | enterVia side =>
    refine ensures_bind.mpr (ensures_task.mpr ?_)
    exact runs_handleEnter log rfl (by trivial) side _ none
  | input event => exact runs_handleInput log rfl
  | handoff _ side => exact runs_handoffRefused log rfl
  | leave =>
    refine beside (.bind (runs_endControlAt addr none) fun _ => .bind (runs_emit trivial) fun _ =>
      .emit fun _ _ => .single (.acknowledge rfl))
  | inputCapabilities =>
    exact beside (.ite (runs_update fun _ => rfl) (runs_update fun _ => rfl))
  | ping => exact beside (.bind .task fun _ => runs_emit trivial)
  | hello => exact beside (.bind (runs_emit trivial) fun _ => runs_emit trivial)
  | _ => exact beside (runs_handleClipboard addr _)

end Messages

theorem runs_handleRequest (request : EmulationRequest Ip Backend)
    (log : List (ListenEffect Ip Backend)) :
    (handleRequest around request).Attains (start, log)
      (Runs start around (.request request) (start, log)) := by
  have beside {handler : Handler Ip Backend Unit}
      (runs : handler.Along (Runs start around (.request request))) := runs (start, log)
  cases request with
  | reenable | setBackend | stepInside | hidePointer | placePointer =>
    exact beside (runs_emit trivial)
  | captureReady | setHopBypass | setMultiHop | setPeerSides | setUnavailablePeers =>
    refine beside ?_
    unfold handleRequest
    exact runs_update fun _ => rfl
  | release addr along => exact beside (runs_returnPointer addr along)
  | changePort => exact beside (.bind (runs_emit trivial) fun _ => runs_emit trivial)
  | setIndependentPointers =>
    exact beside (.bind (runs_update fun _ => rfl) fun _ => runs_emit trivial)
  | setInputSharing enabled =>
    cases enabled with
    | true =>
      exact beside (.bind (runs_update fun _ => rfl) fun _ =>
        .bind (runs_emit trivial) fun _ => .pure ())
    | false =>
      have leaves (addrs : List (SocketAddr Ip)) : (each addrs fun addr => do
          .emit (.proxy (.remove addr))
          .emit (.reply addr (.leave 0)) : Handler Ip Backend Unit).Along
          (Runs start around (.request (.setInputSharing false))) :=
        .each fun _ => .bind (runs_emit trivial) fun _ => runs_emit trivial
      simp only [handleRequest, releaseAll, ensures_bind, ensures_update, ensures_emit,
        ensures_task, Bool.not_false, if_true]
      apply (leaves _).onward
      exact .tail (.single (.dismiss rfl rfl rfl)) (.speak (by trivial))
  | sendProto => exact .single (.say rfl)
  | publishFileClipboard =>
    refine beside (.bind (runs_emit trivial) fun _ => ?_)
    split
    · exact .pure ()
    · exact runs_emit trivial
  | terminate => exact beside (.stop ())

theorem runs_handle (log : List (ListenEffect Ip Backend)) :
    (handle around input).Attains (start, log) (Runs start around input (start, log)) := by
  have beside {handler : Handler Ip Backend Unit}
      (runs : handler.Along (Runs start around input)) := runs (start, log)
  cases input with
  | message addr event =>
    have noted : Runs start around (.message addr event) (start, log)
        (start.heard around addr, log) := .single (.note rfl)
    refine (runs_dispatch log addr event).mono ?_ ?_
    · exact fun _ _ => noted.trans
    · exact fun _ _ => noted.trans
  | accept => exact beside (.bind (runs_update fun _ => rfl) fun _ => runs_emit trivial)
  | rejected =>
    exact beside (.bind .task fun _ => .bind (runs_update fun _ => rfl) fun _ =>
      .ite (runs_emit trivial) (.pure ()))
  | closed => exact beside (.stop ())
  | emulation event => exact beside (runs_handleEmulation event)
  | request request => exact runs_handleRequest request log
  | tick => exact beside runs_handleTick

theorem step_of_ensures (holds : ListenTask Ip → List (ListenEffect Ip Backend) → Prop)
    (running : task.ended = false)
    (ensures : (handle around input).Ensures (task, []) (fun _ after => holds after.1 after.2)
      fun _ after => holds { after.1 with ended := true } (after.2 ++ [.terminated])) :
    holds (task.step (around, input)).1 (task.step (around, input)).2 := by
  unfold Ensures at ensures
  simp only [step, running, Bool.false_eq_true, if_false]
  rcases handled : handle around input (task, []) with ⟨⟨⟩ | ⟨⟩, _⟩
  · rw [handled] at ensures
    exact ensures
  · rw [handled] at ensures
    exact ensures

theorem step_of_ended (ended : task.ended ≠ false) : task.step (around, input) = (task, []) := by
  simp [step, ended]

theorem step_runs (task : ListenTask Ip) (around : ListenSurroundings Ip)
    (input : ListenInput Ip Backend) :
    Runs task around input (task, []) (task.step (around, input)) := by
  by_cases running : task.ended = false
  · apply step_of_ensures (fun after effects => Runs task around input (task, []) (after, effects))
      running
    apply (runs_handle []).mono
    · exact fun _ _ runs => runs
    · exact fun _ _ runs => .tail (.tail runs (.speak (by trivial))) (.note rfl)
  · rw [step_of_ended running]
    exact .refl

end ListenTask

end Syntra.Emulation
