import Syntra.Emulation.Control

/-!
# Replay of input

Input of a peer is replayed only while the peer controls this screen. It has come into control by an
entry that was accepted, or by refusing a hand-off that this device has started for it; only a
hand-off message that answers none lets a peer in that has not been admitted.
-/

namespace Syntra.Emulation

open Proto StateMachine Tables ListenTask Handler List AList
open Handler (ensures_bind ensures_task ensures_update ensures_emit)

variable {Ip Backend : Type} [DecidableEq Ip]

namespace ListenTask

def after (inputs : List (ListenSurroundings Ip × ListenInput Ip Backend)) : ListenTask Ip :=
  (outcome step new inputs).1

/-- The input lets the peer in. -/
def Admits (task : ListenTask Ip) (addr : SocketAddr Ip)
    (input : ListenSurroundings Ip × ListenInput Ip Backend) : Prop :=
  task.ended = false ∧ task.acceptsInput input.1 = true ∧
    (input.1.certificateFingerprint addr).isSome ∧
    ∃ event, input.2 = .message addr event ∧ IsEntry event

/-- The peer leaves, was silent for too long, or input sharing is switched off. -/
def Revokes (task : ListenTask Ip) (addr : SocketAddr Ip)
    (input : ListenSurroundings Ip × ListenInput Ip Backend) : Prop :=
  task.ended = false ∧
    ((∃ serial, input.2 = .message addr (.leave serial)) ∨
      (input.2 = .tick ∧ task.silent input.1 addr = true) ∨
      input.2 = .request (.setInputSharing false))

/-- This device hands off the peer's pointer. -/
def HandsOn (task : ListenTask Ip) (addr : SocketAddr Ip)
    (input : ListenSurroundings Ip × ListenInput Ip Backend) : Prop :=
  task.ended = false ∧ ∃ edge along, input.2 = .emulation (.pointerEdge addr edge along) ∧
    (task.handoffTarget input.1 addr edge).isSome

/-- A peer has been admitted, and has not left, been lost or been sent away since. -/
def Admitted (addr : SocketAddr Ip)
    (inputs : List (ListenSurroundings Ip × ListenInput Ip Backend)) : Prop :=
  ∃ earlier input later, inputs = earlier ++ input :: later ∧
    (after earlier).Admits addr input ∧
    ∀ task next, Meets step (after (earlier ++ [input])) later task next → ¬task.Revokes addr next

/-- This device has started a hand-off of the pointer of a peer so admitted, and it is open: since
then the peer has not been in control, nor left, been lost or been sent away. -/
def HandedOn (addr : SocketAddr Ip)
    (inputs : List (ListenSurroundings Ip × ListenInput Ip Backend)) : Prop :=
  ∃ earlier input later, inputs = earlier ++ input :: later ∧ Admitted addr earlier ∧
    (after earlier).HandsOn addr input ∧
    ∀ task next, Meets step (after (earlier ++ [input])) later task next →
      ¬task.Revokes addr next ∧ addr ∉ task.activeInputs

/-- Input of a peer is forwarded. -/
def Forwarded (effect : ListenEffect Ip Backend) : Prop :=
  ∃ addr event, Forwards addr event effect

variable {task : ListenTask Ip} {around : ListenSurroundings Ip}

theorem ensures_endControlAt (addr : SocketAddr Ip) (along : Option F32)
    (log : List (ListenEffect Ip Backend)) :
    (endControlAt addr along : Handler Ip Backend Unit).Ensures (task, log)
      (fun _ after => after.1 = { task with activeInputs := task.activeInputs.erase addr })
      fun _ _ => False := by
  simp only [endControlAt, ensures_bind, ensures_task, ensures_update]
  by_cases controls : addr ∈ task.activeInputs <;>
    by_cases free : task.activeInputs.erase addr = ∅ <;> simp [controls, free]

theorem ensures_expirePeer (addr : SocketAddr Ip) (log : List (ListenEffect Ip Backend)) :
    (expirePeer addr : Handler Ip Backend Unit).Ensures (task, log)
      (fun _ after => after.1.activeInputs = task.activeInputs.erase addr) fun _ _ => False := by
  simp only [expirePeer, endControl, ensures_bind, ensures_task, ensures_update, ensures_emit]
  apply (ensures_endControlAt addr none log).mono
  · intro _ _ ended
    by_cases controls : addr ∈ task.activeInputs <;> simp [controls, ended]
  · exact fun _ _ impossible => impossible

theorem ensures_expirePeers (addrs : List (SocketAddr Ip)) (before : World Ip Backend) :
    (each addrs expirePeer).Ensures before (fun _ after => ∀ addr ∈ after.1.activeInputs,
      addr ∈ before.1.activeInputs ∧ addr ∉ addrs) fun _ _ => False := by
  induction addrs generalizing before with
  | nil => exact fun _ member => ⟨member, not_mem_nil⟩
  | cons first _ ih =>
    rw [each, ensures_bind]
    apply (ensures_expirePeer first before.2).mono
    · intro _ between erased
      apply (ih between).mono
      · intro _ after others addr member
        obtain ⟨there, absent⟩ := others addr member
        rw [erased, mem_erase] at there
        exact ⟨there.2, fun here => (mem_cons.mp here).elim there.1 absent⟩
      · exact fun _ _ impossible => impossible
    · exact fun _ _ impossible => impossible

theorem ensures_handleTick {addr : SocketAddr Ip} (silent : task.silent around addr = true)
    (log : List (ListenEffect Ip Backend)) :
    (handleTick around : Handler Ip Backend Unit).Ensures (task, log)
      (fun _ after => addr ∉ after.1.activeInputs) fun _ _ => False := by
  simp only [handleTick, ensures_bind, ensures_task, ensures_update]
  have expired : addr ∈
      (around.peers.arrange task.lastResponse.keys).filter (task.silent around) := by
    rw [mem_filter, IterOrder.mem_arrange]
    refine ⟨?_, silent⟩
    rcases (Option.any_eq_true _ _).mp silent with ⟨heard, found, -⟩
    exact mem_keys.mp ((mem_iff_lookup _ addr).mpr ⟨heard, found⟩)
  apply (ensures_expirePeers _ _).mono
  · exact fun _ _ others member => (others addr member).2 expired
  · exact fun _ _ impossible => impossible

/-- What a step may do: a peer is in control after it that was before and is not sent away, that is
admitted, or that sends a hand-off; and input is forwarded for a peer in control. -/
structure Guards (task : ListenTask Ip) (input : ListenSurroundings Ip × ListenInput Ip Backend)
    (after : ListenTask Ip) (effects : List (ListenEffect Ip Backend)) : Prop where
  control : ∀ addr ∈ after.activeInputs,
    (addr ∈ task.activeInputs ∧ ¬task.Revokes addr input) ∨ task.Admits addr input ∨
      ∃ target side, input.2 = .message addr (.handoff target side)
  forwards : ∀ effect ∈ effects, Forwarded effect →
    ∃ addr event, input.2 = .message addr (.input event) ∧ Forwards addr event effect ∧
      addr ∈ task.activeInputs ∧ task.inputSharing = true

/-- What a move does to the control of the peers and to forwarded input. -/
structure Grants (start : ListenTask Ip) (input : ListenSurroundings Ip × ListenInput Ip Backend)
    (before after : World Ip Backend) : Prop where
  control : ∀ addr ∈ after.1.activeInputs, addr ∈ before.1.activeInputs ∨
    start.Admits addr input ∨ ∃ target side, input.2 = .message addr (.handoff target side)
  forwards : ∀ effect ∈ after.2, Forwarded effect → effect ∈ before.2 ∨
    ∃ addr event, input.2 = .message addr (.input event) ∧ Forwards addr event effect ∧
      addr ∈ start.activeInputs ∧ start.inputSharing = true

section Steps

variable {start : ListenTask Ip} {input : ListenSurroundings Ip × ListenInput Ip Backend}

instance : Std.Refl (Grants start input) where
  refl _ := ⟨fun _ member => .inl member, fun _ member _ => .inl member⟩

instance : IsTrans (World Ip Backend) (Grants start input) where
  trans _ _ _ first second :=
    ⟨fun addr member => (second.control addr member).elim (first.control addr) .inr,
      fun effect member forwarded => (second.forwards effect member forwarded).elim
        (fun earlier => first.forwards effect earlier forwarded) .inr⟩

omit [DecidableEq Ip] in
theorem Grants.of_mute {before after : ListenTask Ip} {log new : List (ListenEffect Ip Backend)}
    (mute : ∀ effect ∈ new, ¬Forwarded effect)
    (control : ∀ addr ∈ after.activeInputs, addr ∈ before.activeInputs ∨
      start.Admits addr input ∨ ∃ target side, input.2 = .message addr (.handoff target side)) :
    Grants start input (before, log) (after, log ++ new) :=
  ⟨control, fun effect member forwarded =>
    .inl ((mem_append.mp member).resolve_right fun latest => mute effect latest forwarded)⟩

omit [DecidableEq Ip] in
theorem Grants.of_same {before after : ListenTask Ip} {log : List (ListenEffect Ip Backend)}
    (control : ∀ addr ∈ after.activeInputs, addr ∈ before.activeInputs ∨
      start.Admits addr input ∨ ∃ target side, input.2 = .message addr (.handoff target side)) :
    Grants start input (before, log) (after, log) :=
  ⟨control, fun _ member _ => .inl member⟩

theorem Move.grants (running : start.ended = false) :
    Move start input.1 input.2 ≤ Grants start input := by
  intro _ _ move
  cases move with
  | speak quiet =>
    refine .of_mute (fun _ member ⟨_, _, forwards⟩ => ?_) fun _ => .inl
    rw [mem_singleton.mp member] at forwards
    unfold Forwards at forwards
    split at forwards
    · exact quiet
    · exact quiet
    · exact forwards
  | note same => exact .of_same fun _ member => .inl (same ▸ member)
  | leave =>
    refine .of_mute (fun _ member ⟨_, _, forwards⟩ => ?_) fun _ member =>
      .inl (mem_erase.mp member).2
    rcases mem_cons.mp member with rfl | told
    · exact forwards
    · split at told
      · rw [mem_singleton.mp told] at forwards
        exact forwards
      · cases told
  | dismiss _ emptied =>
    refine .of_same fun addr member => absurd member ?_
    rw [emptied]
    exact notMem_empty addr
  | @admitted _ _ _ addr event _ _ _ _ asked entry accepts known inserted =>
    refine .of_mute (fun _ member ⟨_, _, forwards⟩ => ?_) fun _ member => ?_
    · simp only [entryEffects, cons_append, nil_append, mem_append, mem_cons, not_mem_nil,
        or_false] at member
      rcases member with rfl | rfl | placed | rfl
      · exact forwards
      · exact forwards
      · split at placed
        · rw [mem_singleton.mp placed] at forwards
          exact forwards
        · cases placed
      · exact forwards
    · rw [inserted] at member
      refine ((mem_insert _).mp member).symm.imp_right fun same => ?_
      subst same
      exact .inl ⟨running, accepts, by simp [known], event, asked, entry⟩
  | resume _ inserted asked =>
    refine .of_same fun _ member => ?_
    rw [inserted] at member
    refine ((mem_insert _).mp member).symm.imp_right fun same => ?_
    subst same
    exact .inr ⟨_, _, asked⟩
  | acknowledge | say =>
    refine .of_mute (fun _ member ⟨_, _, forwards⟩ => ?_) fun _ => .inl
    rw [mem_singleton.mp member] at forwards
    exact forwards
  | forward asked forwards controls sharing =>
    refine ⟨fun _ => .inl, fun effect member _ => (mem_append.mp member).imp_right fun latest => ?_⟩
    rw [mem_singleton.mp latest]
    exact ⟨_, _, asked, forwards, controls, sharing⟩

theorem not_mem_of_revokes {addr : SocketAddr Ip} (revokes : task.Revokes addr input) :
    addr ∉ (task.step input).1.activeInputs := by
  rcases input with ⟨around, input⟩
  obtain ⟨running, ⟨serial, same⟩ | ⟨same, silent⟩ | same⟩ := revokes
  · cases same
    apply step_of_ensures (fun after _ => addr ∉ after.activeInputs) running
    have leaves : (dispatch around addr (.leave serial) : Handler Ip Backend Unit) = (do
        endControl addr
        .emit (.proxy (.remove addr))
        .emit (.reply addr (.ack 0))) := rfl
    simp only [handle, handleMessage, leaves, endControl, ensures_bind, ensures_update,
      ensures_emit]
    apply (ensures_endControlAt addr none _).mono
    · intro _ _ ended
      simp [ended]
    · exact fun _ _ impossible => impossible.elim
  · cases same
    apply step_of_ensures (fun after _ => addr ∉ after.activeInputs) running
    apply (ensures_handleTick silent []).mono
    · exact fun _ _ gone => gone
    · exact fun _ _ impossible => impossible.elim
  · cases same
    rw [(step_sharingOff around running).1]
    exact notMem_empty addr

theorem guards_step : Guards task input (task.step input).1 (task.step input).2 := by
  have grants : Grants task input (task, []) (task.step input) := by
    by_cases running : task.ended = false
    · exact Runs.along (Move.grants running) _ _ (step_runs task _ _)
    · rw [step_of_ended running]
      exact refl_of (Grants task input) _
  refine ⟨fun addr member => ?_, fun effect member forwarded => ?_⟩
  · refine (grants.control addr member).imp_left fun before => ⟨before, fun revokes => ?_⟩
    exact not_mem_of_revokes revokes member
  · exact (grants.forwards effect member forwarded).resolve_left (by simp)

end Steps

section Runs

variable {addr : SocketAddr Ip} {inputs : List (ListenSurroundings Ip × ListenInput Ip Backend)}
  {input : ListenSurroundings Ip × ListenInput Ip Backend}

theorem after_concat (inputs : List (ListenSurroundings Ip × ListenInput Ip Backend))
    (input : ListenSurroundings Ip × ListenInput Ip Backend) :
    after (inputs ++ [input]) = ((after inputs).step input).1 := by
  rw [after, outcome_concat]
  rfl

theorem after_append (first second : List (ListenSurroundings Ip × ListenInput Ip Backend)) :
    (outcome step (after first) second).1 = after (first ++ second) := by
  simp only [after, outcome_append]

theorem Admitted.append (admitted : Admitted addr inputs)
    {more : List (ListenSurroundings Ip × ListenInput Ip Backend)}
    (kept : ∀ task next, Meets step (after inputs) more task next → ¬task.Revokes addr next) :
    Admitted addr (inputs ++ more) := by
  rcases admitted with ⟨earlier, entry, later, rfl, admits, lasting⟩
  refine ⟨earlier, entry, later ++ more, by simp, admits, ?_⟩
  intro task next meets
  rcases meets_append.mp meets with within | beyond
  · exact lasting task next within
  · rw [after_append, append_assoc, singleton_append] at beyond
    exact kept task next beyond

theorem Admitted.concat (admitted : Admitted addr inputs)
    (kept : ¬(after inputs).Revokes addr input) : Admitted addr (inputs ++ [input]) := by
  apply admitted.append
  intro _ _ meets
  rcases meets_singleton.mp meets with ⟨rfl, rfl⟩
  exact kept

theorem Admits.admitted (admits : (after inputs).Admits addr input) :
    Admitted addr (inputs ++ [input]) :=
  ⟨inputs, input, [], rfl, admits, fun _ _ meets => absurd meets not_meets_nil⟩

theorem HandedOn.admitted (handedOn : HandedOn addr inputs) : Admitted addr inputs := by
  rcases handedOn with ⟨earlier, start, _, rfl, admitted, hands, lasting⟩
  have started : Admitted addr (earlier ++ [start]) := by
    apply admitted.concat
    rcases hands with ⟨_, _, _, same, _⟩
    rintro ⟨_, ⟨_, other⟩ | ⟨other, _⟩ | other⟩ <;> rw [same] at other <;> cases other
  have whole := started.append fun task next meets => (lasting task next meets).1
  simpa using whole

/-- Input is only forwarded for peers that were let in. -/
structure Controlled (inputs : List (ListenSurroundings Ip × ListenInput Ip Backend)) : Prop where
  forwards : ∀ earlier input later, inputs = earlier ++ input :: later →
    ∀ effect ∈ ((after earlier).step input).2, Forwarded effect →
      ∃ addr event, input.2 = .message addr (.input event) ∧ Forwards addr event effect ∧
        addr ∈ (after earlier).activeInputs ∧ (after earlier).inputSharing = true
  admitted : ∀ earlier later, inputs = earlier ++ later →
    ∀ addr ∈ (after earlier).activeInputs, Admitted addr earlier
  enters : ∀ earlier input later, inputs = earlier ++ input :: later →
    ∀ addr ∈ (after (earlier ++ [input])).activeInputs, addr ∉ (after earlier).activeInputs →
      (after earlier).Admits addr input ∨
        (∃ target side, input.2 = .message addr (.handoff target side)) ∧ HandedOn addr earlier

/-- Every hand-off message that is received comes from a peer in control, or answers a hand-off that
this device has started. -/
def HandoffsAnswer (inputs : List (ListenSurroundings Ip × ListenInput Ip Backend)) : Prop :=
  ∀ earlier around addr target side later,
    inputs = earlier ++ (around, .message addr (.handoff target side)) :: later →
    (after earlier).ended = false →
    addr ∈ (after earlier).activeInputs ∨ HandedOn addr earlier

theorem enters_of_handoffsAnswer (answers : HandoffsAnswer inputs)
    {earlier later : List (ListenSurroundings Ip × ListenInput Ip Backend)}
    (split : inputs = earlier ++ input :: later)
    (here : addr ∈ (after (earlier ++ [input])).activeInputs)
    (absent : addr ∉ (after earlier).activeInputs) :
    (after earlier).Admits addr input ∨
      (∃ target side, input.2 = .message addr (.handoff target side)) ∧ HandedOn addr earlier := by
  rw [after_concat] at here
  rcases guards_step.control addr here with ⟨before, _⟩ | admits | ⟨target, side, same⟩
  · exact absurd before absent
  · exact .inl admits
  · have running : (after earlier).ended = false := by
      by_contra isOver
      have ended : (after earlier).ended = true := by simpa using isOver
      simp only [step, ended, if_true] at here
      exact absent here
    rcases input with ⟨around, message⟩
    have same : message = .message addr (.handoff target side) := same
    rw [same] at split
    rcases answers earlier around addr target side later split running with before | handedOn
    · exact absurd before absent
    · exact .inr ⟨⟨target, side, same⟩, handedOn⟩

theorem admitted_of_handoffsAnswer (answers : HandoffsAnswer inputs)
    (controls : addr ∈ (after inputs).activeInputs) : Admitted addr inputs := by
  induction inputs using reverseRecOn with
  | nil => exact absurd controls (notMem_empty addr)
  | append_singleton inputs input ih =>
    have before : addr ∈ (after inputs).activeInputs → Admitted addr inputs := by
      apply ih
      intro earlier around other target side later split
      exact answers earlier around other target side (later ++ [input]) (by simp [split])
    by_cases already : addr ∈ (after inputs).activeInputs
    · apply (before already).concat
      rw [after_concat] at controls
      rcases guards_step.control addr controls with ⟨_, kept⟩ | admits | ⟨target, side, same⟩
      · exact kept
      · rcases admits with ⟨_, _, _, _, same, entry⟩
        rintro ⟨_, ⟨_, other⟩ | ⟨other, _⟩ | other⟩ <;> rw [same] at other <;> cases other
        exact entry
      · rintro ⟨_, ⟨_, other⟩ | ⟨other, _⟩ | other⟩ <;> rw [same] at other <;> cases other
    · rcases enters_of_handoffsAnswer answers rfl controls already with
        admits | ⟨⟨target, side, same⟩, handedOn⟩
      · exact admits.admitted
      · apply handedOn.admitted.concat
        rintro ⟨_, ⟨_, other⟩ | ⟨other, _⟩ | other⟩ <;> rw [same] at other <;> cases other

/-- Input is replayed only for a peer that controls this screen as it should, in every run in which
every hand-off message comes from a peer in control or answers a hand-off of this device, and in no
other. -/
theorem replay_controlled_iff (inputs : List (ListenSurroundings Ip × ListenInput Ip Backend)) :
    Controlled inputs ↔ HandoffsAnswer inputs := by
  constructor
  · intro controlled earlier around addr target side later split running
    by_cases before : addr ∈ (after earlier).activeInputs
    · exact .inl before
    · have here : addr ∈ (after (earlier ++
          [(around, .message addr (.handoff target side))])).activeInputs := by
        rw [after_concat]
        exact (step_handoff around addr running target side).1
      rcases controlled.enters earlier _ later split addr here before with admits | ⟨_, handedOn⟩
      · rcases admits with ⟨_, _, _, _, same, entry⟩
        cases same
        exact entry.elim
      · exact .inr handedOn
  · intro answers
    refine ⟨?_, ?_, ?_⟩
    · intro earlier input later _
      exact guards_step.forwards
    · rintro earlier later rfl addr controls
      refine admitted_of_handoffsAnswer ?_ controls
      intro first around other target side rest split
      exact answers first around other target side (rest ++ later) (by simp [split])
    · intro _ input _ split _ here absent
      exact enters_of_handoffsAnswer answers split here absent

/-! A peer that has never been admitted sends a hand-off, and then input. -/

def movement : InputEvent := .pointer (.motion 0 ⟨0⟩ ⟨0⟩)

def intrusion : List (ListenSurroundings ℕ × ListenInput ℕ Unit) :=
  [.emulation (.emulationEnabled "dummy"), .message visitor (.handoff "bb" .left),
    .message visitor (.input movement)].map (desktop, ·)

theorem replay_uncontrolled :
    .proxy (.input movement visitor) ∈ (outcome step new intrusion).2 ∧
      (∀ input ∈ intrusion, ∀ event, input.2 = .message visitor event → ¬IsEntry event) ∧
      ¬Controlled intrusion := by
  refine ⟨?_, ?_, ?_⟩
  · have effects : (outcome step new intrusion).2 =
        [.report (.emulationEnabled "dummy"), .proxy (.placePointer .left none),
          .proxy (.input movement visitor)] := rfl
    simp [effects]
  · intro _ member _ same
    simp only [intrusion, List.map_cons, List.map_nil, List.mem_cons, List.not_mem_nil,
      or_false] at member
    rcases member with rfl | rfl | rfl <;> cases same <;> exact id
  · intro controlled
    have here : visitor ∈ (after (intrusion.take 2)).activeInputs := by decide
    rcases controlled.enters (intrusion.take 1) _ [_] rfl visitor here (by decide) with
      ⟨_, accepts, _⟩ | ⟨_, _, _, _, split, ⟨_, _, _, nothing, _⟩, _⟩
    · exact absurd accepts (by decide)
    · have length := congrArg List.length split
      have shorter := congrArg List.length nothing
      simp [intrusion] at length shorter
      omega

end Runs

end ListenTask

end Syntra.Emulation
