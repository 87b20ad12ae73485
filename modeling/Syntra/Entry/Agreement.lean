import Syntra.Capture.Lookups
import Syntra.Emulation.Control
import Syntra.Entry.Exchange

/-!
# Entries and their acknowledgements

An acknowledgement says nothing of the entry it is for. While a device sends its input to a peer,
the peer has acknowledged an entry of this very crossing, or a message of an earlier one that was
still under way when the crossing began (`acknowledged_entry`); the latter does happen
(`acknowledged_late`).
-/

namespace Syntra.Entry

open Proto Capture Capture.CaptureTask Traffic List
open Emulation (ListenTask ListenSurroundings ListenInput ListenEffect AsksAck SocketAddr
  crosses isAck)
open StateMachine Tables

variable {Ip Backend : Type} [DecidableEq Ip] {client : CaptureHandle} {addr : SocketAddr Ip}

namespace Traffic

variable {traffic : Traffic}

/-- An entry since the last crossing began, or a message that was under way then. -/
def Timely (traffic : Traffic) (sent : Sent) : Prop :=
  IsEntry sent.event ∧ traffic.since ≤ sent.number ∨ sent ∈ traffic.pending

/-- Acknowledgements are of entries and leaves that the peer has been sent. -/
structure Sound (traffic : Traffic) : Prop where
  ordered : traffic.since ≤ traffic.count
  acknowledged : ∀ answer ∈ traffic.homeward, isAck answer.event = true →
    ∃ sent ∈ traffic.handled, crosses sent.event = true ∧ answer.about = some sent

/-- What is under way while the peer is the active client. -/
structure Entered (traffic : Traffic) (state : State) : Prop where
  outward : ∀ sent ∈ traffic.outward, crosses sent.event = true → traffic.Timely sent
  homeward : ∀ answer ∈ traffic.homeward, isAck answer.event = true →
    ∀ sent, answer.about = some sent → traffic.Timely sent
  sending : state = .sending →
    ∃ sent ∈ traffic.handled, crosses sent.event = true ∧ traffic.Timely sent

variable (effect : CaptureEffect)

@[simp]
theorem carry_homeward : (traffic.carry client effect).homeward = traffic.homeward := by
  unfold carry
  split
  · split <;> rfl
  · split <;> rfl
  · rfl

@[simp]
theorem carry_handled : (traffic.carry client effect).handled = traffic.handled := by
  unfold carry
  split
  · split <;> rfl
  · split <;> rfl
  · rfl

@[simp]
theorem foldl_carry_homeward (effects : List CaptureEffect) :
    (effects.foldl (carry client) traffic).homeward = traffic.homeward := by
  induction effects generalizing traffic with
  | nil => rfl
  | cons effect _ ih => exact ih.trans (carry_homeward effect)

theorem Sound.carry (sound : traffic.Sound) (effect : CaptureEffect) :
    (traffic.carry client effect).Sound := by
  refine ⟨?_, ?_⟩
  · unfold Traffic.carry
    split
    · split
      · exact Nat.le_succ_of_le sound.ordered
      · exact sound.ordered
    · split
      · exact Nat.le_refl _
      · exact sound.ordered
    · exact sound.ordered
  · simpa using sound.acknowledged

theorem Sound.foldl_carry (sound : traffic.Sound) (effects : List CaptureEffect) :
    (effects.foldl (Traffic.carry client) traffic).Sound := by
  induction effects generalizing traffic with
  | nil => exact sound
  | cons effect _ ih => exact ih (sound.carry effect)

/-- An effect that starts no new crossing of the peer, and has it sent no leave. -/
def Along (client : CaptureHandle) : CaptureEffect → Prop
  | .send handle event => handle = client → crosses event = true → IsEntry event
  | .report (.clientEntered handle) => handle ≠ client
  | _ => True

variable {effect : CaptureEffect} {state : State}

theorem along_of_quiet (quiet : effect.Quiet) : Along client effect := by
  unfold Along
  split
  · exact quiet.elim
  · exact quiet.elim
  · trivial

theorem Entered.send (entered : traffic.Entered state) (sound : traffic.Sound)
    {event : ProtoEvent} (entry : crosses event = true → IsEntry event) :
    Entered { traffic with
      outward := traffic.outward ++ [⟨traffic.count, event⟩], count := traffic.count + 1 }
      state := by
  refine ⟨?_, entered.homeward, entered.sending⟩
  intro sent member crossing
  rcases mem_append.mp member with old | new
  · exact entered.outward sent old crossing
  · rw [mem_singleton.mp new] at crossing ⊢
    exact .inl ⟨entry crossing, sound.ordered⟩

theorem Entered.carry (entered : traffic.Entered state) (sound : traffic.Sound)
    (along : Along client effect) : (traffic.carry client effect).Entered state := by
  unfold Traffic.carry
  split
  · split
    · rename_i same
      exact entered.send sound (along same)
    · exact entered
  · rw [if_neg along]
    exact entered
  · exact entered

theorem Entered.foldl_carry (entered : traffic.Entered state) (sound : traffic.Sound)
    {effects : List CaptureEffect} (along : ∀ effect ∈ effects, Along client effect) :
    (effects.foldl (Traffic.carry client) traffic).Entered state := by
  induction effects generalizing traffic with
  | nil => exact entered
  | cons effect _ ih =>
    rw [forall_mem_cons] at along
    exact ih (entered.carry sound along.1) (sound.carry effect) along.2

theorem entered_clientEntered :
    (traffic.carry client (.report (.clientEntered client))).Entered .waitingForAck := by
  rw [carry, if_pos rfl]
  refine ⟨?_, ?_, nofun⟩
  · intro sent member crossing
    exact .inr (mem_append_left _ (mem_filter.mpr ⟨member, crossing⟩))
  · intro answer member ack _ about
    refine .inr (mem_append_right _ (mem_filterMap.mpr ⟨answer, ?_, about⟩))
    exact mem_filter.mpr ⟨member, ack⟩

end Traffic

variable {captures : List (CaptureHandle × Position × CaptureType)} {around : Surroundings}
  {reasons : Reasons} {traffic : Traffic} {before after : World}

/-- The traffic fits the state that a device has come to, with the effects so far. -/
structure Accounts (client : CaptureHandle) (traffic : Traffic) (world : World) : Prop where
  sound : (world.2.foldl (Traffic.carry client) traffic).Sound
  entered : world.1.activeClient = some client →
    (world.2.foldl (Traffic.carry client) traffic).Entered world.1.state

variable {later task : CaptureTask} {log : List CaptureEffect}

theorem Accounts.along {more : List CaptureEffect} (accounts : Accounts client traffic (task, log))
    (active : later.activeClient = task.activeClient) (state : later.state = task.state)
    (along : ∀ effect ∈ more, Traffic.Along client effect) :
    Accounts client traffic (later, log ++ more) := by
  refine ⟨?_, fun entered => ?_⟩
  · rw [List.foldl_append]
    exact accounts.sound.foldl_carry more
  · rw [List.foldl_append]
    rw [state]
    exact (accounts.entered (active.symm.trans entered)).foldl_carry accounts.sound along

theorem Accounts.rests (accounts : Accounts client traffic (task, log))
    (active : later.activeClient = task.activeClient) (state : later.state = task.state) :
    Accounts client traffic (later, log) := by
  have along : ∀ effect ∈ ([] : List CaptureEffect), Along client effect := by simp
  simpa using accounts.along active state along

theorem Accounts.emits {effect : CaptureEffect} (accounts : Accounts client traffic (task, log))
    (along : Along client effect) : Accounts client traffic (task, log ++ [effect]) :=
  accounts.along rfl rfl (by simpa using along)

theorem Accounts.sound_append (accounts : Accounts client traffic (task, log))
    (more : List CaptureEffect) : ((log ++ more).foldl (Traffic.carry client) traffic).Sound := by
  rw [List.foldl_append]
  exact accounts.sound.foldl_carry more

theorem Accounts.away (accounts : Accounts client traffic (task, log))
    (other : later.activeClient ≠ some client) (more : List CaptureEffect) :
    Accounts client traffic (later, log ++ more) :=
  ⟨accounts.sound_append more, fun active => absurd active other⟩

theorem Accounts.enters {next : CaptureHandle} (accounts : Accounts client traffic (task, log))
    (more : List CaptureEffect) (active : later.activeClient = some next)
    (waiting : later.state = .waitingForAck) :
    Accounts client traffic (later, log ++ more ++ [.report (.clientEntered next)]) := by
  rw [append_assoc]
  refine ⟨accounts.sound_append _, fun entered => ?_⟩
  obtain rfl : next = client := Option.some.inj (active.symm.trans entered)
  rw [← append_assoc, foldl_append, waiting]
  exact entered_clientEntered

theorem Move.accounts (move : Move captures around before after)
    (accounts : Accounts client traffic before) : Accounts client traffic after := by
  cases move with
  | note agrees => exact accounts.rests agrees.activeClient agrees.state
  | emit quiet => exact accounts.emits (along_of_quiet quiet)
  | arm | disarm | retry => exact accounts.rests rfl rfl
  | release =>
    rw [append_assoc]
    exact accounts.away (by simp [released]) _
  | refuse => exact accounts.emits fun _ crossed => absurd crossed Bool.false_ne_true
  | enter _ entry => exact accounts.emits fun _ _ => entry
  | forward => exact accounts.emits fun _ crossed => absurd crossed Bool.false_ne_true

/-- What has a device send its input is an acknowledgement under way, and what the service has said
to the peer is no entry or leave. -/
structure Reasoned (client : CaptureHandle) (traffic : Traffic) (reasons : Reasons) : Prop where
  acknowledges : reasons.acknowledges client →
    ∃ answer ∈ traffic.homeward, isAck answer.event = true
  speaks : ∀ event, reasons.speaks client event → crosses event = false

theorem Accounts.acknowledged (accounts : Accounts client traffic (task, log)) {answer : Answer}
    (member : answer ∈ traffic.homeward) (ack : isAck answer.event = true) :
    Accounts client traffic (task.acknowledged, log) := by
  refine ⟨accounts.sound, fun active => ?_⟩
  have entered := accounts.entered active
  have under_way : answer ∈ (log.foldl (carry client) traffic).homeward := by
    simpa using member
  rcases accounts.sound.acknowledged answer under_way ack with ⟨sent, handled, crossing, about⟩
  refine ⟨entered.outward, entered.homeward, fun _ => ⟨sent, handled, crossing, ?_⟩⟩
  exact entered.homeward answer under_way ack sent about

theorem Accounts.elsewhere (accounts : Accounts client traffic (task, log))
    (other : later.activeClient ≠ some client) : Accounts client traffic (later, log) := by
  simpa using accounts.away other []

theorem Turning.accounts (turning : Turning captures reasons before after)
    (reasoned : Reasoned client traffic reasons) (accounts : Accounts client traffic before) :
    Accounts client traffic after := by
  cases turning with
  | activate => simpa using accounts.enters [] rfl rfl
  | handOver => exact accounts.enters _ rfl rfl
  | hold => exact accounts.rests rfl rfl
  | @acknowledge task log quiet handle reason active waiting silent =>
    have noted : Accounts client traffic (task, log ++ quiet) :=
      accounts.along rfl rfl fun effect member => along_of_quiet (silent effect member)
    have sends : ∀ effect ∈ task.heldUntilAck.map fun event =>
        (.send handle (.input event) : CaptureEffect), Along client effect := by
      intro _ member
      rcases mem_map.mp member with ⟨_, -, rfl⟩
      exact fun _ crossed => absurd crossed Bool.false_ne_true
    have answered : Accounts client traffic (task.acknowledged, log ++ quiet) := by
      by_cases same : handle = client
      · subst same
        rcases reasoned.acknowledges reason with ⟨_, member, ack⟩
        exact noted.acknowledged member ack
      · exact noted.elsewhere (by simpa [acknowledged, active] using same)
    exact answered.along rfl rfl sends
  | say reason =>
    refine accounts.emits fun same crossing => ?_
    subst same
    exact absurd crossing (by simp [reasoned.speaks _ reason])

namespace Traffic

variable {about : Option Sent} {active : Prop}

/-- The message that is answered is an entry or a leave, and a timely one. -/
def Answered (traffic : Traffic) (about : Option Sent) (active : Prop) : Prop :=
  ∃ sent, about = some sent ∧ crosses sent.event = true ∧ (active → traffic.Timely sent)

variable {effect : ListenEffect Ip Backend}

theorem timely_answer {sent : Sent} :
    (traffic.answer addr about effect).Timely sent ↔ traffic.Timely sent := by
  unfold answer
  split
  · split <;> rfl
  · rfl

theorem Sound.answer (sound : traffic.Sound)
    (answered : ∀ event, effect = .reply addr event → isAck event = true →
      traffic.Answered about active) : (traffic.answer addr about effect).Sound := by
  unfold Traffic.answer
  split
  · split
    · rename_i event same
      subst same
      refine ⟨sound.ordered, fun answer member ack => ?_⟩
      rcases mem_append.mp member with old | new
      · rcases sound.acknowledged answer old ack with ⟨sent, handled, facts⟩
        refine ⟨sent, ?_, facts⟩
        split
        · exact mem_append_left _ handled
        · exact handled
      · rw [mem_singleton.mp new] at ack ⊢
        rcases answered event rfl ack with ⟨sent, rfl, crossing, -⟩
        exact ⟨sent, by simp [ack], crossing, rfl⟩
    · exact sound
  · exact sound

theorem Entered.answer {state : State} (entered : traffic.Entered state)
    (answered : ∀ event, effect = .reply addr event → isAck event = true →
      traffic.Answered about True) : (traffic.answer addr about effect).Entered state := by
  unfold Traffic.answer
  split
  · split
    · rename_i event same
      subst same
      refine ⟨entered.outward, fun answer member ack sent named => ?_, fun sending => ?_⟩
      · rcases mem_append.mp member with old | new
        · exact entered.homeward answer old ack sent named
        · rw [mem_singleton.mp new] at ack named
          rcases answered event rfl ack with ⟨_, rfl, -, timely⟩
          cases named
          exact timely trivial
      · rcases entered.sending sending with ⟨sent, handled, facts⟩
        refine ⟨sent, ?_, facts⟩
        split
        · exact mem_append_left _ handled
        · exact handled
    · exact entered
  · exact entered

end Traffic

theorem accounts_answers {about : Option Sent} {effects : List (ListenEffect Ip Backend)}
    (accounts : Accounts client traffic (task, []))
    (answered : ∀ event, .reply addr event ∈ effects → isAck event = true →
      traffic.Answered about (task.activeClient = some client)) :
    Accounts client (effects.foldl (answer addr about) traffic) (task, []) := by
  induction effects generalizing traffic with
  | nil => exact accounts
  | cons _ _ ih =>
    refine ih ⟨?_, fun active => ?_⟩ fun event member ack => ?_
    · refine accounts.sound.answer fun event same ack => answered event ?_ ack
      rw [same]
      exact .head _
    · refine (accounts.entered active).answer fun event same ack => ?_
      rcases answered event (by rw [same]; exact .head _) ack with ⟨sent, named, crossing, timely⟩
      exact ⟨sent, named, crossing, fun _ => timely active⟩
    · rcases answered event (.tail _ member) ack with ⟨sent, named, facts⟩
      exact ⟨sent, named, facts.1, fun active => timely_answer.mpr (facts.2 active)⟩

variable [FloatOps]

theorem step_accounts {input : CaptureInput}
    (reasoned : Reasoned client traffic (reasonsOf around task input))
    (accounts : Accounts client traffic (task, [])) :
    Accounts client traffic (task.step (around, input)) := by
  apply step_keeps (Accounts client traffic)
  · exact fun after agrees => accounts.rests agrees.activeClient agrees.state
  · exact accounts.rests (edited_activeClient task input) (edited_state task input)
  · exact fun _ _ move => Move.accounts move
  · exact fun _ _ turning => Turning.accounts turning reasoned
  · rintro _ _ _ ⟨_, _, rfl⟩ silent reached
    exact reached.along rfl rfl fun effect member =>
      along_of_quiet (silent effect member)

namespace Exchange

def Fits (client : CaptureHandle) (exchange : Exchange Ip) : Prop :=
  Accounts client exchange.traffic (exchange.capture, [])

variable {exchange : Exchange Ip}

omit [DecidableEq Ip] in
theorem Fits.capture (fits : exchange.Fits client) {input : CaptureInput}
    (reasoned : Reasoned client exchange.traffic (reasonsOf around exchange.capture input)) :
    (exchange.captures client around input).Fits client := by
  have stepped : Accounts client exchange.traffic (exchange.capture.step (around, input)) :=
    step_accounts reasoned fits
  exact ⟨stepped.sound, stepped.entered⟩

omit [FloatOps] in
theorem Fits.listen (fits : exchange.Fits client) {about : Option Sent}
    {around : ListenSurroundings Ip} {input : ListenInput Ip Backend}
    (answered : AsksAck addr input →
      exchange.traffic.Answered about (exchange.capture.activeClient = some client)) :
    (exchange.listens addr about around input).Fits client := by
  refine accounts_answers fits fun _ member ack => answered ?_
  by_contra unasked
  exact ListenTask.step_unacknowledging unasked ack member

section

omit [DecidableEq Ip] [FloatOps]

theorem Fits.dropSent (fits : exchange.Fits client) (sent : Sent) :
    (exchange.dropSent sent).Fits client := by
  refine ⟨⟨fits.sound.ordered, fits.sound.acknowledged⟩, fun active => ?_⟩
  have entered := fits.entered active
  exact ⟨fun other member => entered.outward other (mem_of_mem_erase member),
    entered.homeward, entered.sending⟩

theorem Fits.dropAnswer (fits : exchange.Fits client) (answer : Answer) :
    (exchange.dropAnswer answer).Fits client := by
  refine ⟨⟨fits.sound.ordered, fun other member =>
    fits.sound.acknowledged other (mem_of_mem_erase member)⟩, fun active => ?_⟩
  have entered := fits.entered active
  exact ⟨entered.outward, fun other member =>
    entered.homeward other (mem_of_mem_erase member), entered.sending⟩

end

end Exchange

theorem fits_invariant (backend : Option CaptureBackend) (releaseBind : List UInt32) :
    (machine client addr backend releaseBind : Machine (Exchange Ip) (Action Ip Backend)).Invariant
      (·.Fits client) where
  initial := ⟨⟨Nat.le_refl 0, by simp [machine, Traffic.none]⟩, nofun⟩
  next exchange action fits enabled := by
    cases action with
    | capture =>
      refine fits.capture ⟨?_, ?_⟩
      · rintro ⟨fingerprint, serial, rfl⟩
        exact absurd (enabled rfl) (by simp [isAck])
      · rintro event rfl
        exact enabled rfl
    | listen => exact fits.listen fun asks => absurd asks enabled
    | deliver sent =>
      refine Exchange.Fits.dropSent (fits.listen ?_) sent
      rintro ⟨-, crossing⟩
      exact ⟨sent, rfl, crossing, fun active =>
        (fits.entered active).outward sent enabled crossing⟩
    | bring answer fingerprint =>
      refine Exchange.Fits.dropAnswer (fits.capture ⟨?_, ?_⟩) answer
      · rintro ⟨_, serial, same⟩
        have acknowledges : answer.event = .ack serial := (CaptureInput.message.inj same).2.2
        exact ⟨answer, enabled, by rw [acknowledges]; rfl⟩
      · exact fun _ same => by cases same
    | loseSent sent => exact fits.dropSent sent
    | loseAnswer answer => exact fits.dropAnswer answer

/-- While a device sends its input to a peer, the peer has acknowledged an entry that was sent since
the crossing began, or an entry or leave that was under way then, itself or its acknowledgement. -/
theorem acknowledged_entry (client : CaptureHandle) (addr : SocketAddr Ip)
    (backend : Option CaptureBackend) (releaseBind : List UInt32) {exchange : Exchange Ip}
    {history : List (Exchange Ip)} (run : Run (machine client addr backend releaseBind :
      Machine (Exchange Ip) (Action Ip Backend)) (exchange :: history))
    (active : exchange.capture.activeClient = some client)
    (sending : exchange.capture.state = .sending) :
    ∃ sent ∈ exchange.traffic.handled,
      IsEntry sent.event ∧ exchange.traffic.since ≤ sent.number ∨
        crosses sent.event = true ∧ sent ∈ exchange.traffic.pending := by
  have fits := run.invariant (fits_invariant backend releaseBind) exchange (.head _)
  rcases (fits.entered active).sending sending with ⟨sent, handled, crossing, timely⟩
  exact ⟨sent, handled, timely.imp id fun pending => ⟨crossing, pending⟩⟩

open Emulation.ListenTask (desktop visitor)

/-! A client is entered, let go and entered once more. -/

def resting : CaptureTask :=
  { CaptureTask.new none [1] with
    phase := .session
    captures := [(1, .left, .default)]
    enabledCaptures := (∅ : KeySet CaptureHandle).insert 1 () }

def awaiting : CaptureTask :=
  { resting with
    ackDeadline := some ackTimeout
    localDeparture := some (.left, none)
    activeClient := some 1 }

def sending : CaptureTask :=
  { awaiting with state := .sending, ackDeadline := none }

def ready : ListenTask ℕ :=
  { ListenTask.new with captureReady := true }

def visited : ListenTask ℕ :=
  { ready with
    lastResponse := (∅ : Table (SocketAddr ℕ) ℕ).insert visitor 0
    activeInputs := (∅ : KeySet (SocketAddr ℕ)).insert visitor ()
    enteredFrom := (∅ : Table (SocketAddr ℕ) Position).insert visitor .right
    lastEntry := some (.right, 0) }

def entry : Sent := ⟨0, .enter .right⟩

def acknowledgement : Answer := ⟨some entry, .ack 0⟩

def entered : Traffic :=
  { Traffic.none with homeward := [acknowledgement], count := 1, handled := [entry] }

def pair : Machine (Exchange ℕ) (Action ℕ Unit) :=
  machine 1 visitor none [1]

theorem run_entered : ∃ history, Run pair (⟨awaiting, visited, entered⟩ :: history) := by
  have created :
      Run pair (⟨{ CaptureTask.new none [1] with phase := .session }, .new, .none⟩ :: _) :=
    Run.start.onward (.capture calm (.created .x11)) trivial rfl
  have rests : Run pair (⟨resting, .new, .none⟩ :: _) :=
    created.onward (.capture calm (.request (.create 1 .left .default))) trivial rfl
  have readies : Run pair (⟨resting, ready, .none⟩ :: _) :=
    rests.onward (.listen desktop (.request (.captureReady true))) id rfl
  have awaits : Run pair
      (⟨awaiting, ready, { Traffic.none with outward := [entry], count := 1 }⟩ :: _) :=
    readies.onward (.capture calm (.captured 1 .begin)) trivial rfl
  exact ⟨_, awaits.onward (.deliver entry desktop) (.head _) rfl⟩

theorem run_acknowledged : ∃ history,
    Run pair (⟨sending, visited, { entered with homeward := [] }⟩ :: history) := by
  rcases run_entered with ⟨_, run⟩
  exact ⟨_, run.onward (.bring acknowledgement "" calm) (.head _) rfl⟩

omit [FloatOps] in
theorem acknowledged_entry_crossing : ∃ exchange : Exchange ℕ, exchange.capture = sending ∧
    ∀ [FloatOps], (∃ history, Run pair (exchange :: history)) ∧
      ∃ sent ∈ exchange.traffic.handled,
        IsEntry sent.event ∧ exchange.traffic.since ≤ sent.number ∨
          crosses sent.event = true ∧ sent ∈ exchange.traffic.pending := by
  refine ⟨⟨sending, visited, { entered with homeward := [] }⟩, rfl, ?_⟩
  intro _
  rcases run_acknowledged with ⟨history, run⟩
  exact ⟨⟨history, run⟩, acknowledged_entry 1 visitor none [1] run rfl rfl⟩

def leaving : Traffic :=
  { entered with
    outward := [⟨1, .input (.keyboard (.modifiers 0 0 0 0))⟩, ⟨2, .leave 0⟩]
    count := 3 }

def again : Traffic :=
  { leaving with
    outward := leaving.outward ++ [⟨3, .enter .right⟩]
    count := 4
    since := 3
    pending := [⟨2, .leave 0⟩, entry] }

omit [FloatOps] in
/-- The acknowledgement of the first entry is brought after the second has been sent: input follows
although the peer has handled no entry of the second crossing. -/
theorem acknowledged_late : ∃ exchange : Exchange ℕ,
    (∀ [FloatOps], ∃ history, Run pair (exchange :: history)) ∧
      exchange.capture.activeClient = some 1 ∧ exchange.capture.state = .sending ∧
      ∀ sent ∈ exchange.traffic.handled,
        ¬(IsEntry sent.event ∧ exchange.traffic.since ≤ sent.number) := by
  refine ⟨⟨sending, visited, { again with homeward := [] }⟩, ?_, rfl, rfl, ?_⟩
  · intro _
    rcases run_entered with ⟨_, run⟩
    have released : Run pair (⟨resting, visited, leaving⟩ :: _) :=
      run.onward (.capture calm (.request .release)) trivial rfl
    have awaits : Run pair (⟨awaiting, visited, again⟩ :: _) :=
      released.onward (.capture calm (.captured 1 .begin)) trivial rfl
    exact ⟨_, awaits.onward (.bring acknowledgement "" calm) (.head _) rfl⟩
  · simp [again, leaving, entered, entry]

end Syntra.Entry
