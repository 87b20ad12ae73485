import Mathlib.Data.List.Chain
import Syntra.Emulation.Handlers
import Syntra.StateMachine.Run

/-!
# Control of this screen

What the listening task reports of a peer's pointer: that it has entered, and that it has left. The
two reports take turns, and the peers that control the screen are those that have entered, as long
as input sharing is not switched off under a peer in control and no peer comes back through a
refused hand-off.
-/

namespace Syntra.Emulation

open Proto StateMachine List
open Handler (ensures_bind ensures_task ensures_update ensures_emit)

/-- A report about the pointer of a peer. -/
inductive Crossing
  | entered
  | left
  deriving DecidableEq, Repr

namespace Crossing

/-- The reports take turns, and the first one is of an entry. -/
def Alternate (crossings : List Crossing) : Prop :=
  crossings.IsChain (· ≠ ·) ∧ crossings.head? ≠ some .left

/-- Whether the pointer is here after some reports, if they take turns. -/
def follow : Bool → List Crossing → Option Bool
  | here, [] => some here
  | false, .entered :: later => follow true later
  | true, .left :: later => follow false later
  | _, _ => none

theorem follow_append (here : Bool) (first second : List Crossing) :
    follow here (first ++ second) = (follow here first).bind fun here => follow here second := by
  induction first generalizing here with
  | nil => rfl
  | cons crossing _ ih => cases here <;> cases crossing <;> simp [follow, ih]

theorem alternate_concat {crossings : List Crossing} {crossing : Crossing} :
    Alternate (crossings ++ [crossing]) ↔
      Alternate crossings ∧ (crossing = .entered ↔ crossings.getLast? ≠ some .entered) := by
  rcases eq_nil_or_concat crossings with rfl | ⟨_, last, rfl⟩
  · cases crossing <;> simp [Alternate]
  · cases last <;> cases crossing <;>
      simp [Alternate, isChain_append, head?_append]

theorem follow_eq_some_iff {crossings : List Crossing} {here : Bool} :
    follow false crossings = some here ↔
      Alternate crossings ∧ (here = true ↔ crossings.getLast? = some .entered) := by
  induction crossings using reverseRecOn generalizing here with
  | nil => cases here <;> simp [follow, Alternate]
  | append_singleton crossings crossing ih =>
    rw [follow_append, alternate_concat, getLast?_concat]
    cases followed : follow false crossings with
    | none =>
      have disordered : ¬Alternate crossings := by
        intro ordered
        have known : follow false crossings = some (decide (crossings.getLast? = some .entered)) :=
          ih.mpr ⟨ordered, by simp⟩
        rw [followed] at known
        exact nomatch known
      simp [disordered]
    | some before =>
      cases before <;> cases crossing <;> cases here <;> simp_all [follow]

end Crossing

section Task

variable {Ip Backend : Type} [DecidableEq Ip]

def crossing (addr : SocketAddr Ip) : ListenEffect Ip Backend → Option Crossing
  | .report (.entered other _ _ true _ _) => if other = addr then some .entered else none
  | .report (.left other _ _) => if other = addr then some .left else none
  | _ => none

def crossings (addr : SocketAddr Ip) (effects : List (ListenEffect Ip Backend)) : List Crossing :=
  effects.filterMap (crossing addr)

@[simp]
theorem crossings_nil (addr : SocketAddr Ip) :
    crossings addr ([] : List (ListenEffect Ip Backend)) = [] :=
  rfl

@[simp]
theorem crossings_cons (addr : SocketAddr Ip) (effect : ListenEffect Ip Backend)
    (effects : List (ListenEffect Ip Backend)) :
    crossings addr (effect :: effects) =
      (crossing addr effect).toList ++ crossings addr effects := by
  rw [crossings, filterMap_cons]
  cases crossing addr effect <;> rfl

theorem crossings_append (addr : SocketAddr Ip) (first second : List (ListenEffect Ip Backend)) :
    crossings addr (first ++ second) = crossings addr first ++ crossings addr second :=
  filterMap_append

namespace ListenTask

variable {task after : ListenTask Ip} {around : ListenSurroundings Ip}

/-- The reports follow the peers in control, and the last peer to lose control is told of. -/
structure Tracks (before after : ListenTask Ip) (effects : List (ListenEffect Ip Backend)) :
    Prop where
  follows : ∀ addr, Crossing.follow (decide (addr ∈ before.activeInputs))
    (crossings addr effects) = some (decide (addr ∈ after.activeInputs))
  released : before.activeInputs ≠ ∅ → after.activeInputs = ∅ →
    .report .noLongerControlled ∈ effects

theorem Tracks.refl (task : ListenTask Ip) :
    Tracks task task ([] : List (ListenEffect Ip Backend)) where
  follows _ := rfl
  released controlled free := absurd free controlled

theorem Tracks.trans {between : ListenTask Ip} {first second : List (ListenEffect Ip Backend)}
    (one : Tracks task between first) (other : Tracks between after second) :
    Tracks task after (first ++ second) where
  follows addr := by
    rw [crossings_append, Crossing.follow_append, one.follows addr]
    exact other.follows addr
  released controlled free := by
    by_cases already : between.activeInputs = ∅
    · exact mem_append_left _ (one.released controlled already)
    · exact mem_append_right _ (other.released already free)

/-- A handler adds to the effects what tracks the change of the task. -/
def Goes (before after : ListenTask Ip × List (ListenEffect Ip Backend)) : Prop :=
  ∃ effects, after.2 = before.2 ++ effects ∧ Tracks before.1 after.1 effects

instance : Std.Refl (Goes : ListenTask Ip × List (ListenEffect Ip Backend) → _ → Prop) where
  refl before := ⟨[], by simp, .refl before.1⟩

instance : IsTrans (ListenTask Ip × List (ListenEffect Ip Backend)) Goes where
  trans := by
    rintro first second third ⟨effects, added, tracks⟩ ⟨more, further, onward⟩
    exact ⟨effects ++ more, by rw [further, added, List.append_assoc], tracks.trans onward⟩

variable {effects : List (ListenEffect Ip Backend)} {effect : ListenEffect Ip Backend}
  {event : ProtoEvent}

theorem Goes.tracks (goes : Goes (task, []) (after, effects)) : Tracks task after effects := by
  rcases goes with ⟨added, same, tracks⟩
  have same : effects = added := same
  rw [same]
  exact tracks

theorem goes_emit (silent : ∀ addr, crossing addr effect = none)
    (log : List (ListenEffect Ip Backend)) : Goes (task, log) (task, log ++ [effect]) := by
  refine ⟨[effect], rfl, ?_, fun controlled free => absurd free controlled⟩
  intro addr
  simp [silent addr, Crossing.follow]

theorem goes_same (same : after.activeInputs = task.activeInputs)
    (log : List (ListenEffect Ip Backend)) : Goes (task, log) (after, log) := by
  refine ⟨[], by simp, ?_, ?_⟩
  · intro _
    rw [same]
    rfl
  · intro controlled free
    rw [same] at free
    exact absurd free controlled

theorem goes_endControl {addr : SocketAddr Ip} (log : List (ListenEffect Ip Backend))
    (controls : addr ∈ task.activeInputs) (side : Option Position) (along : Option F32) :
    Goes (task, log) ({ task with activeInputs := task.activeInputs.erase addr },
        log ++ (.report (.left addr side along) ::
          if task.activeInputs.erase addr = ∅ then [.report .noLongerControlled] else [])) := by
  refine ⟨_, rfl, ?_, ?_⟩
  · intro other
    by_cases same : addr = other
    · subst same
      split <;> simp [crossing, Crossing.follow, controls]
    · have kept : other ∈ task.activeInputs.erase addr ↔ other ∈ task.activeInputs := by
        simp [Ne.symm same]
      split <;> simp [crossing, Crossing.follow, same, kept]
  · intro _ free
    have free : task.activeInputs.erase addr = ∅ := free
    simp [free]

variable {addr : SocketAddr Ip}

theorem goes_entered (log : List (ListenEffect Ip Backend))
    (inserted : after.activeInputs = task.activeInputs.insert addr ())
    (reported : ∀ other, crossings other effects =
      if addr = other ∧ addr ∉ task.activeInputs then [.entered] else []) :
    Goes (task, log) (after, log ++ effects) := by
  refine ⟨effects, rfl, ?_, ?_⟩
  · intro other
    rw [reported, inserted]
    by_cases same : addr = other
    · subst same
      by_cases known : addr ∈ task.activeInputs <;> simp [Crossing.follow, known]
    · simp [Crossing.follow, same, Ne.symm same]
  · intro _ free
    have member : addr ∈ after.activeInputs := by
      rw [inserted]
      exact (AList.mem_insert _).mpr (.inl rfl)
    rw [free] at member
    exact absurd member (AList.notMem_empty addr)

/-- A step keeps the reports in order: a hand-off is refused for a peer in control only, and input
sharing is switched off under no peer. -/
def Accounted (task : ListenTask Ip) : ListenInput Ip Backend → Prop
  | .message addr (.handoff _ _) => addr ∈ task.activeInputs
  | .request (.setInputSharing false) => task.activeInputs = ∅
  | _ => True

theorem crossings_entryEffects (around : ListenSurroundings Ip) (fingerprint : String)
    (pos : Position) (through : Option Position) (along : Option F32) (other : SocketAddr Ip) :
    crossings other (task.entryEffects around addr fingerprint pos through along :
        List (ListenEffect Ip Backend)) =
      if addr = other ∧ addr ∉ task.activeInputs then [.entered] else [] := by
  rw [entryEffects]
  by_cases same : addr = other <;> by_cases known : addr ∈ task.activeInputs <;>
    split <;> simp_all [crossing]

theorem Move.goes {start : ListenTask Ip} {input : ListenInput Ip Backend}
    (accounted : start.Accounted input) : Move start around input ≤ Goes := by
  intro _ _ move
  cases move with
  | @speak _ log effect quiet =>
    refine goes_emit (fun _ => ?_) log
    unfold crossing
    split
    · exact quiet.elim
    · exact quiet.elim
    · rfl
  | note same => exact goes_same same _
  | leave side along controls => exact goes_endControl _ controls side along
  | dismiss still emptied asked =>
    subst asked
    have free : start.activeInputs = ∅ := accounted
    exact goes_same (by rw [emptied, still, free]) _
  | admitted pos through along _ _ _ _ inserted =>
    exact goes_entered _ inserted fun other =>
      crossings_entryEffects around _ pos through along other
  | @resume _ _ log _ _ _ still inserted asked =>
    subst asked
    have controls := accounted
    rw [Accounted, ← still] at controls
    have goes : Goes (_, log) (_, log ++ []) :=
      goes_entered log inserted fun other => by simp [controls]
    simpa using goes
  | acknowledge | say => exact goes_emit (fun _ => rfl) _
  | @forward _ log _ _ effect _ forwards =>
    refine goes_emit (fun _ => ?_) log
    unfold Forwards at forwards
    split at forwards
    · rfl
    · rfl
    · exact forwards.elim

theorem tracks_step {input : ListenSurroundings Ip × ListenInput Ip Backend}
    (accounted : task.ended = false → task.Accounted input.2) :
    Tracks task (task.step input).1 (task.step input).2 := by
  by_cases running : task.ended = false
  · exact (Runs.along (Move.goes (accounted running)) _ _ (step_runs task _ _)).tracks
  · rw [step_of_ended running]
    exact .refl task

def AllAccounted (inputs : List (ListenSurroundings Ip × ListenInput Ip Backend)) : Prop :=
  ∀ task input, Meets step new inputs task input → task.ended = false → task.Accounted input.2

theorem tracks_outcome {inputs : List (ListenSurroundings Ip × ListenInput Ip Backend)}
    (accounted : AllAccounted inputs) :
    Tracks new (outcome step new inputs).1 (outcome step new inputs).2 := by
  induction inputs using reverseRecOn with
  | nil => exact .refl new
  | append_singleton inputs input ih =>
    rw [outcome_concat]
    apply Tracks.trans (ih fun task input meets => accounted task input (meets.append _))
    exact tracks_step (accounted _ input (.last new inputs input))

theorem step_handoff (around : ListenSurroundings Ip) (addr : SocketAddr Ip)
    (running : task.ended = false) (target : String) (side : Position) :
    addr ∈ (task.step (around, (.message addr (.handoff target side) :
        ListenInput Ip Backend))).1.activeInputs ∧
      crossings addr (task.step (around, (.message addr (.handoff target side) :
        ListenInput Ip Backend))).2 = [] := by
  apply step_of_ensures (fun after effects => addr ∈ after.activeInputs ∧
    crossings addr effects = []) running
  have refused : (dispatch around addr (.handoff target side) : Handler Ip Backend Unit) =
      handoffRefused around addr side := rfl
  simp only [handle, handleMessage, refused, handoffRefused, ensures_bind,
    ensures_update, ensures_task]
  split
  · simp [crossing]
  · simp [crossing]

theorem step_sharingOff (around : ListenSurroundings Ip) (running : task.ended = false) :
    (task.step (around, (.request (.setInputSharing false) :
        ListenInput Ip Backend))).1.activeInputs = ∅ ∧
      .report .noLongerControlled ∉ (task.step (around, (.request (.setInputSharing false) :
        ListenInput Ip Backend))).2 := by
  apply step_of_ensures (fun after effects => after.activeInputs = ∅ ∧
    .report .noLongerControlled ∉ effects) running
  have loop : ∀ before : ListenTask Ip × List (ListenEffect Ip Backend),
      before.1.activeInputs = ∅ ∧ .report .noLongerControlled ∉ before.2 →
      (Handler.each (around.peers.arrange task.activeInputs.keys) fun addr => do
        .emit (.proxy (.remove addr))
        .emit (.reply addr (.leave 0)) : Handler Ip Backend Unit).Ensures before
        (fun _ after => after.1.activeInputs = ∅ ∧ .report .noLongerControlled ∉ after.2)
        fun _ _ => False := by
    intro _ free
    apply Handler.Ensures.each (fun after : ListenTask Ip × List (ListenEffect Ip Backend) =>
      after.1.activeInputs = ∅ ∧ .report .noLongerControlled ∉ after.2) free
    intro _ _ _ kept
    simpa using kept
  apply (loop _ ⟨rfl, by simp⟩).mono
  · exact fun _ _ kept => kept
  · exact fun _ _ impossible => impossible.elim

/-- The reports of the pointer of every peer take turns, the first one of an entry, the peers in
control are those whose last report is of an entry, and when the last of them loses control this is
told; so it is in every run in which a hand-off is refused for a peer in control only and input
sharing is switched off under no peer, and in no other. -/
theorem control_balances_iff (inputs : List (ListenSurroundings Ip × ListenInput Ip Backend)) :
    ((∀ earlier later, inputs = earlier ++ later → ∀ addr,
          Crossing.Alternate (crossings addr (outcome step new earlier).2) ∧
            (addr ∈ (outcome step new earlier).1.activeInputs ↔
              (crossings addr (outcome step new earlier).2).getLast? = some .entered)) ∧
        ∀ task input, Meets step new inputs task input → task.activeInputs ≠ ∅ →
          (task.step input).1.activeInputs = ∅ →
          .report .noLongerControlled ∈ (task.step input).2) ↔
      ∀ task input, Meets step new inputs task input → task.ended = false →
        task.Accounted input.2 := by
  constructor
  · rintro ⟨balanced, told⟩ task ⟨around, input⟩ meets running
    rcases meets with ⟨earlier, later, split, rfl⟩
    unfold Accounted
    split
    · rename_i addr target side same
      cases same
      have before := (balanced earlier _ split addr).2
      have after := (balanced (earlier ++ [(around, .message addr (.handoff target side))]) later
        (by simp [split]) addr).2
      rcases step_handoff around addr running target side with ⟨here, silent⟩
      rw [outcome_concat, crossings_append, silent, List.append_nil] at after
      exact before.mpr (after.mp here)
    · rename_i same
      cases same
      by_contra controlled
      have noted := told _ _ ⟨earlier, later, split, rfl⟩ controlled
        (step_sharingOff around running).1
      exact (step_sharingOff around running).2 noted
    · trivial
  · intro accounted
    refine ⟨?_, ?_⟩
    · rintro _ later rfl addr
      have tracks := tracks_outcome fun task input meets =>
        accounted task input (meets.append later)
      have follows := Crossing.follow_eq_some_iff.mp (tracks.follows addr)
      rw [decide_eq_true_iff] at follows
      exact follows
    · intro task input meets
      exact (tracks_step (accounted task input meets)).released

/-! A peer comes in twice, with input sharing switched off and on again in between. -/

def desktop : ListenSurroundings ℕ where
  android := false
  now := 0
  emulationReady := true
  proxySharing := true
  certificateFingerprint _ := some "aa"
  touchpadActive := false
  localCommit := List.Vector.replicate 8 0
  portChanged := .error ""
  published := .ok ()
  sides := .asStored Position
  peers := .asStored (SocketAddr ℕ)

def visitor : SocketAddr ℕ := ⟨1, 4242⟩

def sharedAgain : List (ListenSurroundings ℕ × ListenInput ℕ Unit) :=
  [.request (.captureReady true), .message visitor (.enter .left),
    .request (.setInputSharing false), .request (.setInputSharing true),
    .message visitor (.enter .left)].map (desktop, ·)

theorem control_unbalanced :
    visitor ∉ (outcome step new (sharedAgain.take 3)).1.activeInputs ∧
      crossings visitor (outcome step new (sharedAgain.take 3)).2 = [.entered] ∧
      crossings visitor (outcome step new sharedAgain).2 = [.entered, .entered] := by
  refine ⟨by decide, rfl, rfl⟩

end ListenTask

end Task

end Syntra.Emulation
