import Syntra.Emulation.Handlers

/-!
# Acknowledgements

The listening task acknowledges a peer only for an entry or a leave of that peer.
-/

namespace Syntra.Emulation

open Proto StateMachine

def crosses : ProtoEvent → Bool
  | .enter _ | .enterAt .. | .enterVia .. | .leave _ => true
  | _ => false

def isAck : ProtoEvent → Bool
  | .ack _ => true
  | _ => false

variable {Ip Backend : Type} [DecidableEq Ip]

/-- An input that may have a peer acknowledged: its entry or leave, or what the service says. -/
def AsksAck (addr : SocketAddr Ip) : ListenInput Ip Backend → Prop
  | .message other event => other = addr ∧ crosses event = true
  | .request (.sendProto other event) => other = addr ∧ isAck event = true
  | _ => False

namespace ListenTask

/-- No acknowledgement of a peer is added. -/
def Unacknowledging (addr : SocketAddr Ip)
    (before after : ListenTask Ip × List (ListenEffect Ip Backend)) : Prop :=
  ∀ event, isAck event = true → .reply addr event ∈ after.2 → .reply addr event ∈ before.2

variable {addr : SocketAddr Ip} {around : ListenSurroundings Ip}

instance : Std.Refl (Unacknowledging addr :
    ListenTask Ip × List (ListenEffect Ip Backend) → _ → Prop) where
  refl _ _ _ member := member

instance : IsTrans _ (Unacknowledging addr :
    ListenTask Ip × List (ListenEffect Ip Backend) → _ → Prop) where
  trans _ _ _ first second event ack member := first event ack (second event ack member)

omit [DecidableEq Ip] in
theorem unacknowledging_append {task after : ListenTask Ip}
    {log new : List (ListenEffect Ip Backend)}
    (other : ∀ event, isAck event = true → .reply addr event ∉ new) :
    Unacknowledging addr (task, log) (after, log ++ new) :=
  fun event ack member => (List.mem_append.mp member).resolve_right (other event ack)

theorem Move.unacknowledging {start : ListenTask Ip} {input : ListenInput Ip Backend}
    (unasked : ¬AsksAck addr input) : Move start around input ≤ Unacknowledging addr := by
  intro _ _ move
  cases move with
  | speak quiet =>
    refine unacknowledging_append fun event ack member => ?_
    rw [← List.mem_singleton.mp member] at quiet
    cases event <;> simp_all [isAck, ListenEffect.Quiet]
  | note | dismiss | resume => exact fun _ _ member => member
  | leave =>
    refine unacknowledging_append fun _ _ member => ?_
    split at member
    · simp at member
    · simp at member
  | @admitted _ _ _ other event _ _ _ _ asked entry =>
    subst asked
    have crossing : crosses event = true := by cases event <;> first | rfl | cases entry
    have differs : other ≠ addr := fun same => unasked ⟨same, crossing⟩
    refine unacknowledging_append fun _ _ member => ?_
    simp only [entryEffects] at member
    split at member
    · simp_all
    · simp_all
  | acknowledge asked =>
    subst asked
    refine unacknowledging_append fun _ _ member => unasked ⟨?_, rfl⟩
    exact (ListenEffect.reply.inj (List.mem_singleton.mp member)).1.symm
  | say asked =>
    subst asked
    refine unacknowledging_append fun _ ack member => unasked ?_
    cases List.mem_singleton.mp member
    exact ⟨rfl, ack⟩
  | forward _ forwards =>
    refine unacknowledging_append fun _ _ member => ?_
    rw [← List.mem_singleton.mp member] at forwards
    exact forwards

theorem step_unacknowledging {task : ListenTask Ip} {input : ListenInput Ip Backend}
    (unasked : ¬AsksAck addr input) (ack : isAck event = true) :
    .reply addr event ∉ (task.step (around, input)).2 := by
  intro member
  have steps : Unacknowledging addr (task, []) (task.step (around, input)) :=
    Runs.along (Move.unacknowledging unasked) _ _ (step_runs task around input)
  exact absurd (steps event ack member) List.not_mem_nil

end ListenTask

end Syntra.Emulation
