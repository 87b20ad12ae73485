import Mathlib.Data.List.Basic

/-!
# Calls and their answers

A component that is called answers every call and goes over into another state. What holds of every
answer in every sequence of calls is proved from one call.
-/

namespace StateMachine

variable {State Call Answer : Type*} (respond : State → Call → State × Answer)

def answers (state : State) : List Call → State × List (Call × Answer)
  | [] => (state, [])
  | call :: calls =>
    let first := respond state call
    let rest := answers first.1 calls
    (rest.1, (call, first.2) :: rest.2)

theorem answers_cons (state : State) (call : Call) (calls : List Call) :
    answers respond state (call :: calls) = ((answers respond (respond state call).1 calls).1,
        (call, (respond state call).2) :: (answers respond (respond state call).1 calls).2) :=
  rfl

variable {respond}

theorem answers_keeps {holds : State → Prop}
    (step : ∀ state call, holds state → holds (respond state call).1) {state : State}
    (before : holds state) (calls : List Call) : holds (answers respond state calls).1 := by
  induction calls generalizing state with
  | nil => exact before
  | cons call _ ih => exact ih (step state call before)

theorem answers_forall {holds : State → Prop} {allowed : Call → Answer → Prop}
    (step : ∀ state call, holds state → holds (respond state call).1)
    (allows : ∀ state call, holds state → allowed call (respond state call).2) {state : State}
    (before : holds state) (calls : List Call) :
    ∀ entry ∈ (answers respond state calls).2, allowed entry.1 entry.2 := by
  induction calls generalizing state with
  | nil => exact List.forall_mem_nil _
  | cons call _ ih =>
    exact List.forall_mem_cons.mpr ⟨allows state call before, ih (step state call before)⟩

end StateMachine
