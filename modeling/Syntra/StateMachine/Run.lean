import Mathlib.Data.List.Basic
import Mathlib.Logic.Relation

/-!
# Runs of a state machine

A run is the list of the states passed through, the latest first. A property of every state of every
run is proved from one step (`Run.invariant`), and a machine is understood through a simpler system
when each of its steps is matched by steps there (`Run.simulates`).
-/

namespace StateMachine

open List

/-- A machine whose actions may be refused. -/
structure Machine (State Action : Type*) where
  initial : State
  enabled : State → Action → Prop
  next : State → Action → State

variable {State Action : Type*}

/-- The states passed through, the latest first. -/
inductive Run (machine : Machine State Action) : List State → Prop
  | start : Run machine [machine.initial]
  | step {state : State} {history : List State} (action : Action)
      (earlier : Run machine (state :: history)) (enabled : machine.enabled state action) :
      Run machine (machine.next state action :: state :: history)

theorem Run.onward {machine : Machine State Action} {state later : State} {history : List State}
    (earlier : Run machine (state :: history)) (action : Action)
    (enabled : machine.enabled state action) (same : machine.next state action = later) :
    Run machine (later :: state :: history) := by
  subst same
  exact .step action earlier enabled

namespace Machine

def after (machine : Machine State Action) (state : State) (actions : List Action) : State :=
  actions.foldl machine.next state

/-- Every action of the sequence may be taken when its turn comes. -/
def Follows (machine : Machine State Action) : State → List Action → Prop
  | _, [] => True
  | state, action :: actions =>
    machine.enabled state action ∧ machine.Follows (machine.next state action) actions

/-- A check of every action of a sequence when its turn comes; `act` says which action a label
stands for. -/
def passes {Label : Type*} (machine : Machine State Action) (act : Label → Action)
    (check : State → Label → Bool) : State → List Label → Bool
  | _, [] => true
  | state, label :: labels =>
    check state label && machine.passes act check (machine.next state (act label)) labels

variable {state : State} {machine : Machine State Action}

theorem Follows.of_passes {Label : Type*} {act : Label → Action} {check : State → Label → Bool}
    (sound : ∀ state label, check state label = true → machine.enabled state (act label))
    {labels : List Label} (passed : machine.passes act check state labels = true) :
    machine.Follows state (labels.map act) := by
  induction labels generalizing state with
  | nil => trivial
  | cons label _ ih =>
    simp only [passes, Bool.and_eq_true] at passed
    exact ⟨sound state label passed.1, ih passed.2⟩

theorem after_append (machine : Machine State Action) (state : State) (first second : List Action) :
    machine.after state (first ++ second) = machine.after (machine.after state first) second :=
  foldl_append

theorem follows_append {first second : List Action} :
    machine.Follows state (first ++ second) ↔
      machine.Follows state first ∧ machine.Follows (machine.after state first) second := by
  induction first generalizing state with
  | nil => exact (true_and _).symm.to_iff
  | cons _ _ ih =>
    simp only [cons_append, Follows, ih, and_assoc]
    rfl

theorem Follows.keeps {holds : State → Prop} {actions : List Action}
    (follows : machine.Follows state actions)
    (step : ∀ state action, holds state → machine.enabled state action →
      holds (machine.next state action)) (before : holds state) :
    holds (machine.after state actions) := by
  induction actions generalizing state with
  | nil => exact before
  | cons action _ ih => exact ih follows.2 (step state action before follows.1)

theorem after_keeps {base : State → Prop}
    (keeps : ∀ state action, base state → base (machine.next state action)) (sound : base state)
    (actions : List Action) : base (machine.after state actions) := by
  induction actions generalizing state with
  | nil => exact sound
  | cons action _ ih => exact ih (keeps state action sound)

theorem follows_iff {base holds : State → Prop} {actions : List Action}
    (keeps : ∀ state action, base state → base (machine.next state action))
    (exactly : ∀ state action, base state → holds state →
      (holds (machine.next state action) ↔ machine.enabled state action)) (sound : base state)
    (before : holds state) :
    machine.Follows state actions ↔
      ∀ earlier, earlier <+: actions → holds (machine.after state earlier) := by
  induction actions generalizing state with
  | nil =>
    refine ⟨fun _ earlier shorter => ?_, fun _ => trivial⟩
    rw [prefix_nil.mp shorter]
    exact before
  | cons action _ ih =>
    constructor
    · intro follows _ shorter
      rcases prefix_cons_iff.mp shorter with rfl | ⟨rest, rfl, onward⟩
      · exact before
      · have next := (exactly state action sound before).mpr follows.1
        exact (ih (keeps state action sound) next).mp follows.2 rest onward
    · intro along
      have next : holds (machine.next state action) :=
        along [action] (prefix_cons_iff.mpr (.inr ⟨[], rfl, nil_prefix⟩))
      refine ⟨(exactly state action sound before).mp next, ?_⟩
      refine (ih (keeps state action sound) next).mpr fun rest shorter => ?_
      exact along (action :: rest) (prefix_cons_iff.mpr (.inr ⟨rest, rfl, shorter⟩))

/-- A property of every reachable state. -/
structure Invariant (machine : Machine State Action) (holds : State → Prop) : Prop where
  initial : holds machine.initial
  next : ∀ state action, holds state → machine.enabled state action →
    holds (machine.next state action)

end Machine

variable {machine : Machine State Action} {history : List State}

theorem Run.invariant {holds : State → Prop} (run : Run machine history)
    (invariant : machine.Invariant holds) : ∀ state ∈ history, holds state := by
  induction run with
  | start =>
    exact forall_mem_singleton.mpr invariant.initial
  | @step state history action earlier enabled ih =>
    intro other member
    rcases mem_cons.mp member with rfl | older
    · exact invariant.next state action (ih state (.head _)) enabled
    · exact ih other older

theorem Run.of_follows {actions : List Action} (follows : machine.Follows machine.initial actions) :
    ∃ history, Run machine (machine.after machine.initial actions :: history) := by
  have extend : ∀ state history, Run machine (state :: history) → machine.Follows state actions →
      ∃ history, Run machine (machine.after state actions :: history) := by
    clear follows
    induction actions with
    | nil =>
      intro state history run _
      exact ⟨history, run⟩
    | cons action _ ih =>
      intro _ _ run follows
      exact ih _ _ (.step action run follows.1) follows.2
  exact extend machine.initial [] .start follows

variable {View : Type*} {step : View → View → Prop} {shows : State → View → Prop} {first : View}

theorem Run.simulates {state : State} (run : Run machine (state :: history))
    (initial : shows machine.initial first)
    (matched : ∀ state action view, shows state view → machine.enabled state action →
      ∃ later, Relation.ReflTransGen step view later ∧ shows (machine.next state action) later) :
    ∃ view, Relation.ReflTransGen step first view ∧ shows state view := by
  generalize states : state :: history = path at run
  induction run generalizing state history with
  | start =>
    cases states
    exact ⟨first, .refl, initial⟩
  | @step earlier older action run enabled ih =>
    cases states
    rcases ih rfl with ⟨view, reached, seen⟩
    rcases matched earlier action view seen enabled with ⟨later, steps, showing⟩
    exact ⟨later, reached.trans steps, showing⟩

/-- What every step of the simpler system keeps holds wherever its steps lead. -/
theorem invariant_of_steps {holds : View → Prop} {view later : View}
    (keeps : ∀ view later, holds view → step view later → holds later)
    (steps : Relation.ReflTransGen step view later) (before : holds view) : holds later := by
  induction steps with
  | refl => exact before
  | tail _ last ih => exact keeps _ _ ih last

section Effects

variable {Input Effect : Type*} (step : State → Input → State × List Effect)

def outcome (state : State) : List Input → State × List Effect
  | [] => (state, [])
  | input :: inputs =>
    let first := step state input
    let rest := outcome first.1 inputs
    (rest.1, first.2 ++ rest.2)

theorem outcome_append (state : State) (first second : List Input) :
    outcome step state (first ++ second) = ((outcome step (outcome step state first).1 second).1,
        (outcome step state first).2 ++ (outcome step (outcome step state first).1 second).2) := by
  induction first generalizing state with
  | nil => rfl
  | cons _ _ ih => simp [outcome, ih]

theorem outcome_concat (state : State) (inputs : List Input) (input : Input) :
    outcome step state (inputs ++ [input]) = ((step (outcome step state inputs).1 input).1,
        (outcome step state inputs).2 ++ (step (outcome step state inputs).1 input).2) := by
  rw [outcome_append]
  simp [outcome]

/-- The run takes this input in this state. -/
def Meets (initial : State) (inputs : List Input) (state : State) (input : Input) : Prop :=
  ∃ earlier later, inputs = earlier ++ input :: later ∧ state = (outcome step initial earlier).1

variable {step}

variable {initial state : State} {input : Input} {inputs : List Input}

theorem Meets.append (meets : Meets step initial inputs state input) (more : List Input) :
    Meets step initial (inputs ++ more) state input := by
  rcases meets with ⟨earlier, later, rfl, reached⟩
  exact ⟨earlier, later ++ more, by simp, reached⟩

theorem meets_append {first second : List Input} :
    Meets step initial (first ++ second) state input ↔
      Meets step initial first state input ∨
        Meets step (outcome step initial first).1 second state input := by
  constructor
  · rintro ⟨earlier, later, split, rfl⟩
    rcases append_eq_append_iff.mp split with ⟨more, rfl, rest⟩ | ⟨more, rfl, rest⟩
    · exact .inr ⟨more, later, rest, by rw [outcome_append]⟩
    · cases more with
      | nil => exact .inr ⟨[], later, by simpa using rest.symm, by simp [outcome]⟩
      | cons _ more =>
        rcases rest with ⟨rfl, rfl⟩
        exact .inl ⟨earlier, more, rfl, rfl⟩
  · rintro (⟨earlier, later, rfl, rfl⟩ | ⟨earlier, later, rfl, rfl⟩)
    · exact ⟨earlier, later ++ second, by simp, rfl⟩
    · exact ⟨first ++ earlier, later, by simp, by rw [outcome_append]⟩

@[simp]
theorem meets_singleton {other : Input} :
    Meets step initial [other] state input ↔ state = initial ∧ input = other := by
  constructor
  · rintro ⟨_, _, split, rfl⟩
    rcases append_eq_singleton_iff.mp split.symm with ⟨rfl, rest⟩ | ⟨_, rest⟩
    · exact ⟨rfl, (cons.inj rest).1⟩
    · exact absurd rest (cons_ne_nil _ _)
  · rintro ⟨rfl, rfl⟩
    exact ⟨[], [], rfl, rfl⟩

theorem not_meets_nil : ¬Meets step initial [] state input := by
  rintro ⟨_, _, split, -⟩
  exact absurd split.symm (by simp)

theorem Meets.here : Meets step initial (input :: inputs) initial input :=
  ⟨[], inputs, rfl, rfl⟩

theorem Meets.later {first : Input} (meets : Meets step (step initial first).1 inputs state input) :
    Meets step initial (first :: inputs) state input := by
  rcases meets with ⟨earlier, later, rfl, reached⟩
  exact ⟨first :: earlier, later, rfl, reached⟩

theorem meets_cons {first : Input} :
    Meets step initial (first :: inputs) state input ↔
      state = initial ∧ input = first ∨ Meets step (step initial first).1 inputs state input := by
  constructor
  · rintro ⟨earlier, later, split, rfl⟩
    cases earlier with
    | nil =>
      rw [nil_append, cons.injEq] at split
      exact .inl ⟨rfl, split.1.symm⟩
    | cons _ earlier =>
      rcases split with ⟨rfl, rfl⟩
      exact .inr ⟨earlier, later, rfl, rfl⟩
  · rintro (⟨rfl, rfl⟩ | met)
    · exact .here
    · exact met.later

theorem Meets.onward {later : State} {first : Input} (meets : Meets step later inputs state input)
    (same : (step initial first).1 = later) : Meets step initial (first :: inputs) state input := by
  subst same
  exact meets.later

variable {holds : State → Prop}

theorem outcome_keeps {condition : State → Input → Prop}
    (keeps : ∀ state input, holds state → condition state input → holds (step state input).1)
    (meets : ∀ state input, Meets step initial inputs state input → condition state input)
    (before : holds initial) : holds (outcome step initial inputs).1 := by
  induction inputs generalizing initial with
  | nil => exact before
  | cons input _ ih =>
    have first : condition initial input := meets initial input .here
    have next : holds (step initial input).1 := keeps initial input before first
    exact ih (fun state other met => meets state other met.later) next

theorem outcome_accounts (holds : State → List Effect → Prop)
    (keeps : ∀ state log input, holds state log →
      holds (step state input).1 (log ++ (step state input).2)) (before : holds initial [])
    (inputs : List Input) :
    holds (outcome step initial inputs).1 (outcome step initial inputs).2 := by
  have further : ∀ state log, holds state log →
      holds (outcome step state inputs).1 (log ++ (outcome step state inputs).2) := by
    induction inputs with
    | nil => exact fun state log kept => by simpa [outcome] using kept
    | cons input _ ih =>
      intro state log kept
      simpa [outcome] using ih _ _ (keeps state log input kept)
  simpa using further initial [] before

theorem Meets.reached {condition : State → Input → Prop}
    (meets : Meets step initial inputs state input)
    (keeps : ∀ state input, holds state → condition state input → holds (step state input).1)
    (met : ∀ state input, Meets step initial inputs state input → condition state input)
    (before : holds initial) : holds state := by
  rcases meets with ⟨_, _, rfl, rfl⟩
  exact outcome_keeps keeps (fun state other meets => met state other (meets.append _)) before

theorem forall_meets_iff {post condition : State → Input → Prop}
    (exactly : ∀ state input, holds state → (post state input ↔ condition state input))
    (next : ∀ state input, post state input → holds (step state input).1) (before : holds initial) :
    (∀ state input, Meets step initial inputs state input → post state input) ↔
      ∀ state input, Meets step initial inputs state input → condition state input := by
  constructor
  · intro posts state input met
    have reached : holds state := met.reached (fun state input _ => next state input) posts before
    exact (exactly state input reached).mp (posts state input met)
  · intro conditions state input met
    have keeps (state : State) (input : Input) (sound : holds state)
        (allowed : condition state input) : holds (step state input).1 :=
      next state input ((exactly state input sound).mpr allowed)
    have reached : holds state := met.reached keeps conditions before
    exact (exactly state input reached).mpr (conditions state input met)

theorem Meets.last (initial : State) (inputs : List Input) (input : Input) :
    Meets step initial (inputs ++ [input]) (outcome step initial inputs).1 input :=
  ⟨inputs, [], rfl, rfl⟩

variable {Index : Type*} [DecidableEq Index]

/-- What is meant for one of several machines, or comes from it. -/
def ofIndex {Item : Type*} (index : Index) (items : List (Index × Item)) : List Item :=
  items.filterMap fun item => if item.1 = index then some item.2 else none

variable {Item : Type*}

@[simp]
theorem ofIndex_nil (index : Index) : ofIndex index ([] : List (Index × Item)) = [] :=
  rfl

@[simp]
theorem ofIndex_append (index : Index) (first second : List (Index × Item)) :
    ofIndex index (first ++ second) = ofIndex index first ++ ofIndex index second :=
  filterMap_append

theorem ofIndex_cons (index other : Index) (item : Item) (items : List (Index × Item)) :
    ofIndex index ((other, item) :: items) =
      if other = index then item :: ofIndex index items else ofIndex index items := by
  by_cases same : other = index <;> simp [ofIndex, same]

theorem ofIndex_map (index other : Index) (items : List Item) :
    ofIndex index (items.map (Prod.mk other)) = if other = index then items else [] := by
  induction items with
  | nil => simp
  | cons => by_cases same : other = index <;> simp_all [ofIndex_cons]

variable (step) in
def sideBySide (states : Index → State) (input : Index × Input) :
    (Index → State) × List (Index × Effect) :=
  let after := step (states input.1) input.2
  (Function.update states input.1 after.1, after.2.map (Prod.mk input.1))

theorem outcome_sideBySide (states : Index → State) (inputs : List (Index × Input))
    (index : Index) :
    (outcome (sideBySide step) states inputs).1 index =
        (outcome step (states index) (ofIndex index inputs)).1 ∧
      ofIndex index (outcome (sideBySide step) states inputs).2 =
        (outcome step (states index) (ofIndex index inputs)).2 := by
  induction inputs generalizing states with
  | nil => simp [outcome]
  | cons input _ ih =>
    rcases input with ⟨other, _⟩
    by_cases same : other = index
    · subst same
      simp [outcome, sideBySide, ih, ofIndex_cons, ofIndex_map]
    · simp [outcome, sideBySide, ih, ofIndex_cons, ofIndex_map, same, Ne.symm same]

theorem Meets.beside {initial : Index → State} {inputs : List (Index × Input)} {index : Index}
    (meets : Meets step (initial index) (ofIndex index inputs) state input) :
    ∃ states, states index = state ∧
      Meets (sideBySide step) initial inputs states (index, input) := by
  rcases meets with ⟨_, _, split, rfl⟩
  rcases filterMap_eq_append_iff.mp split with ⟨first, _, rfl, rfl, found⟩
  rcases filterMap_eq_cons_iff.mp found with ⟨skipped, item, others, rfl, skips, _, rfl⟩
  rcases item with ⟨other, item⟩
  have same : other = index ∧ item = input := by
    by_cases same : other = index <;> simp_all
  rcases same with ⟨rfl, rfl⟩
  have none : ofIndex other skipped = [] := filterMap_eq_nil_iff.mpr skips
  refine ⟨_, ?_, ⟨first ++ skipped, others, by simp, rfl⟩⟩
  rw [(outcome_sideBySide initial (first ++ skipped) other).1, ofIndex_append, none, append_nil]
  rfl

theorem Meets.alone {initial states : Index → State} {inputs : List (Index × Input)}
    {index : Index} (meets : Meets (sideBySide step) initial inputs states (index, input)) :
    Meets step (initial index) (ofIndex index inputs) (states index) input := by
  rcases meets with ⟨earlier, later, rfl, rfl⟩
  refine ⟨ofIndex index earlier, ofIndex index later, by simp [ofIndex_cons], ?_⟩
  exact (outcome_sideBySide initial earlier index).1

end Effects

end StateMachine
