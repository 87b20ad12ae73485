import Mathlib.Order.Defs.Unbundled

/-!
# Handlers

A handler answers one event of a task: it reads and changes the state and returns a value, or stops
early with an error; what it has changed until then stays. What a handler ensures is computed from
what its parts ensure; one that is called is replaced by what is known of it (`Ensures.mono`).
-/

namespace StateMachine

def Handler (σ ε α : Type) : Type := σ → Except ε α × σ

namespace Handler

variable {σ ε α β : Type}

instance : Monad (Handler σ ε) where
  pure value := fun state => (.ok value, state)
  bind handler next := fun state =>
    match handler state with
    | (.ok value, later) => next value later
    | (.error error, later) => (.error error, later)

def read : Handler σ ε σ := fun state => (.ok state, state)

def change (update : σ → σ) : Handler σ ε Unit := fun state => (.ok (), update state)

def stop (error : ε) : Handler σ ε α := fun state => (.error error, state)

/-- What has been worked out beside the state: its value, or a stop with its error. -/
def attempt (result : Except ε α) : Handler σ ε α := fun state => (result, state)

def recover (handler : Handler σ ε α) (rescue : ε → Handler σ ε α) : Handler σ ε α := fun state =>
  match handler state with
  | (.ok value, later) => (.ok value, later)
  | (.error error, later) => rescue error later

def each (list : List α) (body : α → Handler σ ε Unit) : Handler σ ε Unit :=
  match list with
  | [] => pure ()
  | element :: rest => do
    body element
    each rest body

/-- From the state `before` the handler ends with what `post` says, or stops with what `stopped`
says. -/
def Ensures (handler : Handler σ ε α) (before : σ) (post : α → σ → Prop)
    (stopped : ε → σ → Prop) : Prop :=
  match handler before with
  | (.ok value, after) => post value after
  | (.error error, after) => stopped error after

variable {before : σ} {post : α → σ → Prop} {stopped : ε → σ → Prop}

@[simp]
theorem ensures_pure {value : α} :
    (pure value : Handler σ ε α).Ensures before post stopped ↔ post value before :=
  Iff.rfl

@[simp]
theorem ensures_read {post : σ → σ → Prop} :
    (read : Handler σ ε σ).Ensures before post stopped ↔ post before before :=
  Iff.rfl

@[simp]
theorem ensures_change {update : σ → σ} {post : Unit → σ → Prop} :
    (change update : Handler σ ε Unit).Ensures before post stopped ↔ post () (update before) :=
  Iff.rfl

@[simp]
theorem ensures_stop {error : ε} :
    (stop error : Handler σ ε α).Ensures before post stopped ↔ stopped error before :=
  Iff.rfl

theorem ensures_attempt {result : Except ε α} :
    (attempt result : Handler σ ε α).Ensures before post stopped ↔
      (∀ value, result = .ok value → post value before) ∧
        ∀ error, result = .error error → stopped error before := by
  unfold Ensures attempt
  cases result <;> simp

variable {next : β → Handler σ ε α}

@[simp]
theorem ensures_bind {handler : Handler σ ε β} :
    (handler >>= next).Ensures before post stopped ↔
      handler.Ensures before (fun value after => (next value).Ensures after post stopped)
        stopped := by
  change (match (match handler before with
    | (.ok value, later) => next value later
    | (.error error, later) => (.error error, later)) with
    | (.ok value, after) => post value after
    | (.error error, after) => stopped error after) ↔ _
  unfold Ensures
  rcases handler before with ⟨_ | _, _⟩ <;> rfl

variable {handler : Handler σ ε α}

@[simp]
theorem ensures_recover {rescue : ε → Handler σ ε α} :
    (handler.recover rescue).Ensures before post stopped ↔
      handler.Ensures before post fun error after => (rescue error).Ensures after post stopped := by
  unfold Ensures recover
  rcases handler before with ⟨_ | _, _⟩ <;> rfl

theorem bind_of_ok {handler : Handler σ ε β} {later : σ} {value : β}
    (ends : handler before = (.ok value, later)) :
    (handler >>= next) before = next value later := by
  change (match handler before with
    | (.ok value, later) => next value later
    | (.error error, later) => (.error error, later)) = _
  rw [ends]

theorem ensures_ite {condition : Prop} [Decidable condition] {yes no : Handler σ ε α} :
    (if condition then yes else no).Ensures before post stopped ↔
      (condition → yes.Ensures before post stopped) ∧
        (¬condition → no.Ensures before post stopped) := by
  by_cases holds : condition <;> simp [holds]

theorem Ensures.mono {weaker : α → σ → Prop} {excused : ε → σ → Prop}
    (ensures : handler.Ensures before post stopped)
    (ends : ∀ value after, post value after → weaker value after)
    (stops : ∀ error after, stopped error after → excused error after) :
    handler.Ensures before weaker excused := by
  unfold Ensures at ensures ⊢
  rcases ended : handler before with ⟨error | value, after⟩
  · rw [ended] at ensures
    exact stops error after ensures
  · rw [ended] at ensures
    exact ends value after ensures

theorem ensures_true : handler.Ensures before (fun _ _ => True) fun _ _ => True := by
  unfold Ensures
  rcases handler before with ⟨error | value, after⟩ <;> trivial

theorem Ensures.and {further : α → σ → Prop} {halted : ε → σ → Prop}
    (ensures : handler.Ensures before post stopped) (also : handler.Ensures before further halted) :
    handler.Ensures before (fun value after => post value after ∧ further value after)
      fun error after => stopped error after ∧ halted error after := by
  unfold Ensures at ensures also ⊢
  rcases ended : handler before with ⟨_ | _, _⟩
  · rw [ended] at ensures also
    exact ⟨ensures, also⟩
  · rw [ended] at ensures also
    exact ⟨ensures, also⟩

/-- However the handler ends, what it leaves has this property. -/
abbrev Attains (handler : Handler σ ε α) (before : σ) (holds : σ → Prop) : Prop :=
  handler.Ensures before (fun _ after => holds after) fun _ after => holds after

/-- Whatever the handler returns, the property stays. -/
def Keeps (handler : Handler σ ε α) (holds : σ → Prop) : Prop :=
  ∀ before, holds before →
    handler.Ensures before (fun _ after => holds after) fun _ after => holds after

theorem Ensures.each {list : List α} {body : α → Handler σ ε Unit} (invariant : σ → Prop)
    (holds : invariant before) (turn : ∀ element ∈ list, ∀ state, invariant state →
      (body element).Ensures state (fun _ after => invariant after) stopped) :
    (Handler.each list body).Ensures before (fun _ after => invariant after) stopped := by
  induction list generalizing before with
  | nil => exact holds
  | cons element _ ih =>
    rw [Handler.each, ensures_bind]
    apply (turn element (.head _) before holds).mono
    · intro _ _ kept
      exact ih kept fun other member => turn other (.tail _ member)
    · exact fun _ _ excused => excused

def Along (handler : Handler σ ε α) (relation : σ → σ → Prop) : Prop :=
  ∀ before, handler.Ensures before (fun _ after => relation before after)
    fun _ after => relation before after

section Along

variable {relation : σ → σ → Prop}

theorem Along.onward [IsTrans σ relation] {start : σ}
    (along : handler.Along relation) (reached : relation start before) :
    handler.Ensures before (fun _ after => relation start after)
      fun _ after => relation start after :=
  (along before).mono (fun _ _ further => trans_of relation reached further)
    fun _ _ further => trans_of relation reached further

theorem Along.pure [Std.Refl relation] (value : α) : (pure value : Handler σ ε α).Along relation :=
  fun before => refl_of relation before

theorem Along.stop [Std.Refl relation] (error : ε) : (stop error : Handler σ ε α).Along relation :=
  fun before => refl_of relation before

theorem Along.read [Std.Refl relation] : (read : Handler σ ε σ).Along relation :=
  fun before => refl_of relation before

theorem Along.change {update : σ → σ} (goes : ∀ state, relation state (update state)) :
    (change update : Handler σ ε Unit).Along relation :=
  goes

theorem Along.bind [IsTrans σ relation] {handler : Handler σ ε β}
    (first : handler.Along relation) (rest : ∀ value, (next value).Along relation) :
    (handler >>= next).Along relation := by
  intro before
  rw [ensures_bind]
  apply (first before).mono
  · exact fun value _ reached => (rest value).onward reached
  · exact fun _ _ reached => reached

theorem Along.ite {condition : Prop} [Decidable condition] {yes no : Handler σ ε α}
    (first : yes.Along relation) (second : no.Along relation) :
    (if condition then yes else no).Along relation := by
  split
  · exact first
  · exact second

theorem Along.recover [IsTrans σ relation] {rescue : ε → Handler σ ε α}
    (first : handler.Along relation) (rest : ∀ error, (rescue error).Along relation) :
    (handler.recover rescue).Along relation := by
  intro before
  rw [ensures_recover]
  apply (first before).mono
  · exact fun _ _ reached => reached
  · exact fun error _ reached => (rest error).onward reached

theorem Along.each [Std.Refl relation] [IsTrans σ relation] {list : List α}
    {body : α → Handler σ ε Unit} (turn : ∀ element, (body element).Along relation) :
    (Handler.each list body).Along relation := by
  induction list with
  | nil => exact Along.pure ()
  | cons element _ ih => exact (turn element).bind fun _ => ih

end Along

def stateAfter (handler : Handler σ ε α) (before : σ) : σ := (handler before).2

theorem Ensures.stateAfter {holds : σ → Prop}
    (ensures : handler.Ensures before (fun _ after => holds after) fun _ after => holds after) :
    holds (handler.stateAfter before) := by
  unfold Ensures at ensures
  unfold Handler.stateAfter
  rcases ended : handler before with ⟨_ | _, _⟩ <;> (rw [ended] at ensures; exact ensures)

section Tasks

variable {ω : Type} {before : σ × List ω}

def task : Handler (σ × List ω) ε σ := fun world => (.ok world.1, world)

def update (change : σ → σ) : Handler (σ × List ω) ε Unit :=
  fun world => (.ok (), (change world.1, world.2))

/-- One more effect on the world around the task. -/
def emit (effect : ω) : Handler (σ × List ω) ε Unit :=
  fun world => (.ok (), (world.1, world.2 ++ [effect]))

@[simp]
theorem ensures_task {post : σ → σ × List ω → Prop} {stopped : ε → σ × List ω → Prop} :
    (task : Handler (σ × List ω) ε σ).Ensures before post stopped ↔ post before.1 before :=
  Iff.rfl

@[simp]
theorem ensures_update {change : σ → σ} {post : Unit → σ × List ω → Prop}
    {stopped : ε → σ × List ω → Prop} :
    (update change : Handler (σ × List ω) ε Unit).Ensures before post stopped ↔
      post () (change before.1, before.2) :=
  Iff.rfl

@[simp]
theorem ensures_emit {effect : ω} {post : Unit → σ × List ω → Prop}
    {stopped : ε → σ × List ω → Prop} :
    (emit effect : Handler (σ × List ω) ε Unit).Ensures before post stopped ↔
      post () (before.1, before.2 ++ [effect]) :=
  Iff.rfl

theorem ensures_each_emit {list : List α} {effect : α → ω} {stopped : ε → σ × List ω → Prop} :
    (Handler.each list fun element => emit (effect element)).Ensures before
      (fun _ after => after = (before.1, before.2 ++ list.map effect)) stopped := by
  induction list generalizing before with
  | nil => simp [Handler.each]
  | cons element _ ih =>
    simp only [Handler.each, ensures_bind, ensures_emit]
    simpa [List.append_assoc] using @ih (before.1, before.2 ++ [effect element])

variable {relation : σ × List ω → σ × List ω → Prop}

theorem Along.task [Std.Refl relation] : (task : Handler (σ × List ω) ε σ).Along relation :=
  fun before => refl_of relation before

theorem Along.update {change : σ → σ}
    (goes : ∀ state log, relation (state, log) (change state, log)) :
    (update change : Handler (σ × List ω) ε Unit).Along relation :=
  fun before => goes before.1 before.2

theorem Along.emit {effect : ω}
    (goes : ∀ state log, relation (state, log) (state, log ++ [effect])) :
    (emit effect : Handler (σ × List ω) ε Unit).Along relation :=
  fun before => goes before.1 before.2

end Tasks

end Handler

end StateMachine
