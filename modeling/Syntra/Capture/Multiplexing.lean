import Syntra.Capture.Requests
import Syntra.StateMachine.Run
import Syntra.Tables.Association

/-!
# Captures that share a position

Several captures may wait at one edge, which has one barrier (`InputCapture`). What the backend
yields there is passed on to each of them, one after another. But the maps say that there is a
barrier where the backend could not place it, and a capture that goes while an event waits for it
gets the event nevertheless.
-/

namespace Syntra.Capture

open Proto StateMachine Tables List Option

/-- The answer of a stream that is polled. -/
inductive Poll (α : Type)
  | ready (value : α)
  | pending

/-- What the stream of the backend yields. -/
abbrev BackendPoll := Poll (Option (Except String (Position × CaptureEvent)))

/-- The backend behind the ids under which clients are created. -/
structure InputCapture where
  /-- The backend: the positions at which it has a barrier. -/
  capture : KeySet Position
  pressedButtons : KeySet UInt32
  pressedKeys : KeySet UInt32
  positionMap : Table Position (List CaptureHandle)
  idMap : Table CaptureHandle Position
  pending : List (CaptureHandle × CaptureEvent)

namespace InputCapture

def new : InputCapture := ⟨∅, ∅, ∅, ∅, ∅, []⟩

variable (self : InputCapture)

/-- A call may panic, and the backend may fail if it is asked. -/
def create (id : CaptureHandle) (pos : Position) (answer : Except String Unit) :
    Option (InputCapture × Except String Unit) :=
  if id ∈ self.idMap then none
  else
    let mapped := { self with idMap := self.idMap.insert id pos }
    match self.positionMap.lookup pos with
    | some ids =>
      some ({ mapped with positionMap := self.positionMap.insert pos (ids ++ [id]) }, .ok ())
    | none =>
      some ({ mapped with
        positionMap := self.positionMap.insert pos [id]
        capture := if answer.isOk then self.capture.insert pos () else self.capture }, answer)

def destroy (id : CaptureHandle) (answer : Except String Unit) :
    Option (InputCapture × Except String Unit) := do
  let pos ← self.idMap.lookup id
  let ids ← self.positionMap.lookup pos
  let unmapped := { self with idMap := self.idMap.erase id }
  let remaining := ids.filter (· ≠ id)
  if remaining = [] then
    some ({ unmapped with
      positionMap := self.positionMap.erase pos
      capture := if answer.isOk then self.capture.erase pos else self.capture }, answer)
  else some ({ unmapped with positionMap := self.positionMap.insert pos remaining }, .ok ())

def release : InputCapture :=
  { self with pressedKeys := ∅, pressedButtons := ∅ }

/-- The scancodes are the keys below 250. -/
def updatePressedKeys (key : UInt32) (state : UInt8) : InputCapture :=
  if key < 250 then
    { self with pressedKeys :=
        if state = 1 then self.pressedKeys.insert key () else self.pressedKeys.erase key }
  else self

def notePressed : CaptureEvent → InputCapture
  | .input (.keyboard (.key _ key state)) => self.updatePressedKeys key state
  | .input (.pointer (.button _ button state)) =>
    { self with pressedButtons :=
        if state = 1 then self.pressedButtons.insert button ()
        else self.pressedButtons.erase button }
  | _ => self

def idsAt (pos : Position) : List CaptureHandle := (self.positionMap.lookup pos).getD []

def others (id : CaptureHandle) (pos : Position) : List CaptureHandle :=
  (self.idsAt pos).filter (· ≠ id)

/-- What is yielded when the stream is polled, where the backend yields `polled`. -/
def pollNext (polled : BackendPoll) :
    InputCapture × Poll (Option (Except String (CaptureHandle × CaptureEvent))) :=
  match self.pending with
  | item :: pending => ({ self with pending }, .ready (some (.ok item)))
  | [] =>
    match polled with
    | .pending => (self, .pending)
    | .ready none => (self, .ready none)
    | .ready (some (.error error)) => (self, .ready (some (.error error)))
    | .ready (some (.ok (pos, event))) =>
      match self.idsAt pos with
      | [] => (self.notePressed event, .pending)
      | id :: ids =>
        ({ self.notePressed event with pending := ids.map (·, event) },
          .ready (some (.ok (id, event))))

end InputCapture

/-- The calls of the multiplexer, with the answers of the backend. -/
inductive InputCaptureCall
  | create (id : CaptureHandle) (pos : Position) (answer : Except String Unit)
  | destroy (id : CaptureHandle) (answer : Except String Unit)
  | release
  | poll (polled : BackendPoll)

/-- What happens to events: the backend yields one, with the ids that are there, or one is passed
on. -/
inductive Passing
  | arrived (ids : List CaptureHandle) (event : CaptureEvent)
  | delivered (id : CaptureHandle) (event : CaptureEvent)

namespace InputCapture

variable (self : InputCapture)

def arrivals (polled : BackendPoll) : List Passing :=
  match self.pending, polled with
  | [], .ready (some (.ok (pos, event))) => [.arrived (self.idsAt pos) event]
  | _, _ => []

def step (self : InputCapture) : InputCaptureCall → InputCapture × List Passing
  | .create id pos answer => (((self.create id pos answer).map Prod.fst).getD self, [])
  | .destroy id answer => (((self.destroy id answer).map Prod.fst).getD self, [])
  | .release => (self.release, [])
  | .poll polled =>
    ((self.pollNext polled).1, self.arrivals polled ++
      match (self.pollNext polled).2 with
      | .ready (some (.ok (id, event))) => [.delivered id event]
      | _ => [])

/-- The backend places and removes barriers as it is asked, and no capture goes while an event waits
for it. -/
def Orderly : InputCaptureCall → Prop
  | .create id pos answer => id ∉ self.idMap → self.idsAt pos = [] → answer.isOk
  | .destroy id answer =>
    (∀ item ∈ self.pending, item.1 ≠ id) ∧
      ∀ pos, self.idMap.lookup id = some pos → self.others id pos = [] → answer.isOk
  | .release | .poll _ => True

/-- The maps are inverse to each other, there is a barrier where they have an id, and events wait
for captures that are there. -/
structure Exact (multiplexer : InputCapture) : Prop where
  inverse : ∀ id pos, multiplexer.idMap.lookup id = some pos ↔ id ∈ multiplexer.idsAt pos
  nodup : ∀ pos, (multiplexer.idsAt pos).Nodup
  filled : ∀ pos, multiplexer.positionMap.lookup pos ≠ some []
  barrier : ∀ pos, pos ∈ multiplexer.capture ↔ ∃ id, multiplexer.idMap.lookup id = some pos
  awaited : ∀ item ∈ multiplexer.pending, item.1 ∈ multiplexer.idMap

/-- What is to be passed on of the events that have arrived: each once to every id that was
there. -/
def owed (log : List Passing) : List (CaptureHandle × CaptureEvent) :=
  log.flatMap fun
    | .arrived ids event => ids.map (·, event)
    | .delivered .. => []

def delivered (log : List Passing) : List (CaptureHandle × CaptureEvent) :=
  log.filterMap fun
    | .arrived .. => none
    | .delivered id event => some (id, event)

variable {self later : InputCapture} {id : CaptureHandle} {pos : Position}
  {answer : Except String Unit}

theorem Exact.exists_id (exact : self.Exact) :
    (∃ id, self.idMap.lookup id = some pos) ↔ self.idsAt pos ≠ [] := by
  simp only [exact.inverse]
  exact ⟨fun ⟨_, member⟩ => ne_nil_of_mem member, exists_mem_of_ne_nil _⟩

theorem Exact.changed (exact : self.Exact) (id : CaptureHandle) (pos : Position)
    (ids : List CaptureHandle)
    (others : ∀ other, other ≠ id → later.idMap.lookup other = self.idMap.lookup other)
    (own : ∀ other, later.idMap.lookup id = some other ↔ other = pos ∧ id ∈ ids)
    (before : ∀ other, self.idMap.lookup id = some other → other = pos)
    (positions : ∀ other, later.positionMap.lookup other =
      if other = pos then (if ids = [] then none else some ids)
      else self.positionMap.lookup other)
    (members : ∀ other, other ≠ id → (other ∈ ids ↔ other ∈ self.idsAt pos)) (nodup : ids.Nodup)
    (barriers : ∀ other, other ∈ later.capture ↔
      if other = pos then ids ≠ [] else other ∈ self.capture)
    (awaited : ∀ item ∈ later.pending, item.1 ∈ later.idMap) : later.Exact := by
  have idsAt (other : Position) :
      later.idsAt other = if other = pos then ids else self.idsAt other := by
    simp only [InputCapture.idsAt, positions]
    by_cases same : other = pos
    · by_cases empty : ids = [] <;> simp [same, empty]
    · simp [same]
  have inverse (other : CaptureHandle) (place : Position) :
      later.idMap.lookup other = some place ↔ other ∈ later.idsAt place := by
    rw [idsAt]
    by_cases same : other = id
    · subst same
      rw [own]
      by_cases here : place = pos
      · simp [here]
      · have elsewhere : other ∉ self.idsAt place := fun member =>
          here (before place ((exact.inverse other place).mpr member))
        simp [here, elsewhere]
    · rw [others other same, exact.inverse]
      by_cases here : place = pos
      · rw [if_pos here, here, members other same]
      · rw [if_neg here]
  refine ⟨inverse, fun place => ?_, fun place => ?_, fun place => ?_, awaited⟩
  · rw [idsAt]
    split
    · exact nodup
    · exact exact.nodup place
  · rw [positions]
    split
    · split
      · simp
      · rename_i filled
        simpa using filled
    · exact exact.filled place
  · rw [barriers]
    simp only [inverse, idsAt]
    split
    · exact ⟨exists_mem_of_ne_nil _, fun ⟨_, member⟩ => ne_nil_of_mem member⟩
    · rw [exact.barrier]
      simp only [exact.inverse]

theorem Exact.step_create (exact : self.Exact) (fresh : id ∉ self.idMap) :
    (self.step (.create id pos answer)).1 = { self with
      idMap := self.idMap.insert id pos
      positionMap := self.positionMap.insert pos (self.idsAt pos ++ [id])
      capture := if self.idsAt pos = [] ∧ answer.isOk then self.capture.insert pos ()
        else self.capture } := by
  cases found : self.positionMap.lookup pos with
  | none => simp [step, InputCapture.create, idsAt, fresh, found]
  | some ids =>
    have filled : ids ≠ [] := fun empty => exact.filled pos (by rw [found, empty])
    simp [step, InputCapture.create, idsAt, fresh, found, filled]

theorem Exact.create (exact : self.Exact) (orderly : self.Orderly (.create id pos answer)) :
    (self.step (.create id pos answer)).1.Exact := by
  by_cases known : id ∈ self.idMap
  · have panics : (self.step (.create id pos answer)).1 = self := by
      simp [step, InputCapture.create, known]
    rwa [panics]
  · have absent : self.idMap.lookup id = none := AList.lookup_eq_none.mpr known
    have fresh : id ∉ self.idsAt pos := fun member => by
      have found := (exact.inverse id pos).mpr member
      rw [absent] at found
      cases found
    have barriers (other : Position) :
        other ∈ (if self.idsAt pos = [] ∧ answer.isOk then self.capture.insert pos ()
          else self.capture) ↔
          if other = pos then self.idsAt pos ++ [id] ≠ [] else other ∈ self.capture := by
      by_cases here : other = pos
      · subst here
        by_cases empty : self.idsAt other = []
        · simp [empty, orderly known empty]
        · have there := (exact.barrier other).mpr (exact.exists_id.mpr empty)
          simp [empty, there]
      · split <;> simp [here]
    rw [exact.step_create known]
    refine exact.changed id pos (self.idsAt pos ++ [id]) (fun other differ => ?_)
      (by simp [eq_comm])
      (by simp [absent]) (fun other => by simp [lookup_insert]) (fun _ differ => ?_) ?_ barriers
      fun item member => (AList.mem_insert _).mpr (.inr (exact.awaited item member))
    · exact AList.lookup_insert_ne differ
    · simp [differ]
    · exact nodup_append_comm.mp (nodup_cons.mpr ⟨fresh, exact.nodup pos⟩)

theorem Exact.step_destroy (exact : self.Exact) (found : self.idMap.lookup id = some pos) :
    (self.step (.destroy id answer)).1 = { self with
      idMap := self.idMap.erase id
      positionMap := if self.others id pos = [] then self.positionMap.erase pos
        else self.positionMap.insert pos (self.others id pos)
      capture := if self.others id pos = [] ∧ answer.isOk
        then self.capture.erase pos else self.capture } := by
  have member : id ∈ self.idsAt pos := (exact.inverse id pos).mp found
  have there : self.positionMap.lookup pos = some (self.idsAt pos) := by
    cases listed : self.positionMap.lookup pos with
    | none => simp [idsAt, listed] at member
    | some => simp [idsAt, listed]
  by_cases last : self.others id pos = []
  · have empty : (self.idsAt pos).filter (· ≠ id) = [] := last
    simp only [step, InputCapture.destroy, found, there, bind_eq_bind, bind_some,
      if_pos empty, last, true_and, if_true, map_some, getD_some]
  · have filled : ¬(self.idsAt pos).filter (· ≠ id) = [] := last
    simp only [step, InputCapture.destroy, found, there, bind_eq_bind, bind_some,
      if_neg filled, last, if_false, false_and, map_some, getD_some]
    rfl

theorem Exact.destroy (exact : self.Exact) (orderly : self.Orderly (.destroy id answer)) :
    (self.step (.destroy id answer)).1.Exact := by
  rcases orderly with ⟨unawaited, removes⟩
  cases found : self.idMap.lookup id with
  | none =>
    have panics : (self.step (.destroy id answer)).1 = self := by
      simp [step, InputCapture.destroy, found]
    rwa [panics]
  | some pos =>
    have stands : pos ∈ self.capture := (exact.barrier pos).mpr ⟨id, found⟩
    rw [exact.step_destroy found]
    refine exact.changed id pos (self.others id pos) (fun other differ => ?_) ?_ ?_
      (fun other => ?_) (fun other differ => by simp [others, differ])
      ((exact.nodup pos).filter _) (fun other => ?_) fun item waits => ?_
    · exact AList.lookup_erase_ne differ
    · simp [others]
    · simp [found, eq_comm]
    · by_cases last : self.others id pos = [] <;> simp [last, lookup_erase, lookup_insert]
    · by_cases here : other = pos
      · subst here
        by_cases last : self.others id other = []
        · have removed : answer.isOk := removes other found last
          simp [last, removed]
        · simp [last, stands]
      · split <;> simp [here]
    · exact AList.mem_erase.mpr ⟨unawaited item waits, exact.awaited item waits⟩

theorem Exact.orderly {call : InputCaptureCall} (exact : self.Exact)
    (next : (self.step call).1.Exact) : self.Orderly call := by
  cases call with
  | create id pos =>
    intro fresh empty
    by_contra fails
    rw [exact.step_create fresh, if_neg fun both => fails both.2] at next
    have placed : pos ∈ self.capture :=
      (next.barrier pos).mpr ⟨id, AList.lookup_insert self.idMap⟩
    exact exact.exists_id.mp ((exact.barrier pos).mp placed) empty
  | destroy id =>
    refine ⟨fun item waits same => ?_, fun pos found none => ?_⟩
    · obtain ⟨pos, found⟩ := (mem_iff_lookup _ _).mp (exact.awaited item waits)
      rw [same] at found
      rw [exact.step_destroy found] at next
      exact (AList.mem_erase.mp (next.awaited item waits)).1 same
    · by_contra fails
      rw [exact.step_destroy found, if_neg fun both => fails both.2] at next
      have placed : pos ∈ self.capture := (exact.barrier pos).mpr ⟨id, found⟩
      obtain ⟨other, left⟩ := (next.barrier pos).mp placed
      rw [lookup_erase] at left
      split at left
      · cases left
      · rename_i differ
        have remains : other ∈ self.others id pos :=
          mem_filter.mpr ⟨(exact.inverse other pos).mp left, by simpa using differ⟩
        rw [none] at remains
        exact absurd remains not_mem_nil
  | release | poll => trivial

theorem Exact.congr (exact : self.Exact) (capture : later.capture = self.capture)
    (positionMap : later.positionMap = self.positionMap) (idMap : later.idMap = self.idMap)
    (awaited : ∀ item ∈ later.pending, item.1 ∈ self.idMap) : later.Exact := by
  have idsAt (place : Position) : later.idsAt place = self.idsAt place := by
    rw [InputCapture.idsAt, positionMap]
    rfl
  refine ⟨fun id place => ?_, fun place => ?_, fun place => ?_, fun place => ?_, ?_⟩
  · rw [idMap, idsAt]
    exact exact.inverse id place
  · rw [idsAt]
    exact exact.nodup place
  · rw [positionMap]
    exact exact.filled place
  · rw [capture, idMap]
    exact exact.barrier place
  · rwa [idMap]

theorem notePressed_keeps (event : CaptureEvent) :
    (self.notePressed event).capture = self.capture ∧
      (self.notePressed event).positionMap = self.positionMap ∧
      (self.notePressed event).idMap = self.idMap ∧
      (self.notePressed event).pending = self.pending := by
  unfold notePressed updatePressedKeys
  split
  · split <;> exact ⟨rfl, rfl, rfl, rfl⟩
  · exact ⟨rfl, rfl, rfl, rfl⟩
  · exact ⟨rfl, rfl, rfl, rfl⟩

theorem Exact.poll (exact : self.Exact) (polled : BackendPoll) :
    (self.pollNext polled).1.Exact ∧
      ∀ item, (self.pollNext polled).2 = .ready (some (.ok item)) → item.1 ∈ self.idMap := by
  unfold pollNext
  split
  · rename_i item pending waiting
    have awaited : ∀ other ∈ item :: pending, other.1 ∈ self.idMap := waiting ▸ exact.awaited
    refine ⟨exact.congr rfl rfl rfl fun other later => awaited other (.tail _ later), ?_⟩
    rintro _ ⟨⟩
    exact awaited item (.head _)
  · split
    · exact ⟨exact, by simp⟩
    · exact ⟨exact, by simp⟩
    · exact ⟨exact, by simp⟩
    · rename_i idle _ pos event
      rcases self.notePressed_keeps event with ⟨capture, positionMap, idMap, pending⟩
      have there (id : CaptureHandle) (member : id ∈ self.idsAt pos) : id ∈ self.idMap :=
        (mem_iff_lookup _ _).mpr ⟨pos, (exact.inverse id pos).mpr member⟩
      split
      · refine ⟨exact.congr capture positionMap idMap ?_, by simp⟩
        rw [pending]
        exact exact.awaited
      · rename_i id ids listed
        rw [listed] at there
        refine ⟨exact.congr capture positionMap idMap fun _ member => ?_, ?_⟩
        · rcases mem_map.mp member with ⟨other, later, rfl⟩
          exact there other (.tail _ later)
        · rintro _ ⟨⟩
          exact there id (.head _)

theorem Exact.step (exact : self.Exact) {call : InputCaptureCall} (orderly : self.Orderly call) :
    (self.step call).1.Exact := by
  cases call with
  | create => exact exact.create orderly
  | destroy => exact exact.destroy orderly
  | release => exact exact.congr rfl rfl rfl exact.awaited
  | poll polled => exact (exact.poll polled).1

theorem exact_new : new.Exact :=
  ⟨fun _ pos => by simp [new, idsAt], fun pos => by simp [new, idsAt],
    fun pos => by simp [new], fun _ => by simp [new], fun _ => by simp [new]⟩

theorem step_passes (call : InputCaptureCall) :
    delivered (self.step call).2 ++ (self.step call).1.pending =
      self.pending ++ owed (self.step call).2 := by
  have silent (same : (self.step call).1.pending = self.pending) (none : (self.step call).2 = []) :
      delivered (self.step call).2 ++ (self.step call).1.pending =
        self.pending ++ owed (self.step call).2 := by
    rw [same, none]
    exact (append_nil _).symm
  cases call with
  | create =>
    refine silent ?_ rfl
    simp only [step, InputCapture.create]
    split
    · rfl
    · split <;> rfl
  | destroy id =>
    refine silent ?_ rfl
    simp only [step, InputCapture.destroy]
    cases self.idMap.lookup id with
    | none => rfl
    | some pos =>
      cases listed : self.positionMap.lookup pos with
      | none => simp [listed]
      | some =>
        simp only [listed, bind_eq_bind, bind_some]
        split <;> rfl
  | release => exact silent rfl rfl
  | poll polled =>
    cases waiting : self.pending with
    | cons => simp [step, pollNext, arrivals, waiting, delivered, owed]
    | nil =>
      match polled with
      | .pending | .ready none | .ready (some (.error _)) =>
        simp [step, pollNext, arrivals, waiting, delivered, owed]
      | .ready (some (.ok (pos, event))) =>
        have pending := (self.notePressed_keeps event).2.2.2
        cases listed : self.idsAt pos with
        | nil => simp [step, pollNext, arrivals, waiting, listed, delivered, owed, pending]
        | cons => simp [step, pollNext, arrivals, waiting, listed, delivered, owed]

/-- Every event is passed on once to every id that is there when it arrives, in the order in which
the events arrive. -/
theorem passed_on (calls : List InputCaptureCall) :
    delivered (outcome step new calls).2 ++ (outcome step new calls).1.pending =
      owed (outcome step new calls).2 := by
  refine outcome_accounts
    (fun (state : InputCapture) log => delivered log ++ state.pending = owed log) ?_ rfl calls
  intro state _ call kept
  have passes := state.step_passes call
  simp only [delivered, owed, filterMap_append, flatMap_append] at *
  rw [append_assoc, passes, ← append_assoc, kept]

/-- The multiplexing is exact over a run: the maps and the barriers agree in every state, every
event is passed on once to everyone who was there, and nobody who is gone gets one. -/
structure Multiplexes (calls : List InputCaptureCall) : Prop where
  exact : ∀ (state : InputCapture) call, Meets step new calls state call → (state.step call).1.Exact
  once : delivered (outcome step new calls).2 ++ (outcome step new calls).1.pending =
    owed (outcome step new calls).2
  present : ∀ (state : InputCapture) polled item, Meets step new calls state (.poll polled) →
    (state.pollNext polled).2 = .ready (some (.ok item)) → item.1 ∈ state.idMap

/-- It is exact if and only if the backend places and removes barriers as it is asked and no capture
goes while an event waits for it. -/
theorem multiplexes_iff (calls : List InputCaptureCall) :
    Multiplexes calls ↔
      ∀ (state : InputCapture) call, Meets step new calls state call → state.Orderly call := by
  constructor
  · intro multiplexes state call met
    have exact : state.Exact :=
      met.reached (fun _ _ _ next => next) multiplexes.exact exact_new
    exact exact.orderly (multiplexes.exact state call met)
  · intro orderly
    have reached (state : InputCapture) (call : InputCaptureCall)
        (met : Meets step new calls state call) : state.Exact :=
      met.reached (fun state call exact orderly => exact.step orderly) orderly exact_new
    exact ⟨fun state call met => (reached state call met).step (orderly state call met),
      passed_on calls,
      fun state polled item met => ((reached state _ met).poll polled).2 item⟩

/-- The second of two captures at the left edge has gone while an event waits for it. -/
def shared : InputCapture := (outcome step new [.create 0 .left (.ok ()), .create 1 .left (.ok ()),
  .poll (.ready (some (.ok (.left, .begin)))), .destroy 1 (.ok ())]).1

/-- It gets the event. -/
theorem stale_delivery : ¬∀ calls, Multiplexes calls := by
  intro multiplexes
  have present := (multiplexes _).present shared .pending (1, .begin) ⟨_, [], rfl, rfl⟩ rfl
  exact absurd present (by decide)

end InputCapture

end Syntra.Capture
