import Syntra.Emulation.Task

/-!
# Balanced keys

The layer before a backend (`InputEmulation`) keeps the keys that are pressed for each handle and
forwards a press or a release only where it changes them. So for every handle and key the forwarded
events alternate, whatever the backend answers, and the end of a handle releases what is pressed.
-/

namespace Syntra.Emulation

open Proto StateMachine Tables List

/-- The backend with the keys that each client holds down. -/
structure InputEmulation where
  handles : KeySet EmulationHandle
  pressedKeys : Table EmulationHandle (KeySet UInt32)

/-- The calls that reach the backend. -/
inductive BackendCall
  | consume (event : InputEvent) (handle : EmulationHandle)
  | create (handle : EmulationHandle)
  | destroy (handle : EmulationHandle)
  | terminate

/-- What a call finds around it: the answers of the backend, and the orders in which the sets happen
to yield their elements. -/
structure BackendAnswers where
  consumes : InputEvent → EmulationHandle → Except String Unit
  keys : IterOrder UInt32
  handles : IterOrder EmulationHandle

def keyRelease (key : UInt32) : InputEvent :=
  .keyboard (.key 0 key 0)

namespace InputEmulation

def new : InputEmulation := ⟨∅, ∅⟩

variable (self : InputEmulation) (backend : BackendAnswers)

def updatePressedKeys (handle : EmulationHandle) (key : UInt32) (state : UInt8) :
    InputEmulation × Bool :=
  match self.pressedKeys.lookup handle with
  | none => (self, false)
  | some keys =>
    if state = 0 then
      ({ self with pressedKeys := self.pressedKeys.insert handle (keys.erase key) }, key ∈ keys)
    else
      ({ self with pressedKeys := self.pressedKeys.insert handle (keys.insert key ()) }, key ∉ keys)

def consume (event : InputEvent) (handle : EmulationHandle) :
    InputEmulation × List BackendCall × Except String Unit :=
  match event with
  | .keyboard (.key _ key state) =>
    match self.updatePressedKeys handle key state with
    | (later, true) => (later, [.consume event handle], backend.consumes event handle)
    | (later, false) => (later, [], .ok ())
  | _ => (self, [.consume event handle], backend.consumes event handle)

def create (handle : EmulationHandle) : InputEmulation × List BackendCall × Bool :=
  if handle ∈ self.handles then (self, [], false)
  else
    ({ handles := self.handles.insert handle (),
       pressedKeys := self.pressedKeys.insert handle ∅ }, [.create handle], true)

/-- Every key is released and then the modifiers, whatever the backend answers; the first error is
returned. -/
def releaseKeys (handle : EmulationHandle) :
    InputEmulation × List BackendCall × Except String Unit :=
  let drained := (self.pressedKeys.lookup handle).getD ∅
  let events := (backend.keys.arrange drained.keys).map keyRelease ++
    [.keyboard (.modifiers 0 0 0 0)]
  ({ self with pressedKeys := modify self.pressedKeys handle fun _ => ∅ },
    events.map (.consume · handle), events.forM (backend.consumes · handle))

def destroy (handle : EmulationHandle) : InputEmulation × List BackendCall :=
  match self.releaseKeys backend handle with
  | (later, calls, _) =>
    if handle ∈ later.handles then
      ({ handles := later.handles.erase handle, pressedKeys := later.pressedKeys.erase handle },
        calls ++ [.destroy handle])
    else (later, calls)

def destroyAll (self : InputEmulation) : List EmulationHandle → InputEmulation × List BackendCall
  | [] => (self, [])
  | handle :: handles =>
    let first := self.destroy backend handle
    let rest := first.1.destroyAll handles
    (rest.1, first.2 ++ rest.2)

def terminate : InputEmulation × List BackendCall :=
  let ended := self.destroyAll backend (backend.handles.arrange self.handles.keys)
  (ended.1, ended.2 ++ [.terminate])

end InputEmulation

/-- The calls of the emulation. -/
inductive EmulationCall
  | consume (event : InputEvent) (handle : EmulationHandle)
  | create (handle : EmulationHandle)
  | destroy (handle : EmulationHandle)
  | releaseKeys (handle : EmulationHandle)
  | terminate

/-- A call with what it finds around it, and what it asks of the backend. -/
def InputEmulation.step (self : InputEmulation) :
    BackendAnswers × EmulationCall → InputEmulation × List BackendCall
  | (backend, .consume event handle) =>
    ((self.consume backend event handle).1, (self.consume backend event handle).2.1)
  | (_, .create handle) => ((self.create handle).1, (self.create handle).2.1)
  | (backend, .destroy handle) => self.destroy backend handle
  | (backend, .releaseKeys handle) =>
    ((self.releaseKeys backend handle).1, (self.releaseKeys backend handle).2.1)
  | (backend, .terminate) => self.terminate backend

/-- A press (`true`) or release of a key that is forwarded for a handle. -/
def stroke? (handle : EmulationHandle) (key : UInt32) : BackendCall → Option Bool
  | .consume (.keyboard (.key _ other state)) target =>
    if target = handle ∧ other = key then some (state ≠ 0) else none
  | _ => none

def strokes (handle : EmulationHandle) (key : UInt32) (calls : List BackendCall) : List Bool :=
  calls.filterMap (stroke? handle key)

/-- Whether a key is pressed after strokes that alternate, `none` if they do not. -/
def alternate : Bool → List Bool → Option Bool
  | pressed, [] => some pressed
  | pressed, stroke :: rest => if stroke = pressed then none else alternate stroke rest

theorem alternate_append {pressed : Bool} {first second : List Bool} :
    alternate pressed (first ++ second) = (alternate pressed first).bind (alternate · second) := by
  induction first generalizing pressed with
  | nil => rfl
  | cons _ _ ih =>
    rw [cons_append, alternate, alternate]
    split
    · rfl
    · exact ih

theorem strokes_append {handle : EmulationHandle} {key : UInt32} (first second : List BackendCall) :
    strokes handle key (first ++ second) = strokes handle key first ++ strokes handle key second :=
  filterMap_append

theorem strokes_consume (handle target : EmulationHandle) (time key other : UInt32)
    (state : UInt8) :
    strokes target other [.consume (.keyboard (.key time key state)) handle] =
      if handle = target ∧ key = other then [decide (state ≠ 0)] else [] := by
  rw [strokes, filterMap_cons, stroke?]
  by_cases same : handle = target ∧ key = other <;> simp [same]

theorem strokes_keyRelease (handle target : EmulationHandle) (key : UInt32) {keys : List UInt32}
    (nodup : keys.Nodup) :
    strokes target key ((keys.map keyRelease).map (.consume · handle)) =
      if handle = target ∧ key ∈ keys then [false] else [] := by
  induction keys with
  | nil => simp [strokes]
  | cons first _ ih =>
    have rest := ih (nodup_cons.mp nodup).2
    have fresh := (nodup_cons.mp nodup).1
    rw [map_cons, map_cons, ← singleton_append, strokes_append, rest]
    by_cases same : handle = target
    · by_cases first_eq : first = key
      · subst first_eq
        simp [strokes, stroke?, keyRelease, same, fresh]
      · simp [strokes, stroke?, keyRelease, same, first_eq, Ne.symm first_eq]
    · simp [strokes, stroke?, keyRelease, same]

namespace InputEmulation

variable {self later last : InputEmulation} {backend : BackendAnswers}
  {calls more : List BackendCall}
  {handle : EmulationHandle}

def pressed (self : InputEmulation) (handle : EmulationHandle) (key : UInt32) : Bool :=
  key ∈ (self.pressedKeys.lookup handle).getD ∅

def Follows (self : InputEmulation) (calls : List BackendCall) (later : InputEmulation) : Prop :=
  ∀ handle key, alternate (self.pressed handle key) (strokes handle key calls) =
    some (later.pressed handle key)

def Sound (self : InputEmulation) : Prop :=
  ∀ handle, handle ∈ self.handles ↔ handle ∈ self.pressedKeys

theorem Follows.append (first : self.Follows calls later) (second : later.Follows more last) :
    self.Follows (calls ++ more) last := by
  intro handle key
  rw [strokes_append, alternate_append, first handle key]
  exact second handle key

theorem Follows.of_silent (silent : ∀ handle key, strokes handle key calls = [])
    (same : ∀ handle key, later.pressed handle key = self.pressed handle key) :
    self.Follows calls later := by
  intro _ _
  rw [silent, same]
  rfl

theorem pressed_of_lookup_none (absent : self.pressedKeys.lookup handle = none) (key : UInt32) :
    self.pressed handle key = false := by
  simp [pressed, absent]

theorem follows_of_key {time key : UInt32} {state : UInt8} {changes : Bool}
    (others : ∀ target other, ¬(target = handle ∧ other = key) →
      later.pressed target other = self.pressed target other)
    (own : later.pressed handle key = decide (state ≠ 0))
    (before : self.pressed handle key = (decide (state ≠ 0) ^^ changes)) :
    self.Follows (if changes then [.consume (.keyboard (.key time key state)) handle] else [])
      later := by
  intro target other
  by_cases same : target = handle ∧ other = key
  · rcases same with ⟨rfl, rfl⟩
    cases changes
    · rw [own, before, Bool.xor_false]
      rfl
    · rw [if_pos rfl, strokes_consume, if_pos ⟨rfl, rfl⟩, own, before]
      by_cases release : state = 0 <;> simp [alternate, release]
  · have silent : ¬(handle = target ∧ key = other) := fun equal =>
      same ⟨equal.1.symm, equal.2.symm⟩
    rw [others target other same]
    cases changes
    · rfl
    · rw [if_pos rfl, strokes_consume, if_neg silent]
      rfl

theorem follows_consume (event : InputEvent) :
    self.Follows (self.consume backend event handle).2.1 (self.consume backend event handle).1 := by
  unfold consume
  split
  · rename_i time key state
    cases found : self.pressedKeys.lookup handle with
    | none =>
      simp only [updatePressedKeys, found]
      exact .of_silent (fun _ _ => rfl) fun _ _ => rfl
    | some keys =>
      obtain ⟨after, changes, computed, others, own, before⟩ :
          ∃ (after : KeySet UInt32) (changes : Bool),
            self.updatePressedKeys handle key state =
              ({ self with pressedKeys := self.pressedKeys.insert handle after }, changes) ∧
            (∀ other ≠ key, other ∈ after ↔ other ∈ keys) ∧
            decide (key ∈ after) = decide (state ≠ 0) ∧
            decide (key ∈ keys) = (decide (state ≠ 0) ^^ changes) := by
        by_cases release : state = 0
        · refine ⟨keys.erase key, key ∈ keys, by simp [updatePressedKeys, found, release], ?_⟩
          refine ⟨?_, by simp [release], by simp [release]⟩
          intro other different
          simp [AList.mem_erase, different]
        · refine ⟨keys.insert key (), key ∉ keys, by simp [updatePressedKeys, found, release], ?_⟩
          refine ⟨?_, by simp [release], by simp [release]⟩
          intro other different
          simp [AList.mem_insert, different]
      have follows : self.Follows
          (if changes then [.consume (.keyboard (.key time key state)) handle] else [])
          { self with pressedKeys := self.pressedKeys.insert handle after } := by
        refine follows_of_key ?_ ?_ ?_
        · intro _ other elsewhere
          simp only [pressed, lookup_insert]
          split
          · rename_i same
            have different : other ≠ key := fun equal => elsewhere ⟨same, equal⟩
            rw [same, found]
            exact decide_eq_decide.mpr (others other different)
          · rfl
        · simpa [pressed, lookup_insert] using own
        · simpa [pressed, found] using before
      rw [computed]
      cases changes <;> exact follows
  · rename_i other
    refine .of_silent (fun _ key => ?_) fun _ _ => rfl
    cases event with
    | pointer => rfl
    | keyboard event =>
      cases event with
      | key time key state => exact absurd rfl (other time key state)
      | modifiers => rfl

theorem follows_create (sound : self.Sound) :
    self.Follows (self.create handle).2.1 (self.create handle).1 := by
  unfold create
  split
  · exact .of_silent (fun _ _ => rfl) fun _ _ => rfl
  · rename_i fresh
    have absent : self.pressedKeys.lookup handle = none :=
      AList.lookup_eq_none.mpr fun there => fresh ((sound handle).mpr there)
    refine .of_silent (fun _ _ => rfl) fun _ _ => ?_
    rw [pressed, lookup_insert]
    split
    · rename_i same
      rw [same, pressed_of_lookup_none absent]
      rfl
    · rfl

variable (backend) in
theorem releaseKeys_pressed (target : EmulationHandle) (key : UInt32) :
    (self.releaseKeys backend handle).1.pressed target key =
      (decide (handle ≠ target) && self.pressed target key) := by
  simp only [releaseKeys, pressed, lookup_modify]
  by_cases same : target = handle
  · subst same
    cases self.pressedKeys.lookup target <;> simp
  · simp [same, Ne.symm same]

variable (self backend handle) in
theorem follows_releaseKeys :
    self.Follows (self.releaseKeys backend handle).2.1 (self.releaseKeys backend handle).1 := by
  intro target key
  rw [releaseKeys_pressed]
  have nodup : (backend.keys.arrange ((self.pressedKeys.lookup handle).getD ∅).keys).Nodup :=
    backend.keys.nodup_arrange.mpr (AList.keys_nodup _)
  have forwarded : strokes target key (self.releaseKeys backend handle).2.1 =
      if handle = target ∧ self.pressed handle key then [false] else [] := by
    simp only [releaseKeys, map_append, strokes_append, strokes_keyRelease _ _ _ nodup,
      backend.keys.mem_arrange, ← AList.mem_keys, pressed, decide_eq_true_eq]
    exact append_nil _
  rw [forwarded]
  by_cases same : handle = target
  · subst same
    cases held : self.pressed handle key <;> simp [alternate]
  · simp [same, alternate]

variable (self backend handle) in
theorem destroy_cases :
    (∃ calls, self.destroy backend handle =
      ({ handles := (self.releaseKeys backend handle).1.handles.erase handle,
         pressedKeys := (self.releaseKeys backend handle).1.pressedKeys.erase handle },
        (self.releaseKeys backend handle).2.1 ++ calls) ∧ calls = [.destroy handle]) ∨
      self.destroy backend handle =
        ((self.releaseKeys backend handle).1, (self.releaseKeys backend handle).2.1) := by
  by_cases present : handle ∈ (self.releaseKeys backend handle).1.handles
  · exact .inl ⟨_, if_pos present, rfl⟩
  · exact .inr (if_neg present)

theorem destroy_pressed (target : EmulationHandle) (key : UInt32) :
    (self.destroy backend handle).1.pressed target key =
      (decide (handle ≠ target) && self.pressed target key) := by
  rw [← releaseKeys_pressed backend]
  rcases destroy_cases self backend handle with ⟨calls, destroyed, -⟩ | destroyed
  · rw [destroyed, pressed, lookup_erase]
    split
    · rename_i same
      rw [releaseKeys_pressed backend, same]
      simp
    · rfl
  · rw [destroyed]

theorem follows_destroy :
    self.Follows (self.destroy backend handle).2 (self.destroy backend handle).1 := by
  intro target key
  have released := follows_releaseKeys self backend handle target key
  rw [destroy_pressed, ← releaseKeys_pressed backend, ← released]
  rcases destroy_cases self backend handle with ⟨calls, destroyed, rfl⟩ | destroyed
  · rw [destroyed, strokes_append]
    exact congrArg _ (append_nil _)
  · rw [destroyed]

theorem follows_destroyAll (handles : List EmulationHandle) :
    self.Follows (self.destroyAll backend handles).2 (self.destroyAll backend handles).1 := by
  induction handles generalizing self with
  | nil => exact .of_silent (fun _ _ => rfl) fun _ _ => rfl
  | cons _ _ ih => exact follows_destroy.append ih

theorem follows_step (sound : self.Sound) (call : BackendAnswers × EmulationCall) :
    self.Follows (self.step call).2 (self.step call).1 := by
  rcases call with ⟨backend, call⟩
  cases call with
  | consume event => exact follows_consume event
  | create => exact follows_create sound
  | destroy => exact follows_destroy
  | releaseKeys handle => exact follows_releaseKeys self backend handle
  | terminate =>
    exact (follows_destroyAll _).append (.of_silent (fun _ _ => rfl) fun _ _ => rfl)

theorem sound_consume (sound : self.Sound) (event : InputEvent) :
    (self.consume backend event handle).1.Sound := by
  have updated (key : UInt32) (state : UInt8) :
      (self.updatePressedKeys handle key state).1.Sound := by
    unfold updatePressedKeys
    split
    · exact sound
    · rename_i keys found
      have there : handle ∈ self.pressedKeys := AList.lookup_isSome.mp (by simp [found])
      intro target
      split <;> simp only [AList.mem_insert, sound target, iff_or_self]
      all_goals rintro rfl; exact there
  unfold consume
  split
  · rename_i time key state
    have later := updated key state
    split <;> rename_i computed <;> rwa [computed] at later
  · exact sound

variable (backend) in
theorem sound_releaseKeys (sound : self.Sound) : (self.releaseKeys backend handle).1.Sound := by
  intro target
  show target ∈ self.handles ↔ target ∈ modify self.pressedKeys handle fun _ => ∅
  rw [sound target, ← AList.lookup_isSome, ← AList.lookup_isSome, lookup_modify]
  split
  · rename_i same
    rw [Option.isSome_map, same]
  · rfl

theorem sound_destroy (sound : self.Sound) : (self.destroy backend handle).1.Sound := by
  have released : (self.releaseKeys backend handle).1.Sound := sound_releaseKeys backend sound
  rcases destroy_cases self backend handle with ⟨calls, destroyed, -⟩ | destroyed <;> rw [destroyed]
  · intro target
    rw [AList.mem_erase, AList.mem_erase]
    exact and_congr_right fun _ => released target
  · exact released

theorem sound_destroyAll (sound : self.Sound) (handles : List EmulationHandle) :
    (self.destroyAll backend handles).1.Sound := by
  induction handles generalizing self with
  | nil => exact sound
  | cons _ _ ih => exact ih (sound_destroy sound)

theorem sound_step (sound : self.Sound) (call : BackendAnswers × EmulationCall) :
    (self.step call).1.Sound := by
  rcases call with ⟨backend, call⟩
  cases call with
  | consume event => exact sound_consume sound event
  | create handle =>
    show (self.create handle).1.Sound
    unfold create
    split
    · exact sound
    · intro target
      rw [AList.mem_insert, AList.mem_insert]
      exact or_congr_right (sound target)
  | destroy => exact sound_destroy sound
  | releaseKeys => exact sound_releaseKeys backend sound
  | terminate => exact sound_destroyAll sound _

theorem balanced_outcome (inputs : List (BackendAnswers × EmulationCall)) :
    (outcome step new inputs).1.Sound ∧
      ∀ handle key, alternate false (strokes handle key (outcome step new inputs).2) =
        some ((outcome step new inputs).1.pressed handle key) := by
  refine outcome_accounts
    (fun state log => Sound state ∧
      ∀ handle key, alternate false (strokes handle key log) = some (state.pressed handle key))
    ?_ ⟨fun _ => Iff.rfl, fun _ _ => rfl⟩ inputs
  rintro _ _ call ⟨sound, balanced⟩
  refine ⟨sound_step sound call, fun handle key => ?_⟩
  rw [strokes_append, alternate_append, balanced handle key]
  exact follows_step sound call handle key

theorem keyRelease_mem_destroy {key : UInt32} (held : self.pressed handle key) :
    .consume (keyRelease key) handle ∈ (self.destroy backend handle).2 := by
  have released : BackendCall.consume (keyRelease key) handle ∈
      (self.releaseKeys backend handle).2.1 := by
    refine mem_map_of_mem (mem_append_left _ (mem_map_of_mem ?_))
    rw [backend.keys.mem_arrange, ← AList.mem_keys]
    exact of_decide_eq_true held
  rcases destroy_cases self backend handle with ⟨calls, destroyed, -⟩ | destroyed <;> rw [destroyed]
  · exact mem_append_left _ released
  · exact released

theorem keyRelease_mem_destroyAll {handles : List EmulationHandle} {key : UInt32}
    (present : handle ∈ handles) (held : self.pressed handle key) :
    .consume (keyRelease key) handle ∈ (self.destroyAll backend handles).2 := by
  induction handles generalizing self with
  | nil => exact absurd present not_mem_nil
  | cons first handles ih =>
    by_cases own : first = handle
    · subst own
      exact mem_append_left _ (keyRelease_mem_destroy held)
    · have later : handle ∈ handles :=
        (mem_cons.mp present).resolve_left (Ne.symm own)
      have kept : (self.destroy backend first).1.pressed handle key := by
        rw [destroy_pressed, held]
        simp [own]
      exact mem_append_right _ (ih later kept)

theorem mem_handles_of_pressed (sound : self.Sound) {key : UInt32}
    (held : self.pressed handle key) : handle ∈ self.handles := by
  rw [sound handle, ← AList.lookup_isSome]
  cases found : self.pressedKeys.lookup handle with
  | none =>
    rw [pressed_of_lookup_none found] at held
    exact absurd held Bool.false_ne_true
  | some => rfl

/-- After any calls the strokes of every key alternate from a press on, and the end of a handle, or
of all, releases each key whose last stroke was a press. -/
theorem keys_balanced (inputs : List (BackendAnswers × EmulationCall)) (backend : BackendAnswers)
    (handle : EmulationHandle) (key : UInt32) :
    let run := outcome step new inputs
    (alternate false (strokes handle key run.2)).isSome ∧
      (alternate false (strokes handle key run.2) = some true →
        .consume (keyRelease key) handle ∈ (run.1.step (backend, .destroy handle)).2 ∧
          .consume (keyRelease key) handle ∈ (run.1.step (backend, .terminate)).2) := by
  intro run
  obtain ⟨sound, balanced⟩ : run.1.Sound ∧ ∀ handle key,
      alternate false (strokes handle key run.2) = some (run.1.pressed handle key) :=
    balanced_outcome inputs
  rw [balanced handle key]
  refine ⟨rfl, fun held => ?_⟩
  have held := Option.some.inj held
  have present := mem_handles_of_pressed sound held
  refine ⟨keyRelease_mem_destroy held, List.mem_append_left _ ?_⟩
  refine keyRelease_mem_destroyAll ?_ held
  rwa [backend.handles.mem_arrange, ← AList.mem_keys]

end InputEmulation

end Syntra.Emulation
