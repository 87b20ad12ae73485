import Mathlib.Data.List.Induction
import Syntra.Plugins.Protocol

/-!
# The glow at the edges of the screen

The edge-glow plugin lights an edge when a pointer comes in or leaves, and while it is pushed
(`plugins/edge-glow/src/state.rs`, `glow.rs`). Times are milliseconds.
-/

namespace Syntra.EdgeGlow

open List Function

open Plugins (Message)
open Proto (F32 Position)

/-- The settings that decide what is lit. -/
structure Settings where
  enabled : Bool
  showPressure : Bool

def parseFlag : String → Option Bool
  | "true" => some true
  | "false" => some false
  | _ => none

def Settings.apply (self : Settings) (values : List (String × String)) : Settings :=
  values.foldl (fun self (key, value) =>
    match key with
    | "enabled" => { self with enabled := (parseFlag value).getD self.enabled }
    | "show_pressure" => { self with showPressure := (parseFlag value).getD self.showPressure }
    | _ => self) self

/-- Why an edge is lit. -/
inductive Kind
  | entry (along : F32)
  | push (along level : F32)
  | fading (along level : F32)

/-- The light of an edge, from when it was lit. -/
structure Active where
  kind : Kind
  since : ℕ

/-- The light of an edge at a time. -/
inductive Light
  | entry (along : F32) (age : ℕ)
  | push (along level : F32)
  | fading (along level : F32) (since : ℕ)

def entryDuration : ℕ := 900

def releaseDuration : ℕ := 350

def Light.isOver : Light → Bool
  | .entry _ age => entryDuration ≤ age
  | .push .. => false
  | .fading _ _ since => releaseDuration ≤ since

/-- Where a pointer last was along an edge is kept when its light is gone. -/
structure State where
  settings : Settings
  edges : Position → Option Active
  lastAlong : Position → Option F32

def edgeOrder : List Position := [.left, .right, .top, .bottom]

/-- `0.5`. -/
def middle : F32 := ⟨0x3f000000⟩

def alongOrMiddle : Option F32 → F32
  | some value => if value.isFinite then value.clamp .zero .one else middle
  | none => middle

def Active.along (active : Active) : F32 :=
  match active.kind with
  | .entry along | .push along _ | .fading along _ => along

def Active.light (active : Active) (now : ℕ) : Light :=
  match active.kind with
  | .entry along => .entry along (now - active.since)
  | .push along level => .push along level
  | .fading along level => .fading along level (now - active.since)

namespace State

def default : State := ⟨⟨true, true⟩, fun _ => none, fun _ => none⟩

variable (self : State)

def lit (edge : Position) (kind : Kind) (along : F32) (now : ℕ) : State :=
  { self with
    edges := Function.update self.edges edge (some ⟨kind, now⟩)
    lastAlong := Function.update self.lastAlong edge (some along) }

def pressed (edge : Position) (along : Option F32) (amount : F32) (now : ℕ) : State :=
  let level := if amount.isFinite then amount.clamp .zero .one else .zero
  if level.le .zero then
    match self.edges edge with
    | some ⟨.push along level, _⟩ =>
      { self with edges := Function.update self.edges edge (some ⟨.fading along level, now⟩) }
    | _ => self
  else
    match self.edges edge with
    | some ⟨.entry _, _⟩ => self
    | active =>
      let kept := (active.map Active.along).or (self.lastAlong edge)
      let place := if along.isSome then alongOrMiddle along else kept.getD middle
      self.lit edge (.push place level) place now

def pointer (event : Plugins.PointerEvent) (now : ℕ) : State :=
  if self.settings.enabled then
    match event with
    | .entered edge along _ =>
      let place := alongOrMiddle along
      self.lit edge (.entry place) place now
    | .left edge along _ =>
      match self.edges edge with
      | some ⟨.entry _, _⟩ => self
      | _ =>
        let place := ((along.map fun value => alongOrMiddle (some value)).or
          (self.lastAlong edge)).getD middle
        self.lit edge (.fading place .one) place now
    | .pressure edge along amount =>
      if self.settings.showPressure then self.pressed edge along amount now else self
  else self

def handle (message : Message) (now : ℕ) : State :=
  match message with
  | .settings values =>
    let settings := self.settings.apply values
    { self with settings, edges := if settings.enabled then self.edges else fun _ => none }
  | .pointer event => self.pointer event now
  | _ => self

/-- What is drawn, and the state without the lights that are over. -/
def frame (now : ℕ) : List (Position × Light) × State :=
  if self.settings.enabled then
    let edges edge := (self.edges edge).filter fun active => !(active.light now).isOver
    (edgeOrder.filterMap fun edge => (edges edge).map fun active => (edge, active.light now),
      { self with edges })
  else ([], self)

def nextWake : Option ℕ :=
  if edgeOrder.any fun edge => (self.edges edge).isSome then some 16 else none

end State

/-- The plugin redraws after every message, and while something is lit whenever it wakes. -/
inductive Input
  | message (message : Message)
  | frame

namespace State

variable (self : State)

def step : Input → ℕ → State
  | .message message, now => self.handle message now
  | .frame, now => (self.frame now).2

/-- The state after these inputs, each with its time. -/
def run (inputs : List (Input × ℕ)) : State :=
  inputs.foldl (fun self received => self.step received.1 received.2) default

/-- The light of an edge is that of a push, which does not end by itself. -/
def Pushed (edge : Position) : Prop :=
  ∃ along level since, self.edges edge = some ⟨.push along level, since⟩

/-- The end of a push is not taken because pressure is not to be shown any more. -/
def Misses : Input → Prop
  | .message (.pointer (.pressure edge _ amount)) =>
    amount.le .zero = true ∧ self.Pushed edge ∧ self.settings.showPressure = false
  | _ => False

end State

/-- The amount of a pressure message for this edge. -/
def reported (edge : Position) : Input → Option F32
  | .message (.pointer (.pressure other _ amount)) => if other = edge then some amount else none
  | _ => none

def lastPressure (inputs : List (Input × ℕ)) (edge : Position) : Option F32 :=
  inputs.reverse.findSome? fun received => reported edge received.1

/-- Every message is long enough ago for a light to end by itself. -/
def Late (inputs : List (Input × ℕ)) (now : ℕ) : Prop :=
  ∀ message time, (.message message, time) ∈ inputs →
    time + entryDuration ≤ now ∧ time + releaseDuration ≤ now

namespace State

variable {self : State} {input : Input} {inputs : List (Input × ℕ)} {now : ℕ} {edge : Position}

theorem level_le_zero {amount : F32} (least : amount.le .zero = true) :
    (if amount.isFinite then amount.clamp .zero .one else .zero : F32).le .zero = true := by
  split
  · rw [F32.clamp]
    by_cases below : amount.lt .zero = true
    · simp only [if_pos below]
      decide
    · have above : F32.one.lt amount = false := by
        simp only [F32.le, Bool.and_eq_true, decide_eq_true_eq] at least
        have zero : F32.zero.rank = 0 := by decide
        have one : (0 : ℤ) < F32.one.rank := by decide
        simp only [F32.lt, Bool.and_eq_false_iff, decide_eq_false_iff_not]
        omega
      simpa [below, above] using least
  · decide

/-- The lights are from messages, and there are none while the plugin is off. -/
structure Sound (inputs : List (Input × ℕ)) (state : State) : Prop where
  dark : state.settings.enabled = false → ∀ edge, state.edges edge = none
  since : ∀ edge active, state.edges edge = some active →
    ∃ message, (.message message, active.since) ∈ inputs

/-- What an input makes of one edge: it stays, goes dark, or is lit by a message from now on. -/
def Follows (self : State) (input : Input) (now : ℕ) (edge : Position) (later : State) : Prop :=
  (later.edges edge = self.edges edge ∧
    ∀ amount, reported edge input = some amount → amount.le .zero = true →
      self.Pushed edge → self.Misses input) ∨
  later.edges edge = none ∨
  ∃ kind, later.edges edge = some ⟨kind, now⟩ ∧ (∃ message, input = .message message) ∧
    ∀ along level, kind = .push along level →
      ∃ amount, reported edge input = some amount ∧ amount.le .zero = false

theorem follows_lit {message : Message} (other : Position) (kind : Kind) (along : F32)
    (silent : ∀ amount, reported edge (.message message) = some amount → other = edge)
    (loud : other = edge → ∀ along level, kind = .push along level →
      ∃ amount, reported edge (.message message) = some amount ∧ amount.le .zero = false) :
    self.Follows (.message message) now edge (self.lit other kind along now) := by
  by_cases same : other = edge
  · subst same
    exact .inr (.inr ⟨kind, update_self .., ⟨message, rfl⟩, loud rfl⟩)
  · exact .inl ⟨update_of_ne (Ne.symm same) .., fun amount told =>
      absurd (silent amount told) same⟩

theorem follows_pressed (other : Position) (along : Option F32) (amount : F32) :
    self.Follows (.message (.pointer (.pressure other along amount))) now edge
      (self.pressed other along amount now) := by
  have silent (value : F32)
      (told : reported edge (.message (.pointer (.pressure other along amount))) = some value) :
      other = edge := by
    by_contra differ
    exact absurd ((if_neg differ).symm.trans told) (by simp)
  have stays (idle : ¬self.Pushed other) :
      self.Follows (.message (.pointer (.pressure other along amount))) now edge self :=
    .inl ⟨rfl, fun value told _ pushed => absurd (silent value told ▸ pushed) idle⟩
  have bound := @level_le_zero amount
  simp only [pressed]
  generalize (if amount.isFinite then amount.clamp .zero .one else .zero : F32) = level at bound ⊢
  split
  · split
    · rename_i along level since pushing
      by_cases same : other = edge
      · subst same
        exact .inr (.inr ⟨_, update_self .., ⟨_, rfl⟩, fun _ _ push => by cases push⟩)
      · exact .inl ⟨update_of_ne (Ne.symm same) .., fun value told =>
          absurd (silent value told) same⟩
    · rename_i idle
      exact stays fun ⟨along, level, since, pushed⟩ => idle _ _ _ pushed
  · rename_i pushes
    split
    · rename_i entered
      exact stays fun ⟨along, level, since, pushed⟩ => by cases entered.symm.trans pushed
    · refine follows_lit other _ _ silent fun same _ _ _ => ⟨amount, if_pos same, ?_⟩
      by_contra least
      exact pushes (bound (by simpa using least))

theorem Sound.follows_handle (sound : self.Sound inputs) (message : Message) (now : ℕ)
    (edge : Position) : self.Follows (.message message) now edge (self.handle message now) := by
  have stays (silent : reported edge (.message message) = none) :
      self.Follows (.message message) now edge self :=
    .inl ⟨rfl, fun amount told => absurd (silent.symm.trans told) (by simp)⟩
  cases message with
  | settings values =>
    simp only [State.handle]
    split
    · exact .inl ⟨rfl, fun amount told => by cases told⟩
    · exact .inr (.inl rfl)
  | pointer event =>
    simp only [State.handle, pointer]
    split
    · cases event with
      | entered other along peer =>
        exact follows_lit other _ _ (fun _ told => by cases told) fun _ _ _ push => by cases push
      | left other along peer =>
        simp only
        split
        · exact stays rfl
        · exact follows_lit other _ _ (fun _ told => by cases told) fun _ _ _ push => by cases push
      | pressure other along amount =>
        simp only
        split
        · exact follows_pressed other along amount
        · rename_i hidden
          refine .inl ⟨rfl, fun _ told least pushed => ?_⟩
          by_cases same : other = edge
          · subst same
            cases Option.some.inj ((if_pos rfl).symm.trans told)
            exact ⟨least, pushed, by simpa using hidden⟩
          · exact absurd ((if_neg same).symm.trans told) (by simp)
    · rename_i disabled
      exact .inr (.inl (sound.dark (by simpa using disabled) edge))
  | _ => exact stays rfl

theorem pointer_settings (event : Plugins.PointerEvent) :
    (self.pointer event now).settings = self.settings := by
  cases event <;> simp only [pointer, pressed, lit] <;> (repeat' split) <;> rfl

theorem frame_settings (now : ℕ) : (self.frame now).2.settings = self.settings := by
  unfold frame
  split <;> rfl

/-- A frame leaves the light of an edge as it was, or puts it out. -/
theorem frame_edges (now : ℕ) (edge : Position) :
    (self.frame now).2.edges edge = self.edges edge ∨ (self.frame now).2.edges edge = none := by
  unfold frame
  split
  · cases found : self.edges edge with
    | none => exact .inl (by simp [found])
    | some active =>
      cases faded : (active.light now).isOver with
      | false => exact .inl (by simp [found, faded])
      | true => exact .inr (by simp [found, faded])
  · exact .inl rfl

theorem Sound.follows (sound : self.Sound inputs) (input : Input) (now : ℕ) (edge : Position) :
    self.Follows input now edge (self.step input now) := by
  cases input with
  | message message => exact sound.follows_handle message now edge
  | frame =>
    rcases frame_edges now edge with same | none
    · exact .inl ⟨same, fun _ told => by cases told⟩
    · exact .inr (.inl none)

theorem Sound.step (sound : self.Sound inputs) (input : Input) (now : ℕ) :
    (self.step input now).Sound (inputs ++ [(input, now)]) := by
  constructor
  · intro disabled edge
    cases input with
    | frame =>
      have dark := sound.dark (frame_settings now ▸ disabled) edge
      rcases frame_edges now edge with same | none
      · exact same.trans dark
      · exact none
    | message message =>
      cases message with
      | settings values =>
        have off : (self.settings.apply values).enabled = false := disabled
        simp [State.step, handle, off]
      | pointer event =>
        have off : self.settings.enabled = false := pointer_settings event ▸ disabled
        simpa [State.step, handle, pointer, off] using sound.dark off edge
      | _ => exact sound.dark disabled edge
  · intro edge active found
    rcases sound.follows input now edge with ⟨same, -⟩ | none | ⟨kind, is, ⟨message, rfl⟩, -⟩
    · rcases sound.since edge active (same.symm.trans found) with ⟨message, member⟩
      exact ⟨message, mem_append_left _ member⟩
    · cases none.symm.trans found
    · cases is.symm.trans found
      exact ⟨message, mem_append_right _ (.head _)⟩

theorem Sound.run (inputs : List (Input × ℕ)) : (run inputs).Sound inputs := by
  induction inputs using reverseRecOn with
  | nil => exact ⟨fun _ _ => rfl, fun _ _ impossible => by cases impossible⟩
  | append_singleton inputs received ih =>
    rw [State.run, foldl_append]
    exact ih.step received.1 received.2

theorem Sound.fades_iff (sound : self.Sound inputs) (late : Late inputs now) :
    (self.frame now).1 = [] ∧ (self.frame now).2.nextWake = none ↔ ∀ edge, ¬self.Pushed edge := by
  have ended (edge : Position) :
      (self.edges edge).filter (fun active => !(active.light now).isOver) = none ↔
        ¬self.Pushed edge := by
    cases found : self.edges edge with
    | none => simp [Pushed, found]
    | some active =>
      rcases sound.since edge active found with ⟨message, member⟩
      have far := late message _ member
      rcases active with ⟨_ | _ | _, since⟩
      all_goals simp [Active.light, Light.isOver, Pushed, found]
      all_goals
        simp only at far
        omega
  have every (edge : Position) : edge ∈ edgeOrder := by cases edge <;> decide
  unfold frame
  split
  · constructor
    · rintro ⟨dark, -⟩ edge
      rw [← ended edge]
      simpa using filterMap_eq_nil_iff.mp dark edge (every edge)
    · intro unpushed
      have dark (edge : Position) := (ended edge).mpr (unpushed edge)
      simp [nextWake, dark]
  · rename_i off
    have dark := sound.dark (by simpa using off)
    simp [nextWake, dark, Pushed]

theorem pushed_run (heeds : ∀ earlier received later, inputs = earlier ++ received :: later →
      ¬(run earlier).Misses received.1) (pushed : (run inputs).Pushed edge) :
    ∃ amount, lastPressure inputs edge = some amount ∧ amount.le .zero = false := by
  induction inputs using reverseRecOn with
  | nil =>
    rcases pushed with ⟨along, level, since, impossible⟩
    cases impossible
  | append_singleton inputs received ih =>
    have last : lastPressure (inputs ++ [received]) edge =
        (reported edge received.1).or (lastPressure inputs edge) := by
      cases told : reported edge received.1 <;> simp [told, lastPressure]
    rw [run, foldl_append] at pushed
    rcases (Sound.run inputs).follows received.1 received.2 edge with
      ⟨same, heard⟩ | none | ⟨kind, is, -, loud⟩
    · have before : (run inputs).Pushed edge := by
        rcases pushed with ⟨along, level, since, pushed⟩
        exact ⟨along, level, since, same.symm.trans pushed⟩
      cases told : reported edge received.1 with
      | none =>
        rw [last, told, Option.none_or]
        exact ih (fun earlier other later split => heeds earlier other (later ++ [received])
          (by rw [split, append_assoc, cons_append])) before
      | some amount =>
        refine ⟨amount, by rw [last, told, Option.some_or], ?_⟩
        by_contra least
        exact heeds inputs received [] rfl (heard amount told (by simpa using least) before)
    · rcases pushed with ⟨along, level, since, pushed⟩
      cases none.symm.trans pushed
    · rcases pushed with ⟨along, level, since, pushed⟩
      cases is.symm.trans pushed
      rcases loud along level rfl with ⟨amount, told, positive⟩
      exact ⟨amount, by rw [last, told, Option.some_or], positive⟩

/-- In every run of messages and frames, a frame long enough after the last message is dark exactly
when no edge is pushed any more. After a run that ends with every pressure released, it is, if no
release was missed. -/
theorem fades_iff_of_run (inputs : List (Input × ℕ)) (now : ℕ) (late : Late inputs now) :
    let state := run inputs
    ((state.frame now).1 = [] ∧ (state.frame now).2.nextWake = none ↔
      ∀ edge, ¬state.Pushed edge) ∧
    ((∀ edge amount, lastPressure inputs edge = some amount → amount.le .zero = true) →
      (∀ earlier received later, inputs = earlier ++ received :: later →
        ¬(run earlier).Misses received.1) → ∀ edge, ¬state.Pushed edge) := by
  refine ⟨(Sound.run inputs).fades_iff late, fun released heeds edge pushed => ?_⟩
  rcases pushed_run heeds pushed with ⟨amount, last, positive⟩
  exact absurd (released edge amount last) (by simp [positive])

/-- A pointer comes in, its light is over and dropped by a frame, and the edge is pushed and
released as it should be. -/
def releasedPush : List (Input × ℕ) :=
  [(.message (.pointer (.entered .left none "phone")), 0), (.frame, 901),
    (.message (.pointer (.pressure .left none middle)), 905), (.frame, 905),
    (.message (.pointer (.pressure .left none .zero)), 910), (.frame, 910)]

theorem released_push_fades : ((run releasedPush).frame 1810).1 = [] := by
  have late : Late releasedPush 1810 := by
    intro message time member
    simp only [releasedPush, mem_cons, Prod.mk.injEq, reduceCtorEq, false_and, false_or,
      not_mem_nil, or_false] at member
    rcases member with ⟨-, rfl⟩ | ⟨-, rfl⟩ | ⟨-, rfl⟩
    all_goals decide
  refine ((fades_iff_of_run releasedPush 1810 late).1.mpr ?_).1
  rintro edge ⟨_, _, _, pushed⟩
  cases edge <;> cases pushed

/-- The pressure is switched off while an edge is pushed, and its light stays. -/
theorem missed_release_stays : ¬∀ (inputs : List (Input × ℕ)) (now : ℕ), Late inputs now →
    (∀ edge amount, lastPressure inputs edge = some amount → amount.le .zero = true) →
    ((run inputs).frame now).1 = [] ∧ ((run inputs).frame now).2.nextWake = none := by
  intro all
  have dark := all [(.message (.pointer (.pressure .left none middle)), 0),
    (.message (.settings [("show_pressure", "false")]), 1),
    (.message (.pointer (.pressure .left none .zero)), 5), (.frame, 5)] 905
    (by
      intro message time member
      simp only [mem_cons, Prod.mk.injEq, reduceCtorEq, false_and, or_false, not_mem_nil] at member
      rcases member with ⟨-, rfl⟩ | ⟨-, rfl⟩ | ⟨-, rfl⟩
      all_goals decide)
    (by
      intro edge amount told
      cases edge <;> cases told
      rfl)
  exact absurd dark.2 (by decide)

end State

end Syntra.EdgeGlow
