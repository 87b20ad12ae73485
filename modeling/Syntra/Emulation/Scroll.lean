import Mathlib.Algebra.Order.Round
import Mathlib.Data.Rat.Floor
import Mathlib.Tactic.Linarith
import Syntra.Proto.Event

/-!
# What is carried between input events

A virtual mouse moves by whole pixels and turns by whole detents. What an event leaves over is kept
for the next (`syntra-input-emulation/src/uinput.rs`). Motion is added up in exact fractions here.
-/

namespace Syntra.Emulation

open Proto Option Int

/-- The value that a pattern of bits stands for. -/
inductive Double
  | finite (value : ℚ)
  | infinite (negative : Bool)
  | nan

/-- The result of an `i32` operation, unless it overflows. -/
def checked (value : ℤ) : Option ℤ :=
  if -2 ^ 31 ≤ value ∧ value < 2 ^ 31 then some value else none

/-- `nearest` is the double that stands for an exact product or quotient. -/
def Double.scale (nearest : ℚ → Double) (factor : ℚ) : Double → Double
  | finite value => nearest (value * factor)
  | unbounded => unbounded

def clampTo (low high value : ℚ) : ℚ := max low (min value high)

/-- A cast to `i32`, which saturates. -/
def asI32 (value : ℤ) : ℤ := max (-2 ^ 31) (min value (2 ^ 31 - 1))

def trunc (value : ℚ) : ℤ := if 0 ≤ value then ⌊value⌋ else ⌈value⌉

/-- `f64::round`, away from zero. -/
def roundAway (value : ℚ) : ℤ := if 0 ≤ value then ⌊value + 1 / 2⌋ else ⌈value - 1 / 2⌉

/-- An event of the kernel. -/
structure RawEvent where
  kind : ℕ
  code : ℕ
  value : ℤ
  deriving DecidableEq

def evKey : ℕ := 0x01
def evRel : ℕ := 0x02

def wheelDetent : ℤ := 120

def wheelUnitsPerDetent : ℚ := 15

def maxScrollPerEvent : ℤ := 120 * 100

def maxMotionPerEvent : ℚ := 10000

/-- `REL_X` and `REL_Y`. -/
def relMotion : Fin 2 → ℕ
  | 0 => 0x00
  | 1 => 0x01

/-- `REL_WHEEL` and `REL_HWHEEL`. -/
def relWheel : Fin 2 → ℕ
  | 0 => 0x08
  | 1 => 0x06

def relWheelHiRes : Fin 2 → ℕ
  | 0 => 0x0b
  | 1 => 0x0c

/-- What is left over of the motion and of the detents, for each axis. -/
structure ScrollAccumulator where
  motion : Fin 2 → ℚ
  hiRes : Fin 2 → ℤ

namespace ScrollAccumulator

def new : ScrollAccumulator := ⟨fun _ => 0, fun _ => 0⟩

variable (self : ScrollAccumulator)

def move (index : Fin 2) : Double → List RawEvent × ScrollAccumulator
  | .finite delta =>
    let total := self.motion index + clampTo (-maxMotionPerEvent) maxMotionPerEvent delta
    let whole := trunc total
    (if whole = 0 then [] else [⟨evRel, relMotion index, asI32 whole⟩],
      { self with motion := Function.update self.motion index (total - whole) })
  | .infinite _ | .nan => ([], self)

/-- The end of `scroll`, once the axis and the sign are known. -/
def turn (index : Fin 2) (value : ℤ) : Option (List RawEvent × ScrollAccumulator) := do
  let total ← checked (self.hiRes index + value)
  let detents := total.tdiv wheelDetent
  let whole ← checked (detents * wheelDetent)
  let rest ← checked (total - whole)
  return (⟨evRel, relWheelHiRes index, value⟩ ::
      if detents = 0 then [] else [⟨evRel, relWheel index, detents⟩],
    { self with hiRes := Function.update self.hiRes index rest })

def scroll (axis : UInt8) (value : ℤ) : Option (List RawEvent × ScrollAccumulator) :=
  let value := max (-maxScrollPerEvent) (min value maxScrollPerEvent)
  if value = 0 then some ([], self)
  else if axis = 0 then (checked (-value)).bind (self.turn 0)
  else self.turn 1 value

/-- `round`, and then the cast to `i32`. -/
def roundToI32 : Double → ℤ
  | .finite value => asI32 (roundAway value)
  | .infinite negative => if negative then -2 ^ 31 else 2 ^ 31 - 1
  | .nan => 0

variable (nearest : ℚ → Double) (read : F64 → Double)

def translate : InputEvent → Option (List RawEvent × ScrollAccumulator)
  | .pointer (.motion _ dx dy) =>
    let (across, self) := self.move 0 (read dx)
    let (down, self) := self.move 1 (read dy)
    some (across ++ down, self)
  | .pointer (.button _ button state) =>
    some (if 0x110 ≤ button ∧ button ≤ 0x117 then
      [⟨evKey, button.toNat, if state = 0 then 0 else 1⟩] else [], self)
  | .pointer (.axis _ axis value) =>
    self.scroll axis (roundToI32
      (((read value).scale nearest wheelDetent).scale nearest (1 / wheelUnitsPerDetent)))
  | .pointer (.axisDiscrete120 axis value) => self.scroll axis value.toInt
  | .keyboard (.key _ key state) =>
    some (if 1 ≤ key ∧ key ≤ 0xff then [⟨evKey, key.toNat, if state = 0 then 0 else 1⟩] else [],
      self)
  | .keyboard (.modifiers ..) => some ([], self)

/-- What a sequence of events emits, unless an operation overflows. -/
def translateAll : List InputEvent → ScrollAccumulator →
    Option (List RawEvent × ScrollAccumulator)
  | [], self => some ([], self)
  | event :: events, self => do
    let (emitted, self) ← self.translate nearest read event
    let (later, self) ← translateAll events self
    return (emitted ++ later, self)

def Sound : Prop := ∀ index, |self.hiRes index| < wheelDetent ∧ |self.motion index| < 1

def total (emitted : List RawEvent) (code : ℕ) : ℤ :=
  ((emitted.filter fun event => event.kind = evRel ∧ event.code = code).map RawEvent.value).sum

/-- Nothing of the detents and of the motion is lost. -/
def Conserves (emitted : List RawEvent) (moved : Fin 2 → ℚ) (after : ScrollAccumulator) : Prop :=
  after.Sound ∧ ∀ index,
    total emitted (relWheelHiRes index) + self.hiRes index =
      wheelDetent * total emitted (relWheel index) + after.hiRes index ∧
    (total emitted (relMotion index) : ℚ) + after.motion index = self.motion index + moved index

def counted : Double → ℚ
  | .finite delta => clampTo (-maxMotionPerEvent) maxMotionPerEvent delta
  | _ => 0

def moved (index : Fin 2) : InputEvent → ℚ
  | .pointer (.motion _ dx dy) => counted (read (if index = 0 then dx else dy))
  | _ => 0

variable {self nearest read} {emitted later : List RawEvent} {middle after : ScrollAccumulator}
  {first second : Fin 2 → ℚ}

theorem total_append (emitted later : List RawEvent) (code : ℕ) :
    total (emitted ++ later) code = total emitted code + total later code := by
  simp [total]

theorem Conserves.trans (here : self.Conserves emitted first middle)
    (next : middle.Conserves later second after) :
    self.Conserves (emitted ++ later) (first + second) after := by
  refine ⟨next.1, fun index => ?_⟩
  rcases here.2 index with ⟨wheel, motion⟩
  rcases next.2 index with ⟨laterWheel, laterMotion⟩
  simp only [total_append, cast_add, Pi.add_apply]
  constructor
  · linarith
  · linarith

theorem Sound.unmoved (sound : self.Sound) (other : ∀ event ∈ emitted, event.kind ≠ evRel) :
    self.Conserves emitted 0 self := by
  have nothing (code : ℕ) : total emitted code = 0 := by
    rw [total, List.filter_eq_nil_iff.mpr fun event member => by simp [other event member]]
    rfl
  exact ⟨sound, fun index => by simp [nothing]⟩

theorem abs_sub_trunc_lt (value : ℚ) : |value - trunc value| < 1 := by
  rw [abs_lt, trunc]
  split
  · have low := floor_le value
    have high := lt_floor_add_one value
    constructor <;> linarith
  · have low := le_ceil value
    have high := ceil_lt_add_one value
    constructor <;> linarith

theorem asI32_trunc {value : ℚ} (small : |value| < 2 ^ 30) : asI32 (trunc value) = trunc value := by
  have close := abs_lt.mp (abs_sub_trunc_lt value)
  have bounds := abs_lt.mp small
  have low : (-2 ^ 31 : ℤ) ≤ trunc value := by
    exact_mod_cast (show (-2 ^ 31 : ℚ) ≤ trunc value by linarith)
  have high : trunc value ≤ 2 ^ 31 - 1 := by
    exact_mod_cast (show (trunc value : ℚ) ≤ 2 ^ 31 - 1 by linarith)
  rw [asI32, min_eq_left high, max_eq_right low]

theorem abs_clampTo_le (value : ℚ) :
    |clampTo (-maxMotionPerEvent) maxMotionPerEvent value| ≤ 10000 := by
  rw [abs_le, clampTo, maxMotionPerEvent]
  exact ⟨le_max_left _ _, max_le (by norm_num) (min_le_right _ _)⟩

theorem total_singleton (code other : ℕ) (value : ℤ) :
    total [⟨evRel, code, value⟩] other = if code = other then value else 0 := by
  by_cases same : code = other <;> simp [total, same]

theorem total_unless_zero (code other : ℕ) (value : ℤ) :
    total (if value = 0 then [] else [⟨evRel, code, value⟩]) other =
      if code = other then value else 0 := by
  by_cases none : value = 0
  · simp [none, total]
  · rw [if_neg none, total_singleton]

theorem codes : ∀ index other, (relMotion index = relMotion other ↔ index = other) ∧
    (relWheel index = relWheel other ↔ index = other) ∧
    (relWheelHiRes index = relWheelHiRes other ↔ index = other) ∧
    relMotion index ≠ relWheelHiRes other ∧ relMotion index ≠ relWheel other ∧
    relWheel index ≠ relMotion other ∧ relWheelHiRes index ≠ relMotion other ∧
    relWheel index ≠ relWheelHiRes other ∧ relWheelHiRes index ≠ relWheel other := by
  decide

theorem move_conserves (sound : self.Sound) (index : Fin 2) (delta : Double) :
    self.Conserves (self.move index delta).1 (Pi.single index (counted delta))
      (self.move index delta).2 := by
  cases delta with
  | infinite negative | nan =>
    simp only [counted, Pi.single_zero]
    exact sound.unmoved (by simp [move])
  | finite delta =>
    have before := abs_lt.mp (sound index).2
    have added := abs_le.mp (abs_clampTo_le delta)
    have exact_ := asI32_trunc (abs_lt.mpr ⟨by linarith, by linarith⟩ :
      |self.motion index + clampTo (-maxMotionPerEvent) maxMotionPerEvent delta| < 2 ^ 30)
    have rest := abs_sub_trunc_lt
      (self.motion index + clampTo (-maxMotionPerEvent) maxMotionPerEvent delta)
    simp only [move, exact_, counted]
    generalize clampTo (-maxMotionPerEvent) maxMotionPerEvent delta = step at rest ⊢
    generalize trunc (self.motion index + step) = whole at rest ⊢
    refine ⟨fun other => ⟨(sound other).1, ?_⟩, fun other => ⟨?_, ?_⟩⟩
    · by_cases same : other = index
      · subst same
        simpa using rest
      · simpa [same] using (sound other).2
    · simp [total_unless_zero, codes]
    · simp only [total_unless_zero, codes]
      by_cases same : other = index
      · subst same
        simp
      · simp [same, Ne.symm same]

theorem turn_conserves (sound : self.Sound) (index : Fin 2) {value : ℤ}
    (bounds : -12000 ≤ value ∧ value ≤ 12000) :
    ∃ emitted after, self.turn index value = some (emitted, after) ∧
      self.Conserves emitted 0 after := by
  have before := abs_lt.mp (sound index).1
  have parts := tdiv_mul_add_tmod (self.hiRes index + value) wheelDetent
  have low := lt_tmod_of_pos (self.hiRes index + value) (show 0 < wheelDetent by decide)
  have high := tmod_lt_of_pos (self.hiRes index + value) (show 0 < wheelDetent by decide)
  have fits {value : ℤ} (bounds : -12240 ≤ value ∧ value ≤ 12240) : checked value = some value :=
    if_pos (by omega)
  simp only [wheelDetent] at before
  rw [turn, fits (by omega), bind_eq_bind, bind_some]
  generalize (self.hiRes index + value).tdiv wheelDetent = detents at parts ⊢
  generalize (self.hiRes index + value).tmod wheelDetent = rest at parts low high
  simp only [wheelDetent] at parts low high ⊢
  rw [fits (by omega), bind_some, fits (by omega)]
  have left : self.hiRes index + value - detents * 120 = rest := by omega
  rw [left]
  refine ⟨_, _, rfl, fun other => ⟨?_, (sound other).2⟩, fun other => ⟨?_, ?_⟩⟩
  · by_cases same : other = index
    · subst same
      simpa [abs_lt] using ⟨low, high⟩
    · simpa [same] using (sound other).1
  · rw [← List.singleton_append, total_append, total_append]
    simp only [total_singleton, total_unless_zero, codes]
    by_cases same : other = index
    · subst same
      simp only [if_true, if_false, Function.update_self, wheelDetent]
      omega
    · simp [same, Ne.symm same]
  · rw [← List.singleton_append, total_append]
    simp [total_singleton, total_unless_zero, codes]

theorem scroll_conserves (sound : self.Sound) (axis : UInt8) (value : ℤ) :
    ∃ emitted after, self.scroll axis value = some (emitted, after) ∧
      self.Conserves emitted 0 after := by
  have bounds : -12000 ≤ max (-maxScrollPerEvent) (min value maxScrollPerEvent) ∧
      max (-maxScrollPerEvent) (min value maxScrollPerEvent) ≤ 12000 := by
    simp only [maxScrollPerEvent]
    omega
  simp only [scroll]
  generalize max (-maxScrollPerEvent) (min value maxScrollPerEvent) = value at bounds ⊢
  split
  · exact ⟨_, _, rfl, sound.unmoved (by simp)⟩
  · split
    · rw [checked, if_pos (by omega)]
      exact turn_conserves sound 0 (by omega)
    · exact turn_conserves sound 1 bounds

theorem translate_conserves (sound : self.Sound) (event : InputEvent) :
    ∃ emitted after, self.translate nearest read event = some (emitted, after) ∧
      self.Conserves emitted (moved read · event) after := by
  have press (kept : Prop) [Decidable kept] (code : ℕ) (value : ℤ) :
      self.Conserves (if kept then [⟨evKey, code, value⟩] else []) 0 self := by
    apply sound.unmoved
    split <;> simp [evKey, evRel]
  cases event with
  | pointer event =>
    cases event with
    | motion time dx dy =>
      have across := move_conserves sound 0 (read dx)
      have both := across.trans (move_conserves across.1 1 (read dy))
      have axes : (fun index => moved read index (.pointer (.motion time dx dy))) =
          Pi.single 0 (counted (read dx)) + Pi.single 1 (counted (read dy)) :=
        funext (Fin.forall_fin_two.mpr ⟨by simp [moved], by simp [moved]⟩)
      exact ⟨_, _, rfl, axes ▸ both⟩
    | button time button state => exact ⟨_, _, rfl, press ..⟩
    | axis time axis value => exact scroll_conserves sound ..
    | axisDiscrete120 axis value => exact scroll_conserves sound ..
  | keyboard event =>
    cases event with
    | key time key state => exact ⟨_, _, rfl, press ..⟩
    | modifiers => exact ⟨_, _, rfl, sound.unmoved (by simp)⟩

theorem translateAll_conserves (sound : self.Sound) (events : List InputEvent) :
    ∃ emitted after, translateAll nearest read events self = some (emitted, after) ∧
      self.Conserves emitted (fun index => (events.map (moved read index)).sum) after := by
  induction events generalizing self with
  | nil => exact ⟨_, _, rfl, sound.unmoved (by simp)⟩
  | cons event events ih =>
    rcases translate_conserves sound event with ⟨emitted, middle, here, conserved⟩
    rcases ih conserved.1 with ⟨later, after, next, kept⟩
    refine ⟨_, _, ?_, conserved.trans kept⟩
    rw [translateAll, here]
    simp only [bind_eq_bind, bind_some, next]
    rfl

/-- Neither detents nor motion are lost, whatever the events are, and no operation overflows. -/
theorem conserves_of_new (nearest : ℚ → Double) (read : F64 → Double) (events : List InputEvent) :
    ∃ emitted after, translateAll nearest read events new = some (emitted, after) ∧ ∀ index,
      total emitted (relWheelHiRes index) =
        wheelDetent * total emitted (relWheel index) + after.hiRes index ∧
      |after.hiRes index| < wheelDetent ∧
      (total emitted (relMotion index) : ℚ) =
        (events.map (moved read index)).sum - after.motion index ∧
      |after.motion index| < 1 := by
  have start : new.Sound := fun index => ⟨by simp [new, wheelDetent], by simp [new]⟩
  rcases translateAll_conserves start events with ⟨emitted, after, run, sound, kept⟩
  refine ⟨emitted, after, run, fun index => ?_⟩
  rcases kept index with ⟨wheel, motion⟩
  simp only [new, add_zero, zero_add] at wheel motion
  exact ⟨wheel, (sound index).1, eq_sub_of_add_eq motion, (sound index).2⟩

end ScrollAccumulator

end Syntra.Emulation
