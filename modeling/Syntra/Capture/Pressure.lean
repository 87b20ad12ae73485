import Syntra.Proto.Event

/-!
# Edge pressure

How hard the pointer is pushed against an edge before it passes on. A float is its bit pattern:
comparisons and signs are read off the pattern, and the operations that round are a parameter.
Times are in nanoseconds.
-/

namespace Syntra.Proto.F64

variable (value : F64)

/-- The pattern without its sign bit. -/
def magnitude : ℕ :=
  value.bits.toNat % 2 ^ 63

def isNegative : Bool :=
  2 ^ 63 ≤ value.bits.toNat

def isFinite : Bool :=
  value.magnitude < 0x7ff0000000000000

def isNaN : Bool :=
  0x7ff0000000000000 < value.magnitude

/-- The position of a number on the real line; both zeros are at the origin. -/
def rank : ℤ :=
  if value.isNegative then -value.magnitude else value.magnitude

/-- IEEE `<`: false as soon as one side is not a number. -/
def lt (left right : F64) : Bool :=
  !left.isNaN && !right.isNaN && left.rank < right.rank

/-- IEEE `≤`. -/
def le (left right : F64) : Bool :=
  !left.isNaN && !right.isNaN && left.rank ≤ right.rank

def zero : F64 := ⟨0⟩

def one : F64 := ⟨0x3ff0000000000000⟩

def neg : F64 :=
  ⟨value.bits ^^^ 0x8000000000000000⟩

/-- `f64::max`. -/
def max (left right : F64) : F64 :=
  if left.isNaN then right else if right.isNaN then left else if left.lt right then right else left

/-- `f64::clamp`. -/
def clamp (value low high : F64) : F64 :=
  let value := if value.lt low then low else value
  if high.lt value then high else value

end Syntra.Proto.F64

namespace Syntra.Capture

open Proto

/-- The operations of floating-point arithmetic that round. -/
class FloatOps where
  add : F64 → F64 → F64
  sub : F64 → F64 → F64
  mul : F64 → F64 → F64
  div : F64 → F64 → F64
  /-- `as f32`. -/
  toSingle : F64 → F32
  subSingle : F32 → F32 → F32
  /-- `Duration::as_secs_f64`. -/
  seconds : ℕ → F64

variable [FloatOps]

open FloatOps

/-- The outcome of one motion event while an edge push is being measured. -/
inductive Pressure
  | building (total : F64)
  | reached
  | backed

def pressureBackSlack : F64 := ⟨0x4044000000000000⟩

def pressureLeakPerSecond : F64 := ⟨0x4059000000000000⟩

/-- A second touch this soon after the last update is the barrier reporting one touch twice. -/
def duplicateTouch : ℕ := 50 * 10 ^ 6

/-- Smallest change of the reported amount that is always sent. -/
def pressureReportStep : F32 := ⟨0x3da3d70a⟩

/-- How long small changes of the reported amount are held back. -/
def pressureReportInterval : ℕ := 33 * 10 ^ 6

/-- `f32::abs`. -/
def absSingle (value : F32) : F32 :=
  ⟨value.bits &&& 0x7fffffff⟩

def shouldReportPressure (sinceLast : Option ℕ) (last amount : F32) : Bool :=
  match sinceLast with
  | none => true
  | some gap =>
    pressureReportInterval ≤ gap || pressureReportStep.le (absSingle (subSingle amount last))

/-- Adds one motion to the push against an edge. Only movement out of the screen builds it up. -/
def advancePressure (soFar : F64) (idle : ℕ) (edge : Position) (dx dy needed : F64) : Pressure :=
  let push := match edge with
    | .left => dx.neg
    | .right => dx
    | .top => dy.neg
    | .bottom => dy
  -- the time between outward events is not idle time
  let soFar := if F64.zero.lt soFar && push.le F64.zero then
      (sub soFar (mul pressureLeakPerSecond (seconds idle))).max F64.zero
    else
      soFar
  if !push.isFinite then
    .building soFar
  else
    let total := (add soFar push).max pressureBackSlack.neg
    if needed.le total then
      .reached
    else if total.le pressureBackSlack.neg then
      .backed
    else
      .building total

/-- The share of the needed push that has built up. -/
def pressureAmount (soFar needed : F64) : F32 :=
  if F64.zero.lt needed then
    toSingle ((div soFar needed).clamp F64.zero F64.one)
  else
    F32.zero

end Syntra.Capture
