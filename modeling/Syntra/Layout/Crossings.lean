import Mathlib.Algebra.Order.Field.Basic
import Mathlib.Tactic.FieldSimp
import Mathlib.Tactic.Linarith
import Mathlib.Tactic.Ring

/-!
# Crossings between monitors

The monitors of every device are placed on one plane, and a pointer crosses where two of different
devices touch (`syntra-api/src/layout.rs`). Positions along an edge are exact fractions here.
-/

namespace Syntra.Layout

def touchTolerance : ℤ := 2

/-- A monitor of a device in the plane. -/
structure Monitor where
  device : String
  id : String
  x : ℤ
  y : ℤ
  width : ℕ
  height : ℕ

def Monitor.right (monitor : Monitor) : ℤ := monitor.x + monitor.width

def Monitor.bottom (monitor : Monitor) : ℤ := monitor.y + monitor.height

inductive Edge
  | left | right | top | bottom

def Edge.opposite : Edge → Edge
  | .left => .right
  | .right => .left
  | .top => .bottom
  | .bottom => .top

structure MonitorRef where
  device : String
  id : String

/-- A piece of an edge that leads to another monitor. -/
structure Crossing where
  source : MonitorRef
  edge : Edge
  fromSpan : ℚ × ℚ
  target : MonitorRef
  toSpan : ℚ × ℚ

def Crossing.map (crossing : Crossing) (along : ℚ) : Option ℚ :=
  let (start, stop) := crossing.fromSpan
  if ¬(start ≤ along ∧ along ≤ stop) ∨ stop ≤ start then
    none
  else
    let t := (along - start) / (stop - start)
    let (toStart, toStop) := crossing.toSpan
    some (toStart + t * (toStop - toStart))

variable (source target : Monitor)

def touches (first second : ℤ) : Prop := |first - second| ≤ touchTolerance

instance (first second : ℤ) : Decidable (touches first second) :=
  inferInstanceAs (Decidable (_ ≤ _))

def touchingEdge : Option Edge :=
  if touches source.right target.x then some .right
  else if touches source.x target.right then some .left
  else if touches source.bottom target.y then some .bottom
  else if touches source.y target.bottom then some .top
  else none

/-- Where a side begins and how long it is. -/
def Monitor.side (monitor : Monitor) : Edge → ℤ × ℤ
  | .left | .right => (monitor.y, monitor.height)
  | .top | .bottom => (monitor.x, monitor.width)

def fraction (position start length : ℤ) : ℚ := (position - start : ℤ) / length

def crossing : Option Crossing := do
  let edge ← touchingEdge source target
  let (fromStart, fromLength) := source.side edge
  let (toStart, toLength) := target.side edge
  let start := max fromStart toStart
  let stop := min (fromStart + fromLength) (toStart + toLength)
  if stop ≤ start then
    none
  else
    some {
      source := ⟨source.device, source.id⟩
      edge
      fromSpan := (fraction start fromStart fromLength, fraction stop fromStart fromLength)
      target := ⟨target.device, target.id⟩
      toSpan := (fraction start toStart toLength, fraction stop toStart toLength) }

/-- Every crossing between monitors of different devices. -/
def crossings : List Monitor → List Crossing
  | [] => []
  | a :: monitors =>
    (monitors.flatMap fun b =>
      if a.device = b.device then [] else (crossing a b).toList ++ (crossing b a).toList) ++
      crossings monitors

/-- The way back. -/
structure Crossing.Reverses (back there : Crossing) : Prop where
  source : back.source = there.target
  target : back.target = there.source
  edge : back.edge = there.edge.opposite
  fromSpan : back.fromSpan = there.toSpan
  toSpan : back.toSpan = there.fromSpan
  map_map : ∀ along, there.fromSpan.1 ≤ along → along ≤ there.fromSpan.2 →
    (there.map along).bind back.map = some along

/-- The monitor is wider and higher than the tolerance. -/
def Monitor.Wide (monitor : Monitor) : Prop :=
  touchTolerance < monitor.width ∧ touchTolerance < monitor.height

variable {source target}

theorem touchingEdge_opposite (wide : source.Wide) (other : target.Wide) {edge : Edge}
    (touching : touchingEdge source target = some edge) :
    touchingEdge target source = some edge.opposite := by
  rcases wide with ⟨_, _⟩
  rcases other with ⟨_, _⟩
  simp only [touchingEdge, touches, Monitor.right, Monitor.bottom, abs_le] at touching ⊢
  split_ifs at touching <;> cases touching <;> simp only [Edge.opposite] <;> split_ifs <;>
    first | rfl | omega

theorem fraction_lt {start stop first length : ℤ} (before : start < stop) (long : 0 < length) :
    fraction start first length < fraction stop first length := by
  unfold fraction
  gcongr

theorem map_map {there back : Crossing} (from_lt : there.fromSpan.1 < there.fromSpan.2)
    (to_lt : there.toSpan.1 < there.toSpan.2) (fromSpan : back.fromSpan = there.toSpan)
    (toSpan : back.toSpan = there.fromSpan) {along : ℚ} (after : there.fromSpan.1 ≤ along)
    (before : along ≤ there.fromSpan.2) : (there.map along).bind back.map = some along := by
  rcases there with ⟨_, _, ⟨start, stop⟩, _, toStart, toStop⟩
  rcases back with ⟨_, _, _, _, toSpan⟩
  cases fromSpan
  cases toSpan
  have length : 0 < stop - start := sub_pos.mpr from_lt
  have toLength : 0 < toStop - toStart := sub_pos.mpr to_lt
  have lower := mul_nonneg (div_nonneg (sub_nonneg.mpr after) length.le) toLength.le
  have upper := mul_le_of_le_one_left toLength.le
    ((div_le_one length).mpr (sub_le_sub_right before start))
  have outside : ¬(¬(start ≤ along ∧ along ≤ stop) ∨ stop ≤ start) := by
    simp [after, before, from_lt]
  simp only [Crossing.map, if_neg outside, Option.bind_some]
  refine (if_neg ?_).trans (congrArg some ?_)
  · rintro (outside | short)
    · exact outside ⟨by linarith, by linarith⟩
    · linarith
  · field_simp
    ring

theorem Monitor.Wide.side_pos {monitor : Monitor} (wide : monitor.Wide) (edge : Edge) :
    0 < (monitor.side edge).2 := by
  rcases wide with ⟨wide, high⟩
  unfold touchTolerance at wide high
  cases edge <;> simp only [Monitor.side] <;> omega

theorem side_opposite (monitor : Monitor) (edge : Edge) :
    monitor.side edge.opposite = monitor.side edge := by
  cases edge <;> rfl

theorem crossing_reverses (wide : source.Wide) (other : target.Wide) {there : Crossing}
    (found : crossing source target = some there) :
    ∃ back, crossing target source = some back ∧ back.Reverses there := by
  rcases Option.bind_eq_some_iff.mp found with ⟨edge, touching, found⟩
  simp only at found
  split_ifs at found with apart
  cases found
  have fromLength := wide.side_pos edge
  have toLength := other.side_pos edge
  simp only [crossing, touchingEdge_opposite wide other touching, side_opposite,
    Option.bind_eq_bind, Option.bind_some]
  rw [max_comm, min_comm, if_neg apart]
  exact ⟨_, rfl, rfl, rfl, rfl, rfl, rfl, fun _ => map_map
    (fraction_lt (not_le.mp apart) fromLength) (fraction_lt (not_le.mp apart) toLength) rfl rfl⟩

/-- Whoever crosses can cross back to where it came from, and only from the part of an edge that
faces another monitor. -/
theorem crossings_symmetric {monitors : List Monitor} (wide : ∀ monitor ∈ monitors, monitor.Wide)
    {there : Crossing} (crosses : there ∈ crossings monitors) :
    (∃ back ∈ crossings monitors, back.Reverses there) ∧
      ∀ along, ¬(there.fromSpan.1 ≤ along ∧ along ≤ there.fromSpan.2) → there.map along = none := by
  refine ⟨?_, fun _ outside => if_pos (.inl outside)⟩
  induction monitors with
  | nil => cases crosses
  | cons a monitors ih =>
    rcases List.mem_append.mp crosses with here | later
    · rcases List.mem_flatMap.mp here with ⟨b, member, crosses⟩
      split_ifs at crosses with same
      · cases crosses
      · have kept : ∀ back, crossing a b = some back ∨ crossing b a = some back →
            back ∈ crossings (a :: monitors) := by
          intro back found
          refine List.mem_append_left _ (List.mem_flatMap.mpr ⟨b, member, ?_⟩)
          rw [if_neg same]
          simpa using found
        have first := wide a (.head _)
        have second := wide b (.tail _ member)
        rcases List.mem_append.mp crosses with found | found
        · rcases crossing_reverses first second (Option.mem_toList.mp found) with
            ⟨back, found, reverses⟩
          exact ⟨back, kept back (.inr found), reverses⟩
        · rcases crossing_reverses second first (Option.mem_toList.mp found) with
            ⟨back, found, reverses⟩
          exact ⟨back, kept back (.inl found), reverses⟩
    · rcases ih (fun monitor member => wide monitor (.tail _ member)) later with
        ⟨back, member, reverses⟩
      exact ⟨back, List.mem_append_right _ member, reverses⟩

theorem offset_neighbours_cross_back :
    ∃ back ∈ crossings [⟨"msi", "0", 0, 0, 2560, 1600⟩, ⟨"hp", "0", -1920, 200, 1920, 1080⟩],
      back.Reverses ⟨⟨"msi", "0"⟩, .left, (1 / 8, 4 / 5), ⟨"hp", "0"⟩, (0, 1)⟩ := by
  refine (crossings_symmetric ?_ ?_).1
  · simp [Monitor.Wide, touchTolerance]
  · simp [crossings, crossing, touchingEdge, touches, Monitor.right, Monitor.bottom, touchTolerance,
      Monitor.side, fraction]
    norm_num

end Syntra.Layout
