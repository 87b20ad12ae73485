import Mathlib.Data.Finset.Card
import Mathlib.Data.List.Dedup
import Syntra.Layout.Crossings

/-!
# Placing monitors

Which layouts can be used, and where a monitor that is dragged near others comes to lie.
-/

namespace Syntra.Layout

open List

/-- Why a layout is refused. -/
inductive LayoutError
  | empty (monitor : MonitorRef)
  | overlap (first second : MonitorRef)
  | detached (device : String)

def Monitor.ref (monitor : Monitor) : MonitorRef := ⟨monitor.device, monitor.id⟩

variable (a b : Monitor)

def Overlapping : Prop :=
  touchTolerance < min a.right b.right - max a.x b.x ∧
    touchTolerance < min a.bottom b.bottom - max a.y b.y

instance : Decidable (Overlapping a b) := inferInstanceAs (Decidable (_ ∧ _))

def separate : List Monitor → Except LayoutError Unit
  | [] => .ok ()
  | a :: monitors =>
    match monitors.find? (Overlapping a ·) with
    | some b => .error (.overlap a.ref b.ref)
    | none => separate monitors

def devices (monitors : List Monitor) : List String :=
  ((monitors.map (·.device)).mergeSort (· ≤ ·)).dedup

def validate (monitors : List Monitor) : Except LayoutError Unit :=
  match monitors.find? fun monitor => monitor.width = 0 ∨ monitor.height = 0 with
  | some monitor => .error (.empty monitor.ref)
  | none => do
    separate monitors
    if 1 < (devices monitors).length then
      match (devices monitors).find? fun device =>
          ¬∃ c ∈ crossings monitors, c.source.device = device with
      | some lonely => .error (.detached lonely)
      | none => .ok ()

/-- The square lies within the monitor. -/
def Monitor.Covers (monitor : Monitor) (x y side : ℤ) : Prop :=
  monitor.x ≤ x ∧ x + side ≤ monitor.right ∧ monitor.y ≤ y ∧ y + side ≤ monitor.bottom

/-- No square wider than the tolerance lies on two monitors, and every device can be left. -/
structure Usable (monitors : List Monitor) : Prop where
  area : ∀ monitor ∈ monitors, monitor.width ≠ 0 ∧ monitor.height ≠ 0
  apart : monitors.Pairwise fun a b => ∀ x y,
    ¬(a.Covers x y (touchTolerance + 1) ∧ b.Covers x y (touchTolerance + 1))
  linked : ∀ a ∈ monitors, ∀ b ∈ monitors, a.device ≠ b.device →
    ∃ c ∈ crossings monitors, c.source.device = a.device

variable {a b} {monitors others : List Monitor}

theorem mem_crossings {there : Crossing} :
    there ∈ crossings monitors ↔
      ∃ a ∈ monitors, ∃ b ∈ monitors, a.device ≠ b.device ∧ crossing a b = some there := by
  induction monitors with
  | nil => simp [crossings]
  | cons first monitors ih =>
    simp only [crossings, mem_append, mem_flatMap, ih]
    constructor
    · rintro (⟨b, member, found⟩ | ⟨a, member, b, other, found⟩)
      · split_ifs at found with same
        · cases found
        · rcases mem_append.mp found with found | found
          · exact ⟨first, .head _, b, .tail _ member, same, Option.mem_toList.mp found⟩
          · exact ⟨b, .tail _ member, first, .head _, Ne.symm same, Option.mem_toList.mp found⟩
      · exact ⟨a, .tail _ member, b, .tail _ other, found⟩
    · rintro ⟨a, listed, b, present, different, found⟩
      rcases mem_cons.mp listed, mem_cons.mp present with ⟨rfl | member, rfl | other⟩
      · exact absurd rfl different
      · exact .inl ⟨b, other, by simp [different, found]⟩
      · exact .inl ⟨a, member, by simp [Ne.symm different, found]⟩
      · exact .inr ⟨a, member, b, other, different, found⟩

theorem overlapping_iff : Overlapping a b ↔ ∃ x y,
    a.Covers x y (touchTolerance + 1) ∧ b.Covers x y (touchTolerance + 1) := by
  constructor
  · rintro ⟨wide, high⟩
    refine ⟨max a.x b.x, max a.y b.y, ?_⟩
    unfold Monitor.Covers
    omega
  · rintro ⟨x, y, first, second⟩
    unfold Monitor.Covers at first second
    unfold Overlapping
    omega

theorem separate_eq_ok : separate monitors = .ok () ↔ monitors.Pairwise fun a b => ∀ x y,
    ¬(a.Covers x y (touchTolerance + 1) ∧ b.Covers x y (touchTolerance + 1)) := by
  simp only [← not_exists, ← overlapping_iff]
  induction monitors with
  | nil => simp [separate]
  | cons a monitors ih =>
    rw [separate, pairwise_cons, ← ih]
    cases found : monitors.find? (Overlapping a ·) with
    | some b =>
      have overlapping := find?_some found
      simp only [decide_eq_true_eq] at overlapping
      simpa using fun apart => absurd overlapping (apart b (mem_of_find?_eq_some found))
    | none =>
      simp only [find?_eq_none, decide_eq_true_eq] at found
      exact ⟨fun rest => ⟨found, rest⟩, And.right⟩

theorem mem_devices {device : String} :
    device ∈ devices monitors ↔ ∃ a ∈ monitors, a.device = device := by
  simp [devices]

theorem one_lt_length_devices : 1 < (devices monitors).length ↔
    ∃ a ∈ monitors, ∃ b ∈ monitors, a.device ≠ b.device := by
  have unique : (devices monitors).Nodup := nodup_dedup _
  rw [← toFinset_card_of_nodup unique, Finset.one_lt_card]
  simp only [mem_toFinset, mem_devices]
  grind

theorem find?_devices : (devices monitors).find? (fun device =>
    ¬∃ c ∈ crossings monitors, c.source.device = device) = none ↔
      ∀ a ∈ monitors, ∃ c ∈ crossings monitors, c.source.device = a.device := by
  simp only [find?_eq_none, decide_eq_true_eq, not_not, mem_devices, forall_exists_index, and_imp,
    forall_apply_eq_imp_iff₂]

theorem validate_eq_ok : validate monitors = .ok () ↔ Usable monitors := by
  unfold validate
  cases bare : monitors.find? fun monitor => monitor.width = 0 ∨ monitor.height = 0 with
  | some monitor =>
    have none := find?_some bare
    simp only [decide_eq_true_eq] at none
    exact iff_of_false nofun fun usable =>
      not_or.mpr (usable.area monitor (mem_of_find?_eq_some bare)) none
  | none =>
    simp only [find?_eq_none, decide_eq_true_eq, not_or] at bare
    cases apart : separate monitors with
    | error error =>
      refine iff_of_false nofun fun usable => ?_
      rw [separate_eq_ok.mpr usable.apart] at apart
      cases apart
    | ok =>
      have separated := separate_eq_ok.mp apart
      change (if 1 < (devices monitors).length then _ else _) = _ ↔ _
      split_ifs with many
      · rcases one_lt_length_devices.mp many with ⟨first, present, second, other, different⟩
        cases lonely : (devices monitors).find? fun device =>
            ¬∃ c ∈ crossings monitors, c.source.device = device with
        | none =>
          have linked := find?_devices.mp lonely
          exact iff_of_true rfl ⟨bare, separated, fun a member _ _ _ => linked a member⟩
        | some device =>
          refine iff_of_false nofun fun usable => ?_
          rw [find?_devices.mpr fun a member => ?_] at lonely
          · cases lonely
          · by_cases same : a.device = first.device
            · exact usable.linked a member second other (same ▸ different)
            · exact usable.linked a member first present same
      · exact iff_of_true rfl ⟨bare, separated, fun a member b other different =>
          absurd (one_lt_length_devices.mpr ⟨a, member, b, other, different⟩) many⟩

/-- The layouts that are accepted; the order in which the monitors are listed plays no part. -/
theorem validate_accepts (monitors : List Monitor) :
    (validate monitors = .ok () ↔ Usable monitors) ∧ ∀ others, monitors.Perm others →
      (validate monitors = .ok () ↔ validate others = .ok ()) := by
  have carried {monitors others : List Monitor} (same : monitors.Perm others) :
      Usable monitors → Usable others := by
    rintro ⟨area, apart, linked⟩
    refine ⟨?_, ?_, ?_⟩
    · exact fun monitor member => area monitor (same.mem_iff.mpr member)
    · refine same.pairwise apart fun none x y both => none x y both.symm
    · simpa only [mem_crossings, same.mem_iff] using linked
  refine ⟨validate_eq_ok, fun others same => ?_⟩
  rw [validate_eq_ok, validate_eq_ok]
  exact ⟨carried same, carried same.symm⟩

/-- Where the sides line up with those of another monitor. -/
def Monitor.alongX (moving other : Monitor) : List ℤ :=
  [other.right, other.x - moving.width, other.x, other.right - moving.width]

def Monitor.alongY (moving other : Monitor) : List ℤ :=
  [other.bottom, other.y - moving.height, other.y, other.bottom - moving.height]

variable (threshold wanted : ℤ)

def consider (best : Option (ℤ × ℤ)) (candidate : ℤ) : Option (ℤ × ℤ) :=
  let distance := |candidate - wanted|
  if distance ≤ threshold ∧ ∀ found ∈ best, distance < found.2 then some (candidate, distance)
  else best

def snap (moving : Monitor) (x y : ℤ) (others : List Monitor) : ℤ × ℤ :=
  let (bestX, bestY) := (others.filter (·.device ≠ moving.device)).foldl
    (fun (bestX, bestY) other =>
      ((moving.alongX other).foldl (consider threshold x) bestX,
        (moving.alongY other).foldl (consider threshold y) bestY)) (none, none)
  (bestX.elim x (·.1), bestY.elim y (·.1))

/-- The nearest candidate where one is within the threshold, and the wanted position otherwise. -/
def Nearest (candidates : List ℤ) (position : ℤ) : Prop :=
  (position ∈ candidates ∧ |position - wanted| ≤ threshold ∧
      ∀ candidate ∈ candidates, |position - wanted| ≤ |candidate - wanted|) ∨
    position = wanted ∧ ∀ candidate ∈ candidates, threshold < |candidate - wanted|

/-- What has been found after some of the candidates. -/
def Found (candidates : List ℤ) : Option (ℤ × ℤ) → Prop
  | some (position, distance) => position ∈ candidates ∧ distance = |position - wanted| ∧
      distance ≤ threshold ∧ ∀ candidate ∈ candidates, distance ≤ |candidate - wanted|
  | none => ∀ candidate ∈ candidates, threshold < |candidate - wanted|

variable {threshold wanted} {candidates seen : List ℤ} {best : Option (ℤ × ℤ)}

theorem Found.consider (found : Found threshold wanted seen best) (candidate : ℤ) :
    Found threshold wanted (seen ++ [candidate]) (consider threshold wanted best candidate) := by
  simp only [Layout.consider]
  split_ifs with near
  · cases best <;> simp only [Found] at found ⊢ <;> grind
  · cases best <;> simp only [Found] at found ⊢ <;> grind

theorem Found.foldl (found : Found threshold wanted seen best) (candidates : List ℤ) :
    Found threshold wanted (seen ++ candidates)
      (candidates.foldl (Layout.consider threshold wanted) best) := by
  induction candidates generalizing seen best with
  | nil => simpa using found
  | cons candidate candidates ih => simpa using ih (found.consider candidate)

theorem Found.nearest (found : Found threshold wanted candidates best) :
    Nearest threshold wanted candidates (best.elim wanted (·.1)) := by
  cases best with
  | none => exact .inr ⟨rfl, found⟩
  | some best =>
    rcases found with ⟨member, distance, near, least⟩
    exact .inl ⟨member, distance ▸ near, distance ▸ least⟩

theorem Nearest.stays {position next : ℤ} (nearest : Nearest threshold wanted candidates position)
    (again : Nearest threshold position candidates next) : next = position := by
  rcases again with ⟨member, near, least⟩ | ⟨same, _⟩
  · rcases nearest with ⟨listed, _, _⟩ | ⟨rfl, far⟩
    · have closest := least position listed
      rw [sub_self, abs_zero, abs_nonpos_iff, sub_eq_zero] at closest
      exact closest
    · exact absurd near (not_le.mpr (far next member))
  · exact same

theorem snap_nearest (threshold : ℤ) (moving : Monitor) (x y : ℤ) (others : List Monitor) :
    Nearest threshold x ((others.filter (·.device ≠ moving.device)).flatMap moving.alongX)
        (snap threshold moving x y others).1 ∧
      Nearest threshold y ((others.filter (·.device ≠ moving.device)).flatMap moving.alongY)
        (snap threshold moving x y others).2 := by
  unfold snap
  generalize others.filter (·.device ≠ moving.device) = apart
  have folded (seenX seenY : List ℤ) (bestX bestY : Option (ℤ × ℤ))
      (foundX : Found threshold x seenX bestX) (foundY : Found threshold y seenY bestY) :
      let (afterX, afterY) := apart.foldl (fun (bestX, bestY) other =>
        ((moving.alongX other).foldl (Layout.consider threshold x) bestX,
          (moving.alongY other).foldl (Layout.consider threshold y) bestY)) (bestX, bestY)
      Found threshold x (seenX ++ apart.flatMap moving.alongX) afterX ∧
        Found threshold y (seenY ++ apart.flatMap moving.alongY) afterY := by
    induction apart generalizing seenX seenY bestX bestY with
    | nil => simpa using ⟨foundX, foundY⟩
    | cons other apart ih =>
      simpa using
        ih _ _ _ _ (foundX.foldl (moving.alongX other)) (foundY.foldl (moving.alongY other))
  have ended := folded [] [] none none nofun nofun
  exact ⟨ended.1.nearest, ended.2.nearest⟩

/-- A dragged monitor lies along the nearest line of another device's monitors, and stays there. -/
theorem snap_snap (threshold : ℤ) (moving : Monitor) (x y : ℤ) (others : List Monitor) :
    Nearest threshold x ((others.filter (·.device ≠ moving.device)).flatMap moving.alongX)
        (snap threshold moving x y others).1 ∧
      Nearest threshold y ((others.filter (·.device ≠ moving.device)).flatMap moving.alongY)
        (snap threshold moving x y others).2 ∧
      ∀ placed, snap threshold moving x y others = placed →
        snap threshold moving placed.1 placed.2 others = placed := by
  refine ⟨(snap_nearest ..).1, (snap_nearest ..).2, ?_⟩
  rintro _ rfl
  have first := snap_nearest threshold moving x y others
  exact Prod.ext (first.1.stays (snap_nearest ..).1) (first.2.stays (snap_nearest ..).2)

end Syntra.Layout
