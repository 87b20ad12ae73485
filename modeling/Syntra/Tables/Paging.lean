import Mathlib.Data.List.Basic

/-!
# Walks over pages

A listing that is fetched page by page: each page comes with the offset of the next one, if there is
one. A walk follows these offsets to the end, or to the first page that fails.
-/

namespace Tables

variable {ι ε α β : Type}

/-- The pages from an offset on, put together. Every page that names a next one is followed by a
record or by a failure. -/
inductive Walk (page : ι → Except ε (List α × Option ι)) : ι → Except ε (List α) → Prop where
  | failed {offset : ι} {error : ε} (fails : page offset = .error error) :
      Walk page offset (.error error)
  | last {offset : ι} {records : List α} (isLast : page offset = .ok (records, none)) :
      Walk page offset (.ok records)
  | step {offset following : ι} {records : List α} {rest : Except ε (List α)}
      (continues : page offset = .ok (records, some following)) (more : rest ≠ .ok [])
      (walk : Walk page following rest) : Walk page offset (rest.map (records ++ ·))

theorem Walk.map {page : ι → Except ε (List α × Option ι)} {offset : ι}
    {records : Except ε (List α)} (walk : Walk page offset records) (change : α → β) :
    Walk (fun offset => (page offset).map fun found => (found.1.map change, found.2)) offset
      (records.map (List.map change)) := by
  induction walk with
  | failed fails => exact .failed (by rw [fails]; rfl)
  | last isLast => exact .last (by rw [isLast]; rfl)
  | @step offset following records rest continues more walk ih =>
    have continued : (page offset).map (fun found => (found.1.map change, found.2)) =
        .ok (records.map change, some following) := by rw [continues]; rfl
    have same : (rest.map (records ++ ·)).map (List.map change) =
        (rest.map (List.map change)).map (records.map change ++ ·) := by
      cases rest with
      | error => rfl
      | ok => simp [Except.map]
    rw [same]
    refine .step continued ?_ ih
    cases rest with
    | error => simp [Except.map]
    | ok rest =>
      have some : rest ≠ [] := fun none => more (congrArg Except.ok none)
      simpa [Except.map] using some

end Tables
