import Syntra.ByteFormat.Chunks
import Mathlib.Data.List.Count

/-!
# Slots for chunks

The chunks of a payload arrive in any order and are kept in slots. Slots that hold nothing but
chunks of the payload, at their positions, give it back when none is empty.
-/

namespace ByteFormat

open List

variable {α : Type*} {size : ℕ} {data chunk : List α} {slots : List (Option (List α))} {index : ℕ}

/-- The slots are those of a payload, and what is in them is part of it. -/
structure Holds (size : ℕ) (data : List α) (slots : List (Option (List α))) : Prop where
  length : slots.length = chunkCount size data
  chunks : ∀ index chunk, slots[index]? = some (some chunk) → chunk = chunkAt size data index

theorem holds_replicate : Holds size data (replicate (chunkCount size data) none) where
  length := length_replicate
  chunks := by
    intro _ _ there
    rw [getElem?_replicate] at there
    split at there <;> cases there

theorem Holds.set (holds : Holds size data slots) (same : chunk = chunkAt size data index) :
    Holds size data (slots.set index (some chunk)) where
  length := by rw [length_set, holds.length]
  chunks := by
    intro other found there
    rw [getElem?_set] at there
    split at there
    · rename_i equal
      split at there
      · simp only [Option.some.injEq] at there
        rw [← there, same, equal]
      · cases there
    · exact holds.chunks other found there

/-- What has been put together is the payload. -/
theorem Holds.flatMap_eq (holds : Holds size data slots) (positive : 0 < size)
    (full : ∀ slot ∈ slots, slot.isSome) : slots.flatMap (·.getD []) = data := by
  have pieces : slots.map (·.getD []) = ByteFormat.chunks size data := by
    apply ext_getElem
    · rw [length_map, holds.length, length_chunks]
    · intro index within _
      rw [length_map] at within
      rcases Option.isSome_iff_exists.mp (full _ (getElem_mem within)) with ⟨chunk, there⟩
      have known := holds.chunks index chunk (by rw [getElem?_eq_getElem within, there])
      simp [ByteFormat.chunks, there, known]
  rw [flatMap_def, pieces]
  exact flatten_chunks positive

theorem getElem?_set_eq_none {other : ℕ} :
    (slots.set index (some chunk))[other]? = some none ↔
      slots[other]? = some none ∧ other ≠ index := by
  rw [getElem?_set]
  split
  · rename_i same
    subst same
    constructor
    · intro empty
      split at empty <;> cases empty
    · rintro ⟨_, different⟩
      exact absurd rfl different
  · rename_i different
    exact ⟨fun empty => ⟨empty, Ne.symm different⟩, And.left⟩

theorem length_chunkAt_eq_min :
    (chunkAt size data index).length = min size (data.length - index * size) := by
  rw [chunkAt, length_take, length_drop]

/-- The chunk at a position is not empty exactly when the position is one of the payload. -/
theorem lt_chunkCount (positive : 0 < size) :
    index < chunkCount size data ↔ index * size < data.length := by
  rw [chunkCount, Nat.lt_iff_add_one_le, Nat.le_div_iff_mul_le positive, Nat.succ_mul]
  omega

end ByteFormat
