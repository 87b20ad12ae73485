import Mathlib.Data.List.Basic
import Mathlib.Tactic.Ring
import Mathlib.Tactic.Linarith

/-!
# Cutting data into chunks

A payload that does not fit into one datagram is cut into chunks of a fixed size, the last of which
may be shorter. The chunks put together again are the payload, and the size of a chunk is known from
its position.
-/

namespace ByteFormat

open List

variable {α : Type*} (size : ℕ) (data : List α)

def chunkCount : ℕ := (data.length + size - 1) / size

def chunkAt (index : ℕ) : List α := (data.drop (index * size)).take size

def chunks : List (List α) := (List.range (chunkCount size data)).map (chunkAt size data)

@[simp]
theorem length_chunks : (chunks size data).length = chunkCount size data := by
  simp [chunks]

theorem mem_zipIdx_chunks {entry : List α × ℕ} :
    entry ∈ (chunks size data).zipIdx ↔
      entry.2 < chunkCount size data ∧ entry.1 = chunkAt size data entry.2 := by
  rw [mem_zipIdx_iff_getElem?, getElem?_eq_some_iff]
  constructor
  · rintro ⟨within, same⟩
    exact ⟨length_chunks size data ▸ within, by simpa [chunks] using same.symm⟩
  · rintro ⟨within, same⟩
    exact ⟨(length_chunks size data).symm ▸ within, by simpa [chunks] using same.symm⟩

theorem flatten_chunkAt (count : ℕ) :
    ((range count).map (chunkAt size data)).flatten = data.take (count * size) := by
  induction count with
  | zero => simp
  | succ _ ih =>
    rw [range_succ, map_append, flatten_append, ih, Nat.succ_mul, take_add]
    simp [chunkAt]

variable {size data}

theorem length_le_chunkCount (positive : 0 < size) : data.length ≤ chunkCount size data * size := by
  have rest := Nat.div_add_mod (data.length + size - 1) size
  have small := Nat.mod_lt (data.length + size - 1) positive
  rw [chunkCount, mul_comm]
  omega

theorem chunkCount_mul_lt (nonempty : data ≠ []) (positive : 0 < size) :
    (chunkCount size data - 1) * size < data.length := by
  have long := length_pos_iff.mpr nonempty
  have below := Nat.div_mul_le_self (data.length + size - 1) size
  rw [chunkCount, Nat.sub_mul]
  omega

theorem flatten_chunks (positive : 0 < size) : (chunks size data).flatten = data := by
  rw [chunks, flatten_chunkAt]
  exact take_of_length_le (length_le_chunkCount positive)

/-- All chunks are full, apart from the last one, which holds the rest. -/
theorem length_chunkAt (nonempty : data ≠ []) (positive : 0 < size) {index : ℕ}
    (within : index < chunkCount size data) :
    (chunkAt size data index).length =
      if index + 1 = chunkCount size data then data.length - size * (chunkCount size data - 1)
      else size := by
  have last := chunkCount_mul_lt nonempty positive
  rw [chunkAt, length_take, length_drop]
  split
  · rename_i final
    have position : index = chunkCount size data - 1 := by omega
    have bound : data.length ≤ chunkCount size data * size := length_le_chunkCount positive
    rw [← final, Nat.succ_mul] at bound
    rw [← position, mul_comm size]
    omega
  · rename_i inner
    have later : (index + 1) * size ≤ (chunkCount size data - 1) * size :=
      Nat.mul_le_mul_right size (by omega)
    rw [Nat.succ_mul] at later
    omega

end ByteFormat
