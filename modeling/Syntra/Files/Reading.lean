import Syntra.Files.Effects

/-!
# What is read of a source

The bytes that a read of the next chunk takes from the file handle, with the position of the handle,
also when the read fails later on. They follow each other from the position of the source.
-/

namespace Syntra.Files

open ByteFormat Proto List

def extent (reads : List (ℕ × Bytes)) : ℕ :=
  (reads.map (·.2.length)).sum

def Contiguous : ℕ → List (ℕ × Bytes) → Prop
  | _, [] => True
  | start, (position, data) :: reads => position = start ∧ Contiguous (start + data.length) reads

theorem Contiguous.pairwise {start : ℕ} {reads : List (ℕ × Bytes)}
    (contiguous : Contiguous start reads) :
    reads.Pairwise (fun earlier later => earlier.1 + earlier.2.length ≤ later.1) ∧
      ∀ read ∈ reads, start ≤ read.1 := by
  induction reads generalizing start with
  | nil => exact ⟨.nil, fun _ member => nomatch member⟩
  | cons _ _ ih =>
    rcases contiguous with ⟨rfl, rest⟩
    rcases ih rest with ⟨apart, after⟩
    refine ⟨pairwise_cons.mpr ⟨after, apart⟩, fun other member => ?_⟩
    rcases mem_cons.mp member with rfl | later
    · exact le_rfl
    · exact (Nat.le_add_right _ _).trans (after other later)

namespace OutgoingFile

variable {io : Io} {file later : OutgoingFile}

/-- The reads of the loop of `next_chunk_bounded`, when it has taken some bytes. -/
def fillReads (io : Io) (file : OutgoingFile) (requested : ℕ) :
    (turns turn : ℕ) → (taken : ℕ) → List (ℕ × Bytes)
  | 0, _, _ => []
  | turns + 1, turn, taken =>
    if requested ≤ taken then
      []
    else
      match file.checkIdentity io (2 * turn + 1), io.read turn with
      | .ok (), .ok read =>
        let read := read.take (requested - taken)
        if read.isEmpty then
          []
        else
          (file.offset.toNat + taken, read) ::
            match file.checkIdentity io (2 * turn + 2) with
            | .ok () => file.fillReads io requested turns (turn + 1) (taken + read.length)
            | .error _ => []
      | _, _ => []

def chunkReads (io : Io) (file : OutgoingFile) (maxLen : ℕ) : List (ℕ × Bytes) :=
  if file.cancelled ∨ file.offset = file.size ∨ maxLen = 0 ∨
      maxLen > max maxClipboardFileChunkSize maxManualFileChunkSize then
    []
  else
    match file.checkIdentity io 0 with
    | .ok () =>
      let requested := min (file.size - file.offset).toNat maxLen
      file.fillReads io requested requested 0 0
    | .error _ => []

theorem fillReads_contiguous (io : Io) (file : OutgoingFile) (requested turns turn taken : ℕ) :
    Contiguous (file.offset.toNat + taken) (file.fillReads io requested turns turn taken) := by
  induction turns generalizing turn taken with
  | zero => trivial
  | succ _ ih =>
    rw [fillReads]
    split
    · trivial
    · split
      · dsimp only
        split
        · trivial
        · refine ⟨rfl, ?_⟩
          split
          · rw [Nat.add_assoc]
            exact ih _ _
          · trivial
      · trivial

theorem chunkReads_contiguous (io : Io) (file : OutgoingFile) (maxLen : ℕ) :
    Contiguous file.offset.toNat (file.chunkReads io maxLen) := by
  unfold chunkReads
  split
  · trivial
  · split
    · exact fillReads_contiguous io file _ _ 0 0
    · trivial

variable {data : Bytes} {maxLen : ℕ} {offset : UInt64}

theorem fillReads_of_filled {requested turns turn : ℕ} {result : Bytes}
    (filled : file.fill io requested turns turn data = .ok result) :
    result = data ++ (file.fillReads io requested turns turn data.length).flatMap (·.2) := by
  induction turns generalizing turn data with
  | zero =>
    simp only [fill, pure_ok] at filled
    simp [fillReads, filled]
  | succ _ ih =>
    rw [fill] at filled
    rw [fillReads]
    split at filled
    · rename_i complete
      have same : data = result := by simpa using filled
      rw [if_pos complete, same]
      exact (append_nil result).symm
    · rename_i short
      simp only [bind_ok, guard_bind_ok, orIo_eq_ok] at filled
      rcases filled with ⟨_, before, _, answered, nonempty, _, after, continued⟩
      rw [if_neg short, before, answered]
      simp only
      rw [if_neg nonempty, after]
      simp only [ih continued, length_append, flatMap_cons, append_assoc]

theorem chunkReads_of_chunk
    (read : file.nextChunkBounded io maxLen = .ok (some (offset, data), later)) :
    data = (file.chunkReads io maxLen).flatMap (·.2) := by
  unfold nextChunkBounded at read
  simp only [guard_bind_ok] at read
  rcases read with ⟨live, read⟩
  split at read
  · simp at read
  · rename_i more
    simp only [guard_bind_ok, bind_ok, okOr_eq_ok, pure_ok,
      Prod.mk.injEq, Option.some.injEq] at read
    rcases read with ⟨allowed, _, same, _, full, _, _, ⟨rfl, rfl⟩, rfl⟩
    have content := fillReads_of_filled full
    unfold chunkReads
    rw [if_neg (by simp only [not_or]; exact ⟨live, more, not_or.mp allowed⟩), same]
    exact content

theorem extent_chunkReads
    (read : file.nextChunkBounded io maxLen = .ok (some (offset, data), later)) :
    extent (file.chunkReads io maxLen) = data.length := by
  rw [chunkReads_of_chunk read, length_flatMap, extent]

end OutgoingFile

end Syntra.Files
